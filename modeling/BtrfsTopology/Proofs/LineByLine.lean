import BtrfsTopology.Proofs.FilesystemListing
import BtrfsTopology.Proofs.MountListing

/-!
# Listings are read line by line

A listing can be put together of two, where the first one ends with a line. Then what is found in
it is what is found in the two, and an error in the first one is the error of the whole, whatever
follows. For the listing of filesystems the second part must not begin with device lines: these
would belong to the last filesystem of the first part.

So a listing that can be read is accounted for line by line, and one that cannot is given up at the
first line with which its beginning cannot be read any more. That line is in the error.

## Main definitions

* `Listing.IsWholeLines` — a text that is empty or ends with a line break
* `Listing.MountsOf`, `Listing.RecordsOf` — what lines are read as when all of them can be read
* `Listing.StopsAt` — the line at which a reader gives a listing up
* `Listing.LineByLine` — what it is to read listings line by line

## Main results

* `Listing.lines_append` — the lines of a text are those of its two parts
* `Listing.stopsAt_iff` — an error is that of the first line that cannot be read
* `Listing.readers_lineByLine` — mounts and filesystems are read line by line
-/

namespace BtrfsTopology.Listing

open Text

/-! ## Whole lines -/

/-- The text is empty or ends with a line break. -/
def IsWholeLines (text : List Char) : Prop :=
  ∀ c ∈ text.getLast?, c = '\n'

instance (text : List Char) : Decidable (IsWholeLines text) :=
  decidable_of_iff (text.getLast?.all (· == '\n') = true)
    (by simp [IsWholeLines, Option.all_eq_true])

variable {text front behind : List Char} {line : List Char} {before after : List (List Char)}

theorem isWholeLines_nil : IsWholeLines [] := by
  intro c hc
  contradiction

theorem isWholeLines_concat (text : List Char) : IsWholeLines (text ++ ['\n']) := by
  simp [IsWholeLines]

theorem IsWholeLines.append (hfront : IsWholeLines front) (hbehind : IsWholeLines behind) :
    IsWholeLines (front ++ behind) := by
  cases behind with
  | nil => simpa using hfront
  | cons c behind => simpa [IsWholeLines, List.getLast?_append_cons] using hbehind

/-- Parts in front of others are terminated. -/
theorem linesOfParts_append {parts behind : List (List Char)} (hne : behind ≠ []) :
    linesOfParts (parts ++ behind) = parts.map dropReturn ++ linesOfParts behind := by
  induction parts with
  | nil => rfl
  | cons part parts ih =>
    obtain ⟨next, rest, hrest⟩ :=
      List.exists_cons_of_ne_nil (List.append_ne_nil_of_right_ne_nil parts hne)
    rw [List.cons_append, hrest, linesOfParts, ← hrest, ih]
    · rfl
    · simp

/-- A line break divides the lines in front of it from those behind it. -/
theorem lines_append_cons (front behind : List Char) :
    lines (front ++ '\n' :: behind) = (front.splitOn '\n').map dropReturn ++ lines behind := by
  rw [lines, List.splitOn_append_cons_self]
  exact linesOfParts_append (List.splitOn_ne_nil '\n' behind)

/-- The lines of a text are those of its two parts. -/
theorem lines_append (h : IsWholeLines front) (behind : List Char) :
    lines (front ++ behind) = lines front ++ lines behind := by
  rcases List.eq_nil_or_concat front with rfl | ⟨init, c, rfl⟩
  · rfl
  · obtain rfl : c = '\n' := by simpa [IsWholeLines] using h
    have hfront := lines_append_cons init []
    rw [List.concat_eq_append, List.append_assoc, hfront, List.singleton_append, lines_append_cons]
    simp [lines, linesOfParts]

/-- Lines that others follow come from the beginning of the text, up to a line break. -/
theorem exists_of_lines_eq_append (h : lines text = before ++ after) (hne : after ≠ []) :
    ∃ front behind, text = front ++ behind ∧ IsWholeLines front ∧ lines front = before ∧
      lines behind = after := by
  induction before generalizing text with
  | nil => exact ⟨[], text, rfl, isWholeLines_nil, rfl, h⟩
  | cons line before ih =>
    by_cases hmem : '\n' ∈ text
    · -- The first line is what is in front of the first line break.
      obtain ⟨first, rest, rfl, hfirst⟩ := List.eq_append_cons_of_mem hmem
      have hself : first.splitOn '\n' = [first] := List.splitOn_eq_singleton hfirst
      rw [lines_append_cons, hself] at h
      obtain ⟨rfl, hrest⟩ := List.cons.inj h
      obtain ⟨front, behind, rfl, hwhole, hfront, hbehind⟩ := ih hrest
      refine ⟨first ++ '\n' :: front, behind, by simp, ?_, ?_, hbehind⟩
      · simpa using (isWholeLines_concat first).append hwhole
      · rw [lines_append_cons, hself, hfront]
        rfl
    · -- Without a line break there is one line at most.
      rw [lines, List.splitOn_eq_singleton hmem, linesOfParts] at h
      split at h
      · contradiction
      · have hrest : [] = before ++ after := (List.cons.inj h).2
        exact absurd (List.append_eq_nil_iff.1 hrest.symm).2 hne

/-- Any line of a text is a part of it, and the last one needs no line break. -/
theorem exists_of_lines_eq_append_cons (h : lines text = before ++ line :: after) :
    ∃ front here behind, text = front ++ here ++ behind ∧ IsWholeLines front ∧
      lines front = before ∧ lines here = [line] ∧ (IsWholeLines here ∨ behind = []) := by
  obtain ⟨front, rest, rfl, hwhole, hfront, hrest⟩ :=
    exists_of_lines_eq_append h (List.cons_ne_nil line after)
  cases after with
  | nil => exact ⟨front, rest, [], by simp, hwhole, hfront, hrest, .inr rfl⟩
  | cons next after =>
    have hsplit : lines rest = [line] ++ next :: after := hrest
    obtain ⟨here, behind, rfl, hhere, hline, -⟩ :=
      exists_of_lines_eq_append hsplit (List.cons_ne_nil next after)
    exact ⟨front, here, behind, by simp, hwhole, hfront, hline, .inl hhere⟩

/-! ## Errors -/

/-- A reader gives a text up at a line: what is in front of the line can be read, and so can every
shorter beginning of whole lines; together with the line it cannot. -/
inductive StopsAt {α : Type} (read : String → Except TopologyError α) (text : String)
    (line : List Char) (e : TopologyError) : Prop where
  | mk {front here behind : String} (htext : text = front ++ here ++ behind)
      (hfront : IsWholeLines front.toList) (hline : lines here.toList = [line])
      (hbehind : IsWholeLines here.toList ∨ behind = "")
      (hreadable : ∀ shorter rest, front = shorter ++ rest → IsWholeLines shorter.toList →
        ∃ found, read shorter = .ok found)
      (herror : read (front ++ here) = .error e) : StopsAt read text line e

/-- Where a reader goes by the lines of a text, it can read the lines in front of the one at which
it gives up. -/
theorem StopsAt.exists_lines {α : Type} (readLines : List (List Char) → Except TopologyError α)
    {text : String} {e : TopologyError}
    (h : StopsAt (fun text => readLines (lines text.toList)) text line e) :
    ∃ before found, readLines before = .ok found ∧ readLines (before ++ [line]) = .error e := by
  obtain @⟨front, here, -, -, hfront, hline, -, hreadable, herror⟩ := h
  obtain ⟨found, hfound⟩ := hreadable front "" (by simp) hfront
  refine ⟨lines front.toList, found, hfound, ?_⟩
  rw [← hline, ← lines_append hfront, ← String.toList_append]
  exact herror

theorem exists_toList_eq (s : List Char) : ∃ text : String, text.toList = s :=
  ⟨String.ofList s, String.toList_ofList⟩

section Reader

variable {α : Type} (readLines : List (List Char) → Except TopologyError α)
  (happend : ∀ {before e} after, readLines before = .error e →
    readLines (before ++ after) = .error e)
include happend

/-- What lines in front of others are read as, if those can be read together with the others. -/
theorem exists_of_readLines_append {found : α} (h : readLines (before ++ after) = .ok found) :
    ∃ found, readLines before = .ok found := by
  cases hbefore : readLines before with
  | ok found => exact ⟨found, rfl⟩
  | error e =>
    rw [happend after hbefore] at h
    contradiction

variable (hnil : ∃ found, readLines [] = .ok found)
include hnil

/-- Lines in error have a beginning that can be read, but not with one line more. -/
theorem exists_of_readLines_error {lines : List (List Char)} {e : TopologyError}
    (h : readLines lines = .error e) :
    ∃ before line after found, lines = before ++ line :: after ∧
      readLines before = .ok found ∧ readLines (before ++ [line]) = .error e := by
  -- From the back: the last line matters only if those in front of it can be read.
  induction lines using List.reverseRecOn with
  | nil =>
    obtain ⟨found, hfound⟩ := hnil
    rw [hfound] at h
    contradiction
  | append_singleton lines last ih =>
    cases hlines : readLines lines with
    | ok found => exact ⟨lines, last, [], found, rfl, hlines, h⟩
    | error e' =>
      obtain rfl : e' = e := Except.error.inj ((happend [last] hlines).symm.trans h)
      obtain ⟨before, line, after, found, rfl, hfound, herror⟩ := ih hlines
      exact ⟨before, line, after ++ [last], found, by simp, hfound, herror⟩

/-- A text is in error just if it is given up at one of its lines. -/
theorem stopsAt_iff {text : String} {e : TopologyError} :
    readLines (lines text.toList) = .error e ↔
      ∃ line, StopsAt (fun text => readLines (lines text.toList)) text line e := by
  constructor
  · intro h
    obtain ⟨before, line, after, found, hlines, hfound, herror⟩ :=
      exists_of_readLines_error readLines happend hnil h
    obtain ⟨front, here, behind, htext, hwhole, hfront, hline, hbehind⟩ :=
      exists_of_lines_eq_append_cons hlines
    obtain ⟨front, rfl⟩ := exists_toList_eq front
    obtain ⟨here, rfl⟩ := exists_toList_eq here
    obtain ⟨behind, rfl⟩ := exists_toList_eq behind
    have htext : text = front ++ here ++ behind := by simpa [← String.toList_inj] using htext
    have hbehind : IsWholeLines here.toList ∨ behind = "" :=
      hbehind.imp_right String.toList_eq_nil_iff.1
    refine ⟨line, .mk htext hwhole hline hbehind ?_ ?_⟩
    · rintro shorter rest rfl hshorter
      rw [String.toList_append, lines_append hshorter] at hfront
      exact exists_of_readLines_append readLines happend (hfront ▸ hfound)
    · rw [String.toList_append, lines_append hwhole, hfront, hline]
      exact herror
  · rintro ⟨line, @⟨front, here, behind, rfl, hfront, hline, hbehind, -, herror⟩⟩
    rcases hbehind with hhere | rfl
    · have hwhole := hfront.append hhere
      rw [String.toList_append, lines_append (by simpa using hwhole)]
      exact happend _ herror
    · simpa using herror

end Reader

/-- An error with the line that it is about. -/
inductive CarriesLine (line : String) : TopologyError → Prop where
  | parse (fault : LineFault) : CarriesLine line (.parse line fault)
  | malformedMount (fault : MountFault) : CarriesLine line (.malformedMount line fault)

/-! ## Mounts -/

/-- The mounts of lines that can all be read. Every line that is not blank is a mount or is of
another filesystem type. -/
def MountsOf (lines : List (List Char)) (mounts : List Mountpoint) : Prop :=
  ∃ found : List (Option Mountpoint),
    List.Forall₂ (fun line mount => readMount line = .ok mount)
      (lines.filter fun line => !isBlankText line) found ∧ mounts = found.reduceOption

theorem mountsOf_nil_iff {mounts : List Mountpoint} : MountsOf [] mounts ↔ mounts = [] := by
  constructor
  · rintro ⟨found, hfound, rfl⟩
    cases hfound
    rfl
  · rintro rfl
    exact ⟨[], .nil, rfl⟩

theorem mountsOf_blank_iff {mounts : List Mountpoint} (h : isBlankText line = true)
    (lines : List (List Char)) : MountsOf (line :: lines) mounts ↔ MountsOf lines mounts := by
  rw [MountsOf, MountsOf, List.filter_cons_of_neg (by simp [h])]

theorem mountsOf_cons_iff {mounts : List Mountpoint} (h : isBlankText line = false)
    (lines : List (List Char)) :
    MountsOf (line :: lines) mounts ↔ ∃ mount rest, readMount line = .ok mount ∧
      MountsOf lines rest ∧ mounts = mount.toList ++ rest := by
  rw [MountsOf, List.filter_cons_of_pos (by simp [h])]
  constructor
  · rintro ⟨found, hfound, rfl⟩
    cases hfound with
    | @cons _ mount _ found hline hrest =>
      refine ⟨mount, found.reduceOption, hline, ⟨found, hrest, rfl⟩, ?_⟩
      cases mount <;> rfl
  · rintro ⟨mount, rest, hline, ⟨found, hrest, rfl⟩, rfl⟩
    refine ⟨mount :: found, .cons hline hrest, ?_⟩
    cases mount <;> rfl

/-- Lines can be read just if each of them can be. -/
theorem readMountLines_eq_ok_iff {lines : List (List Char)} {mounts : List Mountpoint} :
    readMountLines lines = .ok mounts ↔ MountsOf lines mounts := by
  induction lines generalizing mounts with
  | nil => simp [readMountLines, mountsOf_nil_iff, eq_comm]
  | cons line lines ih =>
    cases hblank : isBlankText line with
    | true => rw [readMountLines, if_pos hblank, ih, mountsOf_blank_iff hblank]
    | false =>
      rw [readMountLines, if_neg (by simp [hblank]), mountsOf_cons_iff hblank]
      cases readMount line with
      | error e => simp
      | ok mount =>
        simp only [Except.ok.injEq, ← ih]
        cases readMountLines lines <;> simp [Except.map, eq_comm]

theorem readMountLines_error_append {before : List (List Char)} {e : TopologyError}
    (after : List (List Char)) (h : readMountLines before = .error e) :
    readMountLines (before ++ after) = .error e := by
  rw [readMountLines_append, h]
  rfl

/-- A mount line that cannot be read is in the error. -/
theorem carriesLine_of_readMount {line : List Char} {e : TopologyError}
    (h : readMount line = .error e) : CarriesLine (String.ofList line) e := by
  rw [readMount] at h
  split at h
  · next fault _ =>
    obtain rfl := Except.error.inj h
    exact .parse fault
  · split at h
    · split at h
      · next fault _ =>
        obtain rfl := Except.error.inj h
        exact .malformedMount fault
      · contradiction
    · contradiction

theorem carriesLine_of_readMountLines {line : List Char} {found : List Mountpoint}
    {e : TopologyError} (hfound : readMountLines before = .ok found)
    (h : readMountLines (before ++ [line]) = .error e) : CarriesLine (String.ofList line) e := by
  rw [readMountLines_append, hfound] at h
  cases hline : readMountLines [line] with
  | ok mounts =>
    rw [hline] at h
    contradiction
  | error e' =>
    rw [hline] at h
    obtain rfl : e' = e := Except.error.inj h
    rw [readMountLines] at hline
    split at hline
    · contradiction
    · split at hline
      · next e'' hread =>
        obtain rfl := Except.error.inj hline
        exact carriesLine_of_readMount hread
      · contradiction

/-! ## Filesystems -/

/-- A line that begins a record or belongs to one. -/
def isRecordLine (line : List Char) : Bool :=
  headingMark.isPrefixOf line || deviceMark.isPrefixOf line

/-- The lines of records, without outer blanks. -/
def recordLines (lines : List (List Char)) : List (List Char) :=
  (lines.map trim).filter isRecordLine

/-- What record lines are read as when all of them can be, from the back: the devices in front of
the first heading, and the filesystems from there on. Below a heading stand the devices of the
filesystem that it introduces. -/
inductive RecordsOf : List (List Char) → List VfsPath → List ListedFilesystem → Prop where
  | nil : RecordsOf [] [] []
  | device {line : List Char} {lines : List (List Char)} {device : VfsPath}
      {devices : List VfsPath} {filesystems : List ListedFilesystem}
      (hmark : deviceMark <+: line) (hdevice : readDevice line = .ok device)
      (hrest : RecordsOf lines devices filesystems) :
      RecordsOf (line :: lines) (device :: devices) filesystems
  | heading {line : List Char} {lines : List (List Char)} {fs : ListedFilesystem}
      {devices : List VfsPath} {filesystems : List ListedFilesystem}
      (hmark : headingMark <+: line) (hheading : readHeading line = .ok fs)
      (hrest : RecordsOf lines devices filesystems) :
      RecordsOf (line :: lines) [] ({ fs with devices := devices } :: filesystems)

/-- The first line that begins a record or belongs to one begins one, if there is any. -/
def BeginsRecord (lines : List (List Char)) : Prop :=
  ∀ line ∈ (recordLines lines).head?, headingMark <+: line

section Records

variable {lines : List (List Char)} {read earlier result : List ListedFilesystem}
  {devices : List VfsPath} {filesystems : List ListedFilesystem}

/-- A line is a heading, a device line or of no interest, and not two of these. -/
theorem record_cases (line : List Char) :
    headingMark <+: line ∧ ¬deviceMark <+: line ∨ ¬headingMark <+: line ∧ deviceMark <+: line ∨
      ¬headingMark <+: line ∧ ¬deviceMark <+: line := by
  by_cases hheading : headingMark <+: line
  · refine .inl ⟨hheading, fun hdevice => ?_⟩
    obtain ⟨rest, rfl⟩ := hheading
    exact absurd (List.cons_prefix_cons.1 hdevice).1 (by decide)
  · by_cases hdevice : deviceMark <+: line
    · exact .inr (.inl ⟨hheading, hdevice⟩)
    · exact .inr (.inr ⟨hheading, hdevice⟩)

theorem recordLines_cons_of_mark (h : headingMark <+: trim line ∨ deviceMark <+: trim line) :
    recordLines (line :: lines) = trim line :: recordLines lines := by
  rw [recordLines, List.map_cons, List.filter_cons_of_pos]
  · rfl
  · simpa [isRecordLine, List.isPrefixOf_iff_prefix] using h

theorem recordLines_cons_of_not (hheading : ¬headingMark <+: trim line)
    (hdevice : ¬deviceMark <+: trim line) : recordLines (line :: lines) = recordLines lines := by
  rw [recordLines, List.map_cons, List.filter_cons_of_neg]
  · rfl
  · simp [isRecordLine, List.isPrefixOf_iff_prefix, hheading, hdevice]

/-! ### Lines of each kind, taken to the filesystems read so far -/

theorem takeFilesystemLine_of_headingMark (h : headingMark <+: line) :
    takeFilesystemLine read line = (readHeading line).map fun heading => heading :: read := by
  rw [takeFilesystemLine.eq_def, if_pos (List.isPrefixOf_iff_prefix.2 h)]

theorem takeFilesystemLine_of_deviceMark (hheading : ¬headingMark <+: line)
    (hdevice : deviceMark <+: line) (latest : ListedFilesystem)
    (earlier : List ListedFilesystem) :
    takeFilesystemLine (latest :: earlier) line = (readDevice line).map fun device =>
      { latest with devices := latest.devices ++ [device] } :: earlier := by
  rw [takeFilesystemLine, if_neg (by rwa [List.isPrefixOf_iff_prefix]),
    if_pos (List.isPrefixOf_iff_prefix.2 hdevice)]

theorem takeFilesystemLine_outside (hheading : ¬headingMark <+: line)
    (hdevice : deviceMark <+: line) :
    takeFilesystemLine [] line = .error .deviceOutsideFilesystem := by
  rw [takeFilesystemLine.eq_def, if_neg (by rwa [List.isPrefixOf_iff_prefix]),
    if_pos (List.isPrefixOf_iff_prefix.2 hdevice)]

theorem takeFilesystemLine_of_not (hheading : ¬headingMark <+: line)
    (hdevice : ¬deviceMark <+: line) : takeFilesystemLine read line = .ok read := by
  rw [takeFilesystemLine.eq_def, if_neg (by rwa [List.isPrefixOf_iff_prefix]),
    if_neg (by rwa [List.isPrefixOf_iff_prefix])]

/-! ### All record lines -/

/-- The latest filesystem with further devices behind its own. -/
def appendDevices (devices : List VfsPath) : List ListedFilesystem → List ListedFilesystem
  | [] => []
  | latest :: earlier => { latest with devices := latest.devices ++ devices } :: earlier

@[simp] theorem appendDevices_nil (read : List ListedFilesystem) :
    appendDevices [] read = read := by
  cases read <;> simp [appendDevices]

theorem appendDevices_cons (devices : List VfsPath) (latest : ListedFilesystem)
    (earlier : List ListedFilesystem) : appendDevices devices (latest :: earlier) =
      { latest with devices := latest.devices ++ devices } :: earlier :=
  rfl

/-- A heading says nothing of devices. -/
theorem devices_of_readHeading {fs : ListedFilesystem} (h : readHeading line = .ok fs) :
    fs.devices = [] := by
  rw [readHeading] at h
  split at h
  · contradiction
  · split at h
    · contradiction
    · obtain rfl := Except.ok.inj h
      rfl

theorem recordsOf_nil_iff : RecordsOf [] devices filesystems ↔ devices = [] ∧ filesystems = [] := by
  constructor
  · rintro ⟨⟩
    exact ⟨rfl, rfl⟩
  · rintro ⟨rfl, rfl⟩
    exact .nil

theorem recordsOf_heading_iff (hheading : headingMark <+: line) (hdevice : ¬deviceMark <+: line) :
    RecordsOf (line :: lines) devices filesystems ↔ devices = [] ∧ ∃ fs below rest,
      readHeading line = .ok fs ∧ RecordsOf lines below rest ∧
        filesystems = { fs with devices := below } :: rest := by
  constructor
  · intro h
    cases h with
    | device hmark => contradiction
    | heading _ hread hrest => exact ⟨rfl, _, _, _, hread, hrest, rfl⟩
  · rintro ⟨rfl, fs, below, rest, hread, hrest, rfl⟩
    exact .heading hheading hread hrest

theorem recordsOf_device_iff (hheading : ¬headingMark <+: line) (hdevice : deviceMark <+: line) :
    RecordsOf (line :: lines) devices filesystems ↔ ∃ device rest, readDevice line = .ok device ∧
      RecordsOf lines rest filesystems ∧ devices = device :: rest := by
  constructor
  · intro h
    cases h with
    | device _ hread hrest => exact ⟨_, _, hread, hrest, rfl⟩
    | heading hmark => contradiction
  · rintro ⟨device, rest, hread, hrest, rfl⟩
    exact .device hdevice hread hrest

/-- Lines can be read behind others just if each record line can be, and a device line stands below
some heading. -/
theorem readFilesystemLines_eq_ok_iff :
    readFilesystemLines read lines = .ok result ↔ ∃ devices filesystems,
      RecordsOf (recordLines lines) devices filesystems ∧ (read = [] → devices = []) ∧
        result = filesystems.reverse ++ appendDevices devices read := by
  induction lines generalizing read with
  | nil =>
    simp only [readFilesystemLines, recordLines, List.map_nil, List.filter_nil, recordsOf_nil_iff,
      Except.ok.injEq]
    constructor
    · rintro rfl
      exact ⟨[], [], ⟨rfl, rfl⟩, fun _ => rfl, by simp⟩
    · rintro ⟨_, _, ⟨rfl, rfl⟩, -, rfl⟩
      simp
  | cons line lines ih =>
    rw [readFilesystemLines]
    -- A heading, a device line, and a line of no interest.
    rcases record_cases (trim line) with ⟨hheading, hdevice⟩ | ⟨hheading, hdevice⟩ |
      ⟨hheading, hdevice⟩
    · simp only [takeFilesystemLine_of_headingMark hheading,
        recordLines_cons_of_mark (.inl hheading), recordsOf_heading_iff hheading hdevice]
      cases hread : readHeading (trim line) with
      | error fault => simp [Except.map]
      | ok fs =>
        -- The filesystem has no devices yet, so those below the heading are all of them.
        simp only [Except.map, ih, appendDevices_cons, devices_of_readHeading hread,
          List.nil_append]
        constructor
        · rintro ⟨below, rest, hrest, -, rfl⟩
          exact ⟨[], _, ⟨rfl, fs, below, rest, rfl, hrest, rfl⟩, fun _ => rfl, by simp⟩
        · rintro ⟨_, _, ⟨rfl, fs', below, rest, hfs, hrest, rfl⟩, -, rfl⟩
          obtain rfl := Except.ok.inj hfs
          exact ⟨below, rest, hrest, fun h => absurd h (List.cons_ne_nil _ _), by simp⟩
    · simp only [recordLines_cons_of_mark (.inr hdevice), recordsOf_device_iff hheading hdevice]
      cases read with
      | nil =>
        -- There is no filesystem that the device could be one of.
        simp [takeFilesystemLine_outside hheading hdevice]
      | cons latest earlier =>
        simp only [takeFilesystemLine_of_deviceMark hheading hdevice]
        cases hread : readDevice (trim line) with
        | error fault => simp [Except.map]
        | ok device =>
          simp only [Except.map, ih, appendDevices_cons]
          constructor
          · rintro ⟨below, rest, hrest, -, rfl⟩
            exact ⟨_, rest, ⟨device, below, rfl, hrest, rfl⟩, by simp, by simp⟩
          · rintro ⟨_, rest, ⟨device', below, hdevice', hrest, rfl⟩, -, rfl⟩
            obtain rfl := Except.ok.inj hdevice'
            exact ⟨below, rest, hrest, by simp, by simp⟩
    · simp only [takeFilesystemLine_of_not hheading hdevice,
        recordLines_cons_of_not hheading hdevice, ih]

/-! ### Lines behind others -/

/-- The lines in front are read first, and then those behind. -/
theorem readFilesystemLines_append (read : List ListedFilesystem)
    (before after : List (List Char)) :
    readFilesystemLines read (before ++ after) =
      (readFilesystemLines read before).bind fun read => readFilesystemLines read after := by
  induction before generalizing read with
  | nil => rfl
  | cons line before ih =>
    rw [List.cons_append, readFilesystemLines, readFilesystemLines]
    cases takeFilesystemLine read (trim line) with
    | ok read' => exact ih read'
    | error fault => rfl

/-- Filesystems before the latest one do not matter. -/
theorem takeFilesystemLine_append (h : read = [] → ¬deviceMark <+: line)
    (earlier : List ListedFilesystem) :
    takeFilesystemLine (read ++ earlier) line =
      (takeFilesystemLine read line).map (· ++ earlier) := by
  rcases record_cases line with ⟨hheading, hdevice⟩ | ⟨hheading, hdevice⟩ | ⟨hheading, hdevice⟩
  · simp only [takeFilesystemLine_of_headingMark hheading]
    cases readHeading line <;> rfl
  · cases read with
    | nil => exact absurd hdevice (h rfl)
    | cons latest read =>
      simp only [List.cons_append, takeFilesystemLine_of_deviceMark hheading hdevice]
      cases readDevice line <;> rfl
  · simp only [takeFilesystemLine_of_not hheading hdevice]
    rfl

theorem not_deviceMark_of_beginsRecord (h : BeginsRecord (line :: lines)) :
    ¬deviceMark <+: trim line := by
  intro hdevice
  rcases record_cases (trim line) with ⟨-, hnot⟩ | ⟨hnot, -⟩ | ⟨-, hnot⟩
  · contradiction
  · rw [BeginsRecord, recordLines_cons_of_mark (.inr hdevice)] at h
    exact hnot (h _ rfl)
  · contradiction

/-- As long as no filesystem has been read, lines that begin a record are still to come. -/
theorem beginsRecord_of_takeFilesystemLine {read' : List ListedFilesystem}
    (h : read = [] → BeginsRecord (line :: lines))
    (htake : takeFilesystemLine read (trim line) = .ok read') :
    read' = [] → BeginsRecord lines := by
  rintro rfl
  rcases record_cases (trim line) with ⟨hheading, hdevice⟩ | ⟨hheading, hdevice⟩ |
    ⟨hheading, hdevice⟩
  · rw [takeFilesystemLine_of_headingMark hheading] at htake
    cases hread : readHeading (trim line) <;> simp [hread, Except.map] at htake
  · cases read with
    | nil => exact absurd hdevice (not_deviceMark_of_beginsRecord (h rfl))
    | cons latest earlier =>
      rw [takeFilesystemLine_of_deviceMark hheading hdevice] at htake
      cases hread : readDevice (trim line) <;> simp [hread, Except.map] at htake
  · rw [takeFilesystemLine_of_not hheading hdevice] at htake
    have hbegins := h (Except.ok.inj htake)
    rwa [BeginsRecord, recordLines_cons_of_not hheading hdevice] at hbegins

/-- Filesystems that were read before lines that begin a record do not matter for them. -/
theorem readFilesystemLines_of_beginsRecord (h : read = [] → BeginsRecord lines)
    (earlier : List ListedFilesystem) :
    readFilesystemLines (read ++ earlier) lines =
      (readFilesystemLines read lines).map (· ++ earlier) := by
  induction lines generalizing read with
  | nil => rfl
  | cons line lines ih =>
    have hline : read = [] → ¬deviceMark <+: trim line := fun hread =>
      not_deviceMark_of_beginsRecord (h hread)
    rw [readFilesystemLines, readFilesystemLines, takeFilesystemLine_append hline]
    cases htake : takeFilesystemLine read (trim line) with
    | ok read' => exact ih (beginsRecord_of_takeFilesystemLine h htake)
    | error fault => rfl

/-- The trimmed line is in the error. -/
theorem carriesLine_of_readFilesystemLines {line : List Char} {e : TopologyError}
    (hread : readFilesystemLines [] before = .ok read)
    (h : readFilesystemLines [] (before ++ [line]) = .error e) :
    CarriesLine (String.ofList (trim line)) e := by
  rw [readFilesystemLines_append, hread] at h
  change readFilesystemLines read [line] = .error e at h
  rw [readFilesystemLines] at h
  split at h
  · contradiction
  · next fault _ =>
    obtain rfl := Except.error.inj h
    exact .parse fault

end Records

/-! ## Readers -/

/-- What it is to read listings line by line. What may follow a listing, what its lines are read as
and how a line is shown in an error differ between readers. -/
structure LineByLine {α : Type} (read : String → Except TopologyError (List α))
    (MayFollow : List (List Char) → Prop) (IsReadAs : List (List Char) → List α → Prop)
    (shown : List Char → List Char) : Prop where
  /-- An error stays the error whatever follows. -/
  error_append : ∀ {front behind : String} {e : TopologyError}, IsWholeLines front.toList →
    read front = .error e → read (front ++ behind) = .error e
  /-- What is found in front comes before what is found behind, where an error is one of the
  whole. -/
  ok_append : ∀ {front behind : String} {found : List α}, IsWholeLines front.toList →
    MayFollow (lines behind.toList) → read front = .ok found →
    read (front ++ behind) = (read behind).map (found ++ ·)
  /-- A listing that can be read is accounted for. -/
  ok_iff : ∀ {text : String} {found : List α},
    read text = .ok found ↔ IsReadAs (lines text.toList) found
  /-- A listing that cannot be read is given up at a line. -/
  error_iff : ∀ {text : String} {e : TopologyError},
    read text = .error e ↔ ∃ line, StopsAt read text line e
  /-- The error is about that line. -/
  carriesLine : ∀ {text : String} {line : List Char} {e : TopologyError},
    StopsAt read text line e → CarriesLine (String.ofList (shown line)) e

theorem readMounts_lineByLine : LineByLine readMounts (fun _ => True) MountsOf id where
  error_append {front behind e} hfront h := by
    rw [readMounts, String.toList_append, lines_append hfront]
    exact readMountLines_error_append _ h
  ok_append {front behind found} hfront _ h := by
    have hfound : readMountLines (lines front.toList) = .ok found := h
    rw [readMounts, String.toList_append, lines_append hfront, readMountLines_append, hfound]
    rfl
  ok_iff := readMountLines_eq_ok_iff
  error_iff := stopsAt_iff readMountLines readMountLines_error_append ⟨[], rfl⟩
  carriesLine h := by
    obtain ⟨before, found, hfound, herror⟩ := StopsAt.exists_lines readMountLines h
    exact carriesLine_of_readMountLines hfound herror

/-- The filesystems of lines, in order. -/
def readRecords (lines : List (List Char)) : Except TopologyError (List ListedFilesystem) :=
  (readFilesystemLines [] lines).map List.reverse

theorem readRecords_eq_error_iff {lines : List (List Char)} {e : TopologyError} :
    readRecords lines = .error e ↔ readFilesystemLines [] lines = .error e := by
  rw [readRecords]
  cases readFilesystemLines [] lines <;> simp [Except.map]

theorem readRecords_eq_ok_iff {lines : List (List Char)} {found : List ListedFilesystem} :
    readRecords lines = .ok found ↔ readFilesystemLines [] lines = .ok found.reverse := by
  rw [readRecords]
  cases readFilesystemLines [] lines <;> simp [Except.map, List.reverse_eq_iff]

theorem readRecords_error_append {before : List (List Char)} {e : TopologyError}
    (after : List (List Char)) (h : readRecords before = .error e) :
    readRecords (before ++ after) = .error e := by
  rw [readRecords_eq_error_iff] at h ⊢
  rw [readFilesystemLines_append, h]
  rfl

theorem readFilesystems_lineByLine : LineByLine readFilesystems BeginsRecord
    (fun lines => RecordsOf (recordLines lines) []) trim where
  error_append {front behind e} hfront h := by
    rw [readFilesystems, String.toList_append, lines_append hfront]
    exact readRecords_error_append _ h
  ok_append {front behind found} hfront hbegins h := by
    have hfound := readRecords_eq_ok_iff.1 h
    have hbehind : readFilesystemLines found.reverse (lines behind.toList) =
        (readFilesystemLines [] (lines behind.toList)).map (· ++ found.reverse) :=
      @readFilesystemLines_of_beginsRecord _ [] (fun _ => hbegins) found.reverse
    rw [readFilesystems, String.toList_append, lines_append hfront, readFilesystemLines_append,
      hfound, readFilesystems]
    simp only [Except.bind, hbehind]
    cases readFilesystemLines [] (lines behind.toList) <;> simp [Except.map]
  ok_iff {text found} := by
    change readRecords (lines text.toList) = .ok found ↔ _
    rw [readRecords_eq_ok_iff, readFilesystemLines_eq_ok_iff]
    constructor
    · rintro ⟨devices, filesystems, h, hnone, heq⟩
      obtain rfl := hnone rfl
      obtain rfl : found = filesystems := by simpa using heq
      exact h
    · intro h
      exact ⟨[], found, h, fun _ => rfl, by simp⟩
  error_iff := stopsAt_iff readRecords readRecords_error_append ⟨[], rfl⟩
  carriesLine h := by
    obtain ⟨before, found, hfound, herror⟩ := StopsAt.exists_lines readRecords h
    exact carriesLine_of_readFilesystemLines (readRecords_eq_ok_iff.1 hfound)
      (readRecords_eq_error_iff.1 herror)

/-- Mounts and filesystems are read line by line. Any text may follow a listing of mounts, and the
line in an error is whole. A text that follows a listing of filesystems must not have a device line
in front of its first heading, and the line in an error is trimmed. -/
theorem readers_lineByLine :
    LineByLine readMounts (fun _ => True) MountsOf id ∧
      LineByLine readFilesystems BeginsRecord (fun lines => RecordsOf (recordLines lines) [])
        trim :=
  ⟨readMounts_lineByLine, readFilesystems_lineByLine⟩

/-- A listing of mounts is given up at its third line that is not blank. A heading in front of a
record makes its listing one that may follow another; a device line does not, and is read as one of
the filesystem above. -/
theorem readers_lineByLine_parted :
    let mounts := "TARGET=\"/a\" SOURCE=\"d\" FSTYPE=\"btrfs\" OPTIONS=\"subvolid=5,subvol=/\"\n"
    let others := "\r\nTARGET=\"\" SOURCE=\"\" FSTYPE=\"tmpfs\" OPTIONS=\"\"\r\n TARGET \n\n?"
    let first := "Label: none  uuid: 1\n\tdevid 1 path /a\n"
    let second := "\tTotal devices 0\nLabel: 'b'  uuid: 2"
    let device := "\tdevid 2 path /b\n"
    readMounts mounts = .ok [⟨⟨"/a"⟩, ⟨"d"⟩, 5, "/"⟩] ∧
      readMounts (mounts ++ others) = .error (.parse " TARGET " .expectedPair) ∧
      (∃ line, StopsAt readMounts (mounts ++ others) line (.parse " TARGET " .expectedPair)) ∧
      readFilesystems (first ++ second) = .ok [⟨"1", none, [⟨"/a"⟩]⟩, ⟨"2", some "b", []⟩] ∧
      readFilesystems device = .error (.parse "devid 2 path /b" .deviceOutsideFilesystem) ∧
      readFilesystems (first ++ device) = .ok [⟨"1", none, [⟨"/a"⟩, ⟨"/b"⟩]⟩] := by
  intro mounts others first second device
  obtain ⟨hmounts, hfilesystems⟩ := readers_lineByLine
  have hread : readMounts mounts = .ok [⟨⟨"/a"⟩, ⟨"d"⟩, 5, "/"⟩] := by decide +kernel
  have hothers : readMounts others = .error (.parse " TARGET " .expectedPair) := by decide +kernel
  have hwhole : IsWholeLines mounts.toList := by decide +kernel
  have hboth : readMounts (mounts ++ others) = .error (.parse " TARGET " .expectedPair) := by
    rw [hmounts.ok_append hwhole trivial hread, hothers]
    rfl
  have hfirst : readFilesystems first = .ok [⟨"1", none, [⟨"/a"⟩]⟩] := by decide +kernel
  have hsecond : readFilesystems second = .ok [⟨"2", some "b", []⟩] := by decide +kernel
  have hrecords : recordLines (lines second.toList) = ["Label: 'b'  uuid: 2".toList] := by
    decide +kernel
  have hbegins : BeginsRecord (lines second.toList) := by
    rw [BeginsRecord, hrecords]
    rintro line ⟨⟩
    decide
  have hfilesystem : IsWholeLines first.toList := by decide +kernel
  refine ⟨hread, hboth, hmounts.error_iff.1 hboth, ?_, by decide +kernel, by decide +kernel⟩
  rw [hfilesystems.ok_append hfilesystem hbegins hfirst, hsecond]
  rfl

end BtrfsTopology.Listing
