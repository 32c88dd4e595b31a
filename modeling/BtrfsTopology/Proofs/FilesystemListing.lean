import BtrfsTopology.Listing.Filesystems
import BtrfsTopology.Proofs.Blank
import BtrfsTopology.Proofs.Marker
import Mathlib.Data.List.Infix

/-!
# Filesystem listings are read back

A heading and a device line each have free text next to a marker, and the text may imitate the
marker. A heading is cut at the last `uuid:`, and no identity has that text, so whatever a label
says stays in front of the cut. A device line is cut at the first ` path `, and no column in front
of it is that word, so whatever a path says stays behind the cut. Of a label the quotation marks
around it go and those within it stay.

## Main definitions

* `ListedFilesystem.IsPrintable` — what the texts of a listed filesystem must be
* `Listing.writeHeading`, `Listing.writeDevice` — the heading of a filesystem, the line of a device
* `Listing.PrintsDevice` — what a line may be for a device
* `Listing.PrintsDetails` — what the lines below a heading may be for the devices in them
* `Listing.PrintsFilesystems` — what the lines of a listing may be for the filesystems in it

## Main results

* `Listing.readHeading_writeHeading`, `Listing.readDevice_writeDevice` — one line is read back
* `Listing.readFilesystemLines_details`, `Listing.readFilesystemLines_of_printed` — the lines are
  read one after another
-/

namespace BtrfsTopology

open Text

/-- What the texts of a filesystem must be for its listing to be read back. The label can be any
text on one line. -/
@[mk_iff]
structure ListedFilesystem.IsPrintable (fs : ListedFilesystem) : Prop where
  uuid : IsLineEnd fs.uuid.toList
  /-- A heading is cut at the last mark, so the identity must not have it. -/
  uuid_mark : ¬ Listing.uuidMark <:+: fs.uuid.toList
  label : ∀ text ∈ fs.label, '\n' ∉ text.toList
  devices : ∀ device ∈ fs.devices, IsLineEnd device.text.toList

instance (fs : ListedFilesystem) : Decidable fs.IsPrintable :=
  decidable_of_iff
    (IsLineEnd fs.uuid.toList ∧ ¬ Listing.uuidMark <:+: fs.uuid.toList ∧
      (fs.label.all fun text => '\n' ∉ text.toList) = true ∧
      (fs.devices.all fun device => IsLineEnd device.text.toList) = true)
    (by simp [ListedFilesystem.isPrintable_iff, Option.all_eq_true])

namespace Listing

/-! ## Headings -/

/-- The text of a label: the word `none`, or the label between apostrophes. -/
def writeLabel : Option String → List Char
  | none => ['n', 'o', 'n', 'e']
  | some label => ['\x27'] ++ label.toList ++ ['\x27']

/-- The heading of a filesystem. -/
def writeHeading (label : Option String) (uuid : String) : List Char :=
  headingMark ++ [' '] ++ writeLabel label ++ [' ', ' '] ++ uuidMark ++ [' '] ++ uuid.toList

/-- One pair of apostrophes goes, however many the label has. -/
theorem unquote_quoted (label : List Char) : unquote (['\x27'] ++ label ++ ['\x27']) = label := by
  simp [unquote]

theorem readLabel_writeLabel (label : Option String) : readLabel (writeLabel label) = label := by
  cases label with
  | none => rfl
  | some label =>
    have hne : writeLabel (some label) ≠ ['n', 'o', 'n', 'e'] := fun h =>
      absurd (List.cons.inj h).1 (by decide)
    rw [readLabel, if_neg hne, writeLabel, unquote_quoted, String.ofList_toList]

theorem trim_writeLabel (label : Option String) : trim (writeLabel label) = writeLabel label := by
  cases label with
  | none => rfl
  | some label =>
    have hlast : (writeLabel (some label)).getLast? = some '\x27' := List.getLast?_concat
    apply trim_of_ends
    · rintro c ⟨⟩
      rfl
    · rw [hlast]
      rintro c ⟨⟩
      rfl

/-- The mark does not begin again within itself, so a heading is cut at the mark behind which there
is none. -/
theorem cutLast?_uuidMark {uuid : List Char} (h : ¬ uuidMark <:+: uuid) (before : List Char) :
    cutLast? uuidMark (before ++ uuidMark ++ uuid) = some (before, uuid) := by
  apply cutLast?_append
  have hbehind : cutLast? uuidMark uuid = none := cutLast?_eq_none_iff.2 h
  simp only [uuidMark] at hbehind
  simp [cutLast?, List.isPrefixOf?, hbehind]

section Heading

variable {uuid : String} (huuid : IsLineEnd uuid.toList)
include huuid

/-- A heading is read back. -/
theorem readHeading_writeHeading (hmark : ¬ uuidMark <:+: uuid.toList) (label : Option String) :
    readHeading (writeHeading label uuid) = .ok ⟨uuid, label, []⟩ := by
  have hspace : ¬ uuidMark <:+: [' '] ++ uuid.toList := by
    rw [List.singleton_append, List.infix_cons_iff, not_or]
    refine ⟨fun hprefix => ?_, hmark⟩
    exact absurd (List.cons_prefix_cons.1 hprefix).1 (by decide)
  -- A space follows the first mark, so only that one is dropped.
  have hdrop : dropHeadingMarks (writeHeading label uuid) =
      [' '] ++ writeLabel label ++ [' ', ' '] ++ uuidMark ++ [' '] ++ uuid.toList := rfl
  have hcut : cutLast? uuidMark (dropHeadingMarks (writeHeading label uuid)) =
      some ([' '] ++ writeLabel label ++ [' ', ' '], [' '] ++ uuid.toList) := by
    rw [hdrop, List.append_assoc _ [' '], cutLast?_uuidMark hspace]
  have hlabel : trim ([' '] ++ writeLabel label ++ [' ', ' ']) = writeLabel label := by
    rw [trim_append_blank _ (by decide), trim_blank_append (by decide), trim_writeLabel]
  have htrim : trim ([' '] ++ uuid.toList) = uuid.toList := by
    rw [trim_blank_append (by decide), huuid.trim_eq]
  rw [readHeading, hcut]
  simp only [hlabel, htrim, readLabel_writeLabel, String.ofList_toList]
  rw [if_neg (by simpa using huuid.ne_nil)]

theorem trim_writeHeading (label : Option String) :
    trim (writeHeading label uuid) = writeHeading label uuid :=
  huuid.trim_cons_append (c := 'L') rfl _

theorem lineFeed_not_mem_writeHeading {label : Option String}
    (hlabel : ∀ text ∈ label, '\n' ∉ text.toList) : '\n' ∉ writeHeading label uuid := by
  have hwritten : '\n' ∉ writeLabel label := by
    cases label with
    | none => decide
    | some label => simpa [writeLabel] using hlabel label rfl
  simp [writeHeading, headingMark, uuidMark, hwritten, huuid.lineFeed_not_mem]

end Heading

/-! ## Device lines -/

/-- What can be a column of a device line: a text without blanks, and not the word that the path
follows. -/
def IsColumn (column : List Char) : Prop :=
  (∀ c ∈ column, isBlank c = false) ∧ column ≠ ['p', 'a', 't', 'h']

instance (column : List Char) : Decidable (IsColumn column) :=
  decidable_of_iff (column.all (!isBlank ·) = true ∧ column ≠ ['p', 'a', 't', 'h'])
    (by simp [IsColumn])

theorem IsColumn.not_mem {column : List Char} (h : IsColumn column) {c : Char}
    (hc : isBlank c = true) : c ∉ column := by
  intro hmem
  rw [h.1 c hmem] at hc
  contradiction

/-- The columns of a device line, with empty ones where the number is set to the right. -/
def deviceColumns (padding : Nat) (number size used : List Char) : List (List Char) :=
  deviceMark :: (List.replicate padding [] ++ [number, "size".toList, size, "used".toList, used])

/-- The line of a device, without an indent. -/
def writeDevice (padding : Nat) (number size used : List Char) (device : VfsPath) : List Char :=
  [' '].intercalate (deviceColumns padding number size used) ++ devicePathMark ++ device.text.toList

/-- What a line may be for a device. -/
inductive PrintsDevice (device : VfsPath) : List Char → Prop where
  | mk {indent number size used : List Char} (padding : Nat)
      (hindent : isBlankText indent = true) (hfeed : '\n' ∉ indent)
      (hnumber : IsColumn number) (hsize : IsColumn size) (hused : IsColumn used) :
      PrintsDevice device (indent ++ writeDevice padding number size used device)

theorem exists_writeDevice_eq (padding : Nat) (number size used : List Char) (device : VfsPath) :
    ∃ rest, writeDevice padding number size used device = deviceMark ++ ' ' :: rest := by
  rw [writeDevice, deviceColumns, List.intercalate_cons_of_ne_nil (by simp), List.append_assoc,
    List.append_assoc, List.append_assoc, List.singleton_append]
  exact ⟨_, rfl⟩

section Columns

variable (padding : Nat) {number size used : List Char} (hnumber : IsColumn number)
  (hsize : IsColumn size) (hused : IsColumn used)
include hnumber hsize hused

theorem isColumn_of_mem_deviceColumns :
    ∀ column ∈ deviceColumns padding number size used, IsColumn column := by
  intro column hcolumn
  simp only [deviceColumns, List.mem_cons, List.mem_append, List.mem_replicate,
    List.not_mem_nil, or_false] at hcolumn
  rcases hcolumn with rfl | ⟨-, rfl⟩ | rfl | rfl | rfl | rfl | rfl
  · decide
  · decide
  · exact hnumber
  · decide
  · exact hsize
  · decide
  · exact hused

/-- The path of a device is what follows the columns, whatever it says. -/
theorem readDevice_writeDevice {device : VfsPath} (hdevice : IsLineEnd device.text.toList) :
    readDevice (writeDevice padding number size used device) = .ok device := by
  have hcolumns : ∀ column ∈ deviceColumns padding number size used,
      ' ' ∉ column ∧ column ≠ ['p', 'a', 't', 'h'] := fun column hcolumn =>
    have h := isColumn_of_mem_deviceColumns padding hnumber hsize hused column hcolumn
    ⟨h.not_mem rfl, h.2⟩
  have hcut : cutFirst? devicePathMark (writeDevice padding number size used device) =
      some ([' '].intercalate (deviceColumns padding number size used), device.text.toList) :=
    cutFirst?_intercalate (by simp [deviceColumns]) (by decide) hcolumns device.text.toList
  rw [readDevice, hcut]
  simp only [hdevice.trim_eq, String.ofList_toList]
  rw [if_neg (by simpa using hdevice.ne_nil)]

theorem lineFeed_not_mem_writeDevice {device : VfsPath}
    (hdevice : IsLineEnd device.text.toList) :
    '\n' ∉ writeDevice padding number size used device := by
  have hcolumns : '\n' ∉ [' '].intercalate (deviceColumns padding number size used) :=
    not_mem_intercalate (by decide) fun column hcolumn =>
      (isColumn_of_mem_deviceColumns padding hnumber hsize hused column hcolumn).not_mem rfl
  simp [writeDevice, devicePathMark, hcolumns, hdevice.lineFeed_not_mem]

end Columns

theorem trim_writeDevice {device : VfsPath} (hdevice : IsLineEnd device.text.toList)
    (padding : Nat) (number size used : List Char) :
    trim (writeDevice padding number size used device) =
      writeDevice padding number size used device := by
  refine trim_of_ends ?_ (hdevice.isBlank_getLast _)
  obtain ⟨rest, hrest⟩ := exists_writeDevice_eq padding number size used device
  rw [hrest]
  rintro c ⟨⟩
  rfl

section Line

variable {device : VfsPath} {line : List Char} (h : PrintsDevice device line)
  (hdevice : IsLineEnd device.text.toList)
include h hdevice

/-- The device of a line comes behind those that the latest filesystem has. -/
theorem takeFilesystemLine_of_device (latest : ListedFilesystem) (earlier : List ListedFilesystem) :
    takeFilesystemLine (latest :: earlier) (trim line) =
      .ok ({ latest with devices := latest.devices ++ [device] } :: earlier) := by
  obtain @⟨indent, number, size, used, padding, hindent, -, hnumber, hsize, hused⟩ := h
  have hread := readDevice_writeDevice padding hnumber hsize hused hdevice
  obtain ⟨rest, hrest⟩ := exists_writeDevice_eq padding number size used device
  have hheading : ¬ headingMark.isPrefixOf (deviceMark ++ ' ' :: rest) = true := by rintro ⟨⟩
  have hmark : deviceMark.isPrefixOf (deviceMark ++ ' ' :: rest) = true := rfl
  rw [hrest] at hread
  rw [trim_blank_append hindent, trim_writeDevice hdevice, hrest, takeFilesystemLine,
    if_neg hheading, if_pos hmark, hread]
  rfl

theorem lineFeed_not_mem_of_device : '\n' ∉ line := by
  obtain ⟨padding, -, hfeed, hnumber, hsize, hused⟩ := h
  have hwritten := lineFeed_not_mem_writeDevice padding hnumber hsize hused hdevice
  simp [hfeed, hwritten]

end Line

/-! ## Records -/

/-- What the line that sums the devices up begins with. -/
def summaryMark : List Char := "Total devices".toList

/-- What the lines below a heading may be for the devices in them. There is one line for each
device; blank lines and lines that sum up may stand anywhere. -/
inductive PrintsDetails : List VfsPath → List (List Char) → Prop where
  | nil : PrintsDetails [] []
  | blank {devices : List VfsPath} {line : List Char} {lines : List (List Char)}
      (hblank : isBlankText line = true) (hfeed : '\n' ∉ line)
      (hrest : PrintsDetails devices lines) : PrintsDetails devices (line :: lines)
  | summary {devices : List VfsPath} {indent text : List Char} {lines : List (List Char)}
      (hindent : isBlankText indent = true) (hfeed : '\n' ∉ indent ++ summaryMark ++ text)
      (hrest : PrintsDetails devices lines) :
      PrintsDetails devices ((indent ++ summaryMark ++ text) :: lines)
  | device {device : VfsPath} {devices : List VfsPath} {line : List Char}
      {lines : List (List Char)} (hline : PrintsDevice device line)
      (hrest : PrintsDetails devices lines) : PrintsDetails (device :: devices) (line :: lines)

/-- What the lines of a listing may be for the filesystems in it: for each its heading, and the
lines for its devices below. Blank lines may stand anywhere. -/
inductive PrintsFilesystems : List ListedFilesystem → List (List Char) → Prop where
  | nil : PrintsFilesystems [] []
  | blank {filesystems : List ListedFilesystem} {line : List Char} {lines : List (List Char)}
      (hblank : isBlankText line = true) (hfeed : '\n' ∉ line)
      (hrest : PrintsFilesystems filesystems lines) :
      PrintsFilesystems filesystems (line :: lines)
  | record {fs : ListedFilesystem} {filesystems : List ListedFilesystem}
      {details lines : List (List Char)} (hdetails : PrintsDetails fs.devices details)
      (hrest : PrintsFilesystems filesystems lines) :
      PrintsFilesystems (fs :: filesystems) (writeHeading fs.label fs.uuid :: (details ++ lines))

/-- A line that is trimmed to nothing is passed over. -/
theorem takeFilesystemLine_of_blank {line : List Char} (h : isBlankText line = true)
    (read : List ListedFilesystem) : takeFilesystemLine read (trim line) = .ok read := by
  rw [trim_of_isBlankText h]
  rfl

theorem takeFilesystemLine_of_summary {indent : List Char} (h : isBlankText indent = true)
    (text : List Char) (read : List ListedFilesystem) :
    takeFilesystemLine read (trim (indent ++ summaryMark ++ text)) = .ok read := by
  have htrim : trim (indent ++ summaryMark ++ text) =
      'T' :: trimEnd ("otal devices".toList ++ text) := by
    rw [List.append_assoc, trim_blank_append h]
    exact trim_cons rfl _
  rw [htrim]
  rfl

theorem takeFilesystemLine_of_heading {fs : ListedFilesystem} (h : fs.IsPrintable)
    (read : List ListedFilesystem) :
    takeFilesystemLine read (trim (writeHeading fs.label fs.uuid)) =
      .ok ({ fs with devices := [] } :: read) := by
  have hheading : headingMark.isPrefixOf (writeHeading fs.label fs.uuid) = true := rfl
  rw [trim_writeHeading h.uuid, takeFilesystemLine.eq_def, if_pos hheading,
    readHeading_writeHeading h.uuid h.uuid_mark]
  rfl

/-- One line more was taken to what was read before. -/
theorem readFilesystemLines_cons {read read' : List ListedFilesystem} {line : List Char}
    (h : takeFilesystemLine read (trim line) = .ok read') (lines : List (List Char)) :
    readFilesystemLines read (line :: lines) = readFilesystemLines read' lines := by
  rw [readFilesystemLines, h]

/-- The lines below a heading add their devices to the filesystem that it has introduced. -/
theorem readFilesystemLines_details {devices : List VfsPath} {details : List (List Char)}
    (h : PrintsDetails devices details)
    (hdevices : ∀ device ∈ devices, IsLineEnd device.text.toList) (latest : ListedFilesystem)
    (earlier : List ListedFilesystem) (lines : List (List Char)) :
    readFilesystemLines (latest :: earlier) (details ++ lines) =
      readFilesystemLines ({ latest with devices := latest.devices ++ devices } :: earlier)
        lines := by
  induction h generalizing latest with
  | nil => simp
  | blank hblank _ _ ih =>
    rw [List.cons_append, readFilesystemLines_cons (takeFilesystemLine_of_blank hblank _),
      ih hdevices]
  | summary hindent _ _ ih =>
    rw [List.cons_append, readFilesystemLines_cons (takeFilesystemLine_of_summary hindent _ _),
      ih hdevices]
  | @device device devices line _ hline _ ih =>
    obtain ⟨hdevice, hdevices⟩ := List.forall_mem_cons.1 hdevices
    have htake := takeFilesystemLine_of_device hline hdevice latest earlier
    rw [List.cons_append, readFilesystemLines_cons htake, ih hdevices]
    simp

/-- The lines of a listing add its filesystems, the latest in front. -/
theorem readFilesystemLines_of_printed {filesystems : List ListedFilesystem}
    {lines : List (List Char)} (h : PrintsFilesystems filesystems lines)
    (hprintable : ∀ fs ∈ filesystems, fs.IsPrintable) (read : List ListedFilesystem) :
    readFilesystemLines read lines = .ok (filesystems.reverse ++ read) := by
  induction h generalizing read with
  | nil => rfl
  | blank hblank _ _ ih =>
    rw [readFilesystemLines_cons (takeFilesystemLine_of_blank hblank _), ih hprintable]
  | @record fs filesystems details lines hdetails _ ih =>
    obtain ⟨hfs, hprintable⟩ := List.forall_mem_cons.1 hprintable
    rw [readFilesystemLines_cons (takeFilesystemLine_of_heading hfs read),
      readFilesystemLines_details hdetails hfs.devices, ih hprintable]
    simp

/-! ## Listings -/

theorem PrintsDetails.lineFeed_not_mem {devices : List VfsPath} {details : List (List Char)}
    (h : PrintsDetails devices details)
    (hdevices : ∀ device ∈ devices, IsLineEnd device.text.toList) :
    ∀ line ∈ details, '\n' ∉ line := by
  induction h with
  | nil => exact fun _ hline => absurd hline List.not_mem_nil
  | blank _ hfeed _ ih => exact List.forall_mem_cons.2 ⟨hfeed, ih hdevices⟩
  | summary _ hfeed _ ih => exact List.forall_mem_cons.2 ⟨hfeed, ih hdevices⟩
  | device hline _ ih =>
    obtain ⟨hdevice, hdevices⟩ := List.forall_mem_cons.1 hdevices
    exact List.forall_mem_cons.2 ⟨lineFeed_not_mem_of_device hline hdevice, ih hdevices⟩

theorem PrintsFilesystems.lineFeed_not_mem {filesystems : List ListedFilesystem}
    {lines : List (List Char)} (h : PrintsFilesystems filesystems lines)
    (hprintable : ∀ fs ∈ filesystems, fs.IsPrintable) : ∀ line ∈ lines, '\n' ∉ line := by
  induction h with
  | nil => exact fun _ hline => absurd hline List.not_mem_nil
  | blank _ hfeed _ ih => exact List.forall_mem_cons.2 ⟨hfeed, ih hprintable⟩
  | record hdetails _ ih =>
    obtain ⟨hfs, hprintable⟩ := List.forall_mem_cons.1 hprintable
    refine List.forall_mem_cons.2 ⟨lineFeed_not_mem_writeHeading hfs.uuid hfs.label, ?_⟩
    exact List.forall_mem_append.2 ⟨hdetails.lineFeed_not_mem hfs.devices, ih hprintable⟩

/-- Every line is trimmed, so line breaks leave nothing that matters. -/
theorem readFilesystemLines_linesOfParts (read : List ListedFilesystem)
    (parts : List (List Char)) :
    readFilesystemLines read (linesOfParts parts) = readFilesystemLines read parts := by
  induction parts generalizing read with
  | nil => rfl
  | cons part parts ih =>
    cases parts with
    | nil =>
      -- The last part is kept as it is, or is empty and passed over.
      cases part with
      | nil => rfl
      | cons c part => rfl
    | cons next parts =>
      rw [linesOfParts, readFilesystemLines, readFilesystemLines, trim_dropReturn]
      · cases takeFilesystemLine read (trim part) with
        | ok read' => exact ih read'
        | error fault => rfl
      · simp

/-- Reading a listing gives the filesystems that it was printed for, in their order and with the
devices of each in theirs, whatever the labels and the paths say. -/
theorem readFilesystems_of_printed {filesystems : List ListedFilesystem}
    {lines : List (List Char)} (hprintable : ∀ fs ∈ filesystems, fs.IsPrintable)
    (h : PrintsFilesystems filesystems lines) :
    readFilesystems (String.ofList (['\n'].intercalate lines)) = .ok filesystems := by
  rw [readFilesystems, String.toList_ofList, lines_intercalate (h.lineFeed_not_mem hprintable),
    readFilesystemLines_linesOfParts, readFilesystemLines_of_printed h hprintable]
  simp [Except.map]

/-- A listing of four filesystems. The first has a label and devices that imitate every mark; the
others have no label, the word for that as their label, and an empty label. -/
theorem readFilesystems_of_printed_imitating :
    let first : ListedFilesystem :=
      ⟨"1-uuid", some " 'uuid: 2' Label: none ", [⟨"/dev/a path /b"⟩, ⟨"path used"⟩]⟩
    let second : ListedFilesystem := ⟨"2", none, []⟩
    let third : ListedFilesystem := ⟨"Label: 3", some "none", []⟩
    let fourth : ListedFilesystem := ⟨"none", some "", []⟩
    let firstDevice := "\tdevid    1 size 20.00GiB used 0.00B path /dev/a path /b".toList
    let secondDevice := "devid 22 size s used t path path used".toList
    let summary := "\tTotal devices 2 FS bytes used 8.03GiB".toList
    let lines : List (List Char) :=
      ["Label: ' 'uuid: 2' Label: none '  uuid: 1-uuid".toList, summary, firstDevice,
        " \t\r".toList, secondDevice, [], "Label: none  uuid: 2".toList, summary,
        "Label: 'none'  uuid: Label: 3".toList, summary, "Label: ''  uuid: none".toList, summary,
        []]
    (∀ fs ∈ [first, second, third, fourth], fs.IsPrintable) ∧
      PrintsFilesystems [first, second, third, fourth] lines ∧
      readFilesystems (String.ofList (['\n'].intercalate lines)) =
        .ok [first, second, third, fourth] := by
  intro first second third fourth firstDevice secondDevice summary lines
  have hprintable : ∀ fs ∈ [first, second, third, fourth], fs.IsPrintable := by decide +kernel
  have hsummary {devices : List VfsPath} {details : List (List Char)}
      (h : PrintsDetails devices details) : PrintsDetails devices (summary :: details) := by
    have hline : summary = ['\t'] ++ summaryMark ++ " 2 FS bytes used 8.03GiB".toList := rfl
    rw [hline]
    exact .summary (by decide) (by decide) h
  have hfirstDevice : PrintsDevice ⟨"/dev/a path /b"⟩ firstDevice := by
    have hline : firstDevice = ['\t'] ++
        writeDevice 3 "1".toList "20.00GiB".toList "0.00B".toList ⟨"/dev/a path /b"⟩ := by
      decide +kernel
    rw [hline]
    exact .mk 3 (by decide) (by decide) (by decide) (by decide) (by decide)
  have hsecondDevice : PrintsDevice ⟨"path used"⟩ secondDevice := by
    have hline : secondDevice =
        [] ++ writeDevice 0 "22".toList "s".toList "t".toList ⟨"path used"⟩ := by
      decide +kernel
    rw [hline]
    exact .mk 0 (by decide) (by decide) (by decide) (by decide) (by decide)
  have hdetails : PrintsDetails first.devices
      [summary, firstDevice, " \t\r".toList, secondDevice, []] :=
    hsummary <| .device hfirstDevice <| .blank (by decide) (by decide) <|
      .device hsecondDevice <| .blank (by decide) (by decide) .nil
  have hblank : PrintsDetails [] [[]] := .blank (by decide) (by decide) .nil
  have hlisting : PrintsFilesystems [first, second, third, fourth] lines := by
    have hlines : lines = writeHeading first.label first.uuid ::
        ([summary, firstDevice, " \t\r".toList, secondDevice, []] ++
          writeHeading second.label second.uuid :: ([summary] ++
            writeHeading third.label third.uuid :: ([summary] ++
              writeHeading fourth.label fourth.uuid :: ([summary, []] ++ [])))) := by
      decide +kernel
    rw [hlines]
    exact .record hdetails <| .record (hsummary .nil) <| .record (hsummary .nil) <|
      .record (hsummary hblank) .nil
  exact ⟨hprintable, hlisting, readFilesystems_of_printed hprintable hlisting⟩

end Listing

end BtrfsTopology
