import BtrfsTopology.Proofs.InternalPath
import BtrfsTopology.Proofs.MountListing

/-!
# Names among the options of a mount

The options of a mount end with the identifier and the path of its subvolume, and the path has names
that users choose. Options are cut apart at commas after their text has been unescaped, and of those
with one name the last counts. So a path without commas is read as it is, whatever else is in it.
From a path with commas the text behind the first one is cut off and read as options of its own,
which replace the identifier or the path if they have the name of one.

## Main results

* `Listing.readOptions_append_comma` — options are read on either side of a comma
* `Listing.readOptions_writeOptions_comma` — which options are read from a path with a comma
* `Listing.readMounts_of_fields` — what the fields of a line contribute to a listing
-/

namespace BtrfsTopology.Listing

open Text HexEscape InternalPath

/-! ## Options behind commas -/

theorem readOptions_append_comma (front rest : List Char) :
    readOptions (front ++ ',' :: rest) = readOptions front ++ readOptions rest := by
  simp only [readOptions, List.splitOn_append_cons_self, List.filter_append, List.map_append]

/-- Nothing that is read as the value of an option has a comma. -/
theorem comma_not_mem_of_mem_readOptions {options name value : List Char}
    (h : (name, some value) ∈ readOptions options) : ',' ∉ value := by
  obtain ⟨option, hoption, hread⟩ := List.mem_map.1 h
  have hcomma : ',' ∉ option := not_mem_of_mem_splitOn (List.mem_filter.1 hoption).1
  cases hcut : cutFirst? ['='] option with
  | none => simp [hcut] at hread
  | some cut =>
    obtain ⟨front, behind⟩ := cut
    obtain ⟨rfl, rfl⟩ : front = name ∧ behind = value := by simpa [hcut] using hread
    rw [eq_of_cutFirst? hcut] at hcomma
    exact fun hmem => hcomma (List.mem_append_right _ hmem)

variable {α : Type} {entries : List (List Char × α)} {value : α} {options : List Char} {id : Nat}
  {path : String}

theorem lastUnder?_append (name : String) (before after : List (List Char × α)) :
    lastUnder? name (before ++ after) = (lastUnder? name after).or (lastUnder? name before) := by
  rw [lastUnder?, List.reverse_append, List.lookup_append]
  rfl

theorem mem_of_lastUnder? {name : String} (h : lastUnder? name entries = some value) :
    (name.toList, value) ∈ entries := by
  obtain ⟨front, behind, heq, -⟩ := List.lookup_eq_some_iff.1 h
  exact List.mem_reverse.1 (heq ▸ List.mem_append_right front List.mem_cons_self)

/-- What the mounted subvolume is read from. -/
theorem readMountedSubvolume_eq_ok_iff : readMountedSubvolume options = .ok (id, path) ↔
    (∃ text, lastUnder? "subvolid" (readOptions options) = some (some text) ∧
      readWord text = .ok id) ∧
    ∃ name, lastUnder? "subvol" (readOptions options) = some (some name) ∧
      path = normalize (String.ofList name) := by
  have hvalue (key : String) (text : List Char) :
      optionValue? key (readOptions options) = some text ↔
        lastUnder? key (readOptions options) = some (some text) := Option.join_eq_some_iff
  simp only [← hvalue, readMountedSubvolume]
  cases optionValue? "subvolid" (readOptions options) with
  | none => simp
  | some text =>
    cases hword : readWord text with
    | error fault => simp [hword]
    | ok word =>
      cases optionValue? "subvol" (readOptions options) with
      | none => simp [hword]
      | some name => simp [hword, eq_comm]

/-- The path that is read for a subvolume has no comma. -/
theorem comma_not_mem_of_readMountedSubvolume
    (h : readMountedSubvolume options = .ok (id, path)) : ',' ∉ path.toList := by
  obtain ⟨-, name, hname, rfl⟩ := readMountedSubvolume_eq_ok_iff.1 h
  rw [mem_normalize_iff (by decide) (by decide), String.toList_ofList]
  exact comma_not_mem_of_mem_readOptions (mem_of_lastUnder? hname)

section Comma

variable {others : List (List Char)} {front rest : List Char} {subvolumeId : Nat}
variable (hothers : ∀ option ∈ others, ',' ∉ option) (hfront : ',' ∉ front)
include hothers hfront

/-- A path with a comma ends there, and its rest are options behind it. -/
theorem readOptions_writeOptions_comma (subvolumeId : Nat) (rest : List Char) :
    ∃ before, readOptions (writeOptions others subvolumeId (front ++ ',' :: rest)) =
      before ++ [("subvolid".toList, some (writeWord subvolumeId).toList),
        ("subvol".toList, some front)] ++ readOptions rest := by
  obtain ⟨before, hread⟩ := readOptions_writeOptions hothers subvolumeId hfront
  refine ⟨before, ?_⟩
  rw [← hread, ← readOptions_append_comma]
  congr 1
  -- The path is the last option, so that its rest ends the text of all of them.
  have hlast : writeOption "subvol" (front ++ ',' :: rest) =
      writeOption "subvol" front ++ ',' :: rest := by simp [writeOption]
  simpa [writeOptions, hlast] using intercalate_concat_append ','
    (others ++ [writeOption "subvolid" (writeWord subvolumeId).toList])
    (writeOption "subvol" front) (',' :: rest)

/-- The options behind a comma in the path count for more than those in front. -/
theorem lastUnder?_writeOptions_comma (subvolumeId : Nat) (rest : List Char) :
    lastUnder? "subvolid" (readOptions (writeOptions others subvolumeId (front ++ ',' :: rest))) =
      (lastUnder? "subvolid" (readOptions rest)).or (some (some (writeWord subvolumeId).toList)) ∧
    lastUnder? "subvol" (readOptions (writeOptions others subvolumeId (front ++ ',' :: rest))) =
      (lastUnder? "subvol" (readOptions rest)).or (some (some front)) := by
  obtain ⟨before, hread⟩ := readOptions_writeOptions_comma hothers hfront subvolumeId rest
  simp only [hread, lastUnder?_append]
  exact ⟨rfl, rfl⟩

/-- Behind a comma in the path, options with other names do no more than to end the path. -/
theorem readMountedSubvolume_of_cut (hid : subvolumeId < wordBound)
    (hsubvolid : lastUnder? "subvolid" (readOptions rest) = none)
    (hsubvol : lastUnder? "subvol" (readOptions rest) = none) :
    readMountedSubvolume (writeOptions others subvolumeId (front ++ ',' :: rest)) =
      .ok (subvolumeId, normalize (String.ofList front)) := by
  obtain ⟨hlastId, hlastPath⟩ := lastUnder?_writeOptions_comma hothers hfront subvolumeId rest
  rw [hsubvolid, Option.none_or] at hlastId
  rw [hsubvol, Option.none_or] at hlastPath
  exact readMountedSubvolume_eq_ok_iff.2
    ⟨⟨_, hlastId, readWord_writeWord hid⟩, _, hlastPath, rfl⟩

/-- The identifier is the one that was written, unless one behind a comma in the path replaces
it. -/
theorem id_eq_iff_of_comma (hid : subvolumeId < wordBound)
    (h : readMountedSubvolume (writeOptions others subvolumeId (front ++ ',' :: rest)) =
      .ok (id, path)) :
    id = subvolumeId ↔ lastUnder? "subvolid" (readOptions rest) = none ∨
      ∃ text, lastUnder? "subvolid" (readOptions rest) = some (some text) ∧
        readWord text = .ok subvolumeId := by
  obtain ⟨⟨text, htext, hword⟩, -⟩ := readMountedSubvolume_eq_ok_iff.1 h
  rw [(lastUnder?_writeOptions_comma hothers hfront subvolumeId rest).1] at htext
  cases hlast : lastUnder? "subvolid" (readOptions rest) with
  | none =>
    -- The lookup from the end goes on to the identifier in front of the path.
    obtain rfl : (writeWord subvolumeId).toList = text := by simpa [hlast] using htext
    simpa [readWord_writeWord hid, eq_comm] using hword
  | some value =>
    obtain rfl : value = some text := by simpa [hlast] using htext
    simp [hword]

end Comma

/-! ## Lines of a listing -/

section Line

variable {listing : String} {front behind : List (List Char)} {line : List Char}
  {ms : List Mountpoint} {fields : MountFields}

theorem isBlankText_of_readMountFields (h : readMountFields line = .ok fields) :
    isBlankText line = false := by
  rw [← Bool.not_eq_true]
  intro hblank
  have htrim : trim line = [] := trim_of_isBlankText hblank
  rw [readMountFields, htrim, readPairs] at h
  contradiction

/-- A line with the fields of a mount adds the mount to those of the other lines, or stops the
reading with its fault if the ones before can be read. -/
theorem readMounts_of_fields (hlines : lines listing.toList = front ++ line :: behind)
    (hfront : readMountLines front = .ok ms) (hfields : readMountFields line = .ok fields)
    (hfstype : fields.fstype = btrfs) :
    readMounts listing =
      match readMountedSubvolume fields.options with
      | .error fault => .error (.malformedMount (String.ofList line) fault)
      | .ok (id, path) => (readMountLines behind).map fun more =>
          ms ++ ⟨⟨String.ofList fields.target⟩, ⟨String.ofList fields.source⟩, id, path⟩ :: more := by
  have hbtrfs : fields.fstype = ['b', 't', 'r', 'f', 's'] := hfstype
  rw [readMounts, hlines, readMountLines_append, hfront, readMountLines,
    isBlankText_of_readMountFields hfields, readMount, hfields]
  simp only [hbtrfs, ↓reduceIte, Bool.false_eq_true]
  cases readMountedSubvolume fields.options with
  | error fault => rfl
  | ok subvolume => cases readMountLines behind <;> rfl

/-- A line whose options end with the identifier and the path of the mounted subvolume. Whatever the
path, its text is the last of the options. If it has no comma, both are reported as they were
written, the path in normal form. Otherwise the path is not reported: what stands in front of the
first comma takes its place, if there is no option for it behind. The identifier is still reported
if none stands behind the comma; it is another one just when one that stands there replaces it. -/
theorem readMounts_of_ending_path {others : List (List Char)} {id : Nat} {path : List Char}
    (hlines : lines listing.toList = front ++ line :: behind)
    (hfront : readMountLines front = .ok ms) (hfields : readMountFields line = .ok fields)
    (hfstype : fields.fstype = btrfs) (hoptions : fields.options = writeOptions others id path)
    (hothers : ∀ option ∈ others, ',' ∉ option) (hid : id < wordBound) :
    let reported (path : List Char) : Mountpoint :=
      ⟨⟨String.ofList fields.target⟩, ⟨String.ofList fields.source⟩, id,
        normalize (String.ofList path)⟩
    (',' ∉ path → readMounts listing =
      (readMountLines behind).map fun more => ms ++ reported path :: more) ∧
    ∀ name rest, path = name ++ ',' :: rest → ',' ∉ name →
      (lastUnder? "subvolid" (readOptions rest) = none →
        lastUnder? "subvol" (readOptions rest) = none →
        readMounts listing = (readMountLines behind).map fun more => ms ++ reported name :: more) ∧
      ∀ mounts, readMounts listing = .ok mounts →
        ∃ m more, readMountLines behind = .ok more ∧ mounts = ms ++ m :: more ∧
          m.path = ⟨String.ofList fields.target⟩ ∧ m.device = ⟨String.ofList fields.source⟩ ∧
          m.subvolumePath ≠ normalize (String.ofList path) ∧
          (m.subvolumeId = id ↔ lastUnder? "subvolid" (readOptions rest) = none ∨
            ∃ text, lastUnder? "subvolid" (readOptions rest) = some (some text) ∧
              readWord text = .ok id) := by
  intro reported
  have hread := readMounts_of_fields hlines hfront hfields hfstype
  rw [hoptions] at hread
  constructor
  · intro hpath
    rw [hread, readMountedSubvolume_writeOptions hothers hid hpath]
  · rintro name rest rfl hname
    constructor
    · intro hsubvolid hsubvol
      rw [hread, readMountedSubvolume_of_cut hothers hname hid hsubvolid hsubvol]
    · intro mounts hmounts
      rw [hread] at hmounts
      cases hsubvolume : readMountedSubvolume (writeOptions others id (name ++ ',' :: rest)) with
      | error fault => simp [hsubvolume] at hmounts
      | ok subvolume =>
        obtain ⟨id', path'⟩ := subvolume
        cases hmore : readMountLines behind with
        | error e => simp [hsubvolume, hmore, Except.map] at hmounts
        | ok more =>
          simp only [hsubvolume, hmore, Except.map, Except.ok.injEq] at hmounts
          refine ⟨_, more, rfl, hmounts.symm, rfl, rfl, fun hpath => ?_,
            id_eq_iff_of_comma hothers hname hid hsubvolume⟩
          -- The path that was written has a comma, the one that was read has none.
          have hpath : path' = normalize (String.ofList (name ++ ',' :: rest)) := hpath
          refine comma_not_mem_of_readMountedSubvolume hsubvolume ?_
          rw [hpath, mem_normalize_iff (by decide) (by decide)]
          simp

/-- A mount of a subvolume with an equals sign in its name, and one of a subvolume with a comma in
its name, behind which there is no identifier. -/
theorem readMounts_of_ending_path_named :
    let plain := "TARGET=\"/a\" SOURCE=\"sda\" FSTYPE=\"btrfs\" OPTIONS=\"rw,subvolid=257,subvol=/@=b\""
    let cut := "TARGET=\"/a\" SOURCE=\"sda\" FSTYPE=\"btrfs\" OPTIONS=\"rw,subvolid=257,subvol=/@,b=5\""
    readMounts plain = .ok [⟨⟨"/a"⟩, ⟨"sda"⟩, 257, "/@=b"⟩] ∧
      readMounts cut = .ok [⟨⟨"/a"⟩, ⟨"sda"⟩, 257, "/@"⟩] := by
  intro plain cut
  let fields (path : List Char) : MountFields :=
    ⟨"/a".toList, "sda".toList, btrfs, writeOptions ["rw".toList] 257 path⟩
  have hprinted (path : List Char) :
      readMountFields (printFields (decide <| MustEscape ·) lowerDigits (fields path)) =
        .ok (fields path) :=
    readMountFields_of_printed
      (printsFields_printFields (fun _ => decide_eq_true) (.inl rfl) (fields path))
  have hplain : lines plain.toList =
      [] ++ printFields (decide <| MustEscape ·) lowerDigits (fields "/@=b".toList) :: [] := by
    decide +kernel
  have hcut : lines cut.toList =
      [] ++ printFields (decide <| MustEscape ·) lowerDigits (fields "/@,b=5".toList) :: [] := by
    decide +kernel
  constructor
  · exact (readMounts_of_ending_path hplain rfl (hprinted _) rfl rfl (by decide) (by decide)).1
      (by decide)
  · exact ((readMounts_of_ending_path hcut rfl (hprinted _) rfl rfl (by decide) (by decide)).2
      "/@".toList "b=5".toList (by decide) (by decide)).1 (by decide) (by decide)

/-- A user-chosen name that goes on as an option for another identifier changes which subvolume is
reported to be mounted. -/
theorem not_id_of_named_option :
    let listing :=
      "TARGET=\"/mnt\" SOURCE=\"/dev/sda\" FSTYPE=\"btrfs\" " ++
        "OPTIONS=\"rw,subvolid=256,subvol=/a,subvolid=5\"\n"
    ∃ fields line, lines listing.toList = [line] ∧ readMountFields line = .ok fields ∧
      fields.fstype = btrfs ∧
      fields.options = writeOptions ["rw".toList] 256 "/a,subvolid=5".toList ∧
      readMounts listing = .ok [⟨⟨"/mnt"⟩, ⟨"/dev/sda"⟩, 5, "/a"⟩] := by
  intro listing
  let fields : MountFields := ⟨"/mnt".toList, "/dev/sda".toList, btrfs,
    writeOptions ["rw".toList] 256 "/a,subvolid=5".toList⟩
  have hlines : lines listing.toList =
      [] ++ printFields (decide <| MustEscape ·) lowerDigits fields :: [] := by decide +kernel
  have hfields : readMountFields (printFields (decide <| MustEscape ·) lowerDigits fields) =
      .ok fields :=
    readMountFields_of_printed
      (printsFields_printFields (fun _ => decide_eq_true) (.inl rfl) fields)
  have hsubvolume : readMountedSubvolume fields.options = .ok (5, "/a") := by decide +kernel
  refine ⟨fields, _, hlines, hfields, rfl, rfl, ?_⟩
  rw [readMounts_of_fields hlines rfl hfields rfl, hsubvolume]
  rfl

end Line

end BtrfsTopology.Listing
