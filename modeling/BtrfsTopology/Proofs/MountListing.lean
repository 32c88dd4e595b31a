import BtrfsTopology.Listing.Mounts
import BtrfsTopology.Proofs.Blank
import BtrfsTopology.Proofs.Decimal
import BtrfsTopology.Proofs.HexEscape
import BtrfsTopology.Proofs.Marker

/-!
# Mount listings are read back

A listing of mounts nests four grammars: lines, pairs of a key and a quoted value, escapes in the
values, and options between commas. Here each has its writer, and reading undoes one after the
other. No delimiter of an outer grammar can come from an inner one: escaping removes quotation marks
and line feeds from values. Options are cut apart after unescaping, so escaping does not help there,
and what stands between two commas must have none.

A listing may have blank lines and mounts of other filesystem types anywhere. Its last line may be
terminated, which is to have one more blank line.

## Main definitions

* `Listing.writePairs`, `Listing.writeOptions` — the text of pairs and of options
* `Listing.PrintsFields` — what a line may be for the four fields of a record
* `Listing.PrintsMount` — what a line may be for a mount
* `Listing.PrintsListing` — what the lines of a listing may be for the mounts in it

## Main results

* `Listing.readPairs_writePairs` — pairs are read back, whatever was escaped in their values
* `Listing.readMountedSubvolume_writeOptions` — the last two options count
* `Listing.readMountFields_of_printed`, `Listing.readMountLines_of_printed` — the fields of a line
  and the mounts of all lines are read back
-/

namespace BtrfsTopology.Listing

open Text HexEscape

/-! ## Pairs -/

/-- The text of a pair whose value is escaped already. -/
def writePair (key written : List Char) : List Char :=
  key ++ valueMark ++ written ++ quotationMark

/-- The text of pairs, with a space between each two. -/
def writePairs (pairs : List (List Char × List Char)) : List Char :=
  [' '].intercalate (pairs.map fun (key, written) => writePair key written)

/-- What can be a key. -/
def IsKey (key : List Char) : Prop :=
  key ≠ [] ∧ ∀ c ∈ key, c ≠ '=' ∧ isBlank c = false

instance (key : List Char) : Decidable (IsKey key) :=
  decidable_of_iff (key ≠ [] ∧ key.all (fun c => c ≠ '=' && !isBlank c) = true) (by simp [IsKey])

/-- Reading a value undoes every way of escaping it. -/
theorem readValue_of_escaped {text written : List Char} (h : Escaped text written) :
    readValue written = .ok text := by
  rw [readValue, decode_of_escaped h, Utf8.decode_encode]

/-- A text begins with a pair: a key, a value that is still escaped, and what is behind it. -/
inductive BeginsPair (s : List Char) : List Char → List Char → List Char → Prop where
  | mk {before afterKey value afterValue : List Char}
      (hcutKey : cutFirst? valueMark s = some (before, afterKey))
      (hkey : ((trim before).isEmpty || (trim before).any isBlank) = false)
      (hcutValue : cutFirst? quotationMark afterKey = some (value, afterValue)) :
      BeginsPair s (trim before) value afterValue

/-- The value of the pair that a text begins with is unescaped before what is behind is read. -/
theorem readPairs_of_beginsPair {s key value behind : List Char}
    (h : BeginsPair s key value behind) :
    readPairs s = (readValue value).bind fun text =>
      (readPairs (trimStart behind)).map fun pairs => (key, text) :: pairs := by
  cases h with
  | @mk before afterKey value behind hcutKey hkey hcutValue =>
    have hsome : s.isEmpty = false := by simp [eq_of_cutFirst? hcutKey, valueMark]
    rw [readPairs, if_neg (by simp [hsome])]
    split
    · next hcut =>
      rw [hcutKey] at hcut
      contradiction
    · next before' afterKey' hcut =>
      obtain ⟨rfl, rfl⟩ : before = before' ∧ afterKey = afterKey' := by simpa [hcutKey] using hcut
      rw [if_neg (by simp [hkey])]
      split
      · next hcut =>
        rw [hcutValue] at hcut
        contradiction
      · next value' behind' hcut =>
        obtain ⟨rfl, rfl⟩ : value = value' ∧ behind = behind' := by
          rw [hcutValue] at hcut
          simpa using hcut
        cases readValue value <;> rfl

/-- A pair is read off the front of a text. -/
theorem readPairs_writePair_append {key text written : List Char} (hkey : IsKey key)
    (hvalue : Escaped text written) (rest : List Char) :
    readPairs (writePair key written ++ rest) =
      (readPairs (trimStart rest)).map fun pairs => (key, text) :: pairs := by
  obtain ⟨hne, hchars⟩ := hkey
  -- The key has no equals sign and the value no quotation mark, so each cut is where it should be.
  have hcutKey : cutFirst? valueMark (writePair key written ++ rest) =
      some (key, written ++ quotationMark ++ rest) := by
    have hequals : '=' ∉ key := fun hmem => (hchars _ hmem).1 rfl
    simpa [writePair, valueMark] using
      cutFirst?_append hequals ['\x22'] (written ++ quotationMark ++ rest)
  have hcutValue : cutFirst? quotationMark (written ++ quotationMark ++ rest) =
      some (written, rest) :=
    cutFirst?_append (quotation_not_mem_of_escaped hvalue) [] rest
  have htrim : trim key = key :=
    trim_of_ends (fun c hc => (hchars c (List.mem_of_mem_head? hc)).2)
      fun c hc => (hchars c (List.mem_of_mem_getLast? hc)).2
  have hblank : key.any isBlank = false := List.any_eq_false.2 fun c hc => by simp [(hchars c hc).2]
  have hpair : BeginsPair (writePair key written ++ rest) key written rest := by
    have hpair := BeginsPair.mk hcutKey (by simp [htrim, hne, hblank]) hcutValue
    rwa [htrim] at hpair
  rw [readPairs_of_beginsPair hpair, readValue_of_escaped hvalue]
  rfl

/-- What is printed for a pair: its key, and its value escaped in some way. -/
def PrintsPair (pair printed : List Char × List Char) : Prop :=
  IsKey pair.1 ∧ printed.1 = pair.1 ∧ Escaped pair.2 printed.2

theorem writePairs_cons_cons (first second : List Char × List Char)
    (rest : List (List Char × List Char)) :
    writePairs (first :: second :: rest) =
      writePair first.1 first.2 ++ ' ' :: writePairs (second :: rest) := by
  simp [writePairs]

theorem head?_writePairs {pair : List Char × List Char} (hkey : pair.1 ≠ [])
    (rest : List (List Char × List Char)) : (writePairs (pair :: rest)).head? = pair.1.head? := by
  obtain ⟨c, key, hkey⟩ := List.exists_cons_of_ne_nil hkey
  cases rest with
  | nil => simp [writePairs, writePair, hkey]
  | cons next rest => simp [writePairs_cons_cons, writePair, hkey]

theorem getLast?_writePairs (pair : List Char × List Char) (rest : List (List Char × List Char)) :
    (writePairs (pair :: rest)).getLast? = some '\x22' := by
  induction rest generalizing pair with
  | nil => simp [writePairs, writePair, quotationMark]
  | cons next rest ih =>
    rw [writePairs_cons_cons, List.getLast?_append, List.getLast?_cons, ih next]
    rfl

/-- The key in front of a text of pairs begins with no blank. -/
theorem isBlank_head_writePairs {pair : List Char × List Char} (hkey : IsKey pair.1)
    (rest : List (List Char × List Char)) :
    ∀ c ∈ (writePairs (pair :: rest)).head?, isBlank c = false := by
  intro c hc
  rw [head?_writePairs hkey.1] at hc
  exact (hkey.2 c (List.mem_of_mem_head? hc)).2

theorem trim_writePairs {pair : List Char × List Char} (hkey : IsKey pair.1)
    (rest : List (List Char × List Char)) :
    trim (writePairs (pair :: rest)) = writePairs (pair :: rest) := by
  refine trim_of_ends (isBlank_head_writePairs hkey rest) ?_
  rw [getLast?_writePairs]
  rintro c ⟨⟩
  rfl

/-- Pairs are read back, whatever was escaped in their values. -/
theorem readPairs_writePairs {pairs printed : List (List Char × List Char)}
    (h : List.Forall₂ PrintsPair pairs printed) : readPairs (writePairs printed) = .ok pairs := by
  induction h with
  | nil =>
    rw [readPairs]
    rfl
  | @cons pair front pairs printed hpair hrest ih =>
    obtain ⟨hkey, hsame, hvalue⟩ := hpair
    cases hrest with
    | nil =>
      have hempty : readPairs (trimStart []) = .ok [] := ih
      have hstep := readPairs_writePair_append hkey hvalue []
      rw [List.append_nil, hempty] at hstep
      simpa [writePairs, hsame, Except.map] using hstep
    | @cons next second pairs printed hnext hrest =>
      -- The space in between is dropped, and nothing else, as the next key begins with no blank.
      have hblank : trimStart (' ' :: writePairs (second :: printed)) =
          writePairs (second :: printed) := by
        rw [trimStart, List.dropWhile_cons_of_pos (by decide), ← trimStart]
        exact trimStart_of_head (isBlank_head_writePairs (hnext.2.1 ▸ hnext.1) printed)
      rw [writePairs_cons_cons, hsame, readPairs_writePair_append hkey hvalue, hblank, ih]
      rfl

/-! ## Options -/

/-- The text of an option with a value. -/
def writeOption (name : String) (value : List Char) : List Char :=
  name.toList ++ '=' :: value

/-- The options of a mount: any others, then the identifier and the path of its subvolume. -/
def writeOptions (others : List (List Char)) (id : Nat) (path : List Char) : List Char :=
  [','].intercalate
    (others ++ [writeOption "subvolid" (writeWord id).toList, writeOption "subvol" path])

/-- The name of an option and its value, if it has one. -/
def readOption (option : List Char) : List Char × Option (List Char) :=
  match cutFirst? ['='] option with
  | some (name, value) => (name, some value)
  | none => (option, none)

theorem readOptions_intercalate {parts : List (List Char)} (hne : parts ≠ [])
    (hparts : ∀ part ∈ parts, ',' ∉ part) :
    readOptions ([','].intercalate parts) =
      (parts.filter fun option => !option.isEmpty).map readOption := by
  rw [readOptions, List.splitOn_intercalate ',' hparts hne]
  rfl

theorem readOption_writeOption (name : String) (hname : '=' ∉ name.toList) (value : List Char) :
    readOption (writeOption name value) = (name.toList, some value) := by
  have hcut : cutFirst? ['='] (writeOption name value) = some (name.toList, value) := by
    simpa [writeOption] using cutFirst?_append hname [] value
  rw [readOption, hcut]

/-- The last two options are read as they were written. -/
theorem readOptions_writeOptions {others : List (List Char)} {path : List Char}
    (hothers : ∀ option ∈ others, ',' ∉ option) (id : Nat) (hpath : ',' ∉ path) :
    ∃ before, readOptions (writeOptions others id path) =
      before ++
        [("subvolid".toList, some (writeWord id).toList), ("subvol".toList, some path)] := by
  have hid : ',' ∉ (writeWord id).toList := not_mem_writeWord rfl id
  have hparts : ∀ part ∈ others ++
      [writeOption "subvolid" (writeWord id).toList, writeOption "subvol" path], ',' ∉ part := by
    simp only [List.mem_append, List.mem_cons, List.not_mem_nil, or_false]
    rintro part (hpart | rfl | rfl)
    · exact hothers part hpart
    · simpa [writeOption] using hid
    · simpa [writeOption] using hpath
  rw [writeOptions, readOptions_intercalate (by simp) hparts, List.filter_append, List.map_append]
  refine ⟨_, congrArg _ ?_⟩
  -- An option with a name is not empty, so both are kept.
  have hsubvolid := readOption_writeOption "subvolid" (by decide) (writeWord id).toList
  have hsubvol := readOption_writeOption "subvol" (by decide) path
  have hnonempty (name : String) (value : List Char) :
      (writeOption name value).isEmpty = false := by simp [writeOption]
  simp only [List.filter_cons, hnonempty, Bool.not_false, ↓reduceIte, List.filter_nil,
    List.map_cons, List.map_nil, hsubvolid, hsubvol]

/-- Of the options of a mount, the last two name its subvolume. -/
theorem readMountedSubvolume_writeOptions {others : List (List Char)} {id : Nat}
    {path : List Char} (hothers : ∀ option ∈ others, ',' ∉ option) (hid : id < wordBound)
    (hpath : ',' ∉ path) :
    readMountedSubvolume (writeOptions others id path) =
      .ok (id, InternalPath.normalize (String.ofList path)) := by
  obtain ⟨before, hread⟩ := readOptions_writeOptions hothers id hpath
  -- Both options are found before a lookup from the end comes to the other ones.
  have hsubvolid : optionValue? "subvolid" (readOptions (writeOptions others id path)) =
      some (writeWord id).toList := by
    rw [hread, optionValue?, lastUnder?, List.reverse_append]
    rfl
  have hsubvol : optionValue? "subvol" (readOptions (writeOptions others id path)) = some path := by
    rw [hread, optionValue?, lastUnder?, List.reverse_append]
    rfl
  rw [readMountedSubvolume, hsubvolid]
  simp only [readWord_writeWord hid, hsubvol]

/-! ## Lines -/

/-- The four pairs of a record. -/
def fieldPairs (target source fstype options : List Char) : List (List Char × List Char) :=
  [("TARGET".toList, target), ("SOURCE".toList, source), ("FSTYPE".toList, fstype),
    ("OPTIONS".toList, options)]

/-- What a line may be for the fields of a record, each escaped in some way. -/
inductive PrintsFields (fields : MountFields) : List Char → Prop where
  | mk {target source fstype options : List Char}
      (htarget : Escaped fields.target target) (hsource : Escaped fields.source source)
      (hfstype : Escaped fields.fstype fstype) (hoptions : Escaped fields.options options) :
      PrintsFields fields (writePairs (fieldPairs target source fstype options))

/-- The line of fields in which the characters with a property are escaped. -/
def printFields (p : Char → Bool) (digits : List Char) (fields : MountFields) : List Char :=
  writePairs
    (fieldPairs (escapeWhere p digits fields.target) (escapeWhere p digits fields.source)
      (escapeWhere p digits fields.fstype) (escapeWhere p digits fields.options))

/-- All fields can be printed. -/
theorem printsFields_printFields {p : Char → Bool} (hp : ∀ c, MustEscape c → p c = true)
    {digits : List Char} (hdigits : digits = lowerDigits ∨ digits = upperDigits)
    (fields : MountFields) : PrintsFields fields (printFields p digits fields) :=
  .mk (escaped_escapeWhere hdigits hp _) (escaped_escapeWhere hdigits hp _)
    (escaped_escapeWhere hdigits hp _) (escaped_escapeWhere hdigits hp _)

theorem isKey_target : IsKey "TARGET".toList := by decide

/-- The fields of a line are read back. -/
theorem readMountFields_of_printed {fields : MountFields} {line : List Char}
    (h : PrintsFields fields line) : readMountFields line = .ok fields := by
  cases h with
  | @mk target source fstype options htarget hsource hfstype hoptions =>
    have hsourceKey : IsKey "SOURCE".toList := by decide
    have hfstypeKey : IsKey "FSTYPE".toList := by decide
    have hoptionsKey : IsKey "OPTIONS".toList := by decide
    have hprinted : List.Forall₂ PrintsPair
        (fieldPairs fields.target fields.source fields.fstype fields.options)
        (fieldPairs target source fstype options) :=
      .cons ⟨isKey_target, rfl, htarget⟩ (.cons ⟨hsourceKey, rfl, hsource⟩
        (.cons ⟨hfstypeKey, rfl, hfstype⟩ (.cons ⟨hoptionsKey, rfl, hoptions⟩ .nil)))
    have htrim : trim (writePairs (fieldPairs target source fstype options)) =
        writePairs (fieldPairs target source fstype options) := trim_writePairs isKey_target _
    rw [readMountFields, htrim, readPairs_writePairs hprinted]
    rfl

section Shape

variable {fields : MountFields} {line : List Char} (h : PrintsFields fields line)
include h

theorem not_isBlankText_of_printed : isBlankText line = false := by
  -- A line begins with the key of the target.
  cases h with
  | mk htarget _ _ _ => rfl

theorem dropReturn_of_printed : dropReturn line = line := by
  -- A line ends with the quotation mark of the options.
  cases h with
  | mk htarget _ _ _ => rw [dropReturn, fieldPairs, getLast?_writePairs, if_neg (by decide)]

theorem lineFeed_not_mem_of_printed : '\n' ∉ line := by
  cases h with
  | mk htarget hsource hfstype hoptions =>
    have htarget := lineFeed_not_mem_of_escaped htarget
    have hsource := lineFeed_not_mem_of_escaped hsource
    have hfstype := lineFeed_not_mem_of_escaped hfstype
    have hoptions := lineFeed_not_mem_of_escaped hoptions
    simp [writePairs, fieldPairs, writePair, valueMark, quotationMark, htarget, hsource,
      hfstype, hoptions]

end Shape

/-- The filesystem type whose mounts are of interest. -/
def btrfs : List Char :=
  ['b', 't', 'r', 'f', 's']

/-- What a line may be for a mount: its options name the subvolume last, and its path in the
filesystem is as the system gives it, not in normal form. -/
inductive PrintsMount : Mountpoint → List Char → Prop where
  | mk {m : Mountpoint} {line : List Char} (others : List (List Char))
      (hothers : ∀ option ∈ others, ',' ∉ option) (hid : m.subvolumeId < wordBound)
      (hpath : ',' ∉ m.subvolumePath.toList)
      (hline : PrintsFields
        ⟨m.path.text.toList, m.device.text.toList, btrfs,
          writeOptions others m.subvolumeId m.subvolumePath.toList⟩ line) :
      PrintsMount m line

/-- A mount with the path of its subvolume in normal form. -/
def normalized (m : Mountpoint) : Mountpoint :=
  { m with subvolumePath := InternalPath.normalize m.subvolumePath }

theorem PrintsMount.exists_fields {m : Mountpoint} {line : List Char} (h : PrintsMount m line) :
    ∃ fields, PrintsFields fields line := by
  cases h with
  | mk _ _ _ _ hline => exact ⟨_, hline⟩

theorem readMount_of_printed {m : Mountpoint} {line : List Char} (h : PrintsMount m line) :
    readMount line = .ok (some (normalized m)) := by
  cases h with
  | mk others hothers hid hpath hline =>
    rw [readMount, readMountFields_of_printed hline]
    simp only [btrfs, ↓reduceIte, readMountedSubvolume_writeOptions hothers hid hpath,
      String.ofList_toList]
    rfl

theorem readMount_of_foreign {fields : MountFields} {line : List Char}
    (h : PrintsFields fields line) (hfstype : fields.fstype ≠ btrfs) :
    readMount line = .ok none := by
  rw [readMount, readMountFields_of_printed h]
  exact if_neg hfstype

/-! ## Listings -/

/-- What the lines of a listing may be for the mounts in it. -/
inductive PrintsListing : List Mountpoint → List (List Char) → Prop where
  | nil : PrintsListing [] []
  | blank {mounts : List Mountpoint} {line : List Char} {lines : List (List Char)}
      (hblank : isBlankText line = true) (hline : '\n' ∉ line)
      (hrest : PrintsListing mounts lines) : PrintsListing mounts (line :: lines)
  /-- A mount of another filesystem type, with any options. -/
  | foreign {fields : MountFields} {mounts : List Mountpoint} {line : List Char}
      {lines : List (List Char)} (hfstype : fields.fstype ≠ btrfs)
      (hline : PrintsFields fields line) (hrest : PrintsListing mounts lines) :
      PrintsListing mounts (line :: lines)
  | mount {m : Mountpoint} {mounts : List Mountpoint} {line : List Char}
      {lines : List (List Char)} (hline : PrintsMount m line)
      (hrest : PrintsListing mounts lines) : PrintsListing (m :: mounts) (line :: lines)

/-- Blank lines are passed over. -/
theorem readMountLines_filter (lines : List (List Char)) :
    readMountLines (lines.filter fun line => !isBlankText line) = readMountLines lines := by
  induction lines with
  | nil => rfl
  | cons line lines ih =>
    by_cases hblank : isBlankText line = true
    · rw [List.filter_cons_of_neg (by simp [hblank]), ih, readMountLines, if_pos hblank]
    · rw [List.filter_cons_of_pos (by simp [hblank]), readMountLines, readMountLines, ih]

/-- The mounts of lines are those of the lines in front and of the lines behind. -/
theorem readMountLines_append (before after : List (List Char)) :
    readMountLines (before ++ after) =
      (readMountLines before).bind fun mounts => (readMountLines after).map (mounts ++ ·) := by
  induction before with
  | nil =>
    rw [List.nil_append, readMountLines]
    cases readMountLines after <;> rfl
  | cons line before ih =>
    rw [List.cons_append, readMountLines, readMountLines]
    split
    · exact ih
    · cases readMount line with
      | error e => rfl
      | ok mount =>
        simp only [ih]
        cases readMountLines before <;> cases readMountLines after <;> simp [Except.map, Except.bind]

/-- No line of a listing is broken in two, or ends with a carriage return that matters. -/
theorem PrintsListing.of_mem {mounts : List Mountpoint} {lines : List (List Char)}
    (h : PrintsListing mounts lines) {line : List Char} (hmem : line ∈ lines) :
    '\n' ∉ line ∧ (isBlankText line = true ∨ dropReturn line = line) := by
  induction h with
  | nil => contradiction
  | blank hblank hline _ ih =>
    rcases List.mem_cons.1 hmem with rfl | hmem
    · exact ⟨hline, .inl hblank⟩
    · exact ih hmem
  | foreign _ hline _ ih =>
    rcases List.mem_cons.1 hmem with rfl | hmem
    · exact ⟨lineFeed_not_mem_of_printed hline, .inr (dropReturn_of_printed hline)⟩
    · exact ih hmem
  | mount hline _ ih =>
    rcases List.mem_cons.1 hmem with rfl | hmem
    · obtain ⟨_, hfields⟩ := hline.exists_fields
      exact ⟨lineFeed_not_mem_of_printed hfields, .inr (dropReturn_of_printed hfields)⟩
    · exact ih hmem

/-- Line by line, the mounts are read and all else is passed over. -/
theorem readMountLines_of_printed {mounts : List Mountpoint} {lines : List (List Char)}
    (h : PrintsListing mounts lines) :
    readMountLines lines = .ok (mounts.map normalized) := by
  induction h with
  | nil => rfl
  | blank hblank _ _ ih => rw [readMountLines, if_pos hblank, ih]
  | foreign hfstype hline _ ih =>
    rw [readMountLines, not_isBlankText_of_printed hline, readMount_of_foreign hline hfstype, ih]
    rfl
  | mount hline _ ih =>
    obtain ⟨_, hfields⟩ := hline.exists_fields
    rw [readMountLines, not_isBlankText_of_printed hfields, readMount_of_printed hline, ih]
    rfl

/-- Reading a listing gives the mounts that it was printed for, in their order and with the paths of
their subvolumes in normal form, whatever their texts are and however they were escaped. -/
theorem readMounts_of_printed {mounts : List Mountpoint} {lines : List (List Char)}
    (h : PrintsListing mounts lines) :
    readMounts (String.ofList (['\n'].intercalate lines)) = .ok (mounts.map normalized) := by
  rw [readMounts, String.toList_ofList, lines_intercalate fun line hmem => (h.of_mem hmem).1,
    ← readMountLines_filter, filter_linesOfParts fun line hmem => (h.of_mem hmem).2,
    readMountLines_filter, readMountLines_of_printed h]

/-- A listing of two mounts and one of another type. In the first mount only what must be is
escaped, and its target has the text of an escape; in the second all is escaped. -/
theorem readMounts_of_printed_unusual :
    let first : Mountpoint :=
      ⟨⟨"/a \"b\" \\x41 = é\n"⟩, ⟨"/dev/v=g"⟩, 18446744073709551615, "<FS_TREE>//@a//b=c/"⟩
    let firstLine :=
      "TARGET=\"/a \\x22b\\x22 \\x5cx41 = é\\x0a\" SOURCE=\"/dev/v=g\" FSTYPE=\"btrfs\" ".toList ++
        "OPTIONS=\"rw,,a=b,subvolid=18446744073709551615,subvol=<FS_TREE>//@a//b=c/\"".toList
    let foreignLine :=
      "TARGET=\"FSTYPE=\\x22btrfs\\x22\" SOURCE=\"\" FSTYPE=\"tmpfs\" OPTIONS=\"subvolid=9\"".toList
    let second : Mountpoint := ⟨⟨"/é\\"⟩, ⟨"a"⟩, 0, ""⟩
    let secondLine :=
      "TARGET=\"\\x2F\\xC3\\xA9\\x5C\" SOURCE=\"\\x61\" ".toList ++
        "FSTYPE=\"\\x62\\x74\\x72\\x66\\x73\" ".toList ++
        "OPTIONS=\"\\x73\\x75\\x62\\x76\\x6F\\x6C\\x69\\x64\\x3D\\x30\\x2C".toList ++
        "\\x73\\x75\\x62\\x76\\x6F\\x6C\\x3D\"".toList
    let lines : List (List Char) :=
      [" \t\r".toList, firstLine, foreignLine, [], secondLine, []]
    PrintsListing [first, second] lines ∧
      readMounts (String.ofList (['\n'].intercalate lines)) =
        .ok [{ first with subvolumePath := "/@a/b=c" }, { second with subvolumePath := "/" }] := by
  intro first firstLine foreignLine second secondLine lines
  have hnecessary : ∀ c, MustEscape c → decide (MustEscape c) = true := fun _ => decide_eq_true
  have hfirst : PrintsMount first firstLine := by
    refine .mk ["rw".toList, [], "a=b".toList] (by decide) (by decide) (by decide) ?_
    have hline : firstLine = printFields (decide <| MustEscape ·) lowerDigits
        ⟨first.path.text.toList, first.device.text.toList, btrfs,
          writeOptions ["rw".toList, [], "a=b".toList] first.subvolumeId
            first.subvolumePath.toList⟩ := by decide +kernel
    exact hline ▸ printsFields_printFields hnecessary (.inl rfl) _
  have hforeign : PrintsFields
      ⟨"FSTYPE=\"btrfs\"".toList, [], "tmpfs".toList, "subvolid=9".toList⟩ foreignLine := by
    have hline : foreignLine = printFields (decide <| MustEscape ·) lowerDigits
        ⟨"FSTYPE=\"btrfs\"".toList, [], "tmpfs".toList, "subvolid=9".toList⟩ := by decide +kernel
    exact hline ▸ printsFields_printFields hnecessary (.inl rfl) _
  have hsecond : PrintsMount second secondLine := by
    refine .mk [] (by decide) (by decide) (by decide) ?_
    have hline : secondLine = printFields (fun _ => true) upperDigits
        ⟨second.path.text.toList, second.device.text.toList, btrfs,
          writeOptions [] second.subvolumeId second.subvolumePath.toList⟩ := by decide +kernel
    exact hline ▸ printsFields_printFields (fun _ _ => rfl) (.inr rfl) _
  have hlisting : PrintsListing [first, second] lines :=
    .blank (by decide) (by decide) <| .mount hfirst <| .foreign (by decide) hforeign <|
      .blank (by decide) (by decide) <| .mount hsecond <| .blank (by decide) (by decide) .nil
  have hnormalized : [first, second].map normalized =
      [{ first with subvolumePath := "/@a/b=c" }, { second with subvolumePath := "/" }] := by
    decide +kernel
  exact ⟨hlisting, hnormalized ▸ readMounts_of_printed hlisting⟩

end BtrfsTopology.Listing
