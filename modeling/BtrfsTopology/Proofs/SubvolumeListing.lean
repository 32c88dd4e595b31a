import BtrfsTopology.Filesystem.Basic
import BtrfsTopology.Listing.Subvolumes
import BtrfsTopology.Proofs.Blank
import BtrfsTopology.Proofs.Decimal
import BtrfsTopology.Proofs.SubvolumeTree

/-!
# Subvolume listings become trees

A row of the table has six columns between tabs, the fifth of them empty. Three are read and the
others may say anything. The rows may repeat an identifier and may list the top-level subvolume:
the reader passes the latter over and keeps the former, and the tree has the last of them.

## Main definitions

* `Listing.Row` — the columns of a row
* `Listing.PrintsRows` — what the lines below the heading may be for the rows

## Main results

* `Listing.readRow_write`, `Listing.readSubvolumes_of_printed` — rows are read back
* `Listing.get?_ofSubvolumes_listed` — the tree has the last row with each identifier
-/

namespace BtrfsTopology.Listing

open Text

/-- The columns of a row; the path is as the tool prints it, not in normal form. -/
structure Row where
  id : Nat
  generation : List Char
  parent : Nat
  top : List Char
  path : String

namespace Row

/-- What the columns of a row must be for the row to be read back. -/
@[mk_iff]
structure IsPrintable (row : Row) : Prop where
  id : row.id < wordBound
  generation : '\t' ∉ row.generation ∧ '\n' ∉ row.generation
  parent : row.parent < wordBound
  top : '\t' ∉ row.top ∧ '\n' ∉ row.top
  path : IsLineEnd row.path.toList
  path_tab : '\t' ∉ row.path.toList

instance (row : Row) : Decidable row.IsPrintable :=
  decidable_of_iff' _ (isPrintable_iff row)

/-- What stands between the tabs of a row. -/
def columns (row : Row) : List (List Char) :=
  [(writeWord row.id).toList, row.generation, (writeWord row.parent).toList, row.top, [],
    row.path.toList]

/-- The line of a row. -/
def write (row : Row) : List Char :=
  ['\t'].intercalate row.columns

/-- The subvolume that a row lists. -/
def subvolume (row : Row) : Subvolume :=
  .ofListed row.id row.path (some row.parent)

end Row

/-! ## Rows -/

theorem isBlank_of_isDigit {c : Char} (h : c.isDigit = true) : isBlank c = false := by
  simp only [Char.isDigit, Bool.and_eq_true, decide_eq_true_eq] at h
  have hlow : 48 ≤ c.toNat := h.1
  have hhigh : c.toNat ≤ 57 := h.2
  simp [isBlank, blankRanges]
  omega

theorem trim_writeWord (n : Nat) : trim (writeWord n).toList = (writeWord n).toList :=
  trim_of_ends
    (fun _ hc => isBlank_of_isDigit (isDigit_of_mem_writeWord (List.mem_of_mem_head? hc)))
    fun _ hc => isBlank_of_isDigit (isDigit_of_mem_writeWord (List.mem_of_mem_getLast? hc))

theorem readIdentifier_writeWord {n : Nat} (h : n < wordBound) (role : IdentifierRole) :
    readIdentifier role (writeWord n).toList = .ok n := by
  rw [readIdentifier, trim_writeWord, readWord_writeWord h]

section Row

variable {row : Row} (h : row.IsPrintable)
include h

/-- The columns of a row are read back. -/
theorem readRow_write :
    readRow row.write =
      .ok (if row.id = Subvolume.topLevelId then none else some row.subvolume) := by
  have hnumber : ∀ n, '\t' ∉ (writeWord n).toList := not_mem_writeWord rfl
  have hsplit : row.write.splitOn '\t' = row.columns := by
    apply List.splitOn_intercalate
    · simp [Row.columns, hnumber, h.generation.1, h.top.1, h.path_tab]
    · simp [Row.columns]
  rw [readRow, hsplit]
  simp only [Row.columns, readIdentifier_writeWord h.id, readIdentifier_writeWord h.parent,
    h.path.trim_eq, String.ofList_toList]
  split <;> rfl

theorem lineFeed_not_mem_write : '\n' ∉ row.write := by
  have hnumber : ∀ n, '\n' ∉ (writeWord n).toList := not_mem_writeWord rfl
  apply not_mem_intercalate (by decide)
  simp [Row.columns, hnumber, h.generation.2, h.top.2, h.path.lineFeed_not_mem]

omit h in
theorem exists_write_eq (row : Row) : ∃ front, row.write = front ++ row.path.toList :=
  ⟨['\t'].intercalate [(writeWord row.id).toList, row.generation, (writeWord row.parent).toList,
    row.top, [], []], by simp [Row.write, Row.columns]⟩

theorem isBlankText_write : isBlankText row.write = false := by
  obtain ⟨front, hwrite⟩ := exists_write_eq row
  rw [hwrite]
  exact h.path.isBlankText_append front

theorem dropReturn_write : dropReturn row.write = row.write := by
  obtain ⟨front, hwrite⟩ := exists_write_eq row
  rw [hwrite]
  exact dropReturn_of_last (h.path.isBlank_getLast front)

end Row

/-! ## Listings -/

/-- What the lines below the heading may be for the rows. Blank lines may stand anywhere. -/
inductive PrintsRows : List Row → List (List Char) → Prop where
  | nil : PrintsRows [] []
  | blank {rows : List Row} {line : List Char} {lines : List (List Char)}
      (hblank : isBlankText line = true) (hfeed : '\n' ∉ line) (hrest : PrintsRows rows lines) :
      PrintsRows rows (line :: lines)
  | row {row : Row} {rows : List Row} {lines : List (List Char)}
      (hrest : PrintsRows rows lines) : PrintsRows (row :: rows) (row.write :: lines)

/-- Blank rows are passed over. -/
theorem readRows_filter (lines : List (List Char)) :
    readRows (lines.filter fun line => !isBlankText line) = readRows lines := by
  induction lines with
  | nil => rfl
  | cons line lines ih =>
    by_cases hblank : isBlankText line = true
    · rw [List.filter_cons_of_neg (by simp [hblank]), ih, readRows, if_pos hblank]
    · rw [List.filter_cons_of_pos (by simp [hblank]), readRows, readRows, ih]

/-- No row is broken in two, or ends with a carriage return that matters. -/
theorem PrintsRows.of_mem {rows : List Row} {lines : List (List Char)}
    (h : PrintsRows rows lines) (hprintable : ∀ row ∈ rows, row.IsPrintable) :
    ∀ line ∈ lines, '\n' ∉ line ∧ (isBlankText line = true ∨ dropReturn line = line) := by
  induction h with
  | nil => exact fun _ hline => absurd hline List.not_mem_nil
  | blank hblank hfeed _ ih => exact List.forall_mem_cons.2 ⟨⟨hfeed, .inl hblank⟩, ih hprintable⟩
  | row _ ih =>
    obtain ⟨hrow, hprintable⟩ := List.forall_mem_cons.1 hprintable
    exact List.forall_mem_cons.2
      ⟨⟨lineFeed_not_mem_write hrow, .inr (dropReturn_write hrow)⟩, ih hprintable⟩

/-- The subvolumes that rows list below the top-level one. -/
def listed (rows : List Row) : List Subvolume :=
  (rows.filter fun row => row.id ≠ Subvolume.topLevelId).map Row.subvolume

theorem readRows_of_printed {rows : List Row} {lines : List (List Char)}
    (h : PrintsRows rows lines) (hprintable : ∀ row ∈ rows, row.IsPrintable) :
    readRows lines = .ok (listed rows) := by
  induction h with
  | nil => rfl
  | blank hblank _ _ ih => rw [readRows, if_pos hblank, ih hprintable]
  | @row row rows lines _ ih =>
    obtain ⟨hrow, hprintable⟩ := List.forall_mem_cons.1 hprintable
    rw [readRows, isBlankText_write hrow, readRow_write hrow, ih hprintable]
    by_cases hid : row.id = Subvolume.topLevelId <;> simp [listed, hid, Except.map]

theorem drop_linesOfParts (first second : List Char) (parts : List (List Char)) :
    (linesOfParts (first :: second :: parts)).drop 2 = linesOfParts parts := by
  cases parts with
  | nil =>
    -- The second line of the heading is the last part, and no line when it is empty.
    cases second <;> rfl
  | cons part parts => rfl

/-- Below any heading of two lines the rows are read back. -/
theorem readSubvolumes_of_printed {rows : List Row} {lines : List (List Char)}
    (h : PrintsRows rows lines) (hprintable : ∀ row ∈ rows, row.IsPrintable)
    {first second : List Char} (hfirst : '\n' ∉ first) (hsecond : '\n' ∉ second) :
    readSubvolumes (String.ofList (['\n'].intercalate (first :: second :: lines))) =
      .ok (.topLevel :: listed rows) := by
  have hlines := h.of_mem hprintable
  have hfeed : ∀ line ∈ first :: second :: lines, '\n' ∉ line :=
    List.forall_mem_cons.2 ⟨hfirst, List.forall_mem_cons.2 ⟨hsecond, fun line hline =>
      (hlines line hline).1⟩⟩
  rw [readSubvolumes, String.toList_ofList, lines_intercalate hfeed, drop_linesOfParts,
    ← readRows_filter, filter_linesOfParts fun line hline => (hlines line hline).2,
    readRows_filter, readRows_of_printed h hprintable]
  rfl

/-! ## Trees -/

/-- Of the rows with an identifier the last is in the tree of the listing. -/
theorem get?_ofSubvolumes_listed (rows : List Row) {id : Nat} (hid : id ≠ Subvolume.topLevelId) :
    (SubvolumeTree.ofSubvolumes (.topLevel :: listed rows)).get? id =
      (rows.reverse.find? fun row => row.id = id).map Row.subvolume := by
  have hroot : [Subvolume.topLevel].find? (fun s => s.id = id) = none := by
    simpa using fun h : Subvolume.topLevel.id = id => hid h.symm
  rw [SubvolumeTree.get?_ofSubvolumes _ hid, List.reverse_cons, List.find?_append, hroot,
    Option.or_none, listed, ← List.map_reverse, ← List.filter_reverse, List.find?_map,
    List.find?_filter]
  congr 2
  funext row
  -- A row that has this identifier is not one for the top level.
  by_cases hrow : row.id = id <;> simp [Row.subvolume, Subvolume.ofListed, hrow, hid]

/-- The row says all of a subvolume but its mounts. -/
theorem get?_attach_listed (rows : List Row) (mounts : MountTable) {id : Nat}
    (hid : id ≠ Subvolume.topLevelId) :
    ((SubvolumeTree.ofSubvolumes (.topLevel :: listed rows)).attach mounts).get? id =
      (rows.reverse.find? fun row => row.id = id).map fun row =>
        ⟨id, InternalPath.normalize row.path, some row.parent, mounts.forSubvolume id⟩ := by
  rw [SubvolumeTree.get?_attach, get?_ofSubvolumes_listed rows hid, Option.map_map]
  apply Option.map_congr
  intro row hrow
  obtain rfl : row.id = id := by simpa using List.find?_some hrow
  rfl

/-- A listing is read and becomes a tree. Reading gives the top-level subvolume and one subvolume
for each row that is not for the top level, in the order of the rows. The tree of a filesystem that
is updated with them has the top-level subvolume as it has to be and the listed identifiers, each
once and as the last row with it says; the mounts of each are those that the filesystem has of
it. -/
theorem updateSubvolumes_of_printed {rows : List Row} {lines : List (List Char)}
    (hprintable : ∀ row ∈ rows, row.IsPrintable) (h : PrintsRows rows lines)
    {first second : List Char} (hfirst : '\n' ∉ first) (hsecond : '\n' ∉ second) :
    readSubvolumes (String.ofList (['\n'].intercalate (first :: second :: lines))) =
      .ok (.topLevel :: listed rows) ∧
    ∀ fs : Filesystem,
      let tree := (fs.updateSubvolumes (.topLevel :: listed rows)).subvolumes
      (tree.toList.map Subvolume.id).Nodup ∧
      (∀ id, id ∈ tree.toList.map Subvolume.id ↔
        id = Subvolume.topLevelId ∨ id ∈ rows.map Row.id) ∧
      tree.get? Subvolume.topLevelId =
        some ⟨Subvolume.topLevelId, "/", none, fs.mounts.forSubvolume Subvolume.topLevelId⟩ ∧
      ∀ id, id ≠ Subvolume.topLevelId → tree.get? id =
        (rows.reverse.find? fun row => row.id = id).map fun row =>
          ⟨id, InternalPath.normalize row.path, some row.parent, fs.mounts.forSubvolume id⟩ := by
  refine ⟨readSubvolumes_of_printed h hprintable hfirst hsecond, ?_⟩
  intro fs tree
  have hkeyed : tree.IsKeyed := (SubvolumeTree.isKeyed_ofSubvolumes _).attach fs.mounts
  have hroot : tree.get? Subvolume.topLevelId =
      some ⟨Subvolume.topLevelId, "/", none, fs.mounts.forSubvolume Subvolume.topLevelId⟩ :=
    congrArg some ((SubvolumeTree.isKeyed_ofSubvolumes _).root_attach fs.mounts)
  have hother (id : Nat) (hid : id ≠ Subvolume.topLevelId) : tree.get? id =
      (rows.reverse.find? fun row => row.id = id).map fun row =>
        ⟨id, InternalPath.normalize row.path, some row.parent, fs.mounts.forSubvolume id⟩ :=
    get?_attach_listed rows fs.mounts hid
  refine ⟨hkeyed.nodup_ids, fun id => ?_, hroot, hother⟩
  rw [hkeyed.mem_ids_iff]
  by_cases hid : id = Subvolume.topLevelId
  · subst hid
    simp [hroot]
  · simp [hother id hid, hid]

/-- A listing that repeats an identifier, lists the top-level subvolume and has blank lines, for a
filesystem with one mount. -/
theorem updateSubvolumes_of_printed_repeated :
    let first : Row := ⟨256, "120".toList, 5, " 5".toList, "<FS_TREE>/@"⟩
    let odd : Row := ⟨5, [], 9, "x\r".toList, "odd"⟩
    let last : Row := ⟨256, "121".toList, 18446744073709551615, [], "@new//x/"⟩
    let lines : List (List Char) :=
      ["256\t120\t5\t 5\t\t<FS_TREE>/@".toList, " \t\r".toList, "5\t\t9\tx\r\t\todd".toList,
        "256\t121\t18446744073709551615\t\t\t@new//x/".toList, []]
    let subvolumes : List Subvolume :=
      [.topLevel, .ofListed 256 "/@" (some 5), .ofListed 256 "/@new/x" (some 18446744073709551615)]
    let mount : Mountpoint := ⟨⟨"/new"⟩, ⟨"/dev/sda"⟩, 256, "/@new/x"⟩
    let fs := (Filesystem.new "1111" none [⟨"/dev/sda"⟩]).updateMountpoints [mount]
    (∀ row ∈ [first, odd, last], row.IsPrintable) ∧ PrintsRows [first, odd, last] lines ∧
      readSubvolumes (String.ofList (['\n'].intercalate ("ID\tgen\r".toList :: [] :: lines))) =
        .ok subvolumes ∧
      (fs.updateSubvolumes subvolumes).subvolumes.get? 256 =
        some ⟨256, "/@new/x", some 18446744073709551615, [mount]⟩ := by
  intro first odd last lines subvolumes mount fs
  have hprintable : ∀ row ∈ [first, odd, last], row.IsPrintable := by decide +kernel
  have hrows : PrintsRows [first, odd, last] lines := by
    have hlines : lines = [first.write, " \t\r".toList, odd.write, last.write, []] := by
      decide +kernel
    rw [hlines]
    exact .row <| .blank (by decide) (by decide) <| .row <| .row <|
      .blank (by decide) (by decide) .nil
  have hlisted : .topLevel :: listed [first, odd, last] = subvolumes := by decide +kernel
  have hheading : '\n' ∉ "ID\tgen\r".toList := by decide
  obtain ⟨hread, htree⟩ :=
    updateSubvolumes_of_printed hprintable hrows hheading List.not_mem_nil
  obtain ⟨-, -, -, hother⟩ := htree fs
  rw [hlisted] at hread hother
  refine ⟨hprintable, hrows, hread, (hother 256 (by decide)).trans ?_⟩
  decide +kernel

end BtrfsTopology.Listing
