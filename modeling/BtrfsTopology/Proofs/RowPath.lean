import BtrfsTopology.Proofs.InternalPath
import BtrfsTopology.Proofs.SubvolumeListing

/-!
# How much of a listed path is read

The path is the last thing in a row and may have any character in it but a line feed and a slash
inside a name. The reader takes the sixth column without its outer blanks, so that a path is cut at
its first tab and loses the blanks at either end of what is left. Neither the marker nor a slash is
blank, hence the normal form of a path has all its blanks, and a path that is not read whole is read
as another one. Several rows may then be read as subvolumes at the same path.

## Main definitions

* `Listing.readRowId` — the identifier that a row begins with
* `Listing.pathText` — the text behind the fifth tab of a row
* `Listing.keptPath` — what is read of that text
* `Listing.HasWholePath` — nothing of that text is left out

## Main results

* `InternalPath.countP_normalize` — a normal form has the blanks of its text
* `Listing.normalize_keptPath_eq_iff` — when a path is read as it is
* `Listing.exists_of_readRow` — what a row that can be read consists of
* `Listing.path_of_listed_row` — what every row of a listing is read as
-/

namespace BtrfsTopology

/-! ## Joined parts -/

namespace Text

variable {separator : Char} {part : List Char} {parts : List (List Char)}

/-- There is one separator less than parts. -/
theorem count_intercalate (hne : parts ≠ []) (h : ∀ part ∈ parts, separator ∉ part) :
    ([separator].intercalate parts).count separator + 1 = parts.length := by
  induction parts with
  | nil => contradiction
  | cons part parts ih =>
    have hpart := List.count_eq_zero.2 (h part List.mem_cons_self)
    cases parts with
    | nil => simp [hpart]
    | cons next parts =>
      have hrest := ih (List.cons_ne_nil next parts) fun other hother =>
        h other (List.mem_cons_of_mem part hother)
      simp only [List.intercalate_cons_cons, List.append_assoc, List.singleton_append,
        List.count_append, hpart, List.count_cons_self, List.length_cons] at hrest ⊢
      omega

/-- The first part ends at the first separator. -/
theorem takeWhile_intercalate (h : separator ∉ part) (parts : List (List Char)) :
    ([separator].intercalate (part :: parts)).takeWhile (· ≠ separator) = part := by
  have hpart : ∀ c ∈ part, decide (c ≠ separator) = true := fun c hc => by
    simpa using ne_of_mem_of_not_mem hc h
  cases parts with
  | nil => rw [List.intercalate_singleton, List.takeWhile_eq_self_iff.2 hpart]
  | cons next parts =>
    rw [List.intercalate_cons_cons, List.append_assoc, List.takeWhile_append_of_pos hpart]
    simp

/-- Joining adds nothing but separators. -/
theorem countP_intercalate {p : Char → Bool} (hp : p separator = false) (parts : List (List Char)) :
    ([separator].intercalate parts).countP p = parts.flatten.countP p := by
  induction parts with
  | nil => rfl
  | cons part parts ih =>
    cases parts with
    | nil => simp
    | cons next parts => simpa [hp] using ih

/-- Trimming takes blanks off at either end. -/
theorem exists_trim_eq (s : List Char) :
    ∃ front back, s = front ++ trim s ++ back ∧ (∀ c ∈ front, isBlank c = true) ∧
      ∀ c ∈ back, isBlank c = true := by
  refine ⟨s.takeWhile isBlank, ((trimStart s).reverse.takeWhile isBlank).reverse, ?_,
    fun c => List.mem_takeWhile_imp, fun c hc => List.mem_takeWhile_imp (List.mem_reverse.1 hc)⟩
  rw [List.append_assoc, trim, trimEnd, ← List.reverse_append, List.takeWhile_append_dropWhile,
    List.reverse_reverse, trimStart, List.takeWhile_append_dropWhile]

end Text

/-! ## Blanks of a normal form -/

namespace InternalPath

variable {p : Char → Bool}

theorem countP_ofSegments (hslash : p '/' = false) (segs : List Segment) :
    (ofSegments segs).toList.countP p = segs.flatten.countP p := by
  cases segs with
  | nil => simp [ofSegments, hslash]
  | cons segment rest =>
    rw [toList_ofSegments (List.cons_ne_nil segment rest), ← Text.countP_intercalate hslash,
      intercalate_segments]
    simp [hslash]

theorem countP_dropMarker (hmarker : ∀ c ∈ marker, p c = false) (text : List Char) :
    (dropMarker text).countP p = text.countP p := by
  rw [dropMarker]
  cases hdrop : marker.isPrefixOf? text with
  | none => rfl
  | some rest =>
    have hzero : marker.countP p = 0 := List.countP_eq_zero.2 (by simpa using hmarker)
    rw [← List.isPrefixOf?_eq_some_iff_append_eq.1 hdrop, List.countP_append, hzero, Nat.zero_add]
    rfl

/-- A normal form has the characters of its text that are no slashes and not in the marker, each as
often. -/
theorem countP_normalize (hslash : p '/' = false) (hmarker : ∀ c ∈ marker, p c = false)
    (raw : String) : (normalize raw).toList.countP p = raw.toList.countP p := by
  rw [normalize, countP_ofSegments hslash, segments, List.flatten_filter_not_isEmpty,
    ← Text.countP_intercalate hslash, List.intercalate_splitOn, countP_dropMarker hmarker]

end InternalPath

namespace Listing

open InternalPath Text

variable {row line : List Char} {above below : List (List Char)} {subvolumes : List Subvolume}

/-- The identifier that a row begins with. -/
def readRowId (row : List Char) : Except LineFault Nat :=
  readIdentifier .subvolume (row.takeWhile (· ≠ '\t'))

/-- The text of a row behind its fifth tab. -/
def pathText (row : List Char) : List Char :=
  ['\t'].intercalate ((row.splitOn '\t').drop 5)

/-- What is read of that text: what stands in front of its first tab, without outer blanks. -/
def keptPath (row : List Char) : List Char :=
  trim ((pathText row).takeWhile (· ≠ '\t'))

/-- The text has no tab and no outer blanks. -/
def HasWholePath (row : List Char) : Prop :=
  '\t' ∉ pathText row ∧ trim (pathText row) = pathText row

instance : DecidablePred HasWholePath := fun row =>
  inferInstanceAs (Decidable ('\t' ∉ pathText row ∧ trim (pathText row) = pathText row))

/-! ## The path of a row -/

/-- What is not read begins with a blank, on either side. -/
theorem exists_pathText_eq (row : List Char) :
    ∃ front back, pathText row = front ++ keptPath row ++ back ∧
      (∀ c ∈ front.head?, isBlank c = true) ∧ ∀ c ∈ back.head?, isBlank c = true := by
  obtain ⟨front, back, hcolumn, hfront, hback⟩ :=
    exists_trim_eq ((pathText row).takeWhile (· ≠ '\t'))
  refine ⟨front, back ++ (pathText row).dropWhile (· ≠ '\t'), ?_,
    fun c hc => hfront c (List.mem_of_mem_head? hc), fun c hc => ?_⟩
  · calc pathText row
      _ = (pathText row).takeWhile (· ≠ '\t') ++ (pathText row).dropWhile (· ≠ '\t') :=
        List.takeWhile_append_dropWhile.symm
      _ = front ++ keptPath row ++ back ++ (pathText row).dropWhile (· ≠ '\t') :=
        congrArg (· ++ _) hcolumn
      _ = _ := List.append_assoc _ _ _
  · cases back with
    | cons d back =>
      obtain rfl : d = c := Option.some.inj hc
      exact hback d List.mem_cons_self
    | nil =>
      -- Behind the column there is a tab, if anything.
      have htab := List.head?_dropWhile_not (fun c => decide (c ≠ '\t')) (pathText row)
      rw [List.nil_append] at hc
      rw [hc] at htab
      obtain rfl : c = '\t' := by simpa using htab
      decide

theorem tab_not_mem_keptPath (row : List Char) : '\t' ∉ keptPath row := by
  intro hmem
  obtain ⟨front, back, hcolumn, -⟩ := exists_trim_eq ((pathText row).takeWhile (· ≠ '\t'))
  have htab : '\t' ∈ (pathText row).takeWhile (· ≠ '\t') := by
    rw [hcolumn]
    exact List.mem_append_left _ (List.mem_append_right _ hmem)
  simpa using List.mem_takeWhile_imp htab

theorem keptPath_of_tab_not_mem (h : '\t' ∉ pathText row) : keptPath row = trim (pathText row) := by
  rw [keptPath, List.takeWhile_eq_self_iff.2]
  exact fun c hc => by simpa using ne_of_mem_of_not_mem hc h

theorem keptPath_eq_iff : keptPath row = pathText row ↔ HasWholePath row := by
  constructor
  · intro h
    have htab : '\t' ∉ pathText row := h ▸ tab_not_mem_keptPath row
    exact ⟨htab, (keptPath_of_tab_not_mem htab).symm.trans h⟩
  · rintro ⟨htab, htrim⟩
    exact (keptPath_of_tab_not_mem htab).trans htrim

theorem isBlank_of_mem_marker : ∀ c ∈ marker, isBlank c = false := by
  simp [marker, isBlank, blankRanges]

/-- A path that is not read whole is read as another one: some of its blanks are missing. -/
theorem normalize_keptPath_eq_iff :
    normalize (String.ofList (keptPath row)) = normalize (String.ofList (pathText row)) ↔
      HasWholePath row := by
  rw [← keptPath_eq_iff]
  constructor
  · intro h
    have hblanks (text : List Char) :
        (normalize (String.ofList text)).toList.countP isBlank = text.countP isBlank := by
      rw [countP_normalize (by decide) isBlank_of_mem_marker, String.toList_ofList]
    obtain ⟨front, back, hrow, hfront, hback⟩ := exists_pathText_eq row
    -- What is left out on either side begins with a blank, but no blank is missing.
    have hcount : (keptPath row).countP isBlank = (pathText row).countP isBlank := by
      rw [← hblanks, h, hblanks]
    rw [hrow, List.countP_append, List.countP_append] at hcount
    have hnil {s : List Char} (hhead : ∀ c ∈ s.head?, isBlank c = true)
        (hzero : s.countP isBlank = 0) : s = [] := by
      cases s with
      | nil => rfl
      | cons c s => simp [hhead c rfl] at hzero
    rw [hrow, hnil hfront (by omega), hnil hback (by omega), List.nil_append, List.append_nil]
  · exact fun h => congrArg (fun text => normalize (String.ofList text)) h

/-! ## Rows that can be read -/

/-- A row with more than five columns has five tabs in front of the text of its path, and of this
the sixth column is read. -/
theorem columns_of_row {columns more : List (List Char)} {path : List Char}
    (hlength : columns.length = 5) (hsplit : row.splitOn '\t' = columns ++ path :: more) :
    row = ['\t'].intercalate columns ++ '\t' :: pathText row ∧
      (['\t'].intercalate columns).count '\t' = 4 ∧ keptPath row = trim path := by
  have hne : columns ≠ [] := List.ne_nil_of_length_pos (by omega)
  have hcolumns : ∀ column ∈ columns ++ path :: more, '\t' ∉ column := fun column hcolumn =>
    not_mem_of_mem_splitOn (hsplit ▸ hcolumn : column ∈ row.splitOn '\t')
  have hpathText : pathText row = ['\t'].intercalate (path :: more) := by
    rw [pathText, hsplit, ← hlength, List.drop_left]
  refine ⟨?_, ?_, ?_⟩
  · rw [hpathText, ← intercalate_append_cons hne, ← hsplit, List.intercalate_splitOn]
  · have hcount := count_intercalate hne fun column hcolumn =>
      hcolumns column (List.mem_append_left _ hcolumn)
    omega
  · have hpath : '\t' ∉ path := hcolumns path (List.mem_append_right _ List.mem_cons_self)
    rw [keptPath, hpathText, takeWhile_intercalate hpath]

/-- A row that can be read has five tabs at least. Its identifier is in front of the first one, and
of its path the reader keeps what there is in front of a further one. -/
theorem exists_of_readRow {result : Option Subvolume} (h : readRow row = .ok result) :
    ∃ front id parent, row = front ++ '\t' :: pathText row ∧ front.count '\t' = 4 ∧
      readRowId row = .ok id ∧
      result = if id = Subvolume.topLevelId then none
        else some (.ofListed id (String.ofList (keptPath row)) (some parent)) := by
  rw [readRow] at h
  split at h
  · next idColumn generation parentColumn top gap path more hsplit =>
    have hcolumns : row.splitOn '\t' =
        [idColumn, generation, parentColumn, top, gap] ++ path :: more := hsplit
    obtain ⟨hrow, hcount, hkept⟩ := columns_of_row rfl hcolumns
    have hid : row.takeWhile (· ≠ '\t') = idColumn := by
      have hmem : idColumn ∈ row.splitOn '\t' := hsplit ▸ List.mem_cons_self
      have hjoined : ['\t'].intercalate (row.splitOn '\t') = row := List.intercalate_splitOn '\t'
      rw [← hjoined, hsplit, takeWhile_intercalate (not_mem_of_mem_splitOn hmem)]
    split at h
    · contradiction
    · next id hidColumn =>
      split at h
      · contradiction
      · next parent _ =>
        refine ⟨_, id, parent, hrow, hcount, by rw [readRowId, hid, hidColumn], ?_⟩
        rw [hkept]
        split at h
        · next htop => rw [← Except.ok.inj h, if_pos htop]
        · next htop => rw [← Except.ok.inj h, if_neg htop]
  · contradiction

/-- The rows in front are read as they are alone, and so are those behind. -/
theorem readRows_append (above below : List (List Char)) :
    readRows (above ++ below) =
      (readRows above).bind fun subvolumes => (readRows below).map (subvolumes ++ ·) := by
  induction above with
  | nil =>
    rw [List.nil_append, readRows]
    cases readRows below <;> rfl
  | cons row above ih =>
    rw [List.cons_append, readRows, readRows]
    split
    · exact ih
    · cases readRow row with
      | error fault => rfl
      | ok subvolume =>
        simp only [ih]
        cases readRows above <;> cases readRows below <;> simp [Except.map, Except.bind]

/-- A row among others that is not blank is read in its place. -/
theorem exists_of_readRows (h : readRows (above ++ line :: below) = .ok subvolumes)
    (hblank : isBlankText line = false) :
    ∃ before result after, readRows above = .ok before ∧ readRow line = .ok result ∧
      readRows below = .ok after ∧ subvolumes = before ++ (result.toList ++ after) := by
  rw [readRows_append, readRows, hblank] at h
  cases habove : readRows above with
  | error e => simp [habove, Except.bind] at h
  | ok before =>
    cases hline : readRow line with
    | error fault => simp [habove, hline, Except.bind, Except.map] at h
    | ok result =>
      cases hbelow : readRows below with
      | error e => simp [habove, hline, hbelow, Except.bind, Except.map] at h
      | ok after =>
        simp only [habove, hline, hbelow, Except.bind, Except.map, Bool.false_eq_true, ↓reduceIte,
          Except.ok.injEq] at h
        exact ⟨before, result, after, rfl, rfl, rfl, h.symm⟩

/-- What is read of rows is what is kept of their paths. -/
theorem path_of_readRow {s : Subvolume} (h : readRow row = .ok (some s)) :
    s.path = normalize (String.ofList (keptPath row)) := by
  obtain ⟨front, id, parent, -, -, -, hs⟩ := exists_of_readRow h
  split at hs
  · contradiction
  · rw [Option.some.inj hs, Subvolume.ofListed]

/-- Rows whose paths are read whole are read as subvolumes at one path just if they name one. -/
theorem path_eq_iff_of_hasWholePath {s s' : Subvolume} {line' : List Char}
    (hs : readRow line = .ok (some s)) (hs' : readRow line' = .ok (some s'))
    (hwhole : HasWholePath line) (hwhole' : HasWholePath line') :
    s.path = s'.path ↔
      normalize (String.ofList (pathText line)) = normalize (String.ofList (pathText line')) := by
  rw [path_of_readRow hs, path_of_readRow hs', keptPath_eq_iff.2 hwhole, keptPath_eq_iff.2 hwhole']

/-- In a listing that can be read, every row below the heading that is not blank has an identifier
in front of its first tab and at least five tabs. A row of the top-level subvolume is passed over.
Any other is read, in its place, as a subvolume with its identifier. The path of this one is what is
kept of the text behind the fifth tab. It is the normal form of that text just if the text has no
further tab and no blank at either end. Rows of which this is true are read as subvolumes at one
path just if they name one path. -/
theorem path_of_listed_row {listing : String} (h : readSubvolumes listing = .ok subvolumes)
    (hlines : (lines listing.toList).drop 2 = above ++ line :: below)
    (hblank : isBlankText line = false) :
    ∃ front id before after, line = front ++ '\t' :: pathText line ∧ front.count '\t' = 4 ∧
      readRowId line = .ok id ∧ readRows above = .ok before ∧ readRows below = .ok after ∧
      (id = Subvolume.topLevelId → subvolumes = .topLevel :: (before ++ after)) ∧
      (id ≠ Subvolume.topLevelId → ∃ s, readRow line = .ok (some s) ∧
        subvolumes = .topLevel :: (before ++ s :: after) ∧ s.id = id ∧
        s.path = normalize (String.ofList (keptPath line)) ∧
        (s.path = normalize (String.ofList (pathText line)) ↔
          '\t' ∉ pathText line ∧ trim (pathText line) = pathText line) ∧
        ∀ line' s', readRow line' = .ok (some s') → HasWholePath line → HasWholePath line' →
          (s.path = s'.path ↔ normalize (String.ofList (pathText line)) =
            normalize (String.ofList (pathText line')))) := by
  rw [readSubvolumes, hlines] at h
  cases hrows : readRows (above ++ line :: below) with
  | error e => simp [hrows, Except.map] at h
  | ok rest =>
    rw [hrows] at h
    obtain rfl := Except.ok.inj h
    obtain ⟨before, result, after, habove, hline, hbelow, rfl⟩ := exists_of_readRows hrows hblank
    obtain ⟨front, id, parent, hrow, hcount, hid, rfl⟩ := exists_of_readRow hline
    refine ⟨front, id, before, after, hrow, hcount, hid, habove, hbelow, fun htop => ?_,
      fun htop => ?_⟩
    · rw [if_pos htop]
      rfl
    · rw [if_neg htop] at hline ⊢
      refine ⟨_, hline, rfl, rfl, path_of_readRow hline, ?_, fun line' s' hs' =>
        path_eq_iff_of_hasWholePath hline hs'⟩
      rw [path_of_readRow hline]
      exact normalize_keptPath_eq_iff

/-- A row whose path is read whole, between one of the top-level subvolume and one whose path is
not. -/
theorem path_of_listed_row_whole :
    let listing := "ID\tgen\n--\t---\n5\t9\t5\t5\t\t/x\n" ++
      "256\t9\t5\t5\t\t<FS_TREE>/a b//c\n257\t9\t5\t5\t\t d\te \n"
    let line := "256\t9\t5\t5\t\t<FS_TREE>/a b//c".toList
    readSubvolumes listing =
        .ok [.topLevel, .ofListed 256 "/a b/c" (some 5), .ofListed 257 "/d" (some 5)] ∧
      pathText line = "<FS_TREE>/a b//c".toList ∧ HasWholePath line ∧
      ∃ s, readRow line = .ok (some s) ∧
        s.path = normalize (String.ofList "<FS_TREE>/a b//c".toList) := by
  intro listing line
  have hread : readSubvolumes listing =
      .ok [.topLevel, .ofListed 256 "/a b/c" (some 5), .ofListed 257 "/d" (some 5)] := by
    decide +kernel
  have hlines : (lines listing.toList).drop 2 = ["5\t9\t5\t5\t\t/x".toList] ++
      line :: ["257\t9\t5\t5\t\t d\te ".toList] := by decide +kernel
  have hpath : pathText line = "<FS_TREE>/a b//c".toList := by decide +kernel
  have hwhole : HasWholePath line := by decide +kernel
  have hid : readRowId line = .ok 256 := by decide +kernel
  obtain ⟨front, id, before, after, -, -, hid', -, -, -, hother⟩ :=
    path_of_listed_row hread hlines (by decide)
  obtain rfl := Except.ok.inj (hid.symm.trans hid')
  obtain ⟨s, hs, -, -, -, hiff, -⟩ := hother (by decide)
  exact ⟨hread, hpath, hwhole, s, hs, hpath ▸ hiff.2 hwhole⟩

/-- Three rows with different paths, one of which goes on with a blank and one with a tab, are read
as subvolumes at one path. -/
theorem not_distinct_of_listed_blanks :
    let plain := "256\t10\t5\t5\t\t/a".toList
    let blank := "257\t11\t5\t5\t\t/a ".toList
    let tabbed := "258\t12\t5\t5\t\t/a\tb".toList
    let listing := "ID\tgen\tparent\ttop level\tpath\n--\t---\t------\t---------\t----\n" ++
      "256\t10\t5\t5\t\t/a\n257\t11\t5\t5\t\t/a \n258\t12\t5\t5\t\t/a\tb\n"
    (lines listing.toList).drop 2 = [plain, blank, tabbed] ∧
      readSubvolumes listing = .ok [.topLevel, .ofListed 256 "/a" (some 5),
        .ofListed 257 "/a" (some 5), .ofListed 258 "/a" (some 5)] ∧
      normalize (String.ofList (pathText plain)) = "/a" ∧
      normalize (String.ofList (pathText blank)) = "/a " ∧
      normalize (String.ofList (pathText tabbed)) = "/a\tb" := by
  decide +kernel

end Listing

end BtrfsTopology
