import BtrfsTopology.Error
import BtrfsTopology.Text.Split

/-!
# Internal paths

An internal path names a place in a filesystem's own namespace, starting from its top-level
subvolume. In normal form it is `/`, or each of its segments with one slash in front; a segment is
any text without a slash, `.` and `..` included. A listing may put the marker `<FS_TREE>` in front.

## Main definitions

* `InternalPath.segments` — the segments that a text has
* `InternalPath.ofSegments` — the normal form with given segments
* `InternalPath.normalize` — the normal form of a text
* `InternalPath.withAncestors` — a path and all paths above it, the root last
* `InternalPath.relativeChild` — what is left of a path behind its parent's
* `InternalPath.name` — the last segment of a normal form

## Main results

* `InternalPath.segments_ofSegments` — a normal form has the segments that it was made of
* `InternalPath.normalize_normalize` — a normal form is its own
-/

namespace BtrfsTopology.InternalPath

/-- A part of a path between slashes. -/
abbrev Segment := List Char

/-- What a listing puts in front of a path below the top-level subvolume. -/
def marker : List Char :=
  ['<', 'F', 'S', '_', 'T', 'R', 'E', 'E', '>']

/-- A text without the marker in front, one at most. -/
def dropMarker (raw : List Char) : List Char :=
  (marker.isPrefixOf? raw).getD raw

/-- The segments of a text: its parts between slashes that are not empty. -/
def segments (raw : String) : List Segment :=
  ((dropMarker raw.toList).splitOn '/').filter fun part => !part.isEmpty

/-- The normal form of a path with the given segments. -/
def ofSegments : List Segment → String
  | [] => "/"
  | segment :: rest => String.ofList ((segment :: rest).flatMap ('/' :: ·))

/-- The normal form of a text. -/
def normalize (raw : String) : String :=
  ofSegments (segments raw)

/-- The normal forms of a path and of all paths above it, given its segments from the last to the
first. -/
def ancestorsOfReversed : List Segment → List String
  | [] => [ofSegments []]
  | segment :: above => ofSegments (segment :: above).reverse :: ancestorsOfReversed above

/-- The normal forms of a path and of all paths above it, from the deepest to the root. -/
def withAncestors (raw : String) : List String :=
  ancestorsOfReversed (segments raw).reverse

/-- What follows `parent` in `child`, without slashes in front. The comparison is of texts, not of
segments. -/
def relativeChild (parent child : String) : Except TopologyError String :=
  match parent.toList.isPrefixOf? child.toList with
  | some rest => .ok (String.ofList (rest.dropWhile (· == '/')))
  | none => .error (.pathMismatch parent child)

/-- The text behind the last slash, which of the root is empty. -/
def name (path : String) : String :=
  String.ofList ((path.toList.splitOn '/').getLast?.getD [])

/-! ## Normal forms -/

/-- What can stand between two slashes of a normal form. -/
def IsSegment (segment : Segment) : Prop :=
  segment ≠ [] ∧ '/' ∉ segment

theorem isSegment_of_mem_segments {raw : String} {segment : Segment}
    (h : segment ∈ segments raw) : IsSegment segment := by
  rw [segments, List.mem_filter] at h
  exact ⟨by simpa using h.2, Text.not_mem_of_mem_splitOn h.1⟩

/-- The marker is no beginning of an absolute path. -/
theorem dropMarker_slash (s : List Char) : dropMarker ('/' :: s) = '/' :: s := rfl

/-- A slash between each two segments is one in front of each but the first. -/
theorem intercalate_segments (segment : Segment) (rest : List Segment) :
    ['/'].intercalate (segment :: rest) = segment ++ rest.flatMap ('/' :: ·) := by
  induction rest generalizing segment with
  | nil => simp
  | cons next rest ih => simp [ih]

/-- A normal form has the segments that it was made of. -/
theorem segments_ofSegments {segs : List Segment} (h : ∀ segment ∈ segs, IsSegment segment) :
    segments (ofSegments segs) = segs := by
  cases segs with
  | nil => rfl
  | cons segment rest =>
    -- The slash in front of the first segment has an empty part in front of it.
    have hparts : ∀ part ∈ [] :: segment :: rest, '/' ∉ part := by
      intro part hpart
      rcases List.mem_cons.1 hpart with rfl | hpart
      · exact List.not_mem_nil
      · exact (h part hpart).2
    have hsplit := List.splitOn_intercalate '/' hparts (List.cons_ne_nil _ _)
    rw [intercalate_segments, List.nil_append] at hsplit
    rw [segments, ofSegments, String.toList_ofList, List.flatMap_cons, List.cons_append,
      dropMarker_slash, ← List.cons_append, ← List.flatMap_cons, hsplit]
    simpa using fun other hother => (h other (List.mem_cons.2 hother)).1

/-- Normalising leaves the segments as they are. -/
@[simp] theorem segments_normalize (raw : String) : segments (normalize raw) = segments raw :=
  segments_ofSegments fun _ => isSegment_of_mem_segments

/-- A normal form is its own. -/
@[simp] theorem normalize_normalize (raw : String) : normalize (normalize raw) = normalize raw := by
  simp [normalize, segments_ofSegments fun _ => isSegment_of_mem_segments]

end BtrfsTopology.InternalPath
