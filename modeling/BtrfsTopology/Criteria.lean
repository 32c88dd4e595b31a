import BtrfsTopology.VfsPath

/-!
# Selection criteria

## Main definitions

* `Criteria` — what a wanted filesystem is known by
* `Criteria.describe` — the one-line text of criteria
-/

namespace BtrfsTopology

/-- What a wanted filesystem is known by. A criterion that is not given is satisfied by all. -/
structure Criteria where
  uuid : Option String := none
  label : Option String := none
  device : Option VfsPath := none
  deriving DecidableEq, Repr

namespace Criteria

/-- Whether no criterion is given. -/
def isEmpty (c : Criteria) : Bool :=
  c.uuid.isNone && c.label.isNone && c.device.isNone

/-- The one-line text of criteria, with `-` for one that is not given. -/
def describe (c : Criteria) : String :=
  "uuid=" ++ c.uuid.getD "-" ++ " label=" ++ c.label.getD "-" ++ " device=" ++
    (c.device.map VfsPath.text).getD "-"

end Criteria

end BtrfsTopology
