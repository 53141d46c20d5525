import MyOriShop.History
import MyOriShop.Lib.Offset
import MyOriShop.Reports

/-!
# ListPages: the product, customer and warehouse lists (`app/services/pagination.py` and its callers)

`paginate` cuts one page out of a list and clamps the page number it is asked for, but hands back the
rows only. Each of the three views returns the number it was asked for as its `page`; `history_view`
returns the clamped one.

* `paginate` is `paginate`.
* `listProductsView`, `listCustomersView` and `listWarehouses` are the views of those names, each the
  matching rows in order (`filteredProducts` and so on) and a page of them.
* `Reports`: a view returns the number of the page that it shows, and its pages are the list.

Results:
* `pages_flatten`: the pages of a list make it up.
* `reports_iff`: a view that cuts its rows with `paginate` and returns the number it was given reports
  what it shows exactly for the numbers there are.
* `listViews_report_iff`: the three views.
* `not_reports`: the second page of an empty list.
-/

namespace MyOriShop

open Lib.Text Lib.Offset

/-! ## A page of a list -/

/-- `paginate`: the rows of the page, the length of the list and the number of pages. -/
def paginate {α : Type} (rows : List α) (page : Int) : List α × Nat × Nat :=
  let total := rows.length
  let pages := totalPages total
  let page := clampPage page pages
  let start := page * listPageSize
  ((rows.drop start).take listPageSize, total, pages)

theorem paginate_rows {α : Type} {rows : List α} {k : Nat} (hk : k < totalPages rows.length) :
    (paginate rows k).1 = slice listPageSize k rows := by
  show (rows.drop (clampPage k _ * listPageSize)).take listPageSize = _
  rw [clampPage_of_lt hk]
  rfl

/-- **The pages of a list make it up.** -/
theorem pages_flatten {α : Type} (rows : List α) :
    ((List.range (totalPages rows.length)).flatMap fun (k : Nat) => (paginate rows k).1) = rows := by
  have hpages : ∀ k ∈ List.range (totalPages rows.length),
      (paginate rows k).1 = slice listPageSize k rows :=
    fun k hk => paginate_rows (List.mem_range.mp hk)
  rw [List.flatMap_congr hpages, flatMap_slice (totalPages_holds _)]

/-- What a view returns: a page, and the filters it was asked with. -/
structure ListPage (Q α : Type) where
  rows : List α
  total : Nat
  totalPages : Nat
  page : Int
  query : Q

/-- The rows with a text that contains the needle, and every row for an empty needle. -/
def containing {α : Type} (needle : String) (text : α → String) (rows : List α) : List α :=
  if needle = "" then rows else rows.filter fun r => occursIn needle (text r)

/-- `rows.sort(key=…)`. -/
def sortBy {α κ : Type} [LE κ] [DecidableLE κ] (key : α → κ) (rows : List α) : List α :=
  rows.insertionSort fun a b => key a ≤ key b

/-- `rows.sort(key=…, reverse=True)`, where rows with equal keys stay in their order. -/
def sortByDesc {α κ : Type} [LE κ] [DecidableLE κ] (key : α → κ) (rows : List α) : List α :=
  rows.insertionSort fun a b => key b ≤ key a

/-! ## Products -/

/-- The filters of the product list. -/
structure ProductQuery where
  code : String := ""
  name : String := ""
  category : String := ""
  sort : String := ""

/-- The product list, filtered and sorted. -/
def filteredProducts (env : Env) (d : Db) (q : ProductQuery) : List Product :=
  let rows := d.products.filter fun p => p.deletedAt.isNone
  let rows := containing (env.lower (strip q.code)) (fun p => env.lower (p.code.getD "")) rows
  let rows := containing (env.lower (strip q.name)) (fun p => p.nameLc.getD "") rows
  let rows := containing (env.lower (strip q.category)) (fun p => env.lower (p.category.getD "")) rows
  if q.sort = "name_desc" then sortByDesc (fun p : Product => p.nameLc.getD "") rows
  else if q.sort = "code" then sortBy (fun p : Product => env.lower (p.code.getD "")) rows
  else sortBy (fun p : Product => p.nameLc.getD "") rows

/-- `list_products_view`. -/
def listProductsView (env : Env) (d : Db) (q : ProductQuery) (page : Int) :
    ListPage ProductQuery Product :=
  let (pageRows, total, pages) := paginate (filteredProducts env d q) page
  { rows := pageRows, total := total, totalPages := pages, page := page, query := q }

/-! ## Customers -/

/-- The filters of the customer list. -/
structure CustomerQuery where
  name : String := ""
  surname : String := ""
  consultantNumber : String := ""
  sort : String := ""

/-- The filters without the white space around them. -/
def CustomerQuery.stripped (q : CustomerQuery) : CustomerQuery :=
  { q with name := strip q.name, surname := strip q.surname
           consultantNumber := strip q.consultantNumber }

/-- The customer list, filtered and sorted. -/
def filteredCustomers (env : Env) (d : Db) (q : CustomerQuery) : List Customer :=
  let q := q.stripped
  let matching (needle : String) (text : Customer → String) (rows : List Customer) :=
    if needle = "" then rows else rows.filter fun c => occursIn (env.lower needle) (env.lower (text c))
  let rows := matching q.name Customer.name d.customers
  let rows := matching q.surname (fun c => c.surname.getD "") rows
  let rows := matching q.consultantNumber (fun c => c.consultantNumber.getD "") rows
  if q.sort = "surname" then sortBy (fun c : Customer => env.lower (c.surname.getD "")) rows
  else if q.sort = "consultant_number" then
    sortBy (fun c : Customer => env.lower (c.consultantNumber.getD "")) rows
  else sortBy (fun c : Customer => env.lower c.name) rows

/-- `list_customers_view`. -/
def listCustomersView (env : Env) (d : Db) (q : CustomerQuery) (page : Int) :
    ListPage CustomerQuery Customer :=
  let (pageRows, total, pages) := paginate (filteredCustomers env d q) page
  { rows := pageRows, total := total, totalPages := pages, page := page, query := q.stripped }

/-! ## Warehouses -/

/-- The filters of the warehouse list. -/
structure WarehouseQuery where
  name : String := ""
  address : String := ""
  status : String := ""
  sort : String := ""

/-- The warehouse list, filtered and sorted. -/
def filteredWarehouses (env : Env) (d : Db) (q : WarehouseQuery) : List Warehouse :=
  let rows :=
    if q.status = "deleted" then d.warehouses.filter fun w => w.deletedAt.isSome
    else if q.status = "all" then d.warehouses
    else d.warehouses.filter fun w => w.deletedAt.isNone
  let matching (needle : String) (text : Warehouse → String) (rows : List Warehouse) :=
    -- a filter of white space only is not empty, and what it looks for is in every text
    if needle = "" then rows
    else rows.filter fun w => occursIn (env.lower (strip needle)) (env.lower (text w))
  let rows := matching q.name Warehouse.name rows
  let rows := matching q.address (fun w => w.address.getD "") rows
  if q.sort = "name_asc" then sortBy (fun w : Warehouse => env.lower w.name) rows
  else if q.sort = "name_desc" then sortByDesc (fun w : Warehouse => env.lower w.name) rows
  else sortBy (fun w : Warehouse => toLex (w.deletedAt.isSome, w.name)) rows

/-- A warehouse of a page, with the number of its products and the day of its last receipt. -/
structure ListedWarehouse where
  warehouse : Warehouse
  itemCount : Nat
  lastReceipt : Option String

/-- The two figures of a warehouse. -/
def listedWarehouse (d : Db) (w : Warehouse) : ListedWarehouse where
  warehouse := w
  itemCount := ((d.batches.filter fun b => b.warehouseId = w.id && 0 < b.quantity).map
    Batch.productId).dedup.length
  lastReceipt :=
    let ids := (d.batches.filter fun b => b.warehouseId = w.id).map Batch.id
    ((d.operations.filter fun o => o.type = "receipt" && o.batchId.any (· ∈ ids)).map
      Operation.day).max?

/-- `list_warehouses`. -/
def listWarehouses (env : Env) (d : Db) (q : WarehouseQuery) (page : Int) :
    ListPage WarehouseQuery ListedWarehouse :=
  let (pageRows, total, pages) := paginate (filteredWarehouses env d q) page
  { rows := pageRows.map (listedWarehouse d), total := total, totalPages := pages, page := page
    query := q }

/-! ## What a view reports -/

/-- A view returns the number of the page that it shows, one that there is, and its pages are the
list. -/
structure Reports {Q α : Type} (rows : List α) (view : Int → ListPage Q α) (page : Int) : Prop where
  number : 0 ≤ (view page).page ∧ (view page).page ≤ (view page).totalPages - 1
  shown : (view page).rows = slice listPageSize (view page).page.toNat rows
  total : (view page).total = rows.length
  walk : ((List.range (view page).totalPages).flatMap fun (k : Nat) => (view k).rows) = rows

/-- A view that cuts its rows with `paginate`, and returns the number it is given. -/
structure Cuts {Q α : Type} (rows : List α) (view : Int → ListPage Q α) : Prop where
  shown : ∀ page, (view page).rows = (paginate rows page).1
  total : ∀ page, (view page).total = rows.length
  totalPages : ∀ page, (view page).totalPages = MyOriShop.totalPages rows.length
  page : ∀ page, (view page).page = page

/-- The numbers of the pages that there are. -/
def IsPage {α : Type} (rows : List α) (page : Int) : Prop :=
  0 ≤ page ∧ page < totalPages rows.length

/-- Such a view reports what it shows exactly for the numbers there are. -/
theorem reports_iff {Q α : Type} {rows : List α} {view : Int → ListPage Q α} (h : Cuts rows view)
    (page : Int) : Reports rows view page ↔ IsPage rows page := by
  constructor
  · intro hreports
    have hnumber := hreports.number
    rw [h.page, h.totalPages] at hnumber
    exact ⟨hnumber.1, by omega⟩
  · rintro ⟨hfrom, hto⟩
    obtain ⟨k, rfl⟩ := Int.eq_ofNat_of_zero_le hfrom
    have hk : k < totalPages rows.length := by omega
    refine ⟨?_, ?_, h.total _, ?_⟩
    · rw [h.page, h.totalPages]
      omega
    · rw [h.shown, h.page, Int.toNat_natCast, paginate_rows hk]
    · rw [h.totalPages, List.flatMap_congr fun (k : Nat) _ => h.shown k, pages_flatten]

variable {env : Env} {d : Db}

theorem cuts_products (q : ProductQuery) :
    Cuts (filteredProducts env d q) (listProductsView env d q) :=
  ⟨fun _ => rfl, fun _ => rfl, fun _ => rfl, fun _ => rfl⟩

theorem cuts_customers (q : CustomerQuery) :
    Cuts (filteredCustomers env d q) (listCustomersView env d q) :=
  ⟨fun _ => rfl, fun _ => rfl, fun _ => rfl, fun _ => rfl⟩

theorem cuts_warehouses (q : WarehouseQuery) :
    Cuts ((filteredWarehouses env d q).map (listedWarehouse d)) (listWarehouses env d q) where
  shown page := by
    show List.map _ ((_ : List Warehouse).take _) = _
    unfold paginate
    rw [List.map_take, List.map_drop, List.length_map]
  total _ := (List.length_map _).symm
  totalPages _ := congrArg totalPages (List.length_map _).symm
  page _ := rfl

/-- **The three lists** report the page they show exactly for the numbers of the pages that there
are. -/
theorem listViews_report_iff (env : Env) (d : Db) (products : ProductQuery)
    (customers : CustomerQuery) (warehouses : WarehouseQuery) (page : Int) :
    (Reports (filteredProducts env d products) (listProductsView env d products) page ↔
      IsPage (filteredProducts env d products) page) ∧
    (Reports (filteredCustomers env d customers) (listCustomersView env d customers) page ↔
      IsPage (filteredCustomers env d customers) page) ∧
    (Reports ((filteredWarehouses env d warehouses).map (listedWarehouse d))
        (listWarehouses env d warehouses) page ↔
      IsPage (filteredWarehouses env d warehouses) page) := by
  refine ⟨reports_iff (cuts_products _) _, reports_iff (cuts_customers _) _, ?_⟩
  rw [reports_iff (cuts_warehouses _)]
  unfold IsPage
  rw [List.length_map]

/-- The second page of an empty list is the first one, and is reported as the second. -/
theorem not_reports :
    ¬ ∀ (env : Env) (d : Db) (q : ProductQuery) (page : Int),
      Reports (filteredProducts env d q) (listProductsView env d q) page := fun h =>
  absurd (h Env.sample {} {} 1).number.2 (by decide)

end MyOriShop
