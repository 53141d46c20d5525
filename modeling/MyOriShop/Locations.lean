import Mathlib.Algebra.BigOperators.Ring.Finset
import MyOriShop.Lib.Assoc
import MyOriShop.Lib.NaturalOrder
import MyOriShop.ListPages

/-!
# Locations: where the stock lies (`app/services/locations.py`)

A batch lies at its location, else at its comment, else at an unknown place. One page lists the places
with what lies there; asked for a place or a product, it lists the batches.

* `batchPlace`, `placeSortKey`, `openRows`, `placeSummary` and `listLocationsView` are the functions
  of these names.
* The digits of the character table, `sys.get_int_max_str_digits()` and the environment's `lower` are
  parameters. A query without `ORDER BY` gives the rows as they are stored.

Results:
* `places_divide_stock`: the places share out the open batches; the link of a place lists what the
  place counts.
* `locations_served_iff`: the page is served exactly when every open batch has a place whose label
  can be compared, whatever is asked.
* `numbered_places`: the places stand in the order of the numbers in them.
-/

namespace MyOriShop

open Lib.Text Lib.NaturalOrder Lib.Assoc Lib.Offset Lib.Sums

/-! ## Places -/

/-- `UNKNOWN_PLACE`. -/
def unknownPlace : String := "Место не указано"

/-- `batch_place`. -/
def batchPlace (b : Batch) : String :=
  let location := strip (b.location.getD "")
  let comment := strip (b.comment.getD "")
  if location ≠ "" then location else if comment ≠ "" then comment else unknownPlace

/-- An open batch with its product and warehouse. -/
structure OpenRow where
  batch : Batch
  product : Product
  warehouse : Warehouse

/-- `row["place"]`. -/
def OpenRow.place (r : OpenRow) : String := batchPlace r.batch

/-- The row of a batch: the joins drop one without a product or a warehouse. -/
def openRow (d : Db) (b : Batch) : Option OpenRow :=
  (d.find .product b.productId).bind fun p => (d.find .warehouse b.warehouseId).map fun w => ⟨b, p, w⟩

/-- `_open_rows`. -/
def openRows (env : Env) (d : Db) : List OpenRow :=
  (d.batches.filter fun b => decide (0 < b.quantity) && env.warehouseScope (some b.warehouseId)).filterMap
    (openRow d)

/-- What lies at a place. -/
structure PlaceTotals where
  batches : Nat
  quantity : Int
  deriving DecidableEq

/-- One more batch. -/
def PlaceTotals.add (totals : PlaceTotals) (r : OpenRow) : PlaceTotals :=
  ⟨totals.batches + 1, totals.quantity + r.batch.quantity⟩

/-- The totals of the places, in the order of the rows. -/
def placeTotals (rows : List OpenRow) : Dict String PlaceTotals :=
  rows.foldl (fun totals r => totals.modify r.place fun old => (old.getD ⟨0, 0⟩).add r) Dict.empty

variable (u : Digits) (limit : Nat) (env : Env)

/-- The key of a place: an unknown one comes last. -/
abbrev PlaceKey := Bool ×ₗ Key

/-- `place_sort_key`; `none` for `ValueError`. -/
def placeSortKey (place : String) : Option PlaceKey :=
  (naturalKey u env.lower limit place.toList).map fun k => toLex (decide (place = unknownPlace), k)

/-- `sorted(rows, key=…)` with a key that may raise. -/
def sortKeyed {α κ : Type} [LinearOrder κ] (key : α → Option κ) (rows : List α) : Option (List α) :=
  (rows.mapM fun a => (key a).map fun k => (k, a)).map fun keyed => (sortBy Prod.fst keyed).map Prod.snd

/-- `place_summary`. -/
def placeSummary (rows : List OpenRow) : Option (List (String × PlaceTotals)) :=
  sortKeyed (fun e => placeSortKey u limit env e.1) (placeTotals rows).entries

/-! ## The page -/

/-- What a page lists. -/
inductive LocationMode where
  | places
  | rows
  deriving DecidableEq

/-- What the page shows. -/
structure LocationPage where
  mode : LocationMode
  rows : List OpenRow
  placesPage : List (String × PlaceTotals)
  places : List (String × PlaceTotals)
  q : String
  place : String
  page : Nat
  total : Nat
  totalPages : Nat

/-- `r["product"].name_lc or r["product"].name.lower()`. -/
def OpenRow.nameKey (r : OpenRow) : String :=
  match r.product.nameLc with
  | none => env.lower r.product.name
  | some name => if name = "" then env.lower r.product.name else name

/-- The rows of a place, where one is asked for, that match the query, where there is one. -/
def askedRows (q place : String) (rows : List OpenRow) : List OpenRow :=
  let atPlace := if strip place = "" then rows else rows.filter fun r => r.place = strip place
  let needle := env.lower (strip q)
  if needle = "" then atPlace
  else atPlace.filter fun r =>
    occursIn needle (r.nameKey env) || occursIn needle (env.lower (r.product.code.getD ""))

/-- `rows.sort(key=…)`. -/
def sortedRows (rows : List OpenRow) : Option (List OpenRow) :=
  sortKeyed (fun r => (placeSortKey u limit env r.place).map fun k =>
    (toLex (k, toLex (r.nameKey env, r.batch.expiry.getD "")) : PlaceKey ×ₗ String ×ₗ String)) rows

/-- `list_locations_view`; `none` for `ValueError`. -/
def listLocationsView (d : Db) (q place : String) (page : Int) : Option LocationPage :=
  let rows := openRows env d
  (placeSummary u limit env rows).bind fun places =>
    if env.lower (strip q) = "" ∧ strip place = "" then
      let (shown, total, pages) := paginate places page
      some { mode := .places, rows := [], placesPage := shown, places, q, place := strip place
             page := clampPage page pages, total, totalPages := pages }
    else (sortedRows u limit env (askedRows env q place rows)).map fun listing =>
      let (shown, total, pages) := paginate listing page
      { mode := .rows, rows := shown, placesPage := [], places, q, place := strip place
        page := clampPage page pages, total, totalPages := pages }

/-! ## The totals -/

/-- What the rows at a place come to. -/
def totalsAt (rows : List OpenRow) (place : String) : PlaceTotals :=
  ⟨rows.countP fun r => r.place = place, sumOver (fun r => r.batch.quantity) (fun r => r.place = place) rows⟩

theorem totalsAt_append (rows : List OpenRow) (r : OpenRow) (place : String) :
    totalsAt (rows ++ [r]) place =
      if r.place = place then (totalsAt rows place).add r else totalsAt rows place := by
  unfold totalsAt PlaceTotals.add
  by_cases h : r.place = place <;> simp [sumOver_cons, h]

/-- The induction is on the rows from the end, as the loop adds them. -/
theorem get?_placeTotals (rows : List OpenRow) (place : String) : (placeTotals rows).get? place =
    if place ∈ rows.map OpenRow.place then some (totalsAt rows place) else none := by
  induction rows using List.reverseRecOn with
  | nil => rfl
  | append_singleton rows r ih =>
    have hstep : placeTotals (rows ++ [r]) =
        (placeTotals rows).modify r.place fun old => (old.getD ⟨0, 0⟩).add r := by
      simp [placeTotals, List.foldl_append]
    rw [hstep, Dict.get?_modify, totalsAt_append]
    by_cases h : place = r.place
    · subst h
      have hold : ((placeTotals rows).get? r.place).getD ⟨0, 0⟩ = totalsAt rows r.place := by
        rw [ih]
        split_ifs with hmem
        · rfl
        · have hnone : ∀ x ∈ rows, x.place ≠ r.place := fun x hx hxr =>
            hmem (hxr ▸ List.mem_map_of_mem hx)
          have hcount : rows.countP (fun x => x.place = r.place) = 0 :=
            List.countP_eq_zero.mpr fun x hx => by simpa using hnone x hx
          have hsum : sumOver (fun x : OpenRow => x.batch.quantity) (fun x => x.place = r.place) rows = 0 :=
            sumOver_eq_zero fun x hx hp => absurd (of_decide_eq_true hp) (hnone x hx)
          rw [totalsAt, hcount, hsum]
          rfl
      rw [if_pos rfl, hold]
      simp
    · have hne : r.place ≠ place := fun hr => h hr.symm
      rw [if_neg h, ih, if_neg hne, List.map_append, List.map_singleton]
      simp only [List.mem_append, List.mem_singleton, h, or_false]

theorem mem_placeTotals {rows : List OpenRow} {place : String} {totals : PlaceTotals} :
    (place, totals) ∈ (placeTotals rows).entries ↔
      place ∈ rows.map OpenRow.place ∧ totals = totalsAt rows place := by
  rw [← Dict.get?_eq_some, get?_placeTotals]
  split_ifs with h
  · simp [h, eq_comm]
  · simp [h]

/-! ## The places -/

section Summary

variable {u} {limit} {env} {rows : List OpenRow} {places : List (String × PlaceTotals)}

theorem mapM_option_iff {α β : Type} {f : α → Option β} {l : List α} {out : List β} :
    l.mapM f = some out ↔ List.Forall₂ (fun a b => f a = some b) l out := by
  induction l generalizing out with
  | nil =>
    rw [List.mapM_nil, List.forall₂_nil_left_iff]
    exact ⟨fun h => (Option.some.inj h).symm, fun h => h ▸ rfl⟩
  | cons a l ih =>
    rw [List.mapM_cons, List.forall₂_cons_left_iff]
    constructor
    · intro h
      obtain ⟨b, hb, h⟩ := Option.bind_eq_some_iff.mp h
      obtain ⟨bs, hbs, h⟩ := Option.bind_eq_some_iff.mp h
      exact ⟨b, bs, hb, ih.mp hbs, (Option.some.inj h).symm⟩
    · rintro ⟨b, bs, hb, hbs, rfl⟩
      exact Option.bind_eq_some_iff.mpr ⟨b, hb, Option.bind_eq_some_iff.mpr ⟨bs, ih.mpr hbs, rfl⟩⟩

/-- Rows that are given keys, in the order of the keys. -/
theorem keyed_sorted {α κ : Type} [LinearOrder κ] {key : α → Option κ} {l sorted : List α}
    (h : sortKeyed key l = some sorted) : sorted.Perm l ∧
      sorted.Pairwise fun a b => ∃ k k', key a = some k ∧ key b = some k' ∧ k ≤ k' := by
  obtain ⟨keyed, hkeyed, rfl⟩ := Option.map_eq_some_iff.mp h
  have hpairs := mapM_option_iff.mp hkeyed
  have hmem : ∀ p ∈ keyed, key p.2 = some p.1 := by
    intro p hp
    obtain ⟨a, -, ha⟩ := Lib.Fallible.forall₂_mem_right hpairs hp
    obtain ⟨k, hk, rfl⟩ := Option.map_eq_some_iff.mp ha
    exact hk
  have hrows : keyed.map Prod.snd = l := by
    refine List.forall₂_eq_eq_eq ▸ ?_
    rw [List.forall₂_map_left_iff]
    refine hpairs.flip.imp fun p a ha => ?_
    obtain ⟨k, -, rfl⟩ := Option.map_eq_some_iff.mp ha
    rfl
  have hperm : (sortBy Prod.fst keyed).Perm keyed := List.perm_insertionSort _ _
  refine ⟨hrows ▸ hperm.map Prod.snd, ?_⟩
  have hsorted : (sortBy Prod.fst keyed).Pairwise fun p q => p.1 ≤ q.1 :=
    List.pairwise_insertionSort _ _
  rw [List.pairwise_map]
  refine hsorted.imp_of_mem fun {p q} hp hq hle => ?_
  exact ⟨p.1, q.1, hmem p (hperm.mem_iff.mp hp), hmem q (hperm.mem_iff.mp hq), hle⟩

/-- Rows have keys exactly if each of them has. -/
theorem keyed_isSome {α κ : Type} [LinearOrder κ] {key : α → Option κ} {l : List α} :
    (sortKeyed key l).isSome ↔ ∀ a ∈ l, (key a).isSome := by
  unfold sortKeyed
  rw [Option.isSome_map]
  induction l with
  | nil => simp
  | cons a l ih =>
    rw [List.forall_mem_cons, ← ih, List.mapM_cons]
    cases key a <;> cases (l.mapM fun a => (key a).map fun k => (k, a)) <;> simp

/-- **The places**: each once, with its totals, in the order of their keys. -/
theorem placeSummary_some (h : placeSummary u limit env rows = some places) :
    (places.map Prod.fst).Nodup ∧
      (∀ place totals, (place, totals) ∈ places ↔
        place ∈ rows.map OpenRow.place ∧ totals = totalsAt rows place) ∧
      places.Pairwise fun a b => ∃ k k', placeSortKey u limit env a.1 = some k ∧
        placeSortKey u limit env b.1 = some k' ∧ k ≤ k' := by
  obtain ⟨hperm, hsorted⟩ := keyed_sorted h
  refine ⟨(hperm.map Prod.fst).nodup_iff.mpr (placeTotals rows).keys, fun place totals => ?_, hsorted⟩
  rw [hperm.mem_iff, mem_placeTotals]

end Summary

/-! ## What lies at a place -/

theorem strip_batchPlace (b : Batch) : strip (batchPlace b) = batchPlace b := by
  unfold batchPlace
  dsimp only
  split_ifs
  · exact strip_strip _
  · exact strip_strip _
  · decide

theorem batchPlace_ne_blank (b : Batch) : batchPlace b ≠ "" := by
  unfold batchPlace
  dsimp only
  split_ifs with hlocation hcomment
  · exact hlocation
  · exact hcomment
  · decide

variable {u} {limit} {env} {d : Db} {places : List (String × PlaceTotals)}

theorem find_of_ids {k : Kind} {id : String} (h : id ∈ d.ids k) : ∃ r, d.find k id = some r := by
  obtain ⟨r, hr, rfl⟩ := List.mem_map.mp h
  exact Option.isSome_iff_exists.mp (List.find?_isSome.mpr ⟨r, hr, decide_eq_true rfl⟩)

/-- The joins drop no batch of a database that satisfies its constraints. -/
theorem openRows_batches (hd : d.Ok) : (openRows env d).map OpenRow.batch =
    d.batches.filter fun b => decide (0 < b.quantity) && env.warehouseScope (some b.warehouseId) := by
  have hrow : ∀ b ∈ d.batches, ∃ r, openRow d b = some r ∧ r.batch = b := by
    intro b hb
    obtain ⟨p, hp⟩ := find_of_ids (hd.batchProduct b hb)
    obtain ⟨w, hw⟩ := find_of_ids (hd.batchWarehouse b hb)
    exact ⟨⟨b, p, w⟩, by rw [openRow, hp, hw]; rfl, rfl⟩
  unfold openRows
  generalize hkept : (d.batches.filter fun b =>
    decide (0 < b.quantity) && env.warehouseScope (some b.warehouseId)) = kept
  have hsub : ∀ b ∈ kept, b ∈ d.batches := fun b hb => List.mem_of_mem_filter (hkept ▸ hb)
  clear hkept
  induction kept with
  | nil => rfl
  | cons b kept ih =>
    obtain ⟨hb, hrest⟩ := List.forall_mem_cons.mp hsub
    obtain ⟨r, hr, hbatch⟩ := hrow b hb
    rw [List.filterMap_cons_some hr, List.map_cons, hbatch, ih hrest]

/-- The rows that a place's link asks for. -/
theorem askedRows_place (hlower : env.lower "" = "") (b : Batch) (rows : List OpenRow) :
    askedRows env "" (batchPlace b) rows = rows.filter fun r => r.place = batchPlace b := by
  have hq : env.lower (strip "") = "" := hlower
  unfold askedRows
  rw [strip_batchPlace]
  simp only [batchPlace_ne_blank, if_false, hq, if_true]

theorem placeSummary_isSome {rows : List OpenRow} : (placeSummary u limit env rows).isSome ↔
    ∀ r ∈ rows, (placeSortKey u limit env r.place).isSome := by
  rw [placeSummary, keyed_isSome]
  constructor
  · intro h r hr
    have hmem : (r.place, totalsAt rows r.place) ∈ (placeTotals rows).entries :=
      mem_placeTotals.mpr ⟨List.mem_map_of_mem hr, rfl⟩
    have hkey := h _ hmem
    dsimp only at hkey
    exact hkey
  · rintro h ⟨label, totals⟩ he
    obtain ⟨r, hr, hlabel⟩ := List.mem_map.mp (mem_placeTotals.mp he).1
    have hkey := h r hr
    rw [hlabel] at hkey
    exact hkey

/-- A page of rows, where every place can be compared. -/
theorem listLocationsView_rows (h : placeSummary u limit env (openRows env d) = some places)
    {q place : String} (hask : ¬(env.lower (strip q) = "" ∧ strip place = "")) :
    ∃ listing, sortedRows u limit env (askedRows env q place (openRows env d)) = some listing ∧
      ∀ page, ∃ v, listLocationsView u limit env d q place page = some v ∧
        v.totalPages = totalPages listing.length ∧ v.page = clampPage page v.totalPages ∧
        v.rows = slice listPageSize v.page listing := by
  have hkeys := placeSummary_isSome.mp (Option.isSome_iff_exists.mpr ⟨places, h⟩)
  have hsub : ∀ r ∈ askedRows env q place (openRows env d), r ∈ openRows env d := by
    intro r hr
    unfold askedRows at hr
    dsimp only at hr
    split_ifs at hr
    · exact hr
    · exact List.mem_of_mem_filter hr
    · exact List.mem_of_mem_filter hr
    · exact List.mem_of_mem_filter (List.mem_of_mem_filter hr)
  have hsome : (sortedRows u limit env (askedRows env q place (openRows env d))).isSome :=
    keyed_isSome.mpr fun r hr => by rw [Option.isSome_map]; exact hkeys r (hsub r hr)
  obtain ⟨listing, hlisting⟩ := Option.isSome_iff_exists.mp hsome
  refine ⟨listing, hlisting, fun page => ?_⟩
  unfold listLocationsView
  dsimp only
  rw [h, Option.bind_some, if_neg hask, hlisting]
  exact ⟨_, rfl, rfl, rfl, rfl⟩

theorem sumOver_all {α : Type} (w : α → Int) (l : List α) :
    sumOver w (fun _ => true) l = (l.map w).sum := by
  induction l with
  | nil => rfl
  | cons a l ih => rw [sumOver_cons, ih, List.map_cons, List.sum_cons, if_pos rfl]

theorem sumOver_one {α : Type} (p : α → Bool) (l : List α) :
    sumOver (fun _ => 1) p l = (l.countP p : Int) := by
  induction l with
  | nil => rfl
  | cons a l ih =>
    rw [sumOver_cons, ih, List.countP_cons]
    split_ifs <;> simp [Int.add_comm]

/-- **The places share out the stock.** Over every database that satisfies its constraints, where the
places can be compared: each place is listed once; the pieces of all places are the pieces of the open
batches of the viewer's warehouses, and their batches are counted once each; and the link of a place
lists, page by page, exactly the batches that the place counts. -/
theorem places_divide_stock (hd : d.Ok) (hlower : env.lower "" = "")
    (h : placeSummary u limit env (openRows env d) = some places) :
    (places.map Prod.fst).Nodup ∧
      (places.map fun e => e.2.quantity).sum = sumOver Batch.quantity
        (fun b => decide (0 < b.quantity) && env.warehouseScope (some b.warehouseId)) d.batches ∧
      (places.map fun e => e.2.batches).sum = d.batches.countP
        (fun b => decide (0 < b.quantity) && env.warehouseScope (some b.warehouseId)) ∧
      ∀ e ∈ places, ∃ listing,
        listing.Perm ((openRows env d).filter fun r => r.place = e.1) ∧
        listing.length = e.2.batches ∧
        (listing.map fun r => r.batch.quantity).sum = e.2.quantity ∧
        ∀ page, ∃ v, listLocationsView u limit env d "" e.1 page = some v ∧
          v.totalPages = totalPages listing.length ∧ v.page = clampPage page v.totalPages ∧
          v.rows = slice listPageSize v.page listing := by
  obtain ⟨hnodup, hmem, -⟩ := placeSummary_some h
  have hentry : ∀ e ∈ places, e.2 = totalsAt (openRows env d) e.1 := fun e he =>
    ((hmem e.1 e.2).mp he).2
  have hplace : ∀ r ∈ openRows env d, r.place ∈ places.map Prod.fst := by
    intro r hr
    have hlisted : (r.place, totalsAt (openRows env d) r.place) ∈ places :=
      (hmem _ _).mpr ⟨List.mem_map_of_mem hr, rfl⟩
    rw [List.mem_map]
    exact ⟨_, hlisted, by dsimp only⟩
  have hopen := @openRows_batches env d hd
  -- a figure of the rows, added up place by place
  have hsum : ∀ w : OpenRow → Int, (places.map fun e =>
      sumOver w (fun r => decide (r.place = e.1)) (openRows env d)).sum =
        sumOver w (fun _ => true) (openRows env d) := by
    intro w
    have hkeys := sum_sumOver_keys hnodup w (fun _ => true) OpenRow.place (openRows env d)
    rw [List.map_map] at hkeys
    refine (congrArg List.sum (List.map_congr_left fun e _ => ?_)).trans
      (hkeys.trans (sumOver_congr fun r hr _ => ?_))
    · exact sumOver_congr fun r _ _ => (Bool.true_and _).symm
    · rw [Bool.true_and, decide_eq_true (hplace r hr)]
  refine ⟨hnodup, ?_, ?_, fun e he => ?_⟩
  · have hrows : sumOver (fun r : OpenRow => r.batch.quantity) (fun _ => true) (openRows env d) =
        sumOver Batch.quantity (fun _ => true) ((openRows env d).map OpenRow.batch) :=
      (sumOver_map Batch.quantity (fun _ => true) OpenRow.batch _).symm
    rw [hopen, sumOver_filter] at hrows
    simp only [Bool.true_and] at hrows
    rw [← hrows, ← hsum]
    exact congrArg List.sum (List.map_congr_left fun e he => by rw [hentry e he]; rfl)
  · have hrows : ((openRows env d).length : Int) = d.batches.countP
        fun b => decide (0 < b.quantity) && env.warehouseScope (some b.warehouseId) := by
      rw [← List.length_map OpenRow.batch, hopen, ← List.countP_eq_length_filter]
    have hone := hsum fun _ => 1
    rw [sumOver_one, List.countP_true, hrows] at hone
    refine Int.natCast_inj.mp (Eq.trans ?_ hone)
    rw [Nat.cast_list_sum, List.map_map]
    refine congrArg List.sum (List.map_congr_left fun e he => ?_)
    rw [sumOver_one, Function.comp_apply, hentry e he]
    rfl
  · obtain ⟨r, -, hr⟩ := List.mem_map.mp ((hmem e.1 e.2).mp he).1
    have hlabel : e.1 = batchPlace r.batch := hr.symm
    have hask : ¬(env.lower (strip "") = "" ∧ strip e.1 = "") := by
      rw [hlabel, strip_batchPlace]
      exact fun hnone => batchPlace_ne_blank _ hnone.2
    obtain ⟨listing, hlisting, hpages⟩ := listLocationsView_rows h hask
    have hperm := (keyed_sorted hlisting).1
    rw [hlabel, askedRows_place hlower, ← hlabel] at hperm
    refine ⟨listing, hperm, ?_, ?_, hpages⟩
    · rw [hperm.length_eq, ← List.countP_eq_length_filter, hentry e he]
      rfl
    · rw [(hperm.map _).sum_eq, hentry e he]
      have hfilter := sumOver_filter (fun r : OpenRow => r.batch.quantity) (fun _ => true)
        (fun r => decide (r.place = e.1)) (openRows env d)
      simp only [Bool.true_and] at hfilter
      exact (sumOver_all _ _).symm.trans hfilter

/-- The digits of the ASCII table, and a superscript. -/
def fewDigits : Digits where
  decimal := Char.isDigit
  digit c := c.isDigit || c == '²'
  value c := c.toNat - 48
  digit_of_decimal c h := by rw [h, Bool.true_or]

/-- A batch at a place. -/
def lotAt (id : String) (location : Option String) (quantity : Int) : Batch :=
  { id, productId := "p", warehouseId := "w", expiry := none, priceCents := none, costCents := none
    location, comment := none, name := none, quantity, isLegacy := 0
    createdAt := "2026-01-01T00:00:00+00:00", updatedAt := "2026-01-01T00:00:00+00:00" }

/-- A shop with three lots: two on numbered shelves, one anywhere. -/
def shelves : Db where
  warehouses := [{ id := "w", name := "Shop", address := none, currency := "RUB"
                   createdAt := "t", updatedAt := "t", deletedAt := none }]
  products := [{ blankProduct "p" "t" with name := "Mascara" }]
  batches := [lotAt "b1" (some "полка 39") 2, lotAt "b2" (some "полка 5") 3, lotAt "b3" none 1]

theorem placeSummary_shelves : placeSummary fewDigits 4300 .sample (openRows .sample shelves) =
    some [("полка 5", ⟨1, 3⟩), ("полка 39", ⟨1, 2⟩), (unknownPlace, ⟨1, 1⟩)] := by decide +kernel

theorem places_divide_stock_shelves : ∃ listing : List OpenRow,
    (listing.map fun r => r.batch.quantity).sum = 2 ∧ ∀ page, ∃ v,
      listLocationsView fewDigits 4300 .sample shelves "" "полка 39" page = some v ∧
        v.rows = slice listPageSize v.page listing := by
  obtain ⟨-, -, -, hlink⟩ := places_divide_stock (by decide : shelves.Ok) rfl placeSummary_shelves
  obtain ⟨listing, -, -, hsum, hpages⟩ := hlink ("полка 39", ⟨1, 2⟩) (by simp)
  refine ⟨listing, hsum, fun page => ?_⟩
  obtain ⟨v, hv, -, -, hrows⟩ := hpages page
  exact ⟨v, hv, hrows⟩

/-! ## When the page is served -/

/-- A label that can be compared: no text between its numbers is all digits, as a superscript is, and
`int` reads every number. -/
def Comparable (u : Digits) (limit : Nat) (place : String) : Prop :=
  (∀ text ∈ texts (split u place.toList), text ≠ [] → ∃ c ∈ text, u.digit c = false) ∧
    ∀ number ∈ numbers (split u place.toList), number.length ≤ limit

theorem placeSortKey_isSome {place : String} :
    (placeSortKey u limit env place).isSome ↔ Comparable u limit place := by
  rw [placeSortKey, Option.isSome_map, naturalKey_isSome, Comparable]

/-- **When the page is served**: exactly when every open batch of the viewer's warehouses lies at a
place whose label can be compared, whatever is asked for; one other label takes every page away. -/
theorem locations_served_iff {q place : String} {page : Int} :
    (listLocationsView u limit env d q place page).isSome ↔
      ∀ r ∈ openRows env d, Comparable u limit r.place := by
  have hsummary : (placeSummary u limit env (openRows env d)).isSome ↔
      ∀ r ∈ openRows env d, Comparable u limit r.place := by
    rw [placeSummary_isSome]
    exact forall₂_congr fun r _ => placeSortKey_isSome
  rw [← hsummary]
  cases hplaces : placeSummary u limit env (openRows env d) with
  | none =>
    unfold listLocationsView
    dsimp only
    rw [hplaces, Option.bind_none]
    exact Iff.rfl
  | some places =>
    refine iff_of_true ?_ rfl
    by_cases hask : env.lower (strip q) = "" ∧ strip place = ""
    · unfold listLocationsView
      dsimp only
      rw [hplaces, Option.bind_some, if_pos hask]
      rfl
    · obtain ⟨listing, -, hpages⟩ := listLocationsView_rows hplaces hask
      obtain ⟨v, hv, -⟩ := hpages page
      rw [hv]
      rfl

/-! ## The order of the places -/

theorem places_of_view {q place : String} {page : Int} {v : LocationPage}
    (h : listLocationsView u limit env d q place page = some v) :
    placeSummary u limit env (openRows env d) = some v.places := by
  unfold listLocationsView at h
  obtain ⟨places, hplaces, h⟩ := Option.bind_eq_some_iff.mp h
  split_ifs at h
  · cases h
    exact hplaces
  · obtain ⟨listing, -, rfl⟩ := Option.map_eq_some_iff.mp h
    exact hplaces

/-- Where the keys ascend, the entry of a lesser key comes before the other. -/
theorem sublist_of_lt {α κ : Type} [LinearOrder κ] {key : α → Option κ} {l : List α} {a b : α}
    {k k' : κ} (h : l.Pairwise fun a b => ∃ k k', key a = some k ∧ key b = some k' ∧ k ≤ k')
    (ha : a ∈ l) (hb : b ∈ l) (hk : key a = some k) (hk' : key b = some k') (hlt : k < k') :
    [a, b].Sublist l := by
  obtain ⟨s, t, rfl⟩ := List.append_of_mem ha
  obtain ⟨-, -, hcross⟩ := List.pairwise_append.mp h
  rcases List.mem_append.mp hb with hs | ht
  · obtain ⟨i, j, hi, hj, hle⟩ := hcross b hs a List.mem_cons_self
    rw [hk', Option.some_inj] at hi
    rw [hk, Option.some_inj] at hj
    subst hi hj
    exact absurd hle (not_le.mpr hlt)
  · rcases List.mem_cons.mp ht with rfl | ht
    · rw [hk, Option.some_inj] at hk'
      exact absurd hlt (hk' ▸ lt_irrefl k)
    · exact ((List.singleton_sublist.mpr ht).cons_cons a).trans (List.sublist_append_right s _)

/-- **Numbered places**: of two places whose labels agree up to a number, the one with the smaller
number is listed first, however many digits the numbers have; the unknown place is the last. -/
theorem numbered_places {q place : String} {page : Int} {v : LocationPage}
    (h : listLocationsView u limit env d q place page = some v)
    {before m n after after' : List Char} (hbefore : EndsInText u before) (hm : m ≠ [])
    (hm' : ∀ c ∈ m, u.decimal c = true) (hn : n ≠ []) (hn' : ∀ c ∈ n, u.decimal c = true)
    (hafter : BeginsWithText u after) (hafter' : BeginsWithText u after')
    (hlt : number u m < number u n) (hknown : String.ofList (before ++ (m ++ after)) ≠ unknownPlace)
    (hmem : String.ofList (before ++ (m ++ after)) ∈ v.places.map Prod.fst)
    (hmem' : String.ofList (before ++ (n ++ after')) ∈ v.places.map Prod.fst) :
    [String.ofList (before ++ (m ++ after)), String.ofList (before ++ (n ++ after'))].Sublist
        (v.places.map Prod.fst) ∧
      (unknownPlace ∈ v.places.map Prod.fst →
        (v.places.map Prod.fst).getLast? = some unknownPlace) := by
  obtain ⟨hnodup, -, hsorted⟩ := placeSummary_some (places_of_view h)
  have hnames : (v.places.map Prod.fst).Pairwise fun a b => ∃ k k',
      placeSortKey u limit env a = some k ∧ placeSortKey u limit env b = some k' ∧ k ≤ k' :=
    List.pairwise_map.mpr hsorted
  have hkeys : ∀ e ∈ v.places.map Prod.fst, (placeSortKey u limit env e).isSome := by
    intro e he
    obtain ⟨p, hp, rfl⟩ := List.mem_map.mp he
    have hperm := (keyed_sorted (places_of_view h)).1
    exact keyed_isSome.mp (Option.isSome_iff_exists.mpr ⟨_, places_of_view h⟩) p (hperm.mem_iff.mp hp)
  refine ⟨?_, fun hunknown => ?_⟩
  · obtain ⟨k, hk⟩ := Option.isSome_iff_exists.mp (hkeys _ hmem)
    obtain ⟨k', hk'⟩ := Option.isSome_iff_exists.mp (hkeys _ hmem')
    refine sublist_of_lt hnames hmem hmem' hk hk' ?_
    obtain ⟨i, hi, rfl⟩ := Option.map_eq_some_iff.mp hk
    obtain ⟨j, hj, rfl⟩ := Option.map_eq_some_iff.mp hk'
    rw [String.toList_ofList] at hi hj
    rw [Prod.Lex.toLex_lt_toLex, decide_eq_false hknown]
    cases decide (String.ofList (before ++ (n ++ after')) = unknownPlace) with
    | true => exact .inl Bool.false_lt_true
    | false => exact .inr ⟨rfl, naturalKey_lt hbefore hm hm' hn hn' hafter hafter' hlt hi hj⟩
  · obtain ⟨s, t, hst⟩ := List.append_of_mem hunknown
    rw [hst] at hnodup hnames ⊢
    have hlast : t = [] := by
      rw [List.eq_nil_iff_forall_not_mem]
      intro x hx
      obtain ⟨-, hrest, -⟩ := List.pairwise_append.mp hnames
      obtain ⟨k, k', hk, hk', hle⟩ := (List.pairwise_cons.mp hrest).1 x hx
      obtain ⟨i, -, rfl⟩ := Option.map_eq_some_iff.mp hk
      obtain ⟨j, -, rfl⟩ := Option.map_eq_some_iff.mp hk'
      have hx' : x = unknownPlace := by
        by_contra hne
        rw [decide_eq_true rfl, decide_eq_false hne] at hle
        exact absurd hle (not_le.mpr (Prod.Lex.toLex_lt_toLex.mpr (.inl Bool.false_lt_true)))
      have hcons := (List.nodup_append.mp hnodup).2.1
      exact (List.nodup_cons.mp hcons).1 (hx' ▸ hx)
    rw [hlast, List.getLast?_append, List.getLast?_singleton]
    rfl
theorem numbered_places_shelves : ∃ v,
    listLocationsView fewDigits 4300 .sample shelves "" "" 0 = some v ∧
      ["полка 5", "полка 39"].Sublist (v.places.map Prod.fst) := by
  have hserved : (listLocationsView fewDigits 4300 .sample shelves "" "" 0).isSome = true := by
    decide +kernel
  obtain ⟨v, hv⟩ := Option.isSome_iff_exists.mp hserved
  have hplaces := places_of_view hv
  rw [placeSummary_shelves, Option.some_inj] at hplaces
  refine ⟨v, hv, ?_⟩
  have hbefore : EndsInText fewDigits "полка ".toList := by
    have hlast : "полка ".toList.getLast? = some ' ' := by decide
    rw [EndsInText, hlast]
    rintro _ ⟨⟩
    decide
  exact (@numbered_places _ _ _ _ _ _ _ _ hv "полка ".toList ['5'] ['3', '9'] [] [] hbefore
    (by decide) (List.all_eq_true.mp (by decide)) (by decide) (List.all_eq_true.mp (by decide))
    (fun _ h => nomatch h) (fun _ h => nomatch h) (by decide) (by decide)
    (by rw [← hplaces]; decide) (by rw [← hplaces]; decide)).1

end MyOriShop
