import Mathlib.Data.Prod.Lex
import MyOriShop.Lib.Offset
import MyOriShop.PriceUpsert

/-!
# Pricing: the lookups in the price history (`app/services/pricing.py`, `app/core.py`)

Every lookup asks for the newest issue first, `ORDER BY year DESC, number DESC`. Rows of one issue
have equal keys, and the database may return them in any order.

* `PriceOrder` is how the database orders results.
* `latestPriceForCode`, `latestPricesForCodes` and `referencePricesForCode` are the lookups of those
  names; `rubSuggestion` is `rub_suggestion`.

Results:
* `lookup_firstSeen`: keeping the first row of each code is finding it.
* `order_filter`: within one code there is one order only.
* `latestPrices_agree`: the lookup for many codes answers for each of them what the lookup for one
  answers, and for no other code.
-/

namespace MyOriShop

open Lib.Text Lib.Offset

/-! ## The order of the rows -/

def CatalogPrice.code (row : CatalogPrice) : String := row.key.2.2

/-- Year and number of the issue. -/
def CatalogPrice.issue (row : CatalogPrice) : Int ×ₗ Int := toLex (row.key.1, row.key.2.1)

/-- `ORDER BY year DESC, number DESC` allows one row before another. -/
def newerFirst (row row' : CatalogPrice) : Prop := row'.issue ≤ row.issue

/-- How the database orders results. -/
structure PriceOrder where
  order : List CatalogPrice → List CatalogPrice
  ordering : ∀ rows, Ordering newerFirst rows (order rows)

instance : DecidableRel newerFirst := fun row row' => by
  unfold newerFirst
  infer_instance

instance : Std.Total newerFirst where
  total row row' := le_total row'.issue row.issue

instance : IsTrans CatalogPrice newerFirst where
  trans _ _ _ h h' := h'.trans h

/-- A database that leaves rows of one issue as they are stored. -/
def storedFirst : PriceOrder where
  order := List.insertionSort newerFirst
  ordering := ordering_insertionSort

/-! ## The lookups -/

/-- The price pair of a row: the consultant's and the consumer's. -/
def CatalogPrice.pair (row : CatalogPrice) : Option Int × Option Int :=
  (row.fields .consultantCents, row.fields .consumerCents)

/-- `latest_price_for_code`. -/
def latestPriceForCode (db : PriceOrder) (table : List CatalogPrice) (code : String) :
    Option CatalogPrice :=
  let code := strip code
  if code = "" then none else (db.order (table.filter fun row => row.code = code)).head?

/-- The first row of each code, as a dictionary. -/
def firstSeen (rows : List CatalogPrice) : List (String × Option Int × Option Int) :=
  rows.foldl
    (fun result row =>
      if (result.lookup row.code).isSome then result else result ++ [(row.code, row.pair)]) []

/-- The codes of a list that are not blank, stripped. -/
def wantedCodes (codes : List String) : List String :=
  (codes.filter fun c => c ≠ "" && strip c ≠ "").map strip

/-- `latest_prices_for_codes`. -/
def latestPricesForCodes (db : PriceOrder) (table : List CatalogPrice) (codes : List String) :
    List (String × Option Int × Option Int) :=
  let wanted := wantedCodes codes
  if wanted = [] then [] else firstSeen (db.order (table.filter fun row => row.code ∈ wanted))

/-- `rub_suggestion`: half of a rouble price or a hundredth of it, rounded half up. -/
def rubSuggestion (rubCents : Option Int) (currency : String) : Option Int :=
  rubCents.map fun cents =>
    let divisor : Nat := if currency = "UAH" then 2 else if currency = "EUR" then 100 else 1
    cents.sign * ((2 * cents.natAbs + divisor) / (2 * divisor) : Nat)

/-- `reference_prices_for_code`. -/
def referencePricesForCode (db : PriceOrder) (table : List CatalogPrice) (code currency : String) :
    Option Int × Option Int :=
  match latestPriceForCode db table code with
  | none => (none, none)
  | some row =>
    (rubSuggestion (row.fields .consultantCents) currency,
      rubSuggestion (row.fields .consumerCents) currency)

/-! ## The first row of a code -/

variable {rows : List CatalogPrice} {code : String}

theorem lookup_keepFirst (result : List (String × Option Int × Option Int))
    (rows : List CatalogPrice) (code : String) :
    (rows.foldl
      (fun result row =>
        if (result.lookup row.code).isSome then result else result ++ [(row.code, row.pair)])
      result).lookup code =
      (result.lookup code).or ((rows.find? fun row => row.code = code).map CatalogPrice.pair) := by
  induction rows generalizing result with
  | nil => simp
  | cons row rows ih =>
    rw [List.foldl_cons, ih, List.find?_cons]
    by_cases hcode : row.code = code
    · subst hcode
      cases hseen : result.lookup row.code with
      | some v => simp [hseen]
      | none => simp [hseen, List.lookup_append]
    · have hne : (code == row.code) = false := by simpa using Ne.symm hcode
      split_ifs <;> simp [hcode, hne, List.lookup_append, List.lookup_cons]

/-- Keeping the first row of each code is finding it. -/
theorem lookup_firstSeen (rows : List CatalogPrice) (code : String) :
    (firstSeen rows).lookup code =
      (rows.find? fun row => row.code = code).map CatalogPrice.pair := by
  rw [firstSeen, lookup_keepFirst, List.lookup_nil, Option.none_or]

theorem mem_wantedCodes {codes : List String} :
    code ∈ wantedCodes codes ↔ ∃ raw ∈ codes, strip raw ≠ "" ∧ strip raw = code := by
  have hblank : strip "" = "" := by decide
  unfold wantedCodes
  simp only [List.mem_map, List.mem_filter, Bool.and_eq_true, decide_eq_true_eq]
  constructor
  · rintro ⟨raw, ⟨hraw, -, hstrip⟩, rfl⟩
    exact ⟨raw, hraw, hstrip, rfl⟩
  · rintro ⟨raw, hraw, hstrip, rfl⟩
    exact ⟨raw, ⟨hraw, fun hnil => hstrip (hnil ▸ hblank), hstrip⟩, rfl⟩

/-! ## One code -/

variable {columns : PriceColumns} (db : PriceOrder) (t : PriceTable columns)

/-- Two rows of one code that may each stand before the other are one row. -/
theorem eq_of_newerFirst {row row' : CatalogPrice} (hrow : row ∈ t.rows) (hrow' : row' ∈ t.rows)
    (hcode : row.code = row'.code) (h : newerFirst row row') (h' : newerFirst row' row) :
    row = row' := by
  have hissue : row.issue = row'.issue := le_antisymm h' h
  refine List.inj_on_of_nodup_map t.keys hrow hrow' ?_
  obtain ⟨hyear, hnumber⟩ := Prod.ext_iff.mp (toLex.injective hissue)
  exact Prod.ext hyear (Prod.ext hnumber hcode)

/-- **Within one code there is one order only**, whatever else the query asks for. -/
theorem order_filter {p : CatalogPrice → Bool} (hp : ∀ row, row.code = code → p row = true) :
    (db.order (t.rows.filter p)).filter (fun row => row.code = code) =
      db.order (t.rows.filter fun row => row.code = code) := by
  have hmany := db.ordering (t.rows.filter p)
  have hone := db.ordering (t.rows.filter fun row => row.code = code)
  have hrows : (t.rows.filter p).filter (fun row => row.code = code) =
      t.rows.filter fun row => row.code = code := by
    rw [List.filter_filter]
    refine List.filter_congr fun row _ => ?_
    by_cases hcode : row.code = code <;> simp [hcode, hp]
  have hperm := (hmany.perm.filter fun row => row.code = code).trans (.of_eq hrows)
  refine (hperm.trans hone.perm.symm).eq_of_pairwise ?_
    (hmany.sorted.sublist List.filter_sublist) hone.sorted
  intro row row' hrow hrow' h h'
  have hmem := List.mem_filter.mp (hperm.mem_iff.mp hrow)
  have hmem' := List.mem_filter.mp (hone.perm.mem_iff.mp hrow')
  have hcode : row.code = row'.code :=
    (of_decide_eq_true hmem.2).trans (of_decide_eq_true hmem'.2).symm
  exact eq_of_newerFirst t hmem.1 hmem'.1 hcode h h'

/-- **The lookup for many codes** answers for each of the list's codes, stripped, what the lookup for
one answers, and for no other code. -/
theorem latestPrices_agree (codes : List String) (code : String) :
    (latestPricesForCodes db t.rows codes).lookup code =
      if code ∈ wantedCodes codes then (latestPriceForCode db t.rows code).map CatalogPrice.pair
      else none := by
  unfold latestPricesForCodes
  dsimp only
  split_ifs with hnone hcode hcode
  · rw [hnone] at hcode
    exact absurd hcode List.not_mem_nil
  · rfl
  · obtain ⟨raw, -, hblank, rfl⟩ := mem_wantedCodes.mp hcode
    rw [lookup_firstSeen, ← List.head?_filter, order_filter db t, latestPriceForCode, strip_strip,
      if_neg hblank]
    intro row hrow
    exact decide_eq_true (hrow ▸ hcode)
  · rw [lookup_firstSeen, Option.map_eq_none_iff, List.find?_eq_none]
    intro row hrow hrowCode
    have hmem := (db.ordering _).perm.mem_iff.mp hrow
    have hwanted := of_decide_eq_true (List.mem_filter.mp hmem).2
    exact hcode (of_decide_eq_true hrowCode ▸ hwanted)

example :
    let table : List CatalogPrice :=
      [⟨"p1", (2025, 17, "100"), priceFields none (some 900) none none⟩,
        ⟨"p2", (2026, 1, "100"), priceFields none none (some 700) none⟩]
    latestPricesForCodes storedFirst table [" 100", "", "200"] = [("100", some 700, none)] := by
  decide

end MyOriShop
