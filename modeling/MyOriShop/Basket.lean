import MyOriShop.Posting
import MyOriShop.Pricing
import MyOriShop.Selling

/-!
# Basket: the posted arrays of a sale (`app/services/sales.py`, `app/routes/sales.py`)

A basket is posted as four arrays. `non_blank_lines` zips three of them, which ends at the shortest,
and only the fourth is padded. `register_sale` and the redisplay of a refused basket both number the
lines that it keeps.

* `lineAt` is the row of an index, with nothing for what is missing; `typedLines` are the rows in
  which anything was typed.
* `buildLines` is `_build_lines`, the redisplay.
* `lineFaults`: what is wrong with a line, whatever its number is.
* `BasketKept`: no typed line is left out or moved, and a refused basket shows every line with its
  own faults.

Results:
* `nonBlankLines_eq_iff`: no line is lost exactly where nothing is typed behind the shortest array.
* `lookup_basketErrors`: the errors of a line are found under its own number.
* `refused_faults`: they are in the answer of a refused sale.
* `basketKept_iff`: the basket is kept exactly where no line is lost.
* `not_basketKept`: a code alone.
-/

namespace MyOriShop

open Lib.Text Lib.IsoDate Lib.Fallible Lib.Transaction

/-! ## The rows of the form -/

/-- The row of an index; what is missing is blank. -/
def lineAt (codes qtys prices batchIds : List String) (i : Nat) : RawLine :=
  ⟨codes.getD i "", qtys.getD i "", prices.getD i "", batchIds.getD i ""⟩

/-- Anything but the batch is typed in the row. -/
def RawLine.typed (l : RawLine) : Bool :=
  strip l.code ≠ "" || strip l.qty ≠ "" || strip l.price ≠ ""

/-- The rows in which anything is typed, in order. -/
def typedLines (codes qtys prices batchIds : List String) : List RawLine :=
  ((List.range (max (max codes.length qtys.length) prices.length)).map
    (lineAt codes qtys prices batchIds)).filter RawLine.typed

/-- Nothing is typed in a row that one of the three arrays does not have. -/
def NothingBehind (codes qtys prices batchIds : List String) : Prop :=
  ∀ i, min (min codes.length qtys.length) prices.length ≤ i →
    (lineAt codes qtys prices batchIds i).typed = false

theorem zipLines_eq (codes qtys prices batchIds : List String) :
    zipLines codes qtys prices batchIds =
      (List.range (min (min codes.length qtys.length) prices.length)).map
        (lineAt codes qtys prices batchIds) := by
  induction codes generalizing qtys prices batchIds with
  | nil => simp [zipLines]
  | cons code codes ih =>
    cases qtys with
    | nil => simp [zipLines]
    | cons qty qtys =>
      cases prices with
      | nil => simp [zipLines]
      | cons price prices =>
        have hmin : min (min (code :: codes).length (qty :: qtys).length) (price :: prices).length =
            min (min codes.length qtys.length) prices.length + 1 := by
          simp only [List.length_cons]
          omega
        rw [zipLines, ih, hmin, List.range_succ_eq_map, List.map_cons, List.map_map]
        refine congrArg₂ _ ?_ (List.map_congr_left fun i _ => ?_)
        · cases batchIds <;> rfl
        · cases batchIds <;> rfl

/-- **No line is lost** exactly where nothing is typed behind the shortest array. -/
theorem nonBlankLines_eq_iff (codes qtys prices batchIds : List String) :
    nonBlankLines codes qtys prices batchIds = typedLines codes qtys prices batchIds ↔
      NothingBehind codes qtys prices batchIds := by
  generalize hshort : min (min codes.length qtys.length) prices.length = short
  generalize hlong : max (max codes.length qtys.length) prices.length = long
  have hle : short ≤ long := by omega
  have htyped : typedLines codes qtys prices batchIds =
      nonBlankLines codes qtys prices batchIds ++
        (((List.range (long - short)).map fun i =>
          lineAt codes qtys prices batchIds (short + i)).filter RawLine.typed) := by
    unfold typedLines nonBlankLines
    rw [zipLines_eq, hshort, hlong, ← Nat.add_sub_cancel' hle, List.range_add, List.map_append,
      List.filter_append, List.map_map, Nat.add_sub_cancel_left]
    rfl
  rw [htyped, eq_comm, List.append_right_eq_self, List.filter_eq_nil_iff]
  unfold NothingBehind
  rw [hshort]
  constructor
  · intro h i hi
    by_cases hlt : i < long
    · have hmem := h (lineAt codes qtys prices batchIds (short + (i - short)))
        (List.mem_map.mpr ⟨i - short, List.mem_range.mpr (by omega), rfl⟩)
      rw [Nat.add_sub_cancel' hi] at hmem
      simpa using hmem
    · have hblank : strip "" = "" := by decide
      have hc : codes[i]? = none := List.getElem?_eq_none (by omega)
      have hq : qtys[i]? = none := List.getElem?_eq_none (by omega)
      have hp : prices[i]? = none := List.getElem?_eq_none (by omega)
      simp [RawLine.typed, lineAt, hc, hq, hp, hblank]
  · intro h l hl
    obtain ⟨i, -, rfl⟩ := List.mem_map.mp hl
    simp [h (short + i) (by omega)]

/-! ## What is wrong with a line -/

/-- The fields of a line that may be in error. -/
inductive LineField where
  | code
  | qty
  | price
  | batch

/-- The key of a field's error. -/
def LineField.key (i : Nat) : LineField → String
  | .code => s!"code-{i}"
  | .qty => s!"qty-{i}"
  | .price => s!"price-{i}"
  | .batch => s!"batch-{i}"

/-- The error of each field of a line. -/
abbrev LineFaults := LineField → Option String

/-- What is wrong with a line. -/
def lineFaults (env : Env) (d : Db) (l : RawLine) : LineFaults
  | .code =>
    if (resolveLine env d l).product.isNone then some (productNotFoundError (strip l.code))
    else none
  | .qty => if (resolveLine env d l).qty ≤ 0 then some qtyError else none
  | .price =>
    match linePrice l.price with
    | .ok _ => none
    | .error message => some message
  | .batch => if (resolveLine env d l).batch.isNone then some batchRequiredError else none

theorem toDigits_injective {i j : Nat} (h : Nat.toDigits 10 i = Nat.toDigits 10 j) : i = j := by
  have hdecimal : ∀ n, Nat.ofDigitChars 10 (Nat.toDigits 10 n) 0 = n :=
    fun _ => Nat.ofDigitChars_toDigits (by decide) (by decide)
  rw [← hdecimal i, h, hdecimal]

/-- A key tells its field and its line. -/
theorem LineField.key_inj {f g : LineField} {i j : Nat} : f.key i = g.key j ↔ f = g ∧ i = j := by
  constructor
  · intro h
    have hlist := congrArg String.toList h
    have hself : ∀ s : String, toString s = s := fun _ => rfl
    cases f <;> cases g <;> simp [LineField.key, hself] at hlist <;>
      exact ⟨rfl, toDigits_injective hlist⟩
  · rintro ⟨rfl, rfl⟩
    rfl

/-! ## The errors of a line -/

variable {env : Env} {d : Db} {errors : Errors} {field message key : String} {bad : Bool}

theorem lookup_put : (errors.put field message).lookup key =
    if key = field then some message else errors.lookup key := by
  unfold Errors.put
  split_ifs with hany hkey hkey
  · subst hkey
    induction errors with
    | nil => simp at hany
    | cons e errors ih =>
      obtain ⟨k, m⟩ := e
      by_cases hk : k = key
      · simp [hk]
      · have hne : (key == k) = false := by simpa using Ne.symm hk
        simpa [hk, hne, List.lookup_cons] using ih (by simpa [hk] using hany)
  · clear hany
    induction errors with
    | nil => rfl
    | cons e errors ih =>
      obtain ⟨k, m⟩ := e
      have hne : (key == field) = false := by simpa using hkey
      by_cases hk : k = field
      · subst hk
        simpa [hne, List.lookup_cons] using ih
      · simp [hk, List.lookup_cons, ih]
  · subst hkey
    have hnone : errors.lookup key = none := List.lookup_eq_none_iff.mpr fun e he => by
      have hne : key ≠ e.1 := fun heq => hany (List.any_eq_true.mpr ⟨e, he, by simp [heq]⟩)
      simpa using hne
    simp [List.lookup_append, hnone]
  · have hne : (key == field) = false := by simpa using hkey
    simp [List.lookup_append, hne, List.lookup_cons]

theorem lookup_putIf : (errors.putIf bad field message).lookup key =
    if bad = true ∧ key = field then some message else errors.lookup key := by
  cases bad <;> simp [Errors.putIf, lookup_put]

theorem lookup_putField {α : Type} {parsed : Except String α} :
    (errors.putField field parsed).lookup key =
      match parsed with
      | .ok _ => errors.lookup key
      | .error message => if key = field then some message else errors.lookup key := by
  cases parsed with
  | ok => rfl
  | error message => exact lookup_put

theorem lineErrors_eq (errors : Errors) (i : Nat) (l : RawLine) :
    lineErrors env d errors i l =
      (((errors.putIf ((resolveLine env d l).qty ≤ 0) (LineField.qty.key i) qtyError).putField
        (LineField.price.key i) (linePrice l.price)).putIf (resolveLine env d l).product.isNone
        (LineField.code.key i) (productNotFoundError (strip l.code))).putIf
        (resolveLine env d l).batch.isNone (LineField.batch.key i) batchRequiredError := rfl

/-- The errors of a line are put under its own number. -/
theorem lookup_lineErrors_own (f : LineField) (i : Nat) (l : RawLine) :
    (lineErrors env d errors i l).lookup (f.key i) =
      (lineFaults env d l f).or (errors.lookup (f.key i)) := by
  rw [lineErrors_eq, lookup_putIf, lookup_putIf, lookup_putField, lookup_putIf]
  cases hprice : linePrice l.price <;> cases f <;>
    simp only [LineField.key_inj, lineFaults, hprice, reduceCtorEq, and_false, and_true,
      if_false, if_true, Option.none_or, Option.some_or, decide_eq_true_eq] <;>
    split_ifs <;> rfl

/-- No other key is. -/
theorem lookup_lineErrors_other {i : Nat} (l : RawLine) (h : ∀ f : LineField, key ≠ f.key i) :
    (lineErrors env d errors i l).lookup key = errors.lookup key := by
  rw [lineErrors_eq, lookup_putIf, lookup_putIf, lookup_putField, lookup_putIf]
  cases linePrice l.price <;> simp [h]

theorem lookup_basketErrors_other {i : Nat} (ls : List RawLine)
    (h : ∀ (f : LineField) (j : Nat), i ≤ j → key ≠ f.key j) :
    (basketErrors env d errors i ls).lookup key = errors.lookup key := by
  induction ls generalizing errors i with
  | nil => rfl
  | cons l ls ih =>
    rw [basketErrors, ih fun f j hj => h f j (by omega),
      lookup_lineErrors_other l fun f => h f i (le_refl i)]

/-- **The errors of a line are found under its own number.** -/
theorem lookup_basketErrors (f : LineField) {i n : Nat} {ls : List RawLine} {l : RawLine}
    (hl : ls[n]? = some l)
    (hnew : ∀ (g : LineField) (j : Nat), i ≤ j → errors.lookup (g.key j) = none) :
    (basketErrors env d errors i ls).lookup (f.key (i + n)) = lineFaults env d l f := by
  induction ls generalizing errors i n with
  | nil => simp at hl
  | cons l' ls ih =>
    rw [basketErrors]
    cases n with
    | zero =>
      obtain rfl : l' = l := by simpa using hl
      rw [lookup_basketErrors_other, Nat.add_zero, lookup_lineErrors_own, hnew f i (le_refl i),
        Option.or_none]
      intro g j hj heq
      have := (LineField.key_inj.mp heq).2
      omega
    | succ n =>
      have hrest : ls[n]? = some l := by simpa using hl
      have hnext := @ih (lineErrors env d errors i l') (i + 1) n hrest fun g j hj => ?_
      · rwa [Nat.add_right_comm, Nat.add_assoc] at hnext
      · rw [lookup_lineErrors_other, hnew g j (by omega)]
        intro f' heq
        have := (LineField.key_inj.mp heq).2
        omega

/-! ## The redisplay -/

/-- A row of the redisplayed basket. -/
structure SaleLineView where
  rowId : String
  code : String
  name : String
  qty : String
  price : String
  batchId : String
  selectedBatch : Option Batch
  refPcCents : Option Int
  errorCode : Option String
  errorQty : Option String
  errorPrice : Option String
  errorBatch : Option String

/-- The errors that a row shows. -/
def SaleLineView.faults (view : SaleLineView) : LineFaults
  | .code => view.errorCode
  | .qty => view.errorQty
  | .price => view.errorPrice
  | .batch => view.errorBatch

section Redisplay

variable (db : PriceOrder) (catalogPrices : List CatalogPrice) (newRow : Nat → String)

/-- One row of `_build_lines`. -/
def buildLine (d : Db) (errors : Errors) (i : Nat) (l : RawLine) : SaleLineView :=
  let picked := strip l.batchId
  let batch := if picked = "" then none else d.find .batch picked
  let currency := match batch with
    | some b => warehouseCurrency d (Batch.warehouseId b)
    | none => defaultCurrency
  { rowId := if i = 0 then "" else newRow i
    code := l.code
    name := ""
    qty := l.qty
    price := l.price
    batchId := batch.elim "" Batch.id
    selectedBatch := batch
    refPcCents := (referencePricesForCode db catalogPrices l.code currency).2
    errorCode := errors.lookup s!"code-{i}"
    errorQty := errors.lookup s!"qty-{i}"
    errorPrice := errors.lookup s!"price-{i}"
    errorBatch := errors.lookup s!"batch-{i}" }

/-- `_build_lines`. -/
def buildLines (d : Db) (codes qtys prices batchIds : List String) (errors : Errors) :
    List SaleLineView :=
  (nonBlankLines codes qtys prices batchIds).mapIdx (buildLine db catalogPrices newRow d errors)

theorem faults_buildLine (d : Db) (errors : Errors) (i : Nat) (l : RawLine) (f : LineField) :
    (buildLine db catalogPrices newRow d errors i l).faults f = errors.lookup (f.key i) := by
  cases f <;> rfl

end Redisplay

/-! ## A refused sale -/

/-- The answer has every line's errors under its number. -/
def NumberedErrors (env : Env) (d : Db) (lines : List RawLine) (errors : Errors) : Prop :=
  ∀ (i : Nat) (l : RawLine) (f : LineField), lines[i]? = some l →
    errors.lookup (f.key i) = lineFaults env d l f

theorem key_ne_basket (f : LineField) (i : Nat) : f.key i ≠ "basket" := by
  intro h
  have hlist := congrArg String.toList h
  have hself : ∀ s : String, toString s = s := fun _ => rfl
  cases f <;> simp [LineField.key, hself] at hlist

theorem key_ne_op_date (f : LineField) (i : Nat) : f.key i ≠ "op_date" := by
  intro h
  have hlist := congrArg String.toList h
  have hself : ∀ s : String, toString s = s := fun _ => rfl
  cases f <;> simp [LineField.key, hself] at hlist

theorem numbered_basketErrors (lines : List RawLine) (day : Except String (Option Date)) :
    NumberedErrors env d lines ((basketErrors env d [] 0 lines).putDate day) := by
  intro i l f hl
  have hown := @lookup_basketErrors env d [] f 0 i lines l hl fun _ _ _ => rfl
  rw [Nat.zero_add] at hown
  cases day with
  | ok => exact hown
  | error message => rw [Errors.putDate, lookup_put, if_neg (key_ne_op_date f i), hown]

/-- Where no line is in error, an error of the whole basket is no line's. -/
theorem numbered_basket {lines : List RawLine} (h : basketErrors env d [] 0 lines = [])
    (message : String) : NumberedErrors env d lines [("basket", message)] := by
  intro i l f hl
  have hown := @numbered_basketErrors env d lines (.ok none) i l f hl
  rw [Errors.putDate, h] at hown
  have hne : (f.key i == "basket") = false := by simpa using key_ne_basket f i
  rw [← hown, List.lookup_cons, hne]

/-- An answer that does nothing, and that has every line's errors under its number if it has any. -/
def Outcome.NumberedErrors (env : Env) (d : Db) (lines : List RawLine) : Outcome SaleResult → Prop
  | .done _ => False
  | .warned _ => True
  | .refused errors => MyOriShop.NumberedErrors env d lines errors

/-- The checks of a sale answer so. -/
theorem saleCheck_numbered (form : SaleForm) (day : Except String (Option Date)) :
    ErrorsOnly
      (Outcome.NumberedErrors env d (nonBlankLines form.codes form.qtys form.prices form.batchIds))
      (saleCheck env d form day) := by
  unfold saleCheck
  dsimp only
  split_ifs with hraw
  · refine errorsOnly_bind.mpr ⟨errorsOnly_error.mpr fun i l f hl => ?_, fun _ h => nomatch h⟩
    rw [hraw] at hl
    cases hl
  · refine errorsOnly_bind.mpr ⟨?_, fun _ hstop => ?_⟩
    · unfold Errors.stop
      split_ifs
      · exact errorsOnly_ok ()
      · exact errorsOnly_error.mpr (numbered_basketErrors _ day)
    · have hnone := (Errors.putDate_eq_nil.mp (Errors.stop_ok_iff.mp hstop)).2
      split
      · exact errorsOnly_error.mpr (numbered_basket hnone _)
      · exact errorsOnly_error.mpr (numbered_basket hnone _)
      · split_ifs
        · exact errorsOnly_bind.mpr ⟨errorsOnly_error.mpr trivial, fun _ h => nomatch h⟩
        · exact errorsOnly_ok _

/-- So does what follows them, if it does nothing. -/
theorem closes_writeSale_numbered {lines : List RawLine}
    (hlines : basketErrors env d [] 0 lines = [])
    (form : SaleForm) (parsed : Except String (Option Date)) (plan : SalePlan) :
    Closes d d (Outcome.NumberedErrors env d lines) (writeSale env form parsed plan)
      fun answer _ => answer.isDone = true := by
  have hrefused := numbered_basket hlines saveRollbackError
  unfold writeSale
  refine closes_read (closes_bind (stages_dayOrToday _) ?_)
  rintro day w ⟨-, rfl⟩
  refine closes_bind stages_utcnowIso ?_
  rintro createdAt w ⟨-, rfl⟩
  refine closes_stage (closes_recover ?_ fun e y h w' => ?_)
  · refine closes_bind (stages_recordLines _ _) ?_
    rintro _ w' -
    exact closes_bind (stages_recordCashMovement _) fun m w'' _ => closes_commit id fun _ => rfl
  · unfold rollbackWith at h
    split_ifs at h
    cases h
    exact closes_rollback hrefused

theorem closes_registerSale_numbered (form : SaleForm) :
    Closes d d (Outcome.NumberedErrors env d
        (nonBlankLines form.codes form.qtys form.prices form.batchIds))
      (registerSale env form) fun answer _ => answer.isDone = true := by
  rw [registerSale_eq]
  refine closes_bind (stages_parseOpDate _) ?_
  rintro parsed _ rfl
  refine closes_read ?_
  unfold orAnswer
  split
  · next answer hanswer => exact closes_refuse (saleCheck_numbered form parsed answer hanswer)
  · next plan hplan =>
    refine closes_writeSale_numbered ?_ form parsed plan
    unfold saleCheck at hplan
    dsimp only at hplan
    split_ifs at hplan
    · cases hplan
    · obtain ⟨_, hstop, -⟩ := bind_ok_iff.mp hplan
      exact (Errors.putDate_eq_nil.mp (Errors.stop_ok_iff.mp hstop)).2

/-- **A refused sale** has every line's errors under its number. -/
theorem refused_faults {form : SaleForm}
    (h : (registerSale env form).reply d = .ok (.refused errors)) :
    NumberedErrors env d (nonBlankLines form.codes form.qtys form.prices form.batchIds) errors := by
  have hend := @closes_registerSale_numbered env d form ⟨d, d, 0, 0⟩ rfl rfl
  change ((registerSale env form) ⟨d, d, 0, 0⟩).1 = _ at h
  rw [h] at hend
  cases hend with
  | refused _ _ hno => exact hno
  | done _ _ _ _ _ hdone => cases hdone

/-! ## What is to be kept -/

/-- No typed line is left out of a basket, moved, or joined to another line's fields, and a refused
basket shows every line with its own faults. -/
structure BasketKept (codes qtys prices batchIds : List String) : Prop where
  lines : nonBlankLines codes qtys prices batchIds = typedLines codes qtys prices batchIds
  shown : ∀ (env : Env) (d : Db) (form : SaleForm) (errors : Errors), form.codes = codes →
    form.qtys = qtys → form.prices = prices → form.batchIds = batchIds →
    (registerSale env form).reply d = .ok (.refused errors) →
    ∀ (db : PriceOrder) (catalogPrices : List CatalogPrice) (newRow : Nat → String) (i : Nat)
      (l : RawLine), (typedLines codes qtys prices batchIds)[i]? = some l →
      ∃ view, (buildLines db catalogPrices newRow d codes qtys prices batchIds errors)[i]? =
          some view ∧ view.code = l.code ∧ view.qty = l.qty ∧ view.price = l.price ∧
        view.faults = lineFaults env d l

/-- **A basket is kept** exactly where nothing is typed behind the shortest of the three arrays. -/
theorem basketKept_iff (codes qtys prices batchIds : List String) :
    BasketKept codes qtys prices batchIds ↔ NothingBehind codes qtys prices batchIds := by
  constructor
  · exact fun h => (nonBlankLines_eq_iff codes qtys prices batchIds).mp h.lines
  · intro h
    have hlines := (nonBlankLines_eq_iff codes qtys prices batchIds).mpr h
    refine ⟨hlines, ?_⟩
    rintro env d form errors rfl rfl rfl rfl hreply db catalogPrices newRow i l hl
    rw [← hlines] at hl
    have hfaults := refused_faults hreply
    refine ⟨buildLine db catalogPrices newRow d errors i l, ?_, rfl, rfl, rfl, funext fun f => ?_⟩
    · rw [buildLines, List.getElem?_mapIdx, hl, Option.map_some]
    · rw [faults_buildLine, hfaults i l f hl]

/-- A code is posted without a quantity and a price, and the line is gone. -/
theorem not_basketKept : ¬ ∀ codes qtys prices batchIds, BasketKept codes qtys prices batchIds :=
  fun h => absurd (congrArg List.length (h ["100"] [] [] []).lines) (by decide)

end MyOriShop
