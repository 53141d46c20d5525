import MyOriShop.DryRun

/-!
# Prediction: the dry run against the writing run (`scripts/import_inventory_receipt.py`)

The two modes of one walk, row by row. The dry run's memory and the database of the writing run stay
in step as long as every top-up of a batch that was there went to the batch that was foretold.

* `Minted` is an id as `new_id` makes it: without outer blanks, and not the word of the form.
* `Foretold` is a row whose decision is the same in both modes, `Predicts` two walks that agree.
* `foretellRow` is a row of the dry run, `Written` one of the writing run.
* `Mirrors` relates the two: the cards, the old batches with their rewritten expiries, and the new
  batches by the keys that the dry run remembers.

Results:
* `runs_importRows`, `importRows_dry`: what the loop does in either mode.
* `Mirrors.found`: the batch that a row finds in the writing run.
* `tracks_dryRun`: the step of the simulation.
* `dryRun_predicts_iff`: the dry run writes nothing, and it predicts the run exactly where
  `KeepsFirst` holds.
-/

namespace MyOriShop

open Lib.Text Lib.IsoDate Lib.Transaction Lib.Fallible Lib.Earliest Lib.Forecast

variable {cfg : ImportSetting} {warehouse : Warehouse} {d d' d₀ : Db} {row : SheetRow}
  {rows past : List SheetRow} {wid : String}

/-! ## Two walks that agree -/

/-- An id that the receipt form reads as it is. -/
def Minted (id : String) : Prop := strip id = id ∧ id ≠ "new"

instance (id : String) : Decidable (Minted id) := by
  unfold Minted
  infer_instance

/-- A row whose decision is the same in both modes; `seen` are the rows written before it. -/
structure Foretold (seen : List Visit) (dry wet : Visit) : Prop where
  row : dry.row = wet.row
  action : dry.decision.action = wet.decision.action
  costRaw : dry.decision.costRaw = wet.decision.costRaw
  saleRaw : dry.decision.saleRaw = wet.decision.saleRaw
  comment : dry.decision.comment = wet.decision.comment
  /-- A top-up of a batch that was there goes to that batch. -/
  found : ∀ id ∈ dry.decision.batchId, wet.decision.batchId = some id
  /-- Another top-up goes to the batch that was created for an earlier row of the same key. -/
  created : dry.decision.action = .topup → dry.decision.batchId = none →
    ∃ v ∈ seen, v.row.key = wet.row.key ∧ v.decision.action = .newBatch ∧
      ∃ id, v.batchId = some id ∧ wet.decision.batchId = some id
  /-- The receipt of a top-up is of the batch that was decided on. -/
  filled : wet.decision.action = .topup → wet.batchId = wet.decision.batchId

/-- The counts of a walk that its summary reports. -/
def Walk.counts (walk : Walk) : List Nat :=
  let r := walk.report
  [r.newProducts, r.newBatches, r.topups, r.conditionRows, r.codesWithoutPrice]

/-- The dry run and the writing run agree: in the counts of new products, new batches, top-ups,
condition rows and priceless codes, and row by row. -/
structure Predicts (dry wet : Walk) : Prop where
  counts : dry.counts = wet.counts
  visits : Foretells Foretold [] dry.visits.reverse wet.visits.reverse

/-! ## A row in either mode -/

/-- A row of the dry run. -/
def foretellRow (cfg : ImportSetting) (warehouse : Warehouse) (d₀ : Db) (walk : Walk)
    (row : SheetRow) : Visit × Walk :=
  let decision := resolveRow cfg d₀ row warehouse walk.pending
  let qty := (rowQty cfg row).toOption.getD 0
  (⟨row, decision, none⟩, (walk.count row qty decision).remember row decision)

/-- A row that is written: what a walk and its database become. -/
inductive Written (cfg : ImportSetting) (warehouse : Warehouse) (walk : Walk) (d : Db)
    (row : SheetRow) : Visit → Walk × Db → Prop where
  | created {qty : Nat} {decision : Decision} {id : String} {d' : Db} (hqty : rowQty cfg row = .ok qty)
      (hdecision : decision = resolveRow cfg d row warehouse walk.pending)
      (haction : decision.action = .newBatch)
      (received : Received cfg.env (rowForm row warehouse decision) d id d') :
      Written cfg warehouse walk d row ⟨row, decision, some id⟩
        ((walk.count row qty decision).written row decision id [], d')
  | topped {qty : Nat} {decision : Decision} {known id : String} {w d' : Db} {notes : List String}
      (hqty : rowQty cfg row = .ok qty)
      (hdecision : decision = resolveRow cfg d row warehouse walk.pending)
      (haction : decision.action = .topup) (hknown : decision.batchId = some known)
      (received : Received cfg.env (rowForm row warehouse decision) d id w)
      (noted : Noted id row w d') :
      Written cfg warehouse walk d row ⟨row, decision, some id⟩
        ((walk.count row qty decision).written row decision id notes, d')

theorem called_ok {α : Type} {x : Act α} {s s' : Lib.Transaction.Session Db} {a : α}
    (h : called x s = (.ok a, s')) : x s = (.ok a, s') := by
  unfold called at h
  cases hx : x s with
  | mk r s₁ =>
    rw [hx] at h
    cases r with
    | error e => cases (Prod.ext_iff.mp h).1
    | ok b =>
      cases h
      rfl

/-- A unit of work in a session with nothing pending, once it is done. -/
theorem done_in_session {α : Type} {x : Act α} {no : α → Prop} {Q : α → Db → Prop}
    {s s' : Lib.Transaction.Session Db} {a : α} (h : Closes s.committed s.committed no x Q)
    (hs : s.working = s.committed) (hrun : x s = (.ok a, s')) (ha : ¬no a) :
    s'.working = s'.committed ∧ Q a s'.committed := by
  have hend := h s rfl hs
  rw [hrun] at hend
  cases hend with
  | refused _ _ hno => exact absurd hno ha
  | done _ _ _ hw _ hQ => exact ⟨hw, hQ⟩

/-- **The writing half of a row** stops the run, or it has written the row. -/
theorem written_of_writeRow {walk walk' : Walk} {qty : Nat} {stops : Bool}
    {s s' : Lib.Transaction.Session Db}
    (hs : s.working = s.committed) (hqty : rowQty cfg row = .ok qty)
    (h : writeRow cfg warehouse row (resolveRow cfg s.committed row warehouse walk.pending)
      (walk.count row qty (resolveRow cfg s.committed row warehouse walk.pending)) s =
        (.ok (walk', stops), s')) :
    stops = true ∧ walk'.summary.stoppedAtLine ≠ none ∨
      stops = false ∧ s'.working = s'.committed ∧ ∃ v,
        Written cfg warehouse walk s.committed row v (walk', s'.committed) ∧
          walk'.visits = v :: walk.visits := by
  generalize hdecision : resolveRow cfg s.committed row warehouse walk.pending = decision at h
  unfold writeRow at h
  by_cases hundetermined : decision.action = .topup ∧ decision.batchId = none
  · rw [if_pos hundetermined] at h
    cases (Prod.ext_iff.mp h).1
  · rw [if_neg hundetermined] at h
    obtain ⟨answer, s₁, hanswer, h⟩ := bind_run_inv h
    cases answer with
    | refused errors =>
      cases h
      exact .inl ⟨rfl, Option.some_ne_none _⟩
    | warned warning =>
      cases h
      exact .inl ⟨rfl, Option.some_ne_none _⟩
    | done op =>
      obtain ⟨hs₁, op', id, hop, hid, hreceived⟩ :=
        done_in_session (closes_registerReceipt_received _) hs (called_ok hanswer) (fun hno => hno)
      cases hop
      simp only [hid, Option.getD_some] at h
      by_cases haction : decision.action = .newBatch
      · rw [if_pos haction] at h
        cases h
        refine .inr ⟨rfl, hs₁, _, .created hqty hdecision.symm haction hreceived, rfl⟩
      · rw [if_neg haction] at h
        obtain ⟨notes, s₂, hnotes, h⟩ := bind_run_inv h
        cases h
        obtain ⟨hs₂, hnoted⟩ := done_in_session (closes_applyTopupNotes hreceived.ok id row) hs₁
          (called_ok hnotes) (fun hno => hno)
        have htopup : decision.action = .topup := by
          cases hcase : decision.action with
          | newBatch => exact absurd hcase haction
          | topup => rfl
        obtain ⟨known, hknown⟩ := Option.ne_none_iff_exists'.mp fun hnone =>
          hundetermined ⟨htopup, hnone⟩
        exact .inr ⟨rfl, hs₂, _, .topped hqty hdecision.symm htopup hknown hreceived hnoted, rfl⟩

theorem written_of_visitRow {walk walk' : Walk} {stops : Bool} {s s' : Lib.Transaction.Session Db}
    (hs : s.working = s.committed)
    (h : visitRow cfg warehouse true row walk s = (.ok (walk', stops), s')) :
    stops = true ∧ walk'.summary.stoppedAtLine ≠ none ∨
      stops = false ∧ s'.working = s'.committed ∧ ∃ v,
        Written cfg warehouse walk s.committed row v (walk', s'.committed) ∧
          walk'.visits = v :: walk.visits := by
  unfold visitRow at h
  cases hqty : rowQty cfg row with
  | error e =>
    rw [hqty] at h
    cases (Prod.ext_iff.mp h).1
  | ok qty =>
    rw [hqty] at h
    obtain ⟨d, s₁, hread, h⟩ := bind_run_inv h
    cases hread
    rw [hs] at h
    exact written_of_writeRow hs hqty h

/-! ## The loop in either mode -/

theorem imported_cons (row : SheetRow) (rows : List SheetRow) :
    imported (row :: rows) =
      if row.skipReason.isSome then imported rows else row :: imported rows := by
  unfold imported
  rw [List.filter_cons]
  cases row.skipReason <;> rfl

/-- **The loop of the writing run**, when it was not stopped, has written one row after another. -/
theorem runs_importRows {walk walk' : Walk} {s s' : Lib.Transaction.Session Db}
    (hs : s.working = s.committed)
    (h : importRows cfg warehouse true rows walk s = (.ok walk', s'))
    (hdone : walk'.summary.stoppedAtLine = none) :
    ∃ vs, Lib.Forecast.Runs (fun t row v t' => Written cfg warehouse t.1 t.2 row v t')
        (walk, s.committed) (imported rows) vs (walk', s'.committed) ∧
      walk'.visits = vs.reverse ++ walk.visits := by
  induction rows generalizing walk s with
  | nil =>
    cases h
    exact ⟨[], .nil _, rfl⟩
  | cons row rows ih =>
    rw [imported_cons]
    unfold importRows at h
    by_cases hskip : row.skipReason.isSome
    · rw [if_pos hskip] at h ⊢
      exact ih hs h
    · rw [if_neg hskip] at h ⊢
      obtain ⟨⟨walk₁, stops⟩, s₁, hvisit, h⟩ := bind_run_inv h
      rcases written_of_visitRow hs hvisit with ⟨rfl, hstopped⟩ | ⟨rfl, hs₁, v, hwrote, hvisits⟩
      · cases h
        exact absurd hdone hstopped
      · obtain ⟨vs, hruns, hall⟩ := ih hs₁ h
        refine ⟨v :: vs, .cons hwrote hruns, ?_⟩
        rw [hall, hvisits, List.reverse_cons, List.append_assoc, List.singleton_append]

/-- **The loop of a dry run** leaves the session as it is. -/
theorem importRows_dry {walk : Walk} {s : Lib.Transaction.Session Db}
    (hqty : ∀ row ∈ imported rows, ∃ qty, rowQty cfg row = .ok qty) :
    importRows cfg warehouse false rows walk s =
      (.ok (memory (foretellRow cfg warehouse s.working) walk (imported rows)), s) := by
  induction rows generalizing walk with
  | nil => rfl
  | cons row rows ih =>
    rw [imported_cons] at hqty ⊢
    unfold importRows
    by_cases hskip : row.skipReason.isSome
    · rw [if_pos hskip] at hqty ⊢
      rw [if_pos hskip]
      exact ih hqty
    · rw [if_neg hskip] at hqty ⊢
      rw [if_neg hskip]
      obtain ⟨qty, hrow⟩ := hqty row List.mem_cons_self
      have hvisit : visitRow cfg warehouse false row walk s =
          (.ok ((foretellRow cfg warehouse s.working walk row).2, false), s) := by
        unfold visitRow foretellRow
        rw [hrow]
        rfl
      rw [bind_run_ok hvisit]
      exact ih fun row' hrow' => hqty row' (List.mem_cons_of_mem row hrow')

theorem visits_memory (walk : Walk) (rows : List SheetRow) :
    (memory (foretellRow cfg warehouse d₀) walk rows).visits =
      (forecasts (foretellRow cfg warehouse d₀) walk rows).reverse ++ walk.visits := by
  induction rows generalizing walk with
  | nil => rfl
  | cons row rows ih =>
    show (memory _ (foretellRow cfg warehouse d₀ walk row).2 rows).visits = _
    rw [ih]
    simp [forecasts, foretellRow, Walk.remember, Walk.count]

/-! ## The two states -/

/-- The cards of the writing run: those that were there, and one for each code that the dry run
remembers. -/
structure CardsFollow (d₀ d : Db) (newCodes : List String) : Prop where
  kept : ∀ code id, cardOf d₀.cards code = some id → cardOf d.cards code = some id
  codes : ∀ code, (cardOf d.cards code).isSome ↔ (cardOf d₀.cards code).isSome ∨ code ∈ newCodes
  fresh : ∀ code id, cardOf d.cards code = some id → cardOf d₀.cards code = none →
    id ∉ d₀.ids .product
  ids : ∀ id ∈ d₀.ids .product, id ∈ d.ids .product

/-- The batches that were there: each month's first one has the expiry of the last row that went to
it. -/
structure OldLots (d₀ : Db) (wid : String) (past : List SheetRow) (old : List Lot) : Prop where
  ids : old.map Lot.id = d₀.lots.map Lot.id
  products : old.map Lot.productId = d₀.lots.map Lot.productId
  months : ∀ code productId month, cardOf d₀.cards code = some productId → IsMonth month →
    lotsOf old productId wid month =
      rewritten (lotsOf d₀.lots productId wid month) (lastOf lotGroup (code, month) past)

/-- The batches that the writing run has created, by the keys that the dry run remembers. -/
structure NewLots (d₀ d : Db) (wid : String) (seen : List Visit) (newBatches : List LotKey)
    (created : List (LotKey × Lot)) : Prop where
  keys : (created.map Prod.fst).Nodup
  known : ∀ k, k ∈ newBatches ↔ k ∈ created.map Prod.fst
  visited : ∀ e ∈ created, ∃ v ∈ seen, v.row.key = e.1 ∧ v.decision.action = .newBatch ∧
    v.batchId = some e.2.id
  placed : ∀ e ∈ created, cardOf d.cards e.1.1 = some e.2.productId ∧ e.2.warehouseId = wid ∧
    IsMonth e.1.2.1 ∧ inMonth e.1.2.1 e.2.expiry = true
  lacking : ∀ e ∈ created, e.1.2.2 = "" → firstId d₀ wid (e.1.1, e.1.2.1) = none

/-- The created batches with a condition marker, as the writing run remembers them. -/
structure Keyed (pending : ImportPending) (created : List (LotKey × Lot)) : Prop where
  batches : ∀ k : LotKey, k.2.2 ≠ "" →
    pending.conditionBatches.lookup k = (created.lookup k).map Lot.id
  ids : ∀ e ∈ created, e.2.id ∈ pending.conditionBatchIds ↔ e.1.2.2 ≠ ""
  own : ∀ id ∈ pending.conditionBatchIds, id ∈ (created.map Prod.snd).map Lot.id

/-- The counters of a walk that the two modes have in common. -/
def Walk.counters (walk : Walk) : (Nat × Nat × Nat × Nat) × List String :=
  let r := walk.summary
  ((r.newProducts, r.newBatches, r.topups, r.conditionRows), walk.priceless)

/-- **The dry run and the writing run in step.** -/
structure Mirrors (d₀ : Db) (wid : String) (past : List SheetRow) (seen : List Visit)
    (dry wet : Walk) (d : Db) (old : List Lot) (created : List (LotKey × Lot)) : Prop where
  counters : dry.counters = wet.counters
  dryMarks : dry.pending.conditionBatches = [] ∧ dry.pending.conditionBatchIds = []
  wetMemory : wet.pending.newCodes = [] ∧ wet.pending.newBatches = []
  ok : d.Ok
  monthly : ∀ row ∈ past, Monthly row
  minted : ∀ l ∈ d.lots, Minted l.id
  cards : CardsFollow d₀ d dry.pending.newCodes
  lots : d.lots = old ++ created.map Prod.snd
  oldLots : OldLots d₀ wid past old
  newLots : NewLots d₀ d wid seen dry.pending.newBatches created
  marks : Keyed wet.pending created

section Mirrors

variable {seen : List Visit} {dry wet : Walk} {old : List Lot} {created : List (LotKey × Lot)}

theorem Mirrors.nodup (h : Mirrors d₀ wid past seen dry wet d old created) :
    (old.map Lot.id ++ (created.map Prod.snd).map Lot.id).Nodup := by
  rw [← List.map_append, ← h.lots, d.ids_lots]
  exact h.ok.nodup .batch

/-- An old batch is none of the created ones. -/
theorem Mirrors.apart (h : Mirrors d₀ wid past seen dry wet d old created) {l : Lot}
    (hl : l ∈ old) : l.id ∉ (created.map Prod.snd).map Lot.id := fun hid =>
  List.disjoint_of_nodup_append h.nodup (List.mem_map_of_mem hl) hid

/-- What a created batch was created for is told by its product and month. -/
theorem Mirrors.key_of_among (h : Mirrors d₀ wid past seen dry wet d old created)
    {e : LotKey × Lot} (he : e ∈ created) {code productId : String} {month : Option String}
    (hcard : cardOf d.cards code = some productId) (hmonth : IsMonth month)
    (hamong : e.2.among productId wid month = true) : e.1.1 = code ∧ e.1.2.1 = month := by
  obtain ⟨hproduct, -, hisMonth, hin⟩ := h.newLots.placed e he
  simp only [Lot.among, Bool.and_eq_true, decide_eq_true_eq] at hamong
  refine ⟨cardOf_inj ?_ hproduct (hamong.1.1 ▸ hcard), ?_⟩
  · rw [d.ids_cards]
    exact h.ok.nodup .product
  · exact ((inMonth_iff hisMonth hmonth hin).mp hamong.2).symm

theorem lotsOf_append (lots lots' : List Lot) (productId wid : String) (month : Option String) :
    lotsOf (lots ++ lots') productId wid month =
      lotsOf lots productId wid month ++ lotsOf lots' productId wid month := List.filter_append ..

/-- The old batches that the lookup looks at, and the created ones. -/
theorem Mirrors.lotsOf_kept (h : Mirrors d₀ wid past seen dry wet d old created)
    (productId : String) (month : Option String) :
    (lotsOf d.lots productId wid month).filter (fun l => l.id ∉ wet.pending.conditionBatchIds) =
      lotsOf old productId wid month ++ (lotsOf (created.map Prod.snd) productId wid month).filter
        fun l => l.id ∉ wet.pending.conditionBatchIds := by
  rw [h.lots, lotsOf_append, List.filter_append]
  refine congrArg (· ++ _) (List.filter_eq_self.mpr fun l hl => decide_eq_true fun hid => ?_)
  exact h.apart (List.mem_filter.mp hl).1 (h.marks.own _ hid)

/-- A created batch that the lookup of a plain row looks at was created for the same key. -/
theorem Mirrors.key_of_kept (h : Mirrors d₀ wid past seen dry wet d old created)
    (hrow : Monthly row) (hplain : row.condition = "") {productId : String}
    (hcard : cardOf d.cards row.code = some productId) {l : Lot}
    (hl : l ∈ (lotsOf (created.map Prod.snd) productId wid (yearMonth row.expiry)).filter
      fun l => l.id ∉ wet.pending.conditionBatchIds) : (row.key, l) ∈ created := by
  obtain ⟨hmem, hunmarked⟩ := List.mem_filter.mp hl
  obtain ⟨hcreated, hamong⟩ := List.mem_filter.mp hmem
  obtain ⟨e, he, rfl⟩ := List.mem_map.mp hcreated
  obtain ⟨hcode, hmonth⟩ := h.key_of_among he hcard hrow.isMonth hamong
  have hcondition : e.1.2.2 = "" := by
    by_contra hne
    exact of_decide_eq_true hunmarked ((h.marks.ids e he).mpr hne)
  have hkey : e.1 = row.key := by
    rw [SheetRow.key, hplain, ← hcode, ← hmonth, ← hcondition]
  exact hkey ▸ he

/-- **A plain row whose month had batches** finds the first of them, with their rewritten expiries. -/
theorem Mirrors.found_old (h : Mirrors d₀ wid past seen dry wet d old created)
    (hrow : Monthly row) (hplain : row.condition = "") {productId id : String}
    (hcard : cardOf d₀.cards row.code = some productId)
    (hfirst : headId (lotsOf d₀.lots productId wid (yearMonth row.expiry)) = some id) :
    foundId d row wid wet.pending =
      headId (rewritten (lotsOf d₀.lots productId wid (yearMonth row.expiry))
        (lastOf lotGroup (row.code, yearMonth row.expiry) past)) := by
  have hcard' := h.cards.kept _ _ hcard
  have hnone : (lotsOf (created.map Prod.snd) productId wid (yearMonth row.expiry)).filter
      (fun l => l.id ∉ wet.pending.conditionBatchIds) = [] := by
    refine List.eq_nil_iff_forall_not_mem.mpr fun l hl => ?_
    have hkey := h.key_of_kept hrow hplain hcard' hl
    have hlacking := h.newLots.lacking _ hkey hplain
    rw [firstId, show (row.key.1, row.key.2.1).1 = row.code from rfl, hcard] at hlacking
    exact absurd (hfirst.symm.trans hlacking) (Option.some_ne_none id)
  rw [foundId, if_pos hplain, hcard', Option.bind_some, h.lotsOf_kept, hnone, List.append_nil,
    h.oldLots.months _ _ _ hcard hrow.isMonth]

/-- No old batch is of a month in which the database had none. -/
theorem Mirrors.old_empty (h : Mirrors d₀ wid past seen dry wet d old created) (hd₀ : d₀.Ok)
    {code productId : String} {month : Option String} (hmonth : IsMonth month)
    (hcard : cardOf d.cards code = some productId) (hfirst : firstId d₀ wid (code, month) = none) :
    lotsOf old productId wid month = [] := by
  cases hcard₀ : cardOf d₀.cards code with
  | some productId₀ =>
    obtain rfl : productId₀ = productId := by
      simpa [h.cards.kept _ _ hcard₀] using hcard
    have hempty : lotsOf d₀.lots productId₀ wid month = [] := by
      rw [firstId, hcard₀] at hfirst
      exact headId_eq_none.mp hfirst
    rw [h.oldLots.months _ _ _ hcard₀ hmonth, hempty, rewritten_nil]
  | none =>
    -- the card is newer than every old batch
    refine List.eq_nil_iff_forall_not_mem.mpr fun l hl => ?_
    obtain ⟨hmem, hamong⟩ := List.mem_filter.mp hl
    simp only [Lot.among, Bool.and_eq_true, decide_eq_true_eq] at hamong
    have hproduct : l.productId ∈ d₀.lots.map Lot.productId :=
      h.oldLots.products ▸ List.mem_map_of_mem hmem
    obtain ⟨l₀, hl₀, hsame⟩ := List.mem_map.mp hproduct
    obtain ⟨b, hb, rfl⟩ := List.mem_map.mp hl₀
    refine h.cards.fresh _ _ hcard hcard₀ ?_
    rw [← hamong.1.1, ← hsame]
    exact hd₀.batchProduct b hb

theorem mem_of_lookup {created : List (LotKey × Lot)} {k : LotKey} {l : Lot}
    (h : created.lookup k = some l) : (k, l) ∈ created := by
  induction created with
  | nil => cases h
  | cons e created ih =>
    rw [List.lookup_cons] at h
    by_cases hk : k = e.1
    · simp only [hk, beq_self_eq_true] at h
      cases h
      exact hk ▸ List.mem_cons_self
    · rw [show (k == e.1) = false by simpa using hk] at h
      exact List.mem_cons_of_mem _ (ih h)

theorem lookup_none_iff {created : List (LotKey × Lot)} {k : LotKey} :
    created.lookup k = none ↔ k ∉ created.map Prod.fst := by
  rw [List.lookup_eq_none_iff, List.mem_map]
  constructor
  · rintro h ⟨e, he, rfl⟩
    simpa using h e he
  · intro h e he
    simpa using fun hk => h ⟨e, he, hk.symm⟩

/-- The created batch of a key is the only one. -/
theorem NewLots.unique {newBatches : List LotKey}
    (h : NewLots d₀ d wid seen newBatches created) {k : LotKey} {l l' : Lot}
    (hl : (k, l) ∈ created) (hl' : (k, l') ∈ created) : l = l' :=
  congrArg Prod.snd (List.inj_on_of_nodup_map h.keys hl hl' rfl)

/-- **Any other row** finds the batch that was created for its key. -/
theorem Mirrors.found_new (h : Mirrors d₀ wid past seen dry wet d old created) (hd₀ : d₀.Ok)
    (hrow : Monthly row) (hfirst : (lotGroup row).bind (firstId d₀ wid) = none) :
    foundId d row wid wet.pending = (created.lookup row.key).map Lot.id := by
  by_cases hplain : row.condition = ""
  · rw [lotGroup, if_pos hplain, Option.bind_some] at hfirst
    rw [foundId, if_pos hplain]
    cases hcard : cardOf d.cards row.code with
    | none =>
      have hnone : created.lookup row.key = none := by
        rw [lookup_none_iff]
        intro hkey
        obtain ⟨e, he, hek⟩ := List.mem_map.mp hkey
        have hplaced := (h.newLots.placed e he).1
        rw [hek, show row.key.1 = row.code from rfl, hcard] at hplaced
        exact absurd hplaced.symm (Option.some_ne_none _)
      rw [hnone]
      rfl
    | some productId =>
      rw [Option.bind_some, h.lotsOf_kept, h.old_empty hd₀ hrow.isMonth hcard hfirst,
        List.nil_append]
      generalize hkept : (lotsOf (created.map Prod.snd) productId wid
        (yearMonth row.expiry)).filter _ = kept
      have hkey : ∀ l ∈ kept, (row.key, l) ∈ created := fun l hl =>
        h.key_of_kept hrow hplain hcard (hkept ▸ hl)
      cases hlookup : created.lookup row.key with
      | none =>
        have hempty : kept = [] := List.eq_nil_iff_forall_not_mem.mpr fun l hl =>
          lookup_none_iff.mp hlookup (List.mem_map_of_mem (hkey l hl))
        rw [hempty]
        rfl
      | some l =>
        have hcreated := mem_of_lookup hlookup
        have hl : l ∈ kept := by
          obtain ⟨hproduct, hwarehouse, -, hin⟩ := h.newLots.placed _ hcreated
          rw [show (row.key, l).1.1 = row.code from rfl, hcard] at hproduct
          have hamong : l.among productId wid (yearMonth row.expiry) = true := by
            simp only [Lot.among, Bool.and_eq_true, decide_eq_true_eq]
            exact ⟨⟨(Option.some.inj hproduct).symm, hwarehouse⟩, hin⟩
          have hunmarked : l.id ∉ wet.pending.conditionBatchIds := fun hid =>
            (h.marks.ids _ hcreated).mp hid hplain
          rw [← hkept]
          exact List.mem_filter.mpr ⟨List.mem_filter.mpr ⟨List.mem_map_of_mem hcreated, hamong⟩,
            decide_eq_true hunmarked⟩
        cases hhead : headId kept with
        | none => exact absurd (headId_eq_none.mp hhead ▸ hl) List.not_mem_nil
        | some id =>
          obtain ⟨l', hl', rfl⟩ := headId_mem hhead
          rw [h.newLots.unique (hkey l' hl') hcreated]
          rfl
  · rw [foundId, if_neg hplain]
    exact h.marks.batches row.key hplain

/-- The dry run finds what the database had. -/
theorem Mirrors.found_dry (h : Mirrors d₀ wid past seen dry wet d old created) (row : SheetRow) :
    foundId d₀ row wid dry.pending = (lotGroup row).bind (firstId d₀ wid) := by
  unfold foundId lotGroup firstId
  rw [h.dryMarks.1, h.dryMarks.2]
  by_cases hplain : row.condition = ""
  · simp [hplain]
  · simp [hplain]

/-! ## The decision in both modes -/

/-- What a row of the writing run does. -/
theorem Mirrors.choice_wet (h : Mirrors d₀ wid past seen dry wet d old created)
    (found : Option String) : choiceOf row wet.pending found =
      (if found.isSome then .topup else .newBatch, found) := by
  cases found with
  | none => simp [choiceOf_none, h.wetMemory.2]
  | some id => rfl

theorem Mirrors.exists_eq (h : Mirrors d₀ wid past seen dry wet d old created) (row : SheetRow) :
    ((activeProduct d₀ row.code).isSome || decide (row.code ∈ dry.pending.newCodes)) =
      ((activeProduct d row.code).isSome || decide (row.code ∈ wet.pending.newCodes)) := by
  have hcodes := h.cards.codes row.code
  rw [cardOf_cards, cardOf_cards, Option.isSome_map, Option.isSome_map] at hcodes
  rw [h.wetMemory.1, Bool.eq_iff_iff]
  simp [hcodes]

variable (cfg) in
/-- Prices and comment do not depend on the mode. -/
theorem Mirrors.orders (h : Mirrors d₀ warehouse.id past seen dry wet d old created)
    (row : SheetRow) :
    (resolveRow cfg d₀ row warehouse dry.pending).productExists =
        (resolveRow cfg d row warehouse wet.pending).productExists ∧
      (resolveRow cfg d₀ row warehouse dry.pending).costRaw =
        (resolveRow cfg d row warehouse wet.pending).costRaw ∧
      (resolveRow cfg d₀ row warehouse dry.pending).saleRaw =
        (resolveRow cfg d row warehouse wet.pending).saleRaw := by
  unfold resolveRow
  dsimp only
  rw [h.exists_eq row]
  exact ⟨rfl, rfl, rfl⟩

theorem Mirrors.found_mem (h : Mirrors d₀ wid past seen dry wet d old created) {id : String}
    (hfound : foundId d row wid wet.pending = some id) : ∃ l ∈ d.lots, l.id = id := by
  unfold foundId at hfound
  split_ifs at hfound with hplain
  · obtain ⟨productId, -, hhead⟩ := Option.bind_eq_some_iff.mp hfound
    obtain ⟨l, hl, hid⟩ := headId_mem hhead
    exact ⟨l, (List.mem_filter.mp (List.mem_filter.mp hl).1).1, hid⟩
  · rw [h.marks.batches row.key hplain] at hfound
    obtain ⟨l, hl, hid⟩ := Option.map_eq_some_iff.mp hfound
    refine ⟨l, ?_, hid⟩
    rw [h.lots]
    exact List.mem_append_right _ (List.mem_map_of_mem (mem_of_lookup hl))

variable (cfg) in
theorem Mirrors.decision_dry (h : Mirrors d₀ warehouse.id past seen dry wet d old created)
    (row : SheetRow) :
    ((resolveRow cfg d₀ row warehouse dry.pending).action,
        (resolveRow cfg d₀ row warehouse dry.pending).batchId) =
      choiceOf row dry.pending ((lotGroup row).bind (firstId d₀ warehouse.id)) :=
  (choice_eq ..).trans (congrArg _ (h.found_dry row))

variable (cfg) in
theorem Mirrors.decision_wet (h : Mirrors d₀ warehouse.id past seen dry wet d old created)
    (row : SheetRow) :
    ((resolveRow cfg d row warehouse wet.pending).action,
        (resolveRow cfg d row warehouse wet.pending).batchId) =
      (if (foundId d row warehouse.id wet.pending).isSome then .topup else .newBatch,
        foundId d row warehouse.id wet.pending) :=
  (choice_eq ..).trans (h.choice_wet _)

/-- Where the month had batches, the condition is that the first one is still the first one. -/
theorem Mirrors.onLast_old (h : Mirrors d₀ wid past seen dry wet d old created) (hd₀ : d₀.Ok)
    (hplain : row.condition = "") {productId id : String}
    (hcard : cardOf d₀.cards row.code = some productId)
    (hfirst : headId (lotsOf d₀.lots productId wid (yearMonth row.expiry)) = some id) :
    OnLast lotGroup (StaysFirst d₀ wid) past row ↔
      headId (rewritten (lotsOf d₀.lots productId wid (yearMonth row.expiry))
        (lastOf lotGroup (row.code, yearMonth row.expiry) past)) = some id := by
  have hgroup : lotGroup row = some (row.code, yearMonth row.expiry) := if_pos hplain
  unfold OnLast
  rw [hgroup]
  cases hlast : lastOf lotGroup (row.code, yearMonth row.expiry) past with
  | none => simp [rewritten_none, hfirst, hlast]
  | some r =>
    have hr := group_of_lastOf hlast
    unfold lotGroup at hr
    split_ifs at hr with hrplain
    obtain ⟨hcode, hmonth⟩ := Prod.ext_iff.mp (Option.some.inj hr)
    dsimp only at hcode hmonth
    have hstays := staysFirst_iff wid hd₀ (h.monthly r (mem_of_lastOf hlast))
      (hcode.symm ▸ hcard) (hmonth.symm ▸ hfirst)
    rw [hmonth] at hstays
    rw [← hstays]
    simp [hlast]

/-- Where the month had none, there is no condition. -/
theorem Mirrors.onLast_new (hfirst : (lotGroup row).bind (firstId d₀ wid) = none) :
    OnLast lotGroup (StaysFirst d₀ wid) past row := by
  intro g hg r hr
  have hnone : firstId d₀ wid g = none := by
    rwa [show lotGroup row = some g from hg, Option.bind_some] at hfirst
  have hgroup := group_of_lastOf hr
  unfold lotGroup at hgroup
  split_ifs at hgroup
  have hbatch := monthFirst_id d₀ wid r
  rw [Option.some.inj hgroup, hnone, Option.map_eq_none_iff] at hbatch
  intro b hb
  rw [hbatch] at hb
  cases hb

/-- The batch of a row that is written. -/
theorem Written.facts {t' : Walk × Db} {v : Visit} (hwrote : Written cfg warehouse wet d row v t') :
    v.row = row ∧ v.decision = resolveRow cfg d row warehouse wet.pending := by
  cases hwrote with
  | created _ hdecision => exact ⟨rfl, hdecision⟩
  | topped _ hdecision => exact ⟨rfl, hdecision⟩

/-- The receipt of a top-up goes to the batch that was decided on. -/
theorem Received.chosen {decision : Decision} {known id : String}
    (h : Received cfg.env (rowForm row warehouse decision) d id d')
    (haction : decision.action = .topup) (hknown : decision.batchId = some known)
    (hminted : Minted known) : id = known ∧ d'.lots = d.lots := by
  have hchoice : (rowForm row warehouse decision).batchChoice = known := by
    simp [rowForm, haction, hknown]
  obtain ⟨productId, w, -, hlots, -, -, hfilled⟩ := h.filled
  cases hfilled with
  | created choice =>
    rw [hchoice, hminted.1] at choice
    exact absurd choice hminted.2
  | chosen choice hid hd => exact ⟨by rw [hid, hchoice, hminted.1], hd.trans hlots⟩

theorem Mirrors.filled (h : Mirrors d₀ warehouse.id past seen dry wet d old created)
    {t' : Walk × Db} {v : Visit} (hwrote : Written cfg warehouse wet d row v t')
    (haction : v.decision.action = .topup) : v.batchId = v.decision.batchId := by
  cases hwrote with
  | created _ _ hnew => exact absurd (hnew.symm.trans haction) (by decide)
  | topped _ hdecision _ hknown received =>
    have hwet := h.decision_wet cfg row
    rw [← hdecision, hknown] at hwet
    obtain ⟨l, hl, hid⟩ := h.found_mem (Prod.ext_iff.mp hwet).2.symm
    rw [(received.chosen haction hknown (hid ▸ h.minted l hl)).1, hknown]

/-- What is left to compare of a row: the action and the batch. -/
theorem Mirrors.foretold_of (h : Mirrors d₀ warehouse.id past seen dry wet d old created)
    {t' : Walk × Db} {v : Visit} (hwrote : Written cfg warehouse wet d row v t')
    (haction : (resolveRow cfg d₀ row warehouse dry.pending).action = v.decision.action)
    (hfound : ∀ id ∈ (resolveRow cfg d₀ row warehouse dry.pending).batchId,
      v.decision.batchId = some id)
    (hcreated : (resolveRow cfg d₀ row warehouse dry.pending).action = .topup →
      (resolveRow cfg d₀ row warehouse dry.pending).batchId = none →
        ∃ u ∈ seen, u.row.key = v.row.key ∧ u.decision.action = .newBatch ∧
          ∃ id, u.batchId = some id ∧ v.decision.batchId = some id) :
    Foretold seen (foretellRow cfg warehouse d₀ dry row).1 v := by
  obtain ⟨hvrow, hvdecision⟩ := hwrote.facts
  obtain ⟨-, hcost, hsale⟩ := h.orders cfg row
  refine ⟨hvrow.symm, haction, ?_, ?_, ?_, hfound, hcreated, h.filled hwrote⟩
  · rw [hvdecision]
    exact hcost
  · rw [hvdecision]
    exact hsale
  · rw [hvdecision]
    rfl

/-- **The forecast of a row** is right exactly on the condition. -/
theorem Mirrors.foretold_iff (h : Mirrors d₀ warehouse.id past seen dry wet d old created)
    (hd₀ : d₀.Ok) (hrow : Monthly row) {t' : Walk × Db} {v : Visit}
    (hwrote : Written cfg warehouse wet d row v t') :
    Foretold seen (foretellRow cfg warehouse d₀ dry row).1 v ↔
      OnLast lotGroup (StaysFirst d₀ warehouse.id) past row := by
  obtain ⟨hvrow, hvdecision⟩ := hwrote.facts
  obtain ⟨hdryAction, hdryBatch⟩ := Prod.ext_iff.mp (h.decision_dry cfg row)
  obtain ⟨hwetAction, hwetBatch⟩ := Prod.ext_iff.mp (h.decision_wet cfg row)
  rw [← hvdecision] at hwetAction hwetBatch
  dsimp only at hdryAction hdryBatch hwetAction hwetBatch
  cases hfirst : (lotGroup row).bind (firstId d₀ warehouse.id) with
  | some id =>
    obtain ⟨g, hg, hid⟩ := Option.bind_eq_some_iff.mp hfirst
    unfold lotGroup at hg
    split_ifs at hg with hplain
    cases hg
    obtain ⟨productId, hcard, hhead⟩ := Option.bind_eq_some_iff.mp hid
    rw [h.onLast_old hd₀ hplain hcard hhead, ← h.found_old hrow hplain hcard hhead, ← hwetBatch]
    rw [hfirst] at hdryAction hdryBatch
    constructor
    · exact fun hforetold => hforetold.found id hdryBatch
    · intro hwet
      refine h.foretold_of hwrote ?_ ?_ ?_
      · rw [hdryAction, hwetAction, ← hwetBatch, hwet]
        rfl
      · intro id' hid'
        rw [hdryBatch] at hid'
        exact hwet.trans hid'
      · intro _ hnone
        exact absurd (hdryBatch.symm.trans hnone) (Option.some_ne_none id)
  | none =>
    refine iff_of_true ?_ (Mirrors.onLast_new hfirst)
    rw [hfirst] at hdryAction hdryBatch
    rw [h.found_new hd₀ hrow hfirst] at hwetAction hwetBatch
    rw [choiceOf_none] at hdryAction hdryBatch
    cases hlookup : created.lookup row.key with
    | none =>
      have hunknown : row.key ∉ dry.pending.newBatches := fun hk =>
        lookup_none_iff.mp hlookup ((h.newLots.known _).mp hk)
      simp only [if_neg hunknown] at hdryAction hdryBatch
      refine h.foretold_of hwrote ?_ ?_ ?_
      · rw [hdryAction, hwetAction, hlookup]
        rfl
      · intro id' hid'
        rw [hdryBatch] at hid'
        cases hid'
      · intro htopup
        rw [hdryAction] at htopup
        cases htopup
    | some l =>
      have hcreated := mem_of_lookup hlookup
      have hknown : row.key ∈ dry.pending.newBatches :=
        (h.newLots.known _).mpr (List.mem_map_of_mem hcreated)
      simp only [if_pos hknown] at hdryAction hdryBatch
      obtain ⟨u, hu, hkey, haction, hbatch⟩ := h.newLots.visited _ hcreated
      refine h.foretold_of hwrote ?_ ?_ fun _ _ => ⟨u, hu, ?_, haction, l.id, hbatch, ?_⟩
      · rw [hdryAction, hwetAction, hlookup]
        rfl
      · intro id' hid'
        rw [hdryBatch] at hid'
        cases hid'
      · rw [hkey, hvrow]
      · rw [hwetBatch, hlookup]
        rfl

/-! ## What a row leaves -/

/-- What a row finds, where the forecasts are right. -/
theorem Mirrors.found_eq (h : Mirrors d₀ wid past seen dry wet d old created) (hd₀ : d₀.Ok)
    (hrow : Monthly row) (hlast : OnLast lotGroup (StaysFirst d₀ wid) past row) :
    foundId d row wid wet.pending =
      ((lotGroup row).bind (firstId d₀ wid)).or ((created.lookup row.key).map Lot.id) := by
  cases hfirst : (lotGroup row).bind (firstId d₀ wid) with
  | none =>
    rw [h.found_new hd₀ hrow hfirst]
    rfl
  | some id =>
    obtain ⟨g, hg, hid⟩ := Option.bind_eq_some_iff.mp hfirst
    unfold lotGroup at hg
    split_ifs at hg with hplain
    cases hg
    obtain ⟨productId, hcard, hhead⟩ := Option.bind_eq_some_iff.mp hid
    rw [h.found_old hrow hplain hcard hhead]
    exact (h.onLast_old hd₀ hplain hcard hhead).mp hlast

/-- The counters of a row. -/
theorem counters_count {dry wet : Walk} (h : dry.counters = wet.counters) (row : SheetRow)
    (qty qty' : Nat) {decision decision' : Decision}
    (hexists : decision.productExists = decision'.productExists)
    (haction : decision.action = decision'.action) (hcost : decision.costRaw = decision'.costRaw)
    (hsale : decision.saleRaw = decision'.saleRaw) :
    (dry.count row qty decision).counters = (wet.count row qty' decision').counters := by
  obtain ⟨hnumbers, hpriceless⟩ := Prod.ext_iff.mp h
  simp only [Walk.counters, Prod.mk.injEq] at hnumbers hpriceless
  obtain ⟨hproducts, hbatches, htopups, hconditions⟩ := hnumbers
  simp only [Walk.counters, Walk.count, hexists, haction, hcost, hsale, hproducts, hbatches, htopups,
    hconditions, hpriceless]

/-- The card of a receipt. -/
theorem CardsFollow.step {newCodes : List String} (h : CardsFollow d₀ d newCodes) {code id : String}
    {w : Db} (hkept : CardKept code d w id) (hd' : d'.cards = w.cards) :
    CardsFollow d₀ d' (if (cardOf d.cards code).isSome then newCodes else code :: newCodes) := by
  cases hkept with
  | known hcard hw =>
    rw [hcard, Option.isSome_some, if_pos rfl]
    have hsame : d'.cards = d.cards := hd'.trans hw
    refine ⟨?_, ?_, ?_, ?_⟩
    · rw [hsame]
      exact h.kept
    · rw [hsame]
      exact h.codes
    · rw [hsame]
      exact h.fresh
    · rw [← d'.ids_cards, hsame, d.ids_cards]
      exact h.ids
  | created hcard hfresh hw =>
    have hnew : d'.cards = d.cards ++ [(id, some code)] := hd'.trans hw
    rw [hcard, if_neg (by simp)]
    refine ⟨fun code' id' hid' => ?_, fun code' => ?_, fun code' id' hid' hnone => ?_, fun id' hid' => ?_⟩
    · rw [hnew, cardOf_append, h.kept _ _ hid']
      rfl
    · rw [hnew, cardOf_append, List.mem_cons]
      have hcodes := h.codes code'
      by_cases hcode : code = code'
      · simp [hcode]
      · simp [hcode, Ne.symm hcode, hcodes]
    · rw [hnew, cardOf_append] at hid'
      cases hold : cardOf d.cards code' with
      | some i =>
        rw [hold, Option.some_or] at hid'
        exact Option.some.inj hid' ▸ h.fresh _ _ hold hnone
      | none =>
        rw [hold, Option.none_or] at hid'
        split_ifs at hid'
        cases hid'
        exact fun hmem => hfresh (h.ids _ hmem)
    · rw [← d'.ids_cards, hnew, List.map_append, d.ids_cards]
      exact List.mem_append_left _ (h.ids _ hid')

theorem CardKept.mono {code id code' id' : String} {w : Db} (hkept : CardKept code d w id)
    (hd' : d'.cards = w.cards) (h : cardOf d.cards code' = some id') :
    cardOf d'.cards code' = some id' := by
  cases hkept with
  | known _ hw => rw [hd', hw, h]
  | created _ _ hw =>
    rw [hd', hw, cardOf_append, h]
    rfl

theorem CardKept.card {code id : String} {w : Db} (hkept : CardKept code d w id)
    (hd' : d'.cards = w.cards) : cardOf d'.cards code = some id := by
  cases hkept with
  | known h hw => rw [hd', hw, h]
  | created h _ hw =>
    rw [hd', hw, cardOf_append, h]
    simp

/-- A row that goes to no old batch. -/
theorem OldLots.pass (h : OldLots d₀ wid past old)
    (hfirst : (lotGroup row).bind (firstId d₀ wid) = none) : OldLots d₀ wid (row :: past) old where
  ids := h.ids
  products := h.products
  months code productId month hcard hmonth := by
    rw [h.months code productId month hcard hmonth, lastOf_cons]
    split_ifs with hgroup
    · rw [hgroup, Option.bind_some, firstId, hcard] at hfirst
      have hempty : lotsOf d₀.lots productId wid month = [] := headId_eq_none.mp hfirst
      rw [hempty, rewritten_nil, rewritten_nil]
    · rfl

theorem ids_rewritten (lots : List Lot) (last : Option SheetRow) :
    (rewritten lots last).map Lot.id = lots.map Lot.id := by
  unfold rewritten
  split
  · exact map_id_renewAt ..
  · rfl

theorem yearMonth_eq_none {expiry : String} : yearMonth expiry = none ↔ expiry = "" := by
  unfold yearMonth
  split_ifs with h <;> simp [h]

/-- The first batch of the row's month, among the old ones. -/
theorem OldLots.among (h : OldLots d₀ wid past old) (hnodup : (old.map Lot.id).Nodup)
    (hrow : Monthly row) {productId id : String}
    (hcard : cardOf d₀.cards row.code = some productId)
    (hhead : headId (lotsOf d₀.lots productId wid (yearMonth row.expiry)) = some id) :
    ∀ l ∈ old, l.id = id → l.among productId wid (yearMonth row.expiry) = true := by
  obtain ⟨l₀, hl₀, hid₀⟩ := headId_mem hhead
  have hmem : id ∈ (lotsOf old productId wid (yearMonth row.expiry)).map Lot.id := by
    rw [h.months _ _ _ hcard hrow.isMonth, ids_rewritten, ← hid₀]
    exact List.mem_map_of_mem hl₀
  obtain ⟨l₁, hl₁, hid₁⟩ := List.mem_map.mp hmem
  obtain ⟨hold, hamong⟩ := List.mem_filter.mp hl₁
  intro l hl hid
  rwa [List.inj_on_of_nodup_map hnodup hl hold (hid.trans hid₁.symm)]

/-- **A row on the first batch of its month** leaves its expiry there. -/
theorem OldLots.top (h : OldLots d₀ wid past old) (hd₀ : d₀.Ok) (hnodup : (old.map Lot.id).Nodup)
    (hrow : Monthly row) (hplain : row.condition = "") {productId id : String}
    (hcard : cardOf d₀.cards row.code = some productId)
    (hhead : headId (lotsOf d₀.lots productId wid (yearMonth row.expiry)) = some id) :
    OldLots d₀ wid (row :: past) (old.map (renewAt id row)) := by
  have hamong := h.among hnodup hrow hcard hhead
  simp only [Lot.among, Bool.and_eq_true, decide_eq_true_eq] at hamong
  refine ⟨(map_id_renewAt ..).trans h.ids, ?_, fun code productId' month hcard' hmonth => ?_⟩
  · rw [List.map_map, ← h.products]
    exact List.map_congr_left fun l _ => renewAt_productId id row l
  · rw [lotsOf_renewAt hrow hmonth fun l hl hid => (hamong l hl hid).2, lastOf_cons]
    have hgroup : lotGroup row = some (row.code, yearMonth row.expiry) := if_pos hplain
    by_cases hsame : lotGroup row = some (code, month)
    · rw [if_pos hsame, h.months _ _ _ hcard' hmonth]
      obtain ⟨rfl, rfl⟩ := Prod.mk.inj (Option.some.inj (hgroup.symm.trans hsame))
      obtain rfl : productId = productId' := Option.some.inj (hcard.symm.trans hcard')
      cases hlast : lastOf lotGroup (row.code, yearMonth row.expiry) past with
      | none => rw [rewritten_none, rewritten_some hhead]
      | some r =>
        -- both rows are of one month: their expiries are both given or both empty
        have hr := group_of_lastOf hlast
        unfold lotGroup at hr
        split_ifs at hr
        have hmonths : yearMonth r.expiry = yearMonth row.expiry :=
          (Prod.mk.inj (Option.some.inj hr)).2
        have hempty : row.expiry = "" → r.expiry = "" := fun he =>
          yearMonth_eq_none.mp (hmonths.trans (yearMonth_eq_none.mpr he))
        rw [rewritten_some hhead, rewritten_some hhead, List.map_map]
        exact List.map_congr_left fun l _ => renewAt_renewAt hempty l
    · rw [if_neg hsame, ← h.months _ _ _ hcard' hmonth]
      refine map_renewAt_of_notMem row fun hmem => ?_
      obtain ⟨l, hl, hid⟩ := List.mem_map.mp hmem
      obtain ⟨hold, hamong'⟩ := List.mem_filter.mp hl
      simp only [Lot.among, Bool.and_eq_true, decide_eq_true_eq] at hamong'
      obtain ⟨⟨hproduct, -⟩, hin⟩ := hamong l hold hid
      refine hsame (hgroup.trans (congrArg some (Prod.ext ?_ ?_)))
      · refine cardOf_inj (d₀.ids_cards ▸ hd₀.nodup .product) hcard ?_
        rw [hcard', ← hamong'.1.1, hproduct]
      · exact ((inMonth_iff hrow.isMonth hmonth hin).mp hamong'.2).symm

/-- A batch that was created for a row. -/
theorem NewLots.create {newBatches : List LotKey} (h : NewLots d₀ d wid seen newBatches created)
    {k : LotKey} {l : Lot} {v : Visit} (hnew : created.lookup k = none)
    (hmono : ∀ code id, cardOf d.cards code = some id → cardOf d'.cards code = some id)
    (hplaced : cardOf d'.cards k.1 = some l.productId ∧ l.warehouseId = wid ∧ IsMonth k.2.1 ∧
      inMonth k.2.1 l.expiry = true)
    (hlacking : k.2.2 = "" → firstId d₀ wid (k.1, k.2.1) = none)
    (hv : v.row.key = k ∧ v.decision.action = .newBatch ∧ v.batchId = some l.id) :
    NewLots d₀ d' wid (v :: seen) (k :: newBatches) (created ++ [(k, l)]) := by
  have hmem : ∀ {e : LotKey × Lot}, e ∈ created ++ [(k, l)] → e ∈ created ∨ e = (k, l) := by
    intro e he
    simpa using he
  refine ⟨?_, fun k' => ?_, fun e he => ?_, fun e he => ?_, fun e he => ?_⟩
  · rw [List.map_append, List.map_singleton]
    refine List.nodup_append.mpr ⟨h.keys, List.nodup_singleton _, fun k₁ hk₁ k₂ hk₂ => ?_⟩
    rintro rfl
    rw [List.mem_singleton.mp hk₂] at hk₁
    exact lookup_none_iff.mp hnew hk₁
  · rw [List.mem_cons, h.known, List.map_append, List.mem_append]
    simp [or_comm]
  · rcases hmem he with he | rfl
    · obtain ⟨u, hu, hkey⟩ := h.visited e he
      exact ⟨u, List.mem_cons_of_mem v hu, hkey⟩
    · exact ⟨v, List.mem_cons_self, hv⟩
  · rcases hmem he with he | rfl
    · obtain ⟨hcard, hrest⟩ := h.placed e he
      exact ⟨hmono _ _ hcard, hrest⟩
    · exact hplaced
  · rcases hmem he with he | rfl
    · exact h.lacking e he
    · exact hlacking

/-- A created batch with a marker is remembered. -/
theorem Keyed.mark {pending : ImportPending} (h : Keyed pending created) {k : LotKey} {l : Lot}
    (hnew : created.lookup k = none) (hfresh : l.id ∉ (created.map Prod.snd).map Lot.id)
    (hk : k.2.2 ≠ "") :
    Keyed { pending with
      conditionBatches := (k, l.id) :: pending.conditionBatches
      conditionBatchIds := l.id :: pending.conditionBatchIds } (created ++ [(k, l)]) := by
  refine ⟨fun k' hk' => ?_, fun e he => ?_, fun id hid => ?_⟩
  · rw [List.lookup_append, List.lookup_cons, List.lookup_cons, List.lookup_nil]
    by_cases hsame : k' = k
    · simp [hsame, hnew]
    · rw [show (k' == k) = false by simpa using hsame, Option.or_none]
      exact h.batches k' hk'
  · rw [List.mem_cons]
    rcases List.mem_append.mp he with he | he
    · have hne : e.2.id ≠ l.id := fun hid =>
        hfresh (hid ▸ List.mem_map_of_mem (List.mem_map_of_mem he))
      rw [or_iff_right hne, h.ids e he]
    · rw [List.mem_singleton.mp he]
      exact iff_of_true (.inl rfl) hk
  · rw [List.map_append, List.map_append, List.mem_append]
    rcases List.mem_cons.mp hid with rfl | hid
    · exact .inr (List.mem_singleton_self _)
    · exact .inl (h.own id hid)

/-- One without a marker is not. -/
theorem Keyed.pass {pending : ImportPending} (h : Keyed pending created) {k : LotKey} {l : Lot}
    (hfresh : l.id ∉ (created.map Prod.snd).map Lot.id) (hk : k.2.2 = "") :
    Keyed pending (created ++ [(k, l)]) := by
  refine ⟨fun k' hk' => ?_, fun e he => ?_, fun id hid => ?_⟩
  · have hne : (k' == k) = false := by
      simpa using fun hsame : k' = k => hk' (hsame ▸ hk)
    rw [List.lookup_append, List.lookup_cons, hne, List.lookup_nil, Option.or_none]
    exact h.batches k' hk'
  · rcases List.mem_append.mp he with he | he
    · exact h.ids e he
    · rw [List.mem_singleton.mp he]
      exact iff_of_false (fun hid => hfresh (h.own _ hid)) fun hne => hne hk
  · rw [List.map_append, List.map_append, List.mem_append]
    exact .inl (h.own id hid)

/-- The created batches after a row has written its expiry on one batch. -/
def renewedNew (id : String) (row : SheetRow) (created : List (LotKey × Lot)) :
    List (LotKey × Lot) :=
  created.map fun e => (e.1, renewAt id row e.2)

theorem lookup_renewedNew (id : String) (row : SheetRow) (created : List (LotKey × Lot))
    (k : LotKey) :
    (renewedNew id row created).lookup k = (created.lookup k).map (renewAt id row) := by
  induction created with
  | nil => rfl
  | cons e created ih =>
    show List.lookup k ((e.1, renewAt id row e.2) :: renewedNew id row created) = _
    rw [List.lookup_cons, List.lookup_cons, ih]
    cases k == e.1 <;> rfl

theorem snd_renewedNew (id : String) (row : SheetRow) (created : List (LotKey × Lot)) :
    (renewedNew id row created).map Prod.snd = (created.map Prod.snd).map (renewAt id row) := by
  rw [renewedNew, List.map_map, List.map_map]
  rfl

theorem fst_renewedNew (id : String) (row : SheetRow) (created : List (LotKey × Lot)) :
    (renewedNew id row created).map Prod.fst = created.map Prod.fst := by
  rw [renewedNew, List.map_map]
  rfl

/-- A row on a batch that was created for its key, or on an old one. -/
theorem NewLots.top {newBatches : List LotKey} (h : NewLots d₀ d wid seen newBatches created)
    {id : String} (hrow : Monthly row) (hcards : d'.cards = d.cards) (v : Visit)
    (hkey : ∀ e ∈ created, e.2.id = id → e.1 = row.key) :
    NewLots d₀ d' wid (v :: seen) newBatches (renewedNew id row created) := by
  refine ⟨(fst_renewedNew ..).symm ▸ h.keys, fun k => (fst_renewedNew ..).symm ▸ h.known k,
    fun e' he' => ?_, fun e' he' => ?_, fun e' he' => ?_⟩
  all_goals obtain ⟨e, he, rfl⟩ := List.mem_map.mp he'
  · obtain ⟨u, hu, hrest⟩ := h.visited e he
    rw [renewAt_id]
    exact ⟨u, List.mem_cons_of_mem v hu, hrest⟩
  · obtain ⟨hcard, hwarehouse, hmonth, hin⟩ := h.placed e he
    have hsame : (renewAt id row e.2).warehouseId = e.2.warehouseId := by
      unfold renewAt
      split_ifs <;> simp
    rw [hcards, renewAt_productId, hsame]
    refine ⟨hcard, hwarehouse, hmonth, ?_⟩
    unfold renewAt
    split_ifs with hid
    · have hrowMonth : e.1.2.1 = yearMonth row.expiry := by
        rw [hkey e he hid]
        rfl
      rwa [inMonth_renew hrow hmonth (hrowMonth ▸ hin)]
    · exact hin
  · exact h.lacking e he

theorem Keyed.top {pending : ImportPending} (h : Keyed pending created) (id : String)
    (row : SheetRow) : Keyed pending (renewedNew id row created) := by
  refine ⟨fun k hk => ?_, fun e' he' => ?_, fun id' hid' => ?_⟩
  · rw [lookup_renewedNew, Option.map_map, h.batches k hk]
    exact congrArg (Option.map · _) (funext fun l => (renewAt_id id row l).symm)
  · obtain ⟨e, he, rfl⟩ := List.mem_map.mp he'
    rw [renewAt_id]
    exact h.ids e he
  · rw [snd_renewedNew, map_id_renewAt]
    exact h.own id' hid'

/-- A new batch has the row's expiry. -/
theorem inMonth_expiryText (hrow : Monthly row) :
    inMonth (yearMonth row.expiry) (expiryText (parseOptionalExpiry row.expiry)) = true := by
  rcases hrow with hempty | ⟨day, hday⟩
  · rw [hempty]
    decide
  · have hstrip : strip row.expiry = row.expiry := by
      have hchars := stripChars_eq_self fun c hc => (bare_chars day c hc).2.1
      rw [hday, strip, Date.isoformat, String.toList_ofList, hchars]
    have hne : row.expiry ≠ "" := fun h => by
      simpa [h, Date.isoformat, Date.chars] using congrArg String.toList hday
    have htext : expiryText (parseOptionalExpiry row.expiry) = some row.expiry := by
      unfold parseOptionalExpiry
      rw [hstrip, if_neg hne, hday, Date.fromIso_isoformat]
      rfl
    rw [htext]
    exact inMonth_self (.inr ⟨day, hday⟩) hne

/-- What the receipt of a new batch has done. -/
theorem Received.fresh {decision : Decision} {id : String}
    (h : Received cfg.env (rowForm row warehouse decision) d id d')
    (haction : decision.action = .newBatch) (hwarehouse : strip warehouse.id = warehouse.id)
    (hrow : Monthly row) :
    ∃ productId w l, CardKept row.code d w productId ∧ d'.cards = w.cards ∧
      d'.lots = d.lots ++ [l] ∧ l.id = id ∧ id ∉ d.ids .batch ∧
      (∃ used, id = (cfg.env.newId used).1) ∧ l.productId = productId ∧
      l.warehouseId = warehouse.id ∧ inMonth (yearMonth row.expiry) l.expiry = true := by
  have hchoice : (rowForm row warehouse decision).batchChoice = "new" := by
    simp [rowForm, haction]
  obtain ⟨productId, w, hcard, hlots, hids, hcards, hfilled⟩ := h.filled
  cases hfilled with
  | chosen choice =>
    rw [hchoice] at choice
    exact absurd (by decide) choice
  | created _ l hd hid fresh minted product warehouse' expiry =>
    refine ⟨productId, w, l, row.code_strip ▸ hcard, hcards, hlots ▸ hd, hid, hids ▸ fresh, minted,
      product, warehouse'.trans hwarehouse, ?_⟩
    rw [expiry]
    exact inMonth_expiryText hrow

variable (cfg) in
/-- A row is foretold a card where the writing run finds one. -/
theorem Mirrors.exists_card (h : Mirrors d₀ warehouse.id past seen dry wet d old created)
    (row : SheetRow) :
    (resolveRow cfg d₀ row warehouse dry.pending).productExists =
      (cardOf d.cards row.code).isSome := by
  rw [(h.orders cfg row).1, cardOf_cards, Option.isSome_map]
  simp [resolveRow, h.wetMemory.1]

/-- The cards that a dry run remembers after a row. -/
theorem Mirrors.cards_step (h : Mirrors d₀ warehouse.id past seen dry wet d old created)
    {productId : String} {w : Db} (hkept : CardKept row.code d w productId)
    (hd' : d'.cards = w.cards) :
    CardsFollow d₀ d' (foretellRow cfg warehouse d₀ dry row).2.pending.newCodes := by
  have hcodes : (foretellRow cfg warehouse d₀ dry row).2.pending.newCodes =
      if (cardOf d.cards row.code).isSome then dry.pending.newCodes
      else row.code :: dry.pending.newCodes := by
    rw [← h.exists_card cfg row]
    rfl
  rw [hcodes]
  exact h.cards.step hkept hd'

/-- What both modes have counted after a row. -/
theorem Mirrors.counters_step (h : Mirrors d₀ warehouse.id past seen dry wet d old created)
    {v : Visit} (hforetold : Foretold seen (foretellRow cfg warehouse d₀ dry row).1 v)
    (hv : v.decision = resolveRow cfg d row warehouse wet.pending) (qty : Nat) (id : String)
    (notes : List String) :
    (foretellRow cfg warehouse d₀ dry row).2.counters =
      ((wet.count row qty v.decision).written row v.decision id notes).counters := by
  have hexists : (resolveRow cfg d₀ row warehouse dry.pending).productExists =
      v.decision.productExists := by
    rw [hv]
    exact (h.orders cfg row).1
  exact counters_count h.counters row _ qty hexists hforetold.action hforetold.costRaw
    hforetold.saleRaw

/-- The batch of a top-up: an old one that was foretold, or the created one of the key. -/
theorem Mirrors.top_cases (h : Mirrors d₀ wid past seen dry wet d old created) (hd₀ : d₀.Ok)
    (hrow : Monthly row) (hlast : OnLast lotGroup (StaysFirst d₀ wid) past row) {known : String}
    (hknown : foundId d row wid wet.pending = some known) :
    (row.condition = "" ∧ ∃ productId, cardOf d₀.cards row.code = some productId ∧
        headId (lotsOf d₀.lots productId wid (yearMonth row.expiry)) = some known) ∨
      (lotGroup row).bind (firstId d₀ wid) = none ∧ ∃ l, (row.key, l) ∈ created ∧ l.id = known := by
  have hfound := h.found_eq hd₀ hrow hlast
  rw [hknown] at hfound
  cases hfirst : (lotGroup row).bind (firstId d₀ wid) with
  | some id =>
    rw [hfirst, Option.some_or] at hfound
    obtain rfl := Option.some.inj hfound
    obtain ⟨g, hg, hid⟩ := Option.bind_eq_some_iff.mp hfirst
    unfold lotGroup at hg
    split_ifs at hg with hplain
    cases hg
    exact .inl ⟨hplain, Option.bind_eq_some_iff.mp hid⟩
  | none =>
    rw [hfirst, Option.none_or] at hfound
    obtain ⟨l, hl, hid⟩ := Option.map_eq_some_iff.mp hfound.symm
    exact .inr ⟨rfl, l, mem_of_lookup hl, hid⟩

/-- The old batches after a top-up. -/
theorem Mirrors.old_top (h : Mirrors d₀ wid past seen dry wet d old created) (hd₀ : d₀.Ok)
    (hrow : Monthly row) (hlast : OnLast lotGroup (StaysFirst d₀ wid) past row) {known : String}
    (hknown : foundId d row wid wet.pending = some known) :
    OldLots d₀ wid (row :: past) (old.map (renewAt known row)) := by
  rcases h.top_cases hd₀ hrow hlast hknown with ⟨hplain, productId, hcard, hhead⟩ |
    ⟨hfirst, l, hl, hid⟩
  · exact h.oldLots.top hd₀ (List.nodup_append.mp h.nodup).1 hrow hplain hcard hhead
  · have hout : known ∉ old.map Lot.id := by
      intro hmem
      obtain ⟨l', hl', hid'⟩ := List.mem_map.mp hmem
      refine h.apart hl' ?_
      rw [hid', ← hid]
      exact List.mem_map_of_mem (List.mem_map_of_mem hl)
    rw [map_renewAt_of_notMem row hout]
    exact h.oldLots.pass hfirst

/-- The created batch that a top-up goes to, if it goes to one, is the one of the row's key. -/
theorem Mirrors.key_top (h : Mirrors d₀ wid past seen dry wet d old created) (hd₀ : d₀.Ok)
    (hrow : Monthly row) (hlast : OnLast lotGroup (StaysFirst d₀ wid) past row) {known : String}
    (hknown : foundId d row wid wet.pending = some known) :
    ∀ e ∈ created, e.2.id = known → e.1 = row.key := by
  intro e he hid
  rcases h.top_cases hd₀ hrow hlast hknown with ⟨-, productId, -, hhead⟩ | ⟨-, l, hl, hlid⟩
  · obtain ⟨l₀, hl₀, hid₀⟩ := headId_mem hhead
    have hold : known ∈ old.map Lot.id := by
      rw [h.oldLots.ids, ← hid₀]
      exact List.mem_map_of_mem (List.mem_filter.mp hl₀).1
    obtain ⟨l', hl', hid'⟩ := List.mem_map.mp hold
    refine absurd ?_ (h.apart hl')
    rw [hid', ← hid]
    exact List.mem_map_of_mem (List.mem_map_of_mem he)
  · have hnodup : (created.map fun e => e.2.id).Nodup := by
      have hall := (List.nodup_append.mp h.nodup).2.1
      rwa [List.map_map] at hall
    rw [List.inj_on_of_nodup_map hnodup he hl (hid.trans hlid.symm)]

theorem Mirrors.card_top (h : Mirrors d₀ wid past seen dry wet d old created) (hd₀ : d₀.Ok)
    (hrow : Monthly row) (hlast : OnLast lotGroup (StaysFirst d₀ wid) past row) {known : String}
    (hknown : foundId d row wid wet.pending = some known) :
    ∃ productId, cardOf d.cards row.code = some productId := by
  rcases h.top_cases hd₀ hrow hlast hknown with ⟨-, productId, hcard, -⟩ | ⟨-, l, hl, -⟩
  · exact ⟨productId, h.cards.kept _ _ hcard⟩
  · exact ⟨l.productId, (h.newLots.placed _ hl).1⟩

/-- **A row that creates a batch** leaves the two states in step. -/
theorem Mirrors.step_created (h : Mirrors d₀ warehouse.id past seen dry wet d old created)
    (hd₀ : d₀.Ok) (hmade : ∀ used, Minted (cfg.env.newId used).1)
    (hwarehouse : strip warehouse.id = warehouse.id) (hrow : Monthly row) {qty : Nat}
    {decision : Decision} {id : String}
    (hdecision : decision = resolveRow cfg d row warehouse wet.pending)
    (haction : decision.action = .newBatch)
    (received : Received cfg.env (rowForm row warehouse decision) d id d')
    (hforetold : Foretold seen (foretellRow cfg warehouse d₀ dry row).1 ⟨row, decision, some id⟩)
    (hlast : OnLast lotGroup (StaysFirst d₀ warehouse.id) past row) :
    ∃ created', Mirrors d₀ warehouse.id (row :: past) (⟨row, decision, some id⟩ :: seen)
      (foretellRow cfg warehouse d₀ dry row).2
      ((wet.count row qty decision).written row decision id []) d' old created' := by
  have hfound : foundId d row warehouse.id wet.pending = none := by
    have hwet := (Prod.ext_iff.mp (h.decision_wet cfg row)).1
    rw [← hdecision, haction] at hwet
    dsimp only at hwet
    by_contra hne
    obtain ⟨known, hknown⟩ := Option.ne_none_iff_exists'.mp hne
    rw [hknown] at hwet
    cases hwet
  have hnone := h.found_eq hd₀ hrow hlast
  rw [hfound, eq_comm, Option.or_eq_none_iff, Option.map_eq_none_iff] at hnone
  obtain ⟨hfirst, hlookup⟩ := hnone
  obtain ⟨productId, w, l, hcard, hcards, hlots, hid, hfresh, ⟨used, hused⟩, hproduct, hwid, hin⟩ :=
    received.fresh haction hwarehouse hrow
  have hout : l.id ∉ (created.map Prod.snd).map Lot.id := by
    intro hmem
    refine hfresh ?_
    rw [← hid, ← d.ids_lots, h.lots, List.map_append]
    exact List.mem_append_right _ hmem
  have hbatches : (foretellRow cfg warehouse d₀ dry row).2.pending.newBatches =
      row.key :: dry.pending.newBatches := if_pos (hforetold.action.trans haction)
  have hlacking : row.key.2.2 = "" → firstId d₀ warehouse.id (row.key.1, row.key.2.1) = none := by
    intro hplain
    rwa [show lotGroup row = some (row.code, yearMonth row.expiry) from if_pos hplain] at hfirst
  have hplaced : cardOf d'.cards row.code = some l.productId ∧ l.warehouseId = warehouse.id ∧
      IsMonth row.key.2.1 ∧ inMonth row.key.2.1 l.expiry = true :=
    ⟨hproduct ▸ hcard.card hcards, hwid, hrow.isMonth, hin⟩
  refine ⟨created ++ [(row.key, l)], h.counters_step hforetold hdecision qty id [], h.dryMarks, ?_,
    received.ok, List.forall_mem_cons.mpr ⟨hrow, h.monthly⟩, ?_, h.cards_step hcard hcards, ?_,
    h.oldLots.pass hfirst, ?_, ?_⟩
  · unfold Walk.written Walk.count
    dsimp only
    split_ifs <;> exact h.wetMemory
  · intro l' hl'
    rw [hlots] at hl'
    rcases List.mem_append.mp hl' with hl' | hl'
    · exact h.minted l' hl'
    · rw [List.mem_singleton.mp hl', hid, hused]
      exact hmade used
  · rw [hlots, h.lots, List.map_append, List.append_assoc]
    rfl
  · rw [hbatches]
    exact h.newLots.create hlookup (fun _ _ hold => hcard.mono hcards hold) hplaced hlacking
      ⟨rfl, haction, congrArg some hid.symm⟩
  · show Keyed (if decision.action = .newBatch ∧ row.condition ≠ "" then _ else wet.pending) _
    by_cases hplain : row.condition = ""
    · rw [if_neg fun hboth => hboth.2 hplain]
      exact h.marks.pass hout hplain
    · rw [if_pos ⟨haction, hplain⟩, ← hid]
      exact h.marks.mark hlookup hout hplain

/-- **A row that tops up a batch** leaves the two states in step. -/
theorem Mirrors.step_topped (h : Mirrors d₀ warehouse.id past seen dry wet d old created)
    (hd₀ : d₀.Ok) (hrow : Monthly row) {qty : Nat} {decision : Decision} {known id : String}
    {w : Db} {notes : List String}
    (hdecision : decision = resolveRow cfg d row warehouse wet.pending)
    (haction : decision.action = .topup) (hknown : decision.batchId = some known)
    (received : Received cfg.env (rowForm row warehouse decision) d id w)
    (noted : Noted id row w d')
    (hforetold : Foretold seen (foretellRow cfg warehouse d₀ dry row).1 ⟨row, decision, some id⟩)
    (hlast : OnLast lotGroup (StaysFirst d₀ warehouse.id) past row) :
    ∃ old' created', Mirrors d₀ warehouse.id (row :: past) (⟨row, decision, some id⟩ :: seen)
      (foretellRow cfg warehouse d₀ dry row).2
      ((wet.count row qty decision).written row decision id notes) d' old' created' := by
  have hfound : foundId d row warehouse.id wet.pending = some known := by
    have hwet := (Prod.ext_iff.mp (h.decision_wet cfg row)).2
    rw [← hdecision, hknown] at hwet
    exact hwet.symm
  obtain ⟨l, hl, hlid⟩ := h.found_mem hfound
  obtain ⟨rfl, hlots⟩ := received.chosen haction hknown (hlid ▸ h.minted l hl)
  obtain ⟨productId, hcard⟩ := h.card_top hd₀ hrow hlast hfound
  obtain ⟨productId', w₀, hkept, -, -, hcards, -⟩ := received.filled
  rw [show strip (rowForm row warehouse decision).code = row.code from row.code_strip] at hkept
  have hw₀ : w₀.cards = d.cards := by
    cases hkept with
    | known _ hsame => exact hsame
    | created hnone => exact absurd (hcard.symm.trans hnone) (Option.some_ne_none _)
  have hsame : d'.cards = d.cards := noted.cards.trans (hcards.trans hw₀)
  have hbatches : (foretellRow cfg warehouse d₀ dry row).2.pending.newBatches =
      dry.pending.newBatches := by
    refine if_neg fun hnew => ?_
    have htopup := hforetold.action.trans haction
    exact absurd (hnew.symm.trans htopup) (by decide)
  refine ⟨old.map (renewAt id row), renewedNew id row created,
    h.counters_step hforetold hdecision qty id notes, h.dryMarks, ?_, noted.ok,
    List.forall_mem_cons.mpr ⟨hrow, h.monthly⟩, ?_, h.cards_step hkept ?_, ?_,
    h.old_top hd₀ hrow hlast hfound, ?_, ?_⟩
  · unfold Walk.written Walk.count
    dsimp only
    split_ifs <;> exact h.wetMemory
  · intro l' hl'
    rw [noted.lots, hlots] at hl'
    obtain ⟨l₁, hl₁, rfl⟩ := List.mem_map.mp hl'
    rw [renewAt_id]
    exact h.minted l₁ hl₁
  · exact noted.cards.trans hcards
  · rw [noted.lots, hlots, h.lots, List.map_append, snd_renewedNew]
  · rw [hbatches]
    exact h.newLots.top hrow hsame _ (h.key_top hd₀ hrow hlast hfound)
  · have hpending : ((wet.count row qty decision).written row decision id notes).pending =
        wet.pending := by
      refine if_neg fun hboth => ?_
      exact absurd (hboth.1.symm.trans haction) (by decide)
    rw [hpending]
    exact h.marks.top id row

end Mirrors

/-! ## The whole run -/

/-- The rows before, the outputs, the dry run's walk, and the writing run's with its database. -/
def InStep (d₀ : Db) (wid : String) (past : List SheetRow) (seen : List Visit) (dry : Walk)
    (t : Walk × Db) : Prop :=
  ∃ old created, Mirrors d₀ wid past seen dry t.1 t.2 old created

/-- **The step of the simulation.** -/
theorem tracks_dryRun (hd₀ : d₀.Ok) (hmade : ∀ used, Minted (cfg.env.newId used).1)
    (hwarehouse : strip warehouse.id = warehouse.id) :
    Tracks (fun t row v t' => Monthly row ∧ Written cfg warehouse t.1 t.2 row v t')
      (foretellRow cfg warehouse d₀) Foretold (OnLast lotGroup (StaysFirst d₀ warehouse.id))
      (InStep d₀ warehouse.id) := by
  rintro past seen dry ⟨wet, d⟩ row v t' ⟨old, created, h⟩ ⟨hrow, hwrote⟩
  have hforetold := h.foretold_iff hd₀ hrow hwrote
  refine ⟨hforetold, fun hlast => ?_⟩
  have hright := hforetold.mpr hlast
  cases hwrote with
  | created _ hdecision haction received =>
    exact ⟨old, h.step_created hd₀ hmade hwarehouse hrow hdecision haction received hright hlast⟩
  | topped _ hdecision haction hknown received noted =>
    exact h.step_topped hd₀ hrow hdecision haction hknown received noted hright hlast

/-- Before the first row. -/
theorem inStep_start (hd₀ : d₀.Ok) (hbatches : ∀ b ∈ d₀.batches, Minted b.id)
    (rows : List SheetRow) (wid : String) :
    InStep d₀ wid [] [] (Walk.start rows) (Walk.start rows, d₀) := by
  refine ⟨d₀.lots, [], rfl, ⟨rfl, rfl⟩, ⟨rfl, rfl⟩, hd₀, fun row hrow => absurd hrow List.not_mem_nil,
    fun l hl => ?_, ⟨fun _ _ h => h, fun code => ?_, fun code id hcard hnone => ?_, fun _ h => h⟩, ?_,
    ⟨rfl, rfl, fun _ _ _ _ _ => rfl⟩, ⟨List.nodup_nil, fun k => ?_, ?_, ?_, ?_⟩,
    ⟨fun k _ => rfl, ?_, ?_⟩⟩
  · obtain ⟨b, hb, rfl⟩ := List.mem_map.mp hl
    exact hbatches b hb
  · exact ⟨.inl, fun h => h.resolve_right List.not_mem_nil⟩
  · rw [hcard] at hnone
    cases hnone
  · exact (List.append_nil _).symm
  · exact iff_of_false List.not_mem_nil List.not_mem_nil
  all_goals exact fun e he => absurd he List.not_mem_nil

/-- What is asked of a sheet, a warehouse and a database before the run: ids as `new_id` makes them,
and expiries as the sheet promises them. -/
structure Importable (cfg : ImportSetting) (d : Db) (warehouse : Warehouse)
    (rows : List SheetRow) : Prop where
  made : ∀ used, Minted (cfg.env.newId used).1
  batches : ∀ b ∈ d.batches, Minted b.id
  warehouse : strip warehouse.id = warehouse.id
  monthly : ∀ row ∈ imported rows, Monthly row

theorem qty_of_runs {t t' : Walk × Db} {vs : List Visit}
    (hruns : Lib.Forecast.Runs
      (fun t row v t' => Written cfg warehouse t.1 t.2 row v t') t rows vs t') :
    ∀ row ∈ rows, ∃ qty, rowQty cfg row = .ok qty := by
  induction hruns with
  | nil t => exact fun row hrow => absurd hrow List.not_mem_nil
  | cons head tail ih =>
    refine List.forall_mem_cons.mpr ⟨?_, ih⟩
    cases head with
    | created hqty => exact ⟨_, hqty⟩
    | topped hqty => exact ⟨_, hqty⟩

theorem counts_of_counters {dry wet : Walk} (h : dry.counters = wet.counters) :
    dry.counts = wet.counts := by
  obtain ⟨hnumbers, hpriceless⟩ := Prod.ext_iff.mp h
  simp only [Walk.counters, Prod.mk.injEq] at hnumbers hpriceless
  obtain ⟨hproducts, hbatches, htopups, hconditions⟩ := hnumbers
  simp only [Walk.counts, Walk.report, hproducts, hbatches, htopups, hconditions, hpriceless]

/-- **The dry run writes nothing, and predicts the run** that no row stops exactly where every first
batch of a month stays the first one until the last row of that month. -/
theorem dryRun_predicts_iff (d : Database) {wet : Walk} (himport : Importable cfg d.db warehouse rows)
    (hrun : (importWalk cfg rows warehouse true).reply d.db = .ok wet)
    (hdone : wet.summary.stoppedAtLine = none) :
    ∃ dry, (∀ s : Lib.Transaction.Session Db, s.working = d.db →
        importWalk cfg rows warehouse false s = (.ok dry, s)) ∧
      (Predicts dry wet ↔ KeepsFirst d.db warehouse.id rows) := by
  obtain ⟨s', hs'⟩ : ∃ s', importWalk cfg rows warehouse true ⟨d.db, d.db, 0, 0⟩ = (.ok wet, s') :=
    ⟨_, Prod.ext hrun rfl⟩
  obtain ⟨vs, hruns, hvisits⟩ := runs_importRows rfl hs' hdone
  have htracks := tracks_dryRun d.ok himport.made himport.warehouse
  have hstart := inStep_start d.ok himport.batches rows warehouse.id
  have hmonthly := hruns.of_forall himport.monthly
  refine ⟨memory (foretellRow cfg warehouse d.db) (Walk.start rows) (imported rows),
    fun s hs => hs ▸ importRows_dry (qty_of_runs hruns), ?_⟩
  have hwet : wet.visits.reverse = vs := by
    rw [hvisits, List.reverse_append, List.reverse_reverse]
    rfl
  have hdry : (memory (foretellRow cfg warehouse d.db) (Walk.start rows)
      (imported rows)).visits.reverse =
        forecasts (foretellRow cfg warehouse d.db) (Walk.start rows) (imported rows) := by
    rw [visits_memory, List.reverse_append, List.reverse_reverse]
    rfl
  have hforetells := foretells_iff htracks hstart hmonthly
  rw [along_lastOf_iff] at hforetells
  constructor
  · intro h
    have hall := h.visits
    rw [hwet, hdry] at hall
    exact hforetells.mp hall
  · intro hkeeps
    obtain ⟨old, created, hend⟩ := tracked htracks hstart hmonthly (along_lastOf_iff.mpr hkeeps)
    refine ⟨counts_of_counters hend.counters, ?_⟩
    rw [hwet, hdry]
    exact hforetells.mpr hkeeps

/-! ## A sheet of two rows -/

/-- An office with one product and batches of one month. -/
def officeDb (expiries : List (String × String)) : Db where
  warehouses := [⟨"w", "Офис", none, "RUB", "", "", none⟩]
  products := [{ blankProduct "p" "" with code := some "100" }]
  batches := expiries.map fun e => ⟨e.1, "p", "w", some e.2, none, none, none, none, none, 0, 0, "", ""⟩

/-- The office. -/
def office : Warehouse := ⟨"w", "Офис", none, "RUB", "", "", none⟩

/-- The catalog is empty. -/
def officeSetting : ImportSetting := ⟨Env.sample, storedFirst, [], Char.isDigit⟩

/-- A row of the end of the month. -/
def officeRow (lineNo : Nat) : SheetRow :=
  ⟨lineNo, "", "100", "Крем", "1", "2018-01-31", "", "", "", none, rfl⟩

theorem minted_freshId (used : List String) : Minted (freshId used).1 := by
  have hblank : ∀ n, ∀ c ∈ List.replicate n 'x', isSpace c = false := fun n c hc => by
    rw [List.eq_of_mem_replicate hc]
    decide
  refine ⟨?_, fun h => ?_⟩
  · rw [freshId, strip, String.toList_ofList, stripChars_eq_self (hblank _)]
  · have hchars := congrArg String.toList h
    rw [freshId, String.toList_ofList, List.replicate_succ] at hchars
    exact absurd (List.cons.inj hchars).1 (by decide)

/-- The expiry of the first row hides the first batch behind the second one. -/
theorem not_predicts_two_batches : ∃ dry wet,
    (importWalk officeSetting [officeRow 2, officeRow 3] office true).reply
        (officeDb [("b1", "2018-01-14"), ("b2", "2018-01-20")]) = .ok wet ∧
      wet.summary.stoppedAtLine = none ∧
      (importWalk officeSetting [officeRow 2, officeRow 3] office false).reply
        (officeDb [("b1", "2018-01-14"), ("b2", "2018-01-20")]) = .ok dry ∧ ¬Predicts dry wet := by
  have hwet : ((importWalk officeSetting [officeRow 2, officeRow 3] office true).reply
      (officeDb [("b1", "2018-01-14"), ("b2", "2018-01-20")])).toOption.any (fun wet =>
        wet.summary.stoppedAtLine = none &&
          (wet.visits.reverse.map fun v => v.decision.batchId) = [some "b1", some "b2"]) = true := by
    decide +kernel
  have hdry : ((importWalk officeSetting [officeRow 2, officeRow 3] office false).reply
      (officeDb [("b1", "2018-01-14"), ("b2", "2018-01-20")])).toOption.any (fun dry =>
        (dry.visits.reverse.map fun v => v.decision.batchId) = [some "b1", some "b1"]) = true := by
    decide +kernel
  obtain ⟨wet, hwet, hend⟩ := toOption_any_iff.mp hwet
  obtain ⟨dry, hdry, hdryIds⟩ := toOption_any_iff.mp hdry
  simp only [Bool.and_eq_true, decide_eq_true_eq] at hend hdryIds
  obtain ⟨hdone, hwetIds⟩ := hend
  refine ⟨dry, wet, hwet, hdone, hdry, fun h => ?_⟩
  have hfound : List.Forall₂ (fun a b : Option String => ∀ id ∈ a, b = some id)
      (dry.visits.reverse.map fun v => v.decision.batchId)
      (wet.visits.reverse.map fun v => v.decision.batchId) := by
    rw [List.forall₂_map_left_iff, List.forall₂_map_right_iff]
    exact h.visits.forall₂.imp fun _ _ ⟨_, hrow⟩ => hrow.found
  rw [hdryIds, hwetIds] at hfound
  cases hfound with
  | cons _ hsecond =>
    cases hsecond with
    | cons hrow _ => exact absurd (hrow "b1" rfl) (by decide)

/-- With one batch in the month, the same two rows are foretold. -/
theorem dryRun_predicts_one_batch : ∃ dry wet,
    (importWalk officeSetting [officeRow 2, officeRow 3] office true).reply
        (officeDb [("b1", "2018-01-14")]) = .ok wet ∧
      (∀ s : Lib.Transaction.Session Db, s.working = officeDb [("b1", "2018-01-14")] →
        importWalk officeSetting [officeRow 2, officeRow 3] office false s = (.ok dry, s)) ∧
      Predicts dry wet := by
  have hrun : ((importWalk officeSetting [officeRow 2, officeRow 3] office true).reply
      (officeDb [("b1", "2018-01-14")])).toOption.any
        (fun wet => wet.summary.stoppedAtLine = none) = true := by
    decide +kernel
  obtain ⟨wet, hwet, hdone⟩ := toOption_any_iff.mp hrun
  have hkeeps : KeepsFirst (officeDb [("b1", "2018-01-14")]) office.id
      [officeRow 2, officeRow 3] := by
    decide
  have hok : (officeDb [("b1", "2018-01-14")]).Ok := by decide
  have himport : Importable officeSetting (officeDb [("b1", "2018-01-14")]) office
      [officeRow 2, officeRow 3] := by
    refine ⟨minted_freshId, by decide, by decide, fun row hrow => .inr ?_⟩
    have hexpiry : row.expiry = "2018-01-31" := by
      rcases List.mem_cons.mp (List.mem_filter.mp hrow).1 with rfl | hrow
      · rfl
      · rw [List.mem_singleton.mp hrow]
        rfl
    exact ⟨⟨2018, 1, 31, by decide⟩, hexpiry.trans (by decide)⟩
  obtain ⟨dry, hdry, hpredicts⟩ :=
    dryRun_predicts_iff ⟨_, hok⟩ himport hwet (of_decide_eq_true hdone)
  exact ⟨dry, wet, hwet, hdry, hpredicts.mpr hkeeps⟩

end MyOriShop
