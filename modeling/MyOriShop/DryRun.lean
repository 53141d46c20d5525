import MyOriShop.Lib.Forecast
import MyOriShop.Lots
import MyOriShop.Money

/-!
# Dry run: what the inventory import foretells (`scripts/import_inventory_receipt.py`)

A dry run sees the database as it was and remembers the cards and batches it would have made. The
writing run sees its own receipts, and the expiries that its top-ups have rewritten.

* `Monthly` is a row whose expiry is empty or the ISO date that the sheet promises.
* `StaysFirst`: a top-up that rewrites the expiry of a month's first batch leaves it the first one.
* `KeepsFirst`: so it is wherever a later row of the sheet goes to the same month.

Results:
* `inMonth_iff`: a batch belongs to one month.
* `choice_eq`: what a row does, from the batch that it finds.
* `staysFirst_iff`: the condition on a row, as one on its month's batches.
-/

namespace MyOriShop

open Lib.Text Lib.IsoDate Lib.Like Lib.Transaction Lib.Earliest Lib.Forecast

/-! ## Months -/

/-- A character that no pattern, blank or case concerns. -/
def Bare (c : Char) : Prop := (c ≠ '%' ∧ c ≠ '_') ∧ isSpace c = false ∧ c.toLower = c

instance (c : Char) : Decidable (Bare c) := by
  unfold Bare
  infer_instance

theorem bare_digitChar : ∀ n, n < 10 → Bare (Nat.digitChar n) := by decide

theorem bare_chars (day : Date) : ∀ c ∈ day.chars, Bare c := by
  have hpad : ∀ n, ∀ c ∈ pad2 n, Bare c := by
    intro n c hc
    rcases List.mem_cons.mp hc with rfl | hc
    · exact bare_digitChar _ (Nat.mod_lt _ (by decide))
    · rw [List.mem_singleton.mp hc]
      exact bare_digitChar _ (Nat.mod_lt _ (by decide))
  have hdash : Bare '-' := by decide
  intro c hc
  simp only [Date.chars, pad4, List.mem_append, List.mem_cons] at hc
  rcases hc with (hc | hc) | rfl | hc | rfl | hc
  · exact hpad _ c hc
  · exact hpad _ c hc
  · exact hdash
  · exact hpad _ c hc
  · exact hdash
  · exact hpad _ c hc

/-- A row whose expiry is empty or an ISO date. -/
def Monthly (row : SheetRow) : Prop := row.expiry = "" ∨ CanonicalDate row.expiry

/-- The month of a monthly row. -/
def IsMonth (month : Option String) : Prop := ∃ row : SheetRow, Monthly row ∧ yearMonth row.expiry = month

/-- Year, month and the dash behind them. -/
def monthChars (day : Date) : List Char := pad4 day.year ++ '-' :: (pad2 day.month ++ ['-'])

theorem chars_eq (day : Date) : day.chars = monthChars day ++ pad2 day.day := by
  simp [Date.chars, monthChars]

theorem yearMonth_isoformat (day : Date) :
    ∃ month, yearMonth day.isoformat = some month ∧ month.toList ++ ['-'] = monthChars day := by
  refine ⟨String.ofList (day.chars.take 7), ?_, ?_⟩
  · have hne : day.isoformat ≠ "" := fun h => by
      simpa [Date.isoformat, Date.chars] using congrArg String.toList h
    rw [yearMonth, if_neg hne, Date.isoformat, String.toList_ofList]
  · rw [String.toList_ofList]
    rfl

/-- The months that a monthly row can have. -/
theorem isMonth_cases {month : Option String} (h : IsMonth month) :
    month = none ∨ ∃ (day : Date) (m : String), month = some m ∧ m.toList ++ ['-'] = monthChars day := by
  obtain ⟨row, hrow, rfl⟩ := h
  rcases hrow with hempty | ⟨day, hday⟩
  · left
    rw [yearMonth, if_pos hempty]
  · right
    obtain ⟨m, hm, hchars⟩ := yearMonth_isoformat day
    exact ⟨day, m, by rw [hday, hm], hchars⟩

theorem Monthly.isMonth {row : SheetRow} (h : Monthly row) : IsMonth (yearMonth row.expiry) :=
  ⟨row, h, rfl⟩

theorem clean_monthChars (day : Date) : ∀ c ∈ monthChars day, Bare c := fun c hc =>
  bare_chars day c (by rw [chars_eq]; exact List.mem_append_left _ hc)

theorem map_toLower {text : List Char} (h : ∀ c ∈ text, Bare c) : text.map Char.toLower = text :=
  (List.map_congr_left fun c hc => (h c hc).2.2).trans (List.map_id text)

/-- A batch is in the month of a day if its expiry begins so. -/
theorem inMonth_some {day : Date} {m : String} (hm : m.toList ++ ['-'] = monthChars day)
    (expiry : Option String) :
    inMonth (some m) expiry = true ↔
      ∃ e ∈ expiry, monthChars day <+: e.toList.map Char.toLower := by
  cases expiry with
  | none => simp [inMonth]
  | some e =>
    have hpattern : m.toList ++ "-%".toList = monthChars day ++ ['%'] := by
      rw [← hm, List.append_assoc]
      rfl
    have hliteral : Literal (monthChars day) := fun c hc => (clean_monthChars day c hc).1
    show like _ (m.toList ++ "-%".toList) e.toList = true ↔ _
    rw [hpattern, like_literal hliteral, map_toLower (clean_monthChars day)]
    simp

/-- A row's own expiry is in its month. -/
theorem inMonth_self {row : SheetRow} (h : Monthly row) (hexpiry : row.expiry ≠ "") :
    inMonth (yearMonth row.expiry) (some row.expiry) = true := by
  obtain ⟨day, hday⟩ := h.resolve_left hexpiry
  obtain ⟨m, hm, hchars⟩ := yearMonth_isoformat day
  rw [hday, hm, inMonth_some hchars]
  refine ⟨_, rfl, ?_⟩
  rw [Date.isoformat, String.toList_ofList, map_toLower (bare_chars day), chars_eq]
  exact List.prefix_append ..

/-- **A batch belongs to one month.** -/
theorem inMonth_iff {month month' expiry : Option String} (hmonth : IsMonth month)
    (hmonth' : IsMonth month') (h : inMonth month expiry = true) :
    inMonth month' expiry = true ↔ month' = month := by
  refine ⟨fun h' => ?_, fun heq => heq ▸ h⟩
  rcases isMonth_cases hmonth with rfl | ⟨day, m, rfl, hm⟩ <;>
    rcases isMonth_cases hmonth' with rfl | ⟨day', m', rfl, hm'⟩
  · rfl
  · obtain ⟨e, he, -⟩ := (inMonth_some hm' expiry).mp h'
    simp [inMonth, show expiry = some e from he] at h
  · obtain ⟨e, he, -⟩ := (inMonth_some hm expiry).mp h
    simp [inMonth, show expiry = some e from he] at h'
  · obtain ⟨e, he, hbegin⟩ := (inMonth_some hm expiry).mp h
    obtain ⟨e', he', hbegin'⟩ := (inMonth_some hm' expiry).mp h'
    obtain rfl : e' = e := Option.mem_unique he' he
    have hlength : (monthChars day').length = (monthChars day).length := rfl
    have hsame := (List.prefix_of_prefix_length_le hbegin' hbegin hlength.le).eq_of_length hlength
    have hchars : m'.toList = m.toList := by
      rw [← hm, ← hm'] at hsame
      exact List.append_cancel_right hsame
    exact congrArg some (String.toList_inj.mp hchars)

/-! ## What a row finds -/

variable {cfg : ImportSetting} {warehouse : Warehouse} {d d₀ : Db} {row : SheetRow}
  {pending : ImportPending} {lots old : List Lot} {wid : String}

/-- The product and the month by which a row without a condition marker finds its batch. -/
def lotGroup (row : SheetRow) : Option (String × Option String) :=
  if row.condition = "" then some (row.code, yearMonth row.expiry) else none

/-- The batch that the rows of a group find in a database. -/
def firstId (d : Db) (wid : String) (g : String × Option String) : Option String :=
  (cardOf d.cards g.1).bind fun productId => headId (lotsOf d.lots productId wid g.2)

/-- The batch that a row finds. -/
def foundId (d : Db) (row : SheetRow) (wid : String) (pending : ImportPending) : Option String :=
  if row.condition = "" then
    (cardOf d.cards row.code).bind fun productId =>
      headId ((lotsOf d.lots productId wid (yearMonth row.expiry)).filter
        fun l => l.id ∉ pending.conditionBatchIds)
  else pending.conditionBatches.lookup row.key

/-- What a row does, by the batch that it finds. -/
def choiceOf (row : SheetRow) (pending : ImportPending) (found : Option String) :
    ImportAction × Option String :=
  match found with
  | some id => (.topup, some id)
  | none => ((unfoundLot row pending).action, (unfoundLot row pending).batchId)

theorem choiceOf_none (row : SheetRow) (pending : ImportPending) :
    choiceOf row pending none =
      if row.key ∈ pending.newBatches then (.topup, none) else (.newBatch, none) := by
  unfold choiceOf unfoundLot
  dsimp only
  split_ifs <;> rfl

/-- **What a row does**, from the batch that it finds. -/
theorem choice_eq (d : Db) (row : SheetRow) (wid : String) (pending : ImportPending) :
    ((chooseLot d row wid pending).action, (chooseLot d row wid pending).batchId) =
      choiceOf row pending (foundId d row wid pending) := by
  unfold chooseLot foundId
  by_cases hcondition : row.condition = ""
  · rw [if_neg (not_not.mpr hcondition), if_pos hcondition, cardOf_cards]
    cases activeProduct d row.code with
    | none => rfl
    | some product =>
      have hhead := monthBatches_head d product.id wid (yearMonth row.expiry)
        pending.conditionBatchIds
      rw [Option.map_some, Option.bind_some, ← hhead]
      dsimp only
      cases monthBatches d product.id wid (yearMonth row.expiry) pending.conditionBatchIds with
      | nil => rfl
      | cons first others => rfl
  · rw [if_pos hcondition, if_neg hcondition]
    cases pending.conditionBatches.lookup row.key with
    | none => rfl
    | some known => rfl

/-! ## Rewritten expiries -/

/-- The first batch of the row's month. -/
def monthFirst (d : Db) (wid : String) (row : SheetRow) : Option Batch :=
  (activeProduct d row.code).bind fun p =>
    (monthBatches d p.id wid (yearMonth row.expiry) []).head?

/-- With the row's expiry on it, the first batch of the month is still the first one. -/
def StaysFirst (d : Db) (wid : String) (row : SheetRow) : Prop :=
  ∀ b ∈ monthFirst d wid row,
    (monthFirst (d.edit .batch b.id (renewed row)) wid row).map Batch.id = some b.id

instance (d : Db) (wid : String) (row : SheetRow) : Decidable (StaysFirst d wid row) := by
  unfold StaysFirst
  infer_instance

/-- Wherever a later row goes to the same month, the first batch stays the first one. -/
def KeepsFirst (d : Db) (wid : String) (rows : List SheetRow) : Prop :=
  (imported rows).Pairwise fun row later =>
    (lotGroup row).isSome → lotGroup row = lotGroup later → StaysFirst d wid row

instance (d : Db) (wid : String) (rows : List SheetRow) : Decidable (KeepsFirst d wid rows) := by
  unfold KeepsFirst
  infer_instance

theorem monthFirst_id (d : Db) (wid : String) (row : SheetRow) :
    (monthFirst d wid row).map Batch.id = firstId d wid (row.code, yearMonth row.expiry) := by
  unfold monthFirst firstId
  rw [cardOf_cards]
  cases activeProduct d row.code with
  | none => rfl
  | some p =>
    have hhead := monthBatches_head d p.id wid (yearMonth row.expiry) []
    rw [List.filter_eq_self.mpr fun _ _ => by simp] at hhead
    exact hhead

@[simp] theorem renew_id (row : SheetRow) (l : Lot) : (l.renew row).id = l.id := by
  unfold Lot.renew
  split_ifs <;> rfl

@[simp] theorem renew_productId (row : SheetRow) (l : Lot) :
    (l.renew row).productId = l.productId := by
  unfold Lot.renew
  split_ifs <;> rfl

@[simp] theorem renew_warehouseId (row : SheetRow) (l : Lot) :
    (l.renew row).warehouseId = l.warehouseId := by
  unfold Lot.renew
  split_ifs <;> rfl

@[simp] theorem renewAt_id (id : String) (row : SheetRow) (l : Lot) :
    (renewAt id row l).id = l.id := by
  unfold renewAt
  split_ifs <;> simp

@[simp] theorem renewAt_productId (id : String) (row : SheetRow) (l : Lot) :
    (renewAt id row l).productId = l.productId := by
  unfold renewAt
  split_ifs <;> simp

theorem renewAt_of_ne {id : String} (row : SheetRow) {l : Lot} (h : l.id ≠ id) :
    renewAt id row l = l := if_neg h

theorem map_renewAt_of_notMem {id : String} {lots : List Lot} (row : SheetRow)
    (h : id ∉ lots.map Lot.id) : lots.map (renewAt id row) = lots :=
  map_renewAt_of_same fun _ hl hid => absurd (hid ▸ List.mem_map_of_mem hl) h

theorem map_id_renewAt (id : String) (row : SheetRow) (lots : List Lot) :
    (lots.map (renewAt id row)).map Lot.id = lots.map Lot.id := by
  rw [List.map_map]
  exact List.map_congr_left fun l _ => renewAt_id id row l

/-- Of two expiries written on a batch, the last one counts. -/
theorem renewAt_renewAt {id : String} {row row' : SheetRow}
    (h : row'.expiry = "" → row.expiry = "") (l : Lot) :
    renewAt id row' (renewAt id row l) = renewAt id row' l := by
  by_cases hid : l.id = id
  · have hrenew : (l.renew row).renew row' = l.renew row' := by
      unfold Lot.renew
      split_ifs with h1 h2
      all_goals first | rfl | exact absurd (h h2) h1 | exact absurd (h ‹_›) ‹_›
    have hat : ∀ (r : SheetRow) (l : Lot), l.id = id → renewAt id r l = l.renew r :=
      fun r l h => if_pos h
    rw [hat row l hid, hat row' _ ((renew_id row l).trans hid), hat row' l hid, hrenew]
  · rw [renewAt_of_ne row hid]

/-- A row's expiry leaves a batch of its month in that month and out of the others. -/
theorem inMonth_renew (hrow : Monthly row) {month : Option String} (hmonth : IsMonth month)
    {l : Lot} (hl : inMonth (yearMonth row.expiry) l.expiry = true) :
    inMonth month (l.renew row).expiry = inMonth month l.expiry := by
  unfold Lot.renew
  split_ifs with hempty
  · rfl
  · have hself := inMonth_self hrow hempty
    rw [Bool.eq_iff_iff, inMonth_iff hrow.isMonth hmonth hself, inMonth_iff hrow.isMonth hmonth hl]

/-- A row's expiry on a batch of its month, and the lots of any month. -/
theorem lotsOf_renewAt (hrow : Monthly row) {id productId : String} {month : Option String}
    (hmonth : IsMonth month)
    (hl : ∀ l ∈ lots, l.id = id → inMonth (yearMonth row.expiry) l.expiry = true) :
    lotsOf (lots.map (renewAt id row)) productId wid month =
      (lotsOf lots productId wid month).map (renewAt id row) := by
  unfold lotsOf
  rw [List.filter_map]
  refine congrArg (List.map (renewAt id row)) (List.filter_congr fun l hmem => ?_)
  show Lot.among productId wid month (renewAt id row l) = _
  unfold renewAt
  split_ifs with hid
  · unfold Lot.among
    rw [renew_productId, renew_warehouseId, inMonth_renew hrow hmonth (hl l hmem hid)]
  · rfl

/-- What the lots of a group are after a row of it was topped up on the first one. -/
def rewritten (lots : List Lot) (last : Option SheetRow) : List Lot :=
  match last, headId lots with
  | some row, some id => lots.map (renewAt id row)
  | _, _ => lots

theorem rewritten_nil (last : Option SheetRow) : rewritten [] last = [] := by
  cases last <;> rfl

theorem rewritten_none (lots : List Lot) : rewritten lots none = lots := rfl

theorem rewritten_some {id : String} (h : headId lots = some id) (row : SheetRow) :
    rewritten lots (some row) = lots.map (renewAt id row) := by
  unfold rewritten
  rw [h]

/-- `StaysFirst` on the lots. -/
theorem staysFirst_iff (wid : String) (hd : d.Ok) (hrow : Monthly row) {productId id : String}
    (hcard : cardOf d.cards row.code = some productId)
    (hid : headId (lotsOf d.lots productId wid (yearMonth row.expiry)) = some id) :
    StaysFirst d wid row ↔
      headId (rewritten (lotsOf d.lots productId wid (yearMonth row.expiry)) (some row)) =
        some id := by
  have hfirst : (monthFirst d wid row).map Batch.id = some id := by
    rw [monthFirst_id, firstId, hcard]
    exact hid
  obtain ⟨b, hb, rfl⟩ := Option.map_eq_some_iff.mp hfirst
  obtain ⟨l, hl, hlid⟩ := headId_mem hid
  -- ids are unique, so the batch of the id is the one of the month
  have hmonth : ∀ l' ∈ d.lots, l'.id = b.id → inMonth (yearMonth row.expiry) l'.expiry = true := by
    intro l' hl' hid'
    have hnodup : (d.lots.map Lot.id).Nodup := d.ids_lots ▸ hd.nodup .batch
    obtain ⟨hmem, hamong⟩ := List.mem_filter.mp hl
    obtain rfl := List.inj_on_of_nodup_map hnodup hl' hmem (hid'.trans hlid.symm)
    simp only [Lot.among, Bool.and_eq_true] at hamong
    exact hamong.2
  have hedit : (d.edit .batch b.id (renewed row)).lots = d.lots.map (renewAt b.id row) :=
    lots_edit d b.id fun b' _ _ => lot_renewed row b'
  have hcards : cardOf (d.edit .batch b.id (renewed row)).cards row.code = some productId := hcard
  have hafter : (monthFirst (d.edit .batch b.id (renewed row)) wid row).map Batch.id =
      headId (rewritten (lotsOf d.lots productId wid (yearMonth row.expiry)) (some row)) := by
    rw [monthFirst_id, firstId, hcards, Option.bind_some, hedit, rewritten_some hid]
    exact congrArg headId (lotsOf_renewAt hrow hrow.isMonth hmonth)
  unfold StaysFirst
  rw [hb, ← hafter]
  exact ⟨fun h => h b rfl, fun h b' hb' => Option.mem_some_iff.mp hb' ▸ h⟩

end MyOriShop
