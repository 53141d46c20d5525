import Mathlib.Data.List.ReduceOption
import MyOriShop.Constrained
import MyOriShop.History
import MyOriShop.Lib.IsoUtc

/-!
# Chronology: the order of `created_at` (`app/services/reports.py`, `operations.py`, `merge.py`)

The feeds, the history and `stale_products` compare timestamps as texts, as `utcnow_iso` promises
that they may be. The gate of the exchange lets in more texts than it writes.

* `staleProducts` is `stale_products`, `lastSaleIso` its `MAX(created_at)`.
* `MergedRun Fits d`: local calls and merges of accepted batches that fit lead to the ledger.
* `StampsUtc batch`: the timestamps of its ledger rows are texts of UTC.
* `Chronological d`: texts compare as instants, and so the last sale is the latest, its age the days
  since then, and no feed has an older row above a newer one.

Results:
* `chronological_of_utc`: what texts of UTC are enough for.
* `reached_chronological`: a ledger is chronological that only batches with such texts have reached.
* `not_reached_chronological`: an hour before the new year, with an offset of three hours.
-/

namespace MyOriShop

open Lib.Json (Value valueAt)
open Lib.IsoDate Lib.Fallible

variable {zone : Zone} {env : Env} {d d' : Db} {p : Product} {today : Date} {staleDays : Int}

/-! ## `stale_products` -/

/-- The products of the report: for an operator, those in stock in the own warehouses. -/
def reportedProducts (env : Env) (d : Db) : List Product :=
  d.products.filter fun p => p.deletedAt.isNone && (env.allowed.isNone || d.batches.any fun b =>
    b.productId = p.id && decide (0 < b.quantity) && env.warehouseScope (some b.warehouseId))

/-- The sales of a product that are joined: for an operator, those of the own warehouses. -/
def joinedSales (env : Env) (d : Db) (p : Product) : List Operation :=
  d.operations.filter fun o => o.productId = p.id && o.type = "sale" &&
    env.warehouseScope ((operationBatch d o).map Batch.warehouseId)

/-- `func.max(Operation.created_at)`. -/
def lastSaleIso (env : Env) (d : Db) (p : Product) : Option String :=
  ((joinedSales env d p).map Operation.createdAt).max?

/-- A line of the report. -/
structure StaleLine where
  product : Product
  lastSaleIso : Option String
  daysSince : Option Int

/-- The line of a product that has been sold, if it is stale. -/
def staleLine (zone : Zone) (staleDays : Int) (today : Date) (env : Env) (d : Db) (p : Product) :
    Except Overflow (Option StaleLine) :=
  match lastSaleIso env d p with
  | none => .ok none
  | some last => (localDayOf zone (.str last)).map fun day => day.bind fun day =>
    let daysSince : Int := today.ordinal - day.ordinal
    if daysSince > p.staleDays.getD staleDays then some ⟨p, some last, some daysSince⟩ else none

/-- `stale_products`; `staleDays` is `settings.stale_days`. -/
def staleProducts (zone : Zone) (staleDays : Int) (today : Date) (env : Env) (d : Db) :
    Except Overflow (List StaleLine) := do
  let products := reportedProducts env d
  let neverSold := (products.filter fun p => (lastSaleIso env d p).isNone).map fun p =>
    (⟨p, none, none⟩ : StaleLine)
  let dated ← products.mapM (staleLine zone staleDays today env d)
  return neverSold ++ dated.reduceOption.insertionSort fun l l' =>
    l'.daysSince.getD 0 ≤ l.daysSince.getD 0

/-! ## What the order is for -/

/-- The one text names no later instant than the other. -/
def NotAfter (s s' : String) : Prop :=
  ∃ i i', instantOf s = some i ∧ instantOf s' = some i' ∧ i ≤ i'

/-- The timestamps of the two ledgers. -/
def ledgerStamps (d : Db) : List String :=
  d.operations.map Operation.createdAt ++ d.cashMovements.map CashMovement.createdAt

/-- No row is older than one below it. -/
def NewestFirst (ops : List Operation) : Prop :=
  ops.Pairwise fun o o' => NotAfter o'.createdAt o.createdAt

/-- **The timestamps are in the order of time**, and what is derived from them is right. -/
structure Chronological (d : Db) : Prop where
  order : ∀ s ∈ ledgerStamps d, ∀ s' ∈ ledgerStamps d, s ≤ s' → NotAfter s s'
  /-- The last sale is the latest. -/
  lastSale : ∀ env p last, lastSaleIso env d p = some last →
    ∃ o ∈ joinedSales env d p, o.createdAt = last ∧
      ∀ o' ∈ joinedSales env d p, NotAfter o'.createdAt o.createdAt
  /-- Its age is that of the latest sale in local days. -/
  daysSince : ∀ zone staleDays today env lines,
    staleProducts zone staleDays today env d = .ok lines → ∀ line ∈ lines, ∀ n,
      line.daysSince = some n → ∃ o ∈ joinedSales env d line.product,
        (∀ o' ∈ joinedSales env d line.product, NotAfter o'.createdAt o.createdAt) ∧
        ∃ m shown, Moment.fromIso o.createdAt = some m ∧ m.inZone zone = some shown ∧
          n = today.ordinal - shown.1.ordinal
  feeds : ∀ env takes limit, NewestFirst ((recentRows env d takes limit).map FeedRow.op)
  history : ∀ env (q : HistoryQuery) arranged, Arranged q.sort (historyMatches env d q) arranged →
    q.sort ≠ "oldest" → NewestFirst (arranged.map HistoryRow.op)

/-! ## Texts of UTC are enough -/

theorem lastSaleIso_eq_some_iff {last : String} : lastSaleIso env d p = some last ↔
    (∃ o ∈ joinedSales env d p, o.createdAt = last) ∧
      ∀ o ∈ joinedSales env d p, o.createdAt ≤ last := by
  unfold lastSaleIso
  rw [List.max?_eq_some_iff, List.mem_map, List.forall_mem_map]

/-- A line with an age is that of a product that was sold. -/
theorem staleProducts_dated {lines : List StaleLine} {line : StaleLine} {n : Int}
    (h : staleProducts zone staleDays today env d = .ok lines) (hline : line ∈ lines)
    (hn : line.daysSince = some n) : ∃ last day, lastSaleIso env d line.product = some last ∧
      localDayOf zone (.str last) = .ok (some day) ∧ n = today.ordinal - day.ordinal := by
  obtain ⟨dated, hdated, h⟩ := bind_ok_iff.mp h
  cases h
  rcases List.mem_append.mp hline with hnever | hline
  · obtain ⟨p, -, rfl⟩ := List.mem_map.mp hnever
    cases hn
  · rw [List.mem_insertionSort, List.reduceOption_mem_iff] at hline
    obtain ⟨p, -, hp⟩ := mem_of_mapM_ok hdated hline
    unfold staleLine at hp
    cases hlast : lastSaleIso env d p with
    | none =>
      rw [hlast] at hp
      cases hp
    | some last =>
      rw [hlast] at hp
      dsimp only at hp
      cases hday : localDayOf zone (.str last) with
      | error e =>
        rw [hday] at hp
        cases hp
      | ok day =>
        rw [hday] at hp
        obtain ⟨day, rfl, hstale⟩ := Option.bind_eq_some_iff.mp (Except.ok.inj hp)
        rw [Option.ite_none_right_eq_some, Option.some_inj] at hstale
        obtain ⟨-, rfl⟩ := hstale
        cases hn
        exact ⟨last, day, hlast, hday, rfl⟩

/-- A day that was read is the one that the zone shows. -/
theorem localDayOf_some {s : String} {day : Date} (h : localDayOf zone (.str s) = .ok (some day)) :
    ∃ m shown, Moment.fromIso s = some m ∧ m.inZone zone = some shown ∧ shown.1 = day := by
  unfold localDayOf readTimestamp at h
  split_ifs at h
  · cases h
  · cases hm : Moment.fromIso s with
    | none =>
      simp only [hm] at h
      cases h
    | some m =>
      simp only [hm] at h
      unfold astimezone at h
      cases hshown : m.inZone zone with
      | none =>
        rw [hshown] at h
        cases h
      | some shown =>
        rw [hshown] at h
        cases h
        exact ⟨m, shown, rfl, hshown, rfl⟩

/-- What is made of some of the rows, in their order. -/
theorem map_filterMap_sublist {α β : Type} {f : α → Option β} {g : β → α}
    (h : ∀ a b, f a = some b → g b = a) (l : List α) : ((l.filterMap f).map g).Sublist l := by
  induction l with
  | nil => exact List.Sublist.refl _
  | cons a l ih =>
    rw [List.filterMap_cons]
    cases hf : f a with
    | none => exact ih.cons a
    | some b =>
      rw [List.map_cons, h a b hf]
      exact ih.cons_cons a

/-- A feed is part of the rows in order. -/
theorem recentRows_sublist (env : Env) (d : Db) (takes : Operation → Bool) (limit : Nat) :
    ∃ ops : List Operation, ops.Pairwise (fun o o' => feedKey o ≤ feedKey o') ∧
      (∀ o ∈ ops, o ∈ d.operations) ∧ ((recentRows env d takes limit).map FeedRow.op).Sublist ops := by
  refine ⟨(d.operations.filter fun o =>
    takes o && env.warehouseScope ((operationBatch d o).map Batch.warehouseId)).insertionSort
      fun o o' => feedKey o ≤ feedKey o', List.pairwise_insertionSort _ _, fun o ho => ?_, ?_⟩
  · exact List.mem_of_mem_filter ((List.mem_insertionSort _).mp ho)
  · refine ((List.take_sublist _ _).map _).trans (map_filterMap_sublist (fun o r hr => ?_) _)
    obtain ⟨p, -, rfl⟩ := Option.map_eq_some_iff.mp hr
    rfl

/-- **Where every timestamp is a text of UTC**, the ledger is chronological. -/
theorem chronological_of_utc (h : ∀ s ∈ ledgerStamps d, UtcText s) : Chronological d := by
  have hop : ∀ o ∈ d.operations, o.createdAt ∈ ledgerStamps d := fun o ho =>
    List.mem_append_left _ (List.mem_map_of_mem ho)
  have horder : ∀ o ∈ d.operations, ∀ o' ∈ d.operations, o.createdAt ≤ o'.createdAt →
      NotAfter o.createdAt o'.createdAt := fun o ho o' ho' =>
    utcText_mono (h _ (hop o ho)) (h _ (hop o' ho'))
  have hsale : ∀ env p last, lastSaleIso env d p = some last →
      ∃ o ∈ joinedSales env d p, o.createdAt = last ∧
        ∀ o' ∈ joinedSales env d p, NotAfter o'.createdAt o.createdAt := by
    intro env p last hlast
    obtain ⟨⟨o, ho, rfl⟩, hmax⟩ := lastSaleIso_eq_some_iff.mp hlast
    refine ⟨o, ho, rfl, fun o' ho' => ?_⟩
    exact horder o' (List.mem_of_mem_filter ho') o (List.mem_of_mem_filter ho) (hmax o' ho')
  refine ⟨fun s hs s' hs' => utcText_mono (h s hs) (h s' hs'), hsale, ?_, ?_, ?_⟩
  · intro zone staleDays today env lines hlines line hline n hn
    obtain ⟨last, day, hlast, hday, rfl⟩ := staleProducts_dated hlines hline hn
    obtain ⟨o, ho, rfl, hlatest⟩ := hsale env line.product last hlast
    obtain ⟨m, shown, hm, hshown, rfl⟩ := localDayOf_some hday
    exact ⟨o, ho, hlatest, m, shown, hm, hshown, rfl⟩
  · intro env takes limit
    obtain ⟨ops, hsorted, hmem, hsub⟩ := recentRows_sublist env d takes limit
    refine List.Pairwise.sublist hsub (hsorted.imp_of_mem fun {o o'} ho ho' hle => ?_)
    exact horder o' (hmem o' ho') o (hmem o ho)
      (OrderDual.toDual_le_toDual.mp (Prod.Lex.monotone_fst _ _ hle))
  · intro env q arranged harranged hsort
    have hmem : ∀ r ∈ arranged, r.op ∈ d.operations := by
      intro r hr
      obtain ⟨o, ho, -, -, -, rfl⟩ := mem_historyMatches.mp (harranged.perm.mem_iff.mp hr)
      exact ho
    refine List.pairwise_map.mpr (harranged.sorted.imp_of_mem fun {r r'} hr hr' hle => ?_)
    unfold mayPrecede at hle
    rw [if_neg hsort] at hle
    exact horder r'.op (hmem r' hr') r.op (hmem r hr) (Prod.Lex.monotone_fst _ _ hle)

/-! ## Where the timestamps come from -/

/-- Every timestamp of the ledgers is a text of UTC. -/
def StampedUtc (d : Db) : Prop := ∀ s ∈ ledgerStamps d, UtcText s

/-- The timestamps of the ledger rows of a batch are texts of UTC. -/
def StampsUtc (batch : ExchangeBatch) : Prop := ∀ r ∈ batch.records, r.kind.isLedger = true →
  ∀ s, valueAt "created_at" r.data = .str s → UtcText s

/-- Local calls, and merges of accepted batches that fit. -/
inductive MergedRun (Fits : ExchangeBatch → Prop) : Db → Prop
  | start : MergedRun Fits {}
  | request {d : Db} (r : Request) (h : MergedRun Fits d) : MergedRun Fits (r.exec d)
  | merge {d d' : Db} {lines : List String} {batch : ExchangeBatch} {driver : Driver}
      {now : String} {report : MergeReport} (h : MergedRun Fits d)
      (hbatch : parseExchange lines = .ok batch) (hfits : Fits batch)
      (hmerge : applyMerge driver now d batch.records = .ok (d', report)) : MergedRun Fits d'

theorem stampedUtc_iff : StampedUtc d ↔ (∀ o ∈ d.operations, UtcText o.createdAt) ∧
    ∀ m ∈ d.cashMovements, UtcText m.createdAt := by
  unfold StampedUtc ledgerStamps
  rw [List.forall_mem_append, List.forall_mem_map, List.forall_mem_map]

/-- **The local services** stamp their rows with the clock. -/
theorem stampedUtc_exec (r : Request) (h : StampedUtc d) : StampedUtc (r.exec d) := by
  refine @runAll_induct (fun _ => True) StampedUtc [r] d ?_ h fun _ _ _ _ => .inr trivial
  intro d d' hw hd
  obtain ⟨hops, hcash⟩ := stampedUtc_iff.mp hd
  refine stampedUtc_iff.mpr ⟨fun o ho => ?_, fun m hm => ?_⟩
  · rcases hw.mem (k := .operation) ho with ⟨o', ho', rfl⟩ | ⟨-, hborn⟩
    · exact hops _ ho'
    · obtain ⟨t, ht⟩ := hborn.created
      exact ht ▸ utcText_isoformat t
  · rcases hw.mem (k := .cashMovement) hm with ⟨m', hm', rfl⟩ | ⟨-, hborn⟩
    · exact hcash _ hm'
    · obtain ⟨t, ht⟩ := hborn.created
      exact ht ▸ utcText_isoformat t

/-- The timestamp of a ledger row that comes from a record is the record's. -/
theorem insertCells_createdAt {driver : Driver} {now : String} {k : Kind} {data : Data}
    (hk : k.isLedger = true) (hcheck : checkRecord k data = .ok ()) {createdAt : String}
    (h : (insertCells driver now k data).text "created_at" = .ok createdAt) :
    valueAt "created_at" data = .str createdAt := by
  obtain ⟨hledger, -, -⟩ := checkRecord_ok_iff_rules.mp hcheck
  obtain ⟨-, -, s, -, hvalue⟩ := checkLedger_ok_iff.mp hledger hk
  have hcell : (insertCells driver now k data).value "created_at" = .str s := by
    show orDefault (wireValue data "created_at") _ = _
    rw [wireValue, if_neg (by decide), if_neg (by decide), hvalue]
    rfl
  rw [Cells.text_ok_iff, Cells.optText, hcell, Cells.storeText_str] at h
  cases h
  exact hvalue

/-- **A merge** adds rows with the timestamps of its records. -/
theorem stampedUtc_applyMerge {driver : Driver} {now : String} {lines : List String}
    {batch : ExchangeBatch} {report : MergeReport} (hok : d.Ok) (h : StampedUtc d)
    (hbatch : parseExchange lines = .ok batch) (hfits : StampsUtc batch)
    (hmerge : applyMerge driver now d batch.records = .ok (d', report)) : StampedUtc d' := by
  obtain ⟨hops, hcash⟩ := stampedUtc_iff.mp h
  have hrecord : ∀ {k data createdAt}, (ExchangeRecord.mk k data).received ∈ batch.records →
      k.isLedger = true → checkRecord k data = .ok () →
      (insertCells driver now k data).text "created_at" = .ok createdAt → UtcText createdAt := by
    intro k data createdAt hmem hk hcheck hcell
    refine hfits _ hmem hk createdAt ?_
    show valueAt "created_at" (clearSynced data) = _
    rw [valueAt, lookup_clearSynced (by decide), ← valueAt]
    exact insertCells_createdAt hk hcheck hcell
  refine stampedUtc_iff.mpr ⟨fun o ho => ?_, fun m hm => ?_⟩
  · rcases mem_ledger_applyMerge (k := .operation) hok hbatch hmerge rfl ho with
      hold | ⟨data, hmem, hcheck, hrow⟩
    · exact hops o hold
    · exact hrecord hmem rfl hcheck (rowOf_operation_dates hrow).1
  · rcases mem_ledger_applyMerge (k := .cashMovement) hok hbatch hmerge rfl hm with
      hold | ⟨data, hmem, hcheck, hrow⟩
    · exact hcash m hold
    · exact hrecord hmem rfl hcheck (rowOf_cash_dates hrow).1

/-- **A ledger is chronological** that only batches with texts of UTC have reached. -/
theorem reached_chronological (d : Db) (h : MergedRun StampsUtc d) : Chronological d := by
  have hboth : d.Ok ∧ StampedUtc d := by
    induction h with
    | start => exact ⟨by decide, fun s hs => absurd hs List.not_mem_nil⟩
    | request r _ ih =>
      have hok : (runAll _ [r]).Ok := runAll_ok ih.1
      exact ⟨hok, stampedUtc_exec r ih.2⟩
    | merge _ hbatch hfits hmerge ih =>
      exact ⟨applyMerge_ok ih.1 hmerge, stampedUtc_applyMerge ih.1 ih.2 hbatch hfits hmerge⟩
  exact chronological_of_utc hboth.2

/-- A deposit at noon in UTC is merged. -/
theorem reached_chronological_noon : ∃ d, d.cashMovements ≠ [] ∧ Chronological d := by
  obtain ⟨batch, hbatch, hrecords⟩ := parse_deposit "2026-01-01T12:00:00+00:00" (by decide)
  have hmerge : (applyMerge Driver.strict "2026-01-02" {}
      [depositAt "2026-01-01T12:00:00+00:00"]).toOption.any
        (fun out => decide (out.1.cashMovements.length = 1)) = true := by decide
  obtain ⟨⟨d', report⟩, hmerged, hrows⟩ := toOption_any_iff.mp hmerge
  rw [← hrecords] at hmerged
  refine ⟨d', ?_, reached_chronological d' (.merge .start hbatch ?_ hmerged)⟩
  · rintro hnone
    rw [hnone] at hrows
    cases hrows
  · intro r hr _ s hs
    rw [hrecords, List.mem_singleton] at hr
    subst hr
    cases hs
    have hnoon : (⟨⟨2026, 1, 1, by decide⟩, 12, 0, 0, by decide⟩ : Instant).isoformat =
        "2026-01-01T12:00:00+00:00" := by decide
    exact hnoon ▸ utcText_isoformat _

/-- A row of another device, an hour before the new year in UTC. -/
def offsetRecord : ExchangeRecord where
  kind := .operation
  data := [("id", .str "y"), ("type", .str "price_change"), ("product_id", .str "x"),
    ("qty_delta", .int 0), ("device_id", .str "other"), ("seq", .int 1),
    ("created_at", .str "2026-01-01T02:00:00+03:00"), ("business_date", .str "2026-01-01"),
    ("created_by", .str "operator")]

/-- It comes after the row of the new year's midnight. -/
theorem not_reached_chronological : ¬∀ d, MergedRun (fun _ => True) d → Chronological d := by
  intro h
  obtain ⟨batch, hbatch, hrecords⟩ := parseExchange_single id ⟨"", none, ""⟩ (r := offsetRecord)
    (by decide) (by decide) (by decide)
  have hmerge : (applyMerge Driver.strict "2026-01-02"
      ((atShop (.createProduct
        { code := "c", name := "n", category := "", costRaw := "", saleRaw := "" })).exec {})
      [offsetRecord.received]).toOption.any (fun out => decide (ledgerStamps out.1 =
        ["2026-01-01T00:00:00+00:00", "2026-01-01T02:00:00+03:00"])) = true := by decide
  obtain ⟨⟨d', report⟩, hmerged, hstamps⟩ := toOption_any_iff.mp hmerge
  have hstamps := of_decide_eq_true hstamps
  rw [← hrecords] at hmerged
  have hall := h d' (.merge (.request _ .start) hbatch trivial hmerged)
  obtain ⟨i, i', hi, hi', hle⟩ := hall.order "2026-01-01T00:00:00+00:00" (by rw [hstamps]; decide)
    "2026-01-01T02:00:00+03:00" (by rw [hstamps]; decide) (by decide)
  have hlocal : instantOf "2026-01-01T00:00:00+00:00" = some 63902908800000000 := by decide
  have hmoved : instantOf "2026-01-01T02:00:00+03:00" = some 63902905200000000 := by decide
  rw [hlocal] at hi
  rw [hmoved] at hi'
  cases hi
  cases hi'
  omega

end MyOriShop
