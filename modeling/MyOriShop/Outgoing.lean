import MyOriShop.Lib.Outbox
import MyOriShop.Restores

/-!
# Outgoing: ledger rows under their keys (`app/services/sync_client.py`, `ledger.py`)

The ledgers of a database as partial functions from a table and an id. A request puts rows behind
them, a merged push puts the rows that were collected behind them where their ids are new, and a stamp
changes which rows go out next.

* `held d` is the row under a key, on every column but `synced_at`; `outgoing d` the same where the
  row is not stamped, which is what `collect_push_records` takes.

Results:
* `exec_appended`, `held_merged`: what a request and a merge put behind the ledgers.
* `held_stampSynced`, `stampedKeys_stampSynced`: what a stamp does.
-/

namespace MyOriShop

open Relation (ReflTransGen)

variable {d d' : Db} {t : LedgerTable}

/-! ## Ledger rows -/

/-- `synced_at` of a ledger row. -/
def LedgerTable.stampOf : (t : LedgerTable) → Row t.kind → Option String
  | .operations, (o : Operation) => o.syncedAt
  | .cashMovements, (m : CashMovement) => m.syncedAt

/-- Where a ledger row is: its table and its id. -/
abbrev LedgerKey := LedgerTable × String

/-- The ledger row a database has under a key, on every column but `synced_at`. -/
def held (d : Db) (key : LedgerKey) : Option AnyRow :=
  (d.find key.1.kind key.2).map fun r => ⟨key.1.kind, arrived key.1.kind r⟩

/-- The keys of the stamped rows. -/
def stampedKeys (d : Db) : Set LedgerKey :=
  {key | ∃ r, d.find key.1.kind key.2 = some r ∧ key.1.stampOf r ≠ none}

open Classical in
/-- The rows that are not stamped. -/
noncomputable def outgoing (d : Db) (key : LedgerKey) : Option AnyRow :=
  if key ∈ stampedKeys d then none else held d key

theorem stampOf_arrived (t : LedgerTable) (r : Row t.kind) : t.stampOf (arrived t.kind r) = none := by
  cases t <;> rfl

theorem arrived_of_unstamped {r : Row t.kind} (h : t.stampOf r = none) : arrived t.kind r = r := by
  cases t with
  | operations =>
    obtain ⟨⟩ := r
    cases h
    rfl
  | cashMovements =>
    obtain ⟨⟩ := r
    cases h
    rfl

theorem find_eq_none_iff {k : Kind} {id : String} : d.find k id = none ↔ id ∉ d.ids k := by
  unfold Db.find Db.ids
  simp [List.find?_eq_none]

theorem held_eq_none_iff {key : LedgerKey} : held d key = none ↔ key.2 ∉ d.ids key.1.kind := by
  rw [held, Option.map_eq_none_iff, find_eq_none_iff]

theorem held_of_mem (hd : d.Ok) {r : Row t.kind} (hr : r ∈ d.get t.kind) :
    held d (t, rowId t.kind r) = some ⟨t.kind, arrived t.kind r⟩ := by
  rw [held, find_of_mem (hd.nodup t.kind) hr, Option.map_some]

/-- The rows of the ledgers after new ones, that are not stamped, have been put behind them. -/
structure Appended (d d' : Db) (new : (t : LedgerTable) → List (Row t.kind)) : Prop where
  rows : ∀ t, d'.get t.kind = d.get t.kind ++ new t
  unstamped : ∀ t, ∀ r ∈ new t, t.stampOf r = none

theorem Appended.nil (h : ∀ t : LedgerTable, d'.get t.kind = d.get t.kind) :
    Appended d d' fun _ => [] where
  rows t := by rw [h, List.append_nil]
  unstamped _ _ hr := absurd hr List.not_mem_nil

theorem Appended.trans {d'' : Db} {new new' : (t : LedgerTable) → List (Row t.kind)}
    (h : Appended d d' new) (h' : Appended d' d'' new') :
    Appended d d'' fun t => new t ++ new' t where
  rows t := by rw [h'.rows, h.rows, List.append_assoc]
  unstamped t := List.forall_mem_append.mpr ⟨h.unstamped t, h'.unstamped t⟩

/-- A table with one more row. -/
theorem Appended.one {r : Row t.kind} (ht : d'.get t.kind = d.get t.kind ++ [r])
    (hother : ∀ t' : LedgerTable, t' ≠ t → d'.get t'.kind = d.get t'.kind) (hr : t.stampOf r = none) :
    ∃ new, Appended d d' new := by
  refine ⟨Function.update (fun _ => []) t [r], fun t' => ?_, fun t' => ?_⟩
  · by_cases heq : t' = t
    · subst heq
      rw [Function.update_self, ht]
    · rw [Function.update_of_ne heq, List.append_nil, hother t' heq]
  · by_cases heq : t' = t
    · subst heq
      rw [Function.update_self]
      exact List.forall_mem_singleton.mpr hr
    · rw [Function.update_of_ne heq]
      exact fun r hr => absurd hr List.not_mem_nil

/-- One write of a request appends. -/
theorem Scoped.appended {sc : Scope} {env : Env} (h : Scoped sc env d d') :
    ∃ new, Appended d d' new := by
  cases h with
  | born k row fresh hborn =>
    refine ⟨_, .nil fun t => Db.get_insert_ne d ?_ _⟩
    rintro rfl
    cases t <;> exact hborn
  | edited k id f hedit =>
    refine ⟨_, .nil fun t => get_edit_of_eq fun heq r hr => ?_⟩
    subst heq
    cases t <;> exact hedit r hr
  | operation op stamp fresh hborn hplain hby =>
    refine Appended.one (t := .operations) (applyOperation_get d op stamp).1 (fun t ht => ?_)
      hborn.unsynced
    cases t with
    | operations => exact absurd rfl ht
    | cashMovements =>
      have hops : Kind.cashMovement ≠ .operation := by simp
      have hproducts : Kind.cashMovement ≠ .product := by simp
      have hbatches : Kind.cashMovement ≠ .batch := by simp
      exact applyOperation_get_ne d op stamp hops hproducts hbatches
  | cash m fresh hborn hplain hby =>
    refine Appended.one (t := .cashMovements) (Db.get_insert_same d .cashMovement [m]) (fun t ht => ?_)
      hborn.unsynced
    cases t with
    | operations =>
      have hcash : Kind.operation ≠ .cashMovement := by simp
      exact Db.get_insert_ne d hcash _
    | cashMovements => exact absurd rfl ht

/-- **A request** puts rows behind the ledgers, not stamped. -/
theorem exec_appended (r : Request) (d : Db) : ∃ new, Appended d (r.exec d) new := by
  have hreaches := Call.reaches r.env d r.call fun _ _ => .inr trivial
  unfold Request.exec
  generalize r.call.exec r.env d = d' at hreaches
  induction hreaches with
  | refl => exact ⟨_, .nil fun _ => rfl⟩
  | tail _ hstep ih =>
    obtain ⟨new, hnew⟩ := ih
    obtain ⟨new', hnew'⟩ := hstep.appended
    exact ⟨_, hnew.trans hnew'⟩

/-- **A merged push** puts the unstamped rows of its snapshot behind the ledgers, where their ids
are new. -/
theorem merge_appended {driver : Driver} {now : String} {snapshot : Db} {report : MergeReport}
    (hd : d.Ok)
    (h : applyMerge driver now d (collectPushRecords snapshot).1 = .ok (d', report)) (t : LedgerTable) :
    d'.get t.kind = d.get t.kind ++ arriving snapshot d t.kind := by
  obtain ⟨rows, hrows, -, hderived, -⟩ := (applyMerge_ok_iff hd).mp h
  obtain ⟨-, rfl⟩ := recomputeDerived_ok_iff.mp hderived
  have hincoming : rows t.kind = resolveKind d t.kind (arriving snapshot d t.kind) :=
    Except.ok.inj ((hrows t.kind).symm.trans (incoming_push snapshot d t.kind))
  have hget := Db.get_receive d rows t.kind
  cases t with
  | operations =>
    have hrecomputed := operations_recompute now (d.receive rows)
    rw [show ((d.receive rows).recompute now).get LedgerTable.operations.kind = _ from hrecomputed]
    exact hget.trans (congrArg (d.operations ++ ·) (congrArg Prod.fst hincoming))
  | cashMovements => exact hget.trans (congrArg (d.cashMovements ++ ·) (congrArg Prod.fst hincoming))

/-! ## Under their keys -/

theorem find_appended {new : (t : LedgerTable) → List (Row t.kind)}
    (h : ∀ t : LedgerTable, d'.get t.kind = d.get t.kind ++ new t) (t : LedgerTable) (i : String) :
    d'.find t.kind i = (d.find t.kind i).or ((new t).find? fun r => rowId t.kind r = i) := by
  unfold Db.find
  rw [h, List.find?_append]

/-- Rows that were held still are. -/
theorem Appended.held_kept {new : (t : LedgerTable) → List (Row t.kind)} (h : Appended d d' new)
    (key : LedgerKey) (v : AnyRow) (hv : held d key = some v) : held d' key = some v := by
  obtain ⟨r, hr, rfl⟩ := Option.map_eq_some_iff.mp hv
  rw [held, find_appended h.rows, hr, Option.some_or, Option.map_some]

/-- The stamped rows are the same ones. -/
theorem Appended.stampedKeys_eq {new : (t : LedgerTable) → List (Row t.kind)}
    (h : Appended d d' new) : stampedKeys d' = stampedKeys d := by
  ext ⟨t, i⟩
  show (∃ r, d'.find t.kind i = some r ∧ t.stampOf r ≠ none) ↔
    ∃ r, d.find t.kind i = some r ∧ t.stampOf r ≠ none
  rw [find_appended h.rows]
  cases d.find t.kind i with
  | some r => rw [Option.some_or]
  | none =>
    rw [Option.none_or]
    refine iff_of_false ?_ fun ⟨r, hr, _⟩ => nomatch hr
    rintro ⟨r, hr, hstamp⟩
    exact hstamp (h.unstamped t r (List.mem_of_find?_eq_some hr))

theorem held_congr (h : ∀ t : LedgerTable, d'.get t.kind = d.get t.kind) : held d' = held d := by
  funext key
  unfold held Db.find
  rw [h]

theorem stampedKeys_congr (h : ∀ t : LedgerTable, d'.get t.kind = d.get t.kind) :
    stampedKeys d' = stampedKeys d :=
  (Appended.nil h).stampedKeys_eq

/-- A row is found among those that pass a test where it passes it. -/
theorem find?_filter_of_nodup {α : Type} {key : α → String} {rows : List α}
    (h : (rows.map key).Nodup) (p : α → Bool) (i : String) :
    (rows.filter p).find? (fun r => key r = i) = (rows.find? fun r => key r = i).filter p := by
  induction rows with
  | nil => rfl
  | cons r rows ih =>
    obtain ⟨hr, h⟩ := List.nodup_cons.mp h
    by_cases hkey : key r = i
    · subst hkey
      rw [List.find?_cons_of_pos (by simp), Option.filter_some, List.filter_cons]
      split_ifs with hp
      · exact List.find?_cons_of_pos (by simp)
      · refine List.find?_eq_none.mpr fun r' hr' => ?_
        rw [decide_eq_true_eq]
        exact fun hsame => hr (hsame ▸ List.mem_map_of_mem (List.mem_filter.mp hr').1)
    · rw [List.find?_cons_of_neg (by simpa using hkey), ← ih h, List.filter_cons]
      split_ifs with hp
      · exact List.find?_cons_of_neg (by simpa using hkey)
      · rfl

/-- What goes out is the bundle's ledger rows. -/
theorem outgoing_eq (hd : d.Ok) (t : LedgerTable) (i : String) :
    outgoing d (t, i) = ((pushedRows d t.kind).find? fun r => rowId t.kind r = i).map fun r =>
      ⟨t.kind, arrived t.kind r⟩ := by
  have hpushed : pushedRows d t.kind = (d.get t.kind).filter fun r => t.stampOf r = none := by
    rw [pushed_eq]
    cases t <;> rfl
  rw [hpushed, find?_filter_of_nodup (hd.nodup t.kind), outgoing, held]
  show _ = ((d.find t.kind i).filter _).map _
  cases hrow : d.find t.kind i with
  | none => simp
  | some r =>
    by_cases hstamp : t.stampOf r = none
    · have hkey : (t, i) ∉ stampedKeys d := by
        rintro ⟨r', hr', hstamped⟩
        obtain rfl := Option.some.inj (hrow.symm.trans hr')
        exact hstamped hstamp
      rw [if_neg hkey, Option.filter_some_pos (by simpa using hstamp)]
    · rw [if_pos ⟨r, hrow, hstamp⟩, Option.filter_some_neg (by simpa using hstamp), Option.map_none]

/-- The ids that a push is stamped by. -/
theorem mem_pushIds_iff (hd : d.Ok) (t : LedgerTable) (i : String) :
    i ∈ (pushedRows d t.kind).map (rowId t.kind) ↔ outgoing d (t, i) ≠ none := by
  rw [outgoing_eq hd, Ne, Option.map_eq_none_iff, List.find?_eq_none]
  simp [eq_comm]

/-- **A taken push**: the ledgers have what they had, and else what went out. -/
theorem held_merged {driver : Driver} {now : String} {snapshot : Db} {report : MergeReport}
    (hd : d.Ok) (hsnapshot : snapshot.Ok)
    (h : applyMerge driver now d (collectPushRecords snapshot).1 = .ok (d', report)) :
    held d' = Lib.Outbox.take (held d) (outgoing snapshot) := by
  funext ⟨t, i⟩
  rw [Lib.Outbox.take, outgoing_eq hsnapshot, held, held]
  dsimp only
  rw [find_appended (merge_appended hd h)]
  cases hrow : d.find t.kind i with
  | some r => rfl
  | none =>
    have hi : i ∉ (d.get t.kind).map (rowId t.kind) := find_eq_none_iff.mp hrow
    rw [Option.none_or, Option.map_none, Option.none_or, arriving, List.find?_map]
    -- the row is new to the database, so it is among the arriving ones
    have hnew : (newRows (rowId t.kind) (d.get t.kind) (pushedRows snapshot t.kind)).find?
        ((fun r => decide (rowId t.kind r = i)) ∘ arrived t.kind) =
          (pushedRows snapshot t.kind).find? fun r => rowId t.kind r = i := by
      have hid : (fun r => decide (rowId t.kind r = i)) ∘ arrived t.kind =
          fun r => decide (rowId t.kind r = i) := by
        funext r
        rw [Function.comp_apply, rowId_arrived]
      have hnodup : ((pushedRows snapshot t.kind).map (rowId t.kind)).Nodup :=
        (hsnapshot.nodup t.kind).sublist ((pushed_sublist snapshot t.kind).map _)
      rw [hid, newRows, find?_filter_of_nodup hnodup]
      cases hfound : (pushedRows snapshot t.kind).find? fun r => rowId t.kind r = i with
      | none => rfl
      | some r =>
        have hri : rowId t.kind r = i := by simpa using List.find?_some hfound
        exact Option.filter_some_pos (by simpa [hri] using hi)
    rw [hnew, Option.map_map]
    refine congrArg (Option.map · _) (funext fun r => ?_)
    rw [Function.comp_apply]
    cases t <;> rfl

/-! ## Stamps -/

/-- A ledger row under a stamp. -/
def LedgerTable.stamped (stamp : String) : (t : LedgerTable) → Row t.kind → Row t.kind
  | .operations, (o : Operation) => { o with syncedAt := some stamp }
  | .cashMovements, (m : CashMovement) => { m with syncedAt := some stamp }

/-- The stamp goes over the rows that were collected. -/
theorem get_stampSynced (stamp : String) (snapshot d : Db) (t : LedgerTable) :
    (stampSynced stamp (collectPushRecords snapshot).2 d).get t.kind =
      (d.get t.kind).map fun r =>
        if rowId t.kind r ∈ (pushedRows snapshot t.kind).map (rowId t.kind) then
          t.stamped stamp r else r := by
  rw [pushed_eq]
  cases t <;> rfl

theorem find_stampSynced (stamp : String) (snapshot d : Db) (t : LedgerTable) (i : String) :
    (stampSynced stamp (collectPushRecords snapshot).2 d).find t.kind i =
      (d.find t.kind i).map fun r =>
        if i ∈ (pushedRows snapshot t.kind).map (rowId t.kind) then t.stamped stamp r else r := by
  have hid : ∀ r, rowId t.kind (t.stamped stamp r) = rowId t.kind r := fun r => by cases t <;> rfl
  unfold Db.find
  rw [get_stampSynced, List.find?_map]
  have hsame : ((fun r => decide (rowId t.kind r = i)) ∘ fun r =>
      if rowId t.kind r ∈ (pushedRows snapshot t.kind).map (rowId t.kind) then
        t.stamped stamp r else r) = fun r => decide (rowId t.kind r = i) := by
    funext r
    rw [Function.comp_apply]
    split_ifs <;> simp [hid]
  rw [hsame]
  cases hrow : (d.get t.kind).find? fun r => rowId t.kind r = i with
  | none => rfl
  | some r =>
    have hri : rowId t.kind r = i := by simpa using List.find?_some hrow
    rw [Option.map_some, Option.map_some, hri]

theorem held_stampSynced (stamp : String) (snapshot d : Db) :
    held (stampSynced stamp (collectPushRecords snapshot).2 d) = held d := by
  funext ⟨t, i⟩
  rw [held, held]
  dsimp only
  rw [find_stampSynced, Option.map_map]
  refine congrArg (Option.map · _) (funext fun r => ?_)
  rw [Function.comp_apply]
  split_ifs
  · cases t <;> rfl
  · rfl

/-- The stamped rows after a stamp: those before it, and those that went out. -/
theorem stampedKeys_stampSynced {stamp : String} {snapshot : Db} (hsnapshot : snapshot.Ok)
    (hkept : ∀ key, outgoing snapshot key ≠ none → held d key ≠ none) :
    stampedKeys (stampSynced stamp (collectPushRecords snapshot).2 d) =
      stampedKeys d ∪ {key | outgoing snapshot key ≠ none} := by
  ext ⟨t, i⟩
  have hout := mem_pushIds_iff hsnapshot t i
  show (∃ r, Db.find _ t.kind i = some r ∧ t.stampOf r ≠ none) ↔
    (∃ r, d.find t.kind i = some r ∧ t.stampOf r ≠ none) ∨ outgoing snapshot (t, i) ≠ none
  rw [find_stampSynced]
  by_cases hi : i ∈ (pushedRows snapshot t.kind).map (rowId t.kind)
  · obtain ⟨v, hv⟩ := Option.ne_none_iff_exists'.mp (hkept (t, i) (hout.mp hi))
    obtain ⟨r, hr, -⟩ := Option.map_eq_some_iff.mp hv
    refine iff_of_true ⟨t.stamped stamp r, ?_, ?_⟩ (.inr (hout.mp hi))
    · rw [show d.find t.kind i = some r from hr, Option.map_some, if_pos hi]
    · cases t <;> exact Option.some_ne_none stamp
  · simp only [if_neg hi, Option.map_id', or_iff_left fun h => hi (hout.mpr h)]

/-- A stamp keeps the constraints. -/
theorem stampSynced_ok (stamp : String) (ids : PushIds) (hd : d.Ok) : (stampSynced stamp ids d).Ok := by
  have hops : ∀ {α : Type} (f : Operation → α),
      (∀ o s, f { o with syncedAt := s } = f o) →
        (stampSynced stamp ids d).operations.map f = d.operations.map f := by
    intro α f hf
    rw [stampSynced, List.map_map]
    refine List.map_congr_left fun o _ => ?_
    rw [Function.comp_apply]
    split_ifs <;> simp [hf]
  have hcash : ∀ {α : Type} (f : CashMovement → α),
      (∀ m s, f { m with syncedAt := s } = f m) →
        (stampSynced stamp ids d).cashMovements.map f = d.cashMovements.map f := by
    intro α f hf
    rw [stampSynced, List.map_map]
    refine List.map_congr_left fun m _ => ?_
    rw [Function.comp_apply]
    split_ifs <;> simp [hf]
  constructor
  case pk =>
    intro k hk
    cases k with
    | operation => exact (congrArg List.Nodup (hops Operation.id fun _ _ => rfl)).mpr (hd.pk .operation hk)
    | cashMovement => exact (congrArg List.Nodup (hcash CashMovement.id fun _ _ => rfl)).mpr (hd.pk .cashMovement hk)
    | warehouse | product | customer | dictionary | batch | sale => exact hd.pk _ hk
  case codeActive => exact hd.codeActive
  case dictionaryCode => exact hd.dictionaryCode
  case operationSeq => exact (hops (fun o => (o.deviceId, o.seq)) fun _ _ => rfl) ▸ hd.operationSeq
  case cashSeq => exact (hcash (fun m => (m.deviceId, m.seq)) fun _ _ => rfl) ▸ hd.cashSeq
  case operationProduct =>
    intro o' ho'
    have hproducts : o'.productId ∈ d.operations.map Operation.productId :=
      hops Operation.productId (fun _ _ => rfl) ▸ List.mem_map_of_mem ho'
    obtain ⟨o, ho, heq⟩ := List.mem_map.mp hproducts
    exact heq ▸ hd.operationProduct o ho
  case batchProduct => exact hd.batchProduct
  case batchWarehouse => exact hd.batchWarehouse
  case saleCustomer => exact hd.saleCustomer
  case cashSale =>
    intro m' hm'
    have hsales : m'.saleId ∈ d.cashMovements.map CashMovement.saleId :=
      hcash CashMovement.saleId (fun _ _ => rfl) ▸ List.mem_map_of_mem hm'
    obtain ⟨m, hm, heq⟩ := List.mem_map.mp hsales
    exact fun s hs => hd.cashSale m hm s (heq.trans hs)

end MyOriShop
