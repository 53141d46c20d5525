import MyOriShop.Replay

/-!
# Order: the order of the record lines is irrelevant (`app/services/merge.py`)

The parser takes the record lines in any order, and the merge sorts them by kind, not by line. Rows
of one kind then reach their table in another order, colliding products are gone through by id.

* `Db.Same` is the same rows in every table, in any order.
* `SameOutcome` compares two merges: both fail, or both succeed with the same rows and the same
  report.

Results:
* `parseExchange_perm`: permuted record lines are accepted as well, with permuted records.
* `incoming_perm`: the same rows head for insert, with the same collisions in the same order.
* `applyMerge_perm`: so a merge of permuted records has the same outcome.
-/

namespace MyOriShop

open Lib.Fallible
open Lib.Text (isBlank)

variable {driver : Driver} {now : String}

/-! ## The parser -/

theorem map_some_perm {α β : Type} {f : α → Option β} {l l' : List α} {out : List β}
    (hperm : l.Perm l') (h : l.map f = out.map some) :
    ∃ out' : List β, l'.map f = out'.map some ∧ out.Perm out' := by
  have hsome : ∀ a ∈ l', ∃ b, f a = some b := by
    intro a ha
    have hmem : f a ∈ out.map some := h ▸ List.mem_map_of_mem (hperm.mem_iff.mpr ha)
    obtain ⟨b, -, hb⟩ := List.mem_map.mp hmem
    exact ⟨b, hb.symm⟩
  have hout : out = l.filterMap f := by
    have hid := congrArg (List.filterMap id) h
    rw [List.filterMap_map, List.filterMap_map] at hid
    exact (hid.trans (List.filterMap_some)).symm
  refine ⟨l'.filterMap f, ?_, hout ▸ hperm.filterMap f⟩
  clear hperm h hout
  induction l' with
  | nil => rfl
  | cons a l' ih =>
    obtain ⟨b, hb⟩ := hsome a List.mem_cons_self
    rw [List.map_cons, List.filterMap_cons_some hb, List.map_cons, hb,
      ih fun a ha => hsome a (List.mem_cons_of_mem _ ha)]

theorem parseRecords_perm {lines lines' : List String} {records : List ExchangeRecord} {index : Nat}
    (hperm : lines.Perm lines') (h : parseRecords [] index lines = .ok records) :
    ∃ records', parseRecords [] index lines' = .ok records' ∧ records.Perm records' := by
  obtain ⟨read, hread, hadm, hnodup, -, rfl⟩ := (parseRecords_ok_iff_read [] index).mp h
  have hwritten : (written lines).Perm (written lines') := hperm.filter _
  obtain ⟨read', hread', hsame⟩ := map_some_perm hwritten hread
  refine ⟨read'.map ExchangeRecord.received, ?_, hsame.map _⟩
  refine (parseRecords_ok_iff_read [] index).mpr ⟨read', hread', ?_, ?_, by simp, rfl⟩
  · exact fun r hr => hadm r (hsame.mem_iff.mpr hr)
  · exact (hsame.map _).nodup_iff.mp hnodup

/-- **The parser does not see the order of the record lines.** -/
theorem parseExchange_perm {header : String} {lines lines' : List String} {batch : ExchangeBatch}
    (hheader : isBlank header = false) (hperm : lines.Perm lines')
    (h : parseExchange (header :: lines) = .ok batch) :
    ∃ batch', parseExchange (header :: lines') = .ok batch' ∧
      batch.records.Perm batch'.records := by
  obtain ⟨data, hdata, hok, records, hrecords, rfl⟩ := (parseHeader_cons_ok_iff hheader).mp h
  obtain ⟨records', hrecords', hsame⟩ := parseRecords_perm hperm hrecords
  exact ⟨headerBatch data records',
    (parseHeader_cons_ok_iff hheader).mpr ⟨data, hdata, hok, records', hrecords', rfl⟩, hsame⟩

/-! ## The rows heading for insert -/

/-- Rows with pairwise distinct ids are sorted in one way only. -/
theorem byId_perm {rows rows' : List Product} (hperm : rows.Perm rows')
    (hids : (rows.map Product.id).Nodup) : byId rows = byId rows' := by
  have htotal : Std.Total fun p q : Product => p.id ≤ q.id := ⟨fun p q => le_total p.id q.id⟩
  have htrans : IsTrans Product fun p q => p.id ≤ q.id := ⟨fun _ _ _ h h' => le_trans h h'⟩
  have hsorted : (byId rows).Perm (byId rows') :=
    (List.perm_insertionSort _ rows).trans (hperm.trans (List.perm_insertionSort _ rows').symm)
  refine hsorted.eq_of_pairwise (fun p q hp hq hpq hqp => ?_)
    (List.pairwise_insertionSort _ rows) (List.pairwise_insertionSort _ rows')
  have hp : p ∈ rows := (List.perm_insertionSort _ rows).mem_iff.mp hp
  have hq : q ∈ rows := hperm.mem_iff.mpr ((List.perm_insertionSort _ rows').mem_iff.mp hq)
  exact List.inj_on_of_nodup_map hids hp hq (le_antisymm hpq hqp)

theorem resolveKind_perm (d : Db) {k : Kind} {rows rows' : List (Row k)} (hperm : rows.Perm rows')
    (hids : (rows.map (rowId k)).Nodup) :
    (resolveKind d k rows).1.Perm (resolveKind d k rows').1 ∧
      (resolveKind d k rows).2 = (resolveKind d k rows').2 := by
  cases k with
  | product =>
    have hconflicts : codeConflicts d.products [] (byId rows) =
        codeConflicts d.products [] (byId rows') := by
      rw [byId_perm hperm hids]
    refine ⟨?_, hconflicts⟩
    show (rows.map (renamed _)).Perm (rows'.map (renamed _))
    rw [hconflicts]
    exact hperm.map _
  | warehouse | customer | dictionary | batch | sale | operation | cashMovement =>
    exact ⟨hperm, rfl⟩

theorem bucket_perm {records records' : List ExchangeRecord} (hperm : records.Perm records')
    (k : Kind) : (bucket records k).Perm (bucket records' k) :=
  (hperm.filter _).map _

/-- **The rows heading for insert** are the same, and so are the collisions among them. -/
theorem incoming_perm {d : Db} {records records' : List ExchangeRecord}
    (hrecords : Accepted records) (hperm : records.Perm records') {k : Kind}
    {out : List (Row k) × List Conflict} (h : incoming driver now d records k = .ok out) :
    ∃ out', incoming driver now d records' k = .ok out' ∧ out.1.Perm out'.1 ∧ out.2 = out'.2 := by
  have hids := incoming_ids hrecords h
  obtain ⟨rows, hrows, rfl⟩ := incoming_ok_iff.mp h
  obtain ⟨rows', hrows', hsame⟩ := mapM_perm ((bucket_perm hperm k).filter _) hrows
  have hnodup : (rows.map (rowId k)).Nodup := by
    rw [← resolveKind_ids d, hids]
    exact (bucket_nodup hrecords k).filter _
  obtain ⟨hresolved, hconflicts⟩ := resolveKind_perm d hsame hnodup
  exact ⟨resolveKind d k rows', incoming_ok_iff.mpr ⟨rows', hrows', rfl⟩, hresolved, hconflicts⟩

/-! ## The merge -/

/-- A merge that succeeds on the records succeeds on the permuted records. -/
theorem applyMerge_perm_ok {d d₁ : Db} {report : MergeReport} {records records' : List ExchangeRecord}
    (hd : d.Ok) (hrecords : Accepted records) (hperm : records.Perm records')
    (h : applyMerge driver now d records = .ok (d₁, report)) :
    ∃ d₂, applyMerge driver now d records' = .ok (d₂, report) ∧ Db.Same d₁ d₂ := by
  obtain ⟨rows, hrows, hok, hderived, rfl⟩ := (applyMerge_ok_iff hd).mp h
  obtain ⟨hbalanced, rfl⟩ := recomputeDerived_ok_iff.mp hderived
  have hex : ∀ k, ∃ out', incoming driver now d records' k = .ok out' ∧
      (rows k).1.Perm out'.1 ∧ (rows k).2 = out'.2 :=
    fun k => incoming_perm hrecords hperm (hrows k)
  choose rows' hrows' hsame hconflicts using hex
  have hreceive : Db.Same (d.receive rows) (d.receive rows') := by
    intro k
    rw [Db.get_receive, Db.get_receive]
    exact (hsame k).append_left _
  have hrecompute := recompute_same now hreceive
  refine ⟨(d.receive rows').recompute now, ?_, hrecompute⟩
  refine (applyMerge_ok_iff hd).mpr ⟨rows', hrows', Db.ok_of_perm hreceive hok, ?_, ?_⟩
  · exact recomputeDerived_ok_iff.mpr ⟨stockBalanced_same hrecompute hbalanced, rfl⟩
  · have htally : kindTally d records rows = kindTally d records' rows' := by
      funext k
      have hbucket := bucket_perm hperm k
      have hpresent : (partitionNew (d.ids k) (bucket records k)).2 =
          (partitionNew (d.ids k) (bucket records' k)).2 := by
        show (bucket records k).length - (partitionNew _ _).1.length =
          (bucket records' k).length - (partitionNew _ _).1.length
        rw [partitionNew_fst, partitionNew_fst, hbucket.length_eq, (hbucket.filter _).length_eq]
      rw [kindTally, kindTally, (hsame k).length_eq, hpresent, hconflicts k]
    rw [htally]

/-- Both fail, or both succeed with the same rows and the same report. -/
def SameOutcome : Except Exn (Db × MergeReport) → Except Exn (Db × MergeReport) → Prop
  | .ok (d, report), .ok (d', report') => Db.Same d d' ∧ report = report'
  | .error _, .error _ => True
  | .ok _, .error _ | .error _, .ok _ => False

/-- **Record order is irrelevant**: with its record lines permuted an accepted payload is accepted,
and its merge has the same outcome. -/
theorem applyMerge_perm (driver : Driver) (now : String) (start : Database) {header : String}
    {lines lines' : List String} {batch : ExchangeBatch} (hheader : isBlank header = false)
    (hparse : parseExchange (header :: lines) = .ok batch) (hperm : lines.Perm lines') :
    ∃ batch', parseExchange (header :: lines') = .ok batch' ∧
      SameOutcome (applyMerge driver now start.db batch.records)
        (applyMerge driver now start.db batch'.records) := by
  obtain ⟨batch', hparse', hsame⟩ := parseExchange_perm hheader hperm hparse
  refine ⟨batch', hparse', ?_⟩
  have hrecords := parseExchange_accepted hparse
  cases hleft : applyMerge driver now start.db batch.records with
  | ok out =>
    obtain ⟨d₂, hright, hdb⟩ := applyMerge_perm_ok start.ok hrecords hsame hleft
    rw [hright]
    exact ⟨hdb, rfl⟩
  | error e =>
    cases hright : applyMerge driver now start.db batch'.records with
    | error e' => trivial
    | ok out =>
      have hback := applyMerge_perm_ok start.ok (hrecords.perm hsame) hsame.symm hright
      obtain ⟨d₂, hleft', -⟩ := hback
      rw [hleft] at hleft'
      cases hleft'

/-- The twins' lines in the other order. -/
theorem applyMerge_perm_twins : ∃ header lines batch batch', twinLines = header :: lines ∧
    parseExchange (header :: lines) = .ok batch ∧
      parseExchange (header :: lines.reverse) = .ok batch' ∧
      SameOutcome (applyMerge Driver.strict "" {} batch.records)
        (applyMerge Driver.strict "" {} batch'.records) := by
  obtain ⟨batch, hparse⟩ := twins_parse
  have hempty : ({} : Db).Ok := by decide
  obtain ⟨batch', hparse', hsame⟩ := applyMerge_perm Driver.strict "" ⟨{}, hempty⟩
    (isBlank_dumps_obj _) hparse (List.reverse_perm _).symm
  exact ⟨_, _, batch, batch', rfl, hparse, hparse', hsame⟩

end MyOriShop
