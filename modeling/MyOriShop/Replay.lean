import Mathlib.Logic.Relation
import MyOriShop.Merge
import MyOriShop.Services.Catalog

/-!
# Replay: a batch that comes a second time (`app/services/merge.py`)

A client that never saw the answer to its push sends the batch again, and an offline bundle can be
uploaded twice. The set difference by id then finds every row present.

* `Merged` is one merge of an accepted batch, with any clock; `Relation.ReflTransGen (Merged _)` is
  any number of them.

Results:
* `merged_ids`: no merge removes an id.
* `applyMerge_present`: a batch all of whose ids are present changes nothing in a settled database.
* `applyMerge_replay`: so a batch that was merged is a no-op after any further merges.
-/

namespace MyOriShop

open Lib.Fallible
open Relation (ReflTransGen)

variable {driver : Driver}

/-- One merge of an accepted batch. -/
def Merged (driver : Driver) (d d' : Db) : Prop :=
  ∃ now lines batch report, parseExchange lines = .ok batch ∧
    applyMerge driver now d batch.records = .ok (d', report)

theorem merged_ok {d d' : Db} (hd : d.Ok) (h : Merged driver d d') : d'.Ok := by
  obtain ⟨now, lines, batch, report, -, hmerge⟩ := h
  exact applyMerge_ok hd hmerge

/-- No merge removes an id. -/
theorem merged_ids {d d' : Db} (hd : d.Ok) (h : Merged driver d d') (k : Kind) :
    d.ids k ⊆ d'.ids k := by
  obtain ⟨now, lines, batch, report, hparse, hmerge⟩ := h
  intro id hid
  exact (mem_ids_applyMerge hd (parseExchange_accepted hparse) hmerge k id).mpr (.inl hid)

/-- After any number of merges the database is sound, settled, and has all its ids. -/
theorem merges_after {d d' : Db} (h : ReflTransGen (Merged driver) d d') (hd : d.Ok)
    (hsettled : Settled d) : d'.Ok ∧ Settled d' ∧ ∀ k, d.ids k ⊆ d'.ids k := by
  induction h with
  | refl => exact ⟨hd, hsettled, fun _ _ h => h⟩
  | tail _ hstep ih =>
    obtain ⟨hok, -, hids⟩ := ih
    refine ⟨merged_ok hok hstep, ?_, fun k id hid => merged_ids hok hstep k (hids k hid)⟩
    obtain ⟨now, lines, batch, report, -, hmerge⟩ := hstep
    exact applyMerge_settled hok hmerge

/-- The report of a merge that finds every row present. -/
def presentReport (records : List ExchangeRecord) : MergeReport where
  operationsInserted := 0
  operationsSkipped := (bucket records .operation).length
  cashInserted := 0
  cashSkipped := (bucket records .cashMovement).length
  referenceInserted := []
  referenceServerWins := (Kind.all.filter fun k =>
    !k.isLedger && (bucket records k).length != 0).map fun k => (k, (bucket records k).length)
  conflicts := []

theorem referenceCounts_map (kinds : List Kind) (f : Kind → Tally) (count : Tally → Nat) :
    referenceCounts (kinds.map f) count = (kinds.filter fun k =>
      !(f k).kind.isLedger && count (f k) != 0).map fun k => ((f k).kind, count (f k)) := by
  rw [referenceCounts, List.filter_map, List.map_map]
  rfl

/-- **Nothing new, nothing done**: a batch all of whose ids are present leaves a settled database
as it is. -/
theorem applyMerge_present {d : Db} {records : List ExchangeRecord} (now : String) (hd : d.Ok)
    (hsettled : Settled d) (hpresent : ∀ r ∈ records, dataId r.data ∈ d.ids r.kind) :
    applyMerge driver now d records = .ok (d, presentReport records) := by
  have hnone : ∀ k, newData d records k = [] := by
    intro k
    refine List.filter_eq_nil_iff.mpr fun data hdata => ?_
    simpa using hpresent _ (mem_bucket.mp hdata)
  have hincoming : ∀ k, incoming driver now d records k = .ok ([], []) := by
    intro k
    refine incoming_ok_iff.mpr ⟨[], by rw [hnone k]; rfl, ?_⟩
    cases k <;> rfl
  have hreceive : d.receive (fun _ => ([], [])) = d := Db.append_nil d
  have hpartition : ∀ k, (partitionNew (d.ids k) (bucket records k)).2 = (bucket records k).length := by
    intro k
    show (bucket records k).length - (partitionNew (d.ids k) (bucket records k)).1.length = _
    rw [partitionNew_fst, ← newData.eq_def, hnone k]
    rfl
  refine (applyMerge_ok_iff hd).mpr ⟨fun _ => ([], []), hincoming, ?_, ?_, ?_⟩
  · rwa [hreceive]
  · rw [hreceive]
    exact hsettled.recomputeDerived now
  · have htally : kindTally d records (fun _ => ([], [])) =
        fun k => ⟨k, 0, (bucket records k).length, []⟩ := by
      funext k
      rw [kindTally, hpartition k]
      rfl
    rw [htally, presentReport, mergeReport, referenceCounts_map, referenceCounts_map]
    rfl

/-- **Replay is a no-op**: a batch that was merged once changes nothing when it is merged again,
whatever merges came in between. -/
theorem applyMerge_replay (start : Database) {lines : List String} {batch : ExchangeBatch}
    (hparse : parseExchange lines = .ok batch) {now : String} {d : Db} {report : MergeReport}
    (hfirst : applyMerge driver now start.db batch.records = .ok (d, report)) {d' : Db}
    (hothers : ReflTransGen (Merged driver) d d') (now' : String) :
    applyMerge driver now' d' batch.records = .ok (d', presentReport batch.records) ∧ d'.Ok := by
  have hrecords := parseExchange_accepted hparse
  have hd := applyMerge_ok start.ok hfirst
  obtain ⟨hd', hsettled, hids⟩ := merges_after hothers hd (applyMerge_settled start.ok hfirst)
  refine ⟨applyMerge_present now' hd' hsettled fun r hr => hids r.kind ?_, hd'⟩
  refine (mem_ids_applyMerge start.ok hrecords hfirst _ _).mpr (.inr ?_)
  exact List.mem_map_of_mem (mem_bucket.mpr hr)

/-- Two cards of one code, on their way from two devices. -/
def twins : List AnyRow :=
  [⟨.product, { blankProduct "aaaaaaaa-0" "" with code := some "c" }⟩,
    ⟨.product, { blankProduct "bbbbbbbb-0" "" with code := some "c" }⟩]

/-- The lines that carry the twins. -/
def twinLines : List String := serializeExchange id ⟨"0028", none, ""⟩ (twins.map AnyRow.record)

theorem twins_parse : ∃ batch, parseExchange twinLines = .ok batch := by
  refine parseExchange_rows_iff.mpr ⟨?_, by decide⟩
  simp only [twins, List.forall_mem_cons, List.not_mem_nil, false_implies, implies_true, and_true]
  exact ⟨⟨by decide, trivial⟩, by decide, trivial⟩

/-- The second of the twins is renamed, and the batch is a no-op from then on. -/
theorem applyMerge_replay_twins : ∃ batch d report, parseExchange twinLines = .ok batch ∧
    applyMerge Driver.strict "" {} batch.records = .ok (d, report) ∧
      report.conflicts = [⟨"bbbbbbbb-0", "c", "c~bbbbbbbb", "aaaaaaaa-0"⟩] ∧
      applyMerge Driver.strict "later" d batch.records = .ok (d, presentReport batch.records) ∧
      d.Ok := by
  obtain ⟨batch, hparse⟩ := twins_parse
  have hconflicts : (applyMerge Driver.strict "" {} batch.records).toOption.map
      (fun out => out.2.conflicts) =
        some [⟨"bbbbbbbb-0", "c", "c~bbbbbbbb", "aaaaaaaa-0"⟩] := by
    rw [parseExchange_rows_records hparse]
    decide
  cases hmerge : applyMerge Driver.strict "" {} batch.records with
  | error e =>
    rw [hmerge] at hconflicts
    cases hconflicts
  | ok out =>
    rw [hmerge] at hconflicts
    have hempty : ({} : Db).Ok := by decide
    refine ⟨batch, out.1, out.2, hparse, hmerge, Option.some.inj hconflicts, ?_⟩
    exact applyMerge_replay ⟨{}, hempty⟩ hparse hmerge .refl "later"

end MyOriShop
