import MyOriShop.PushClosure
import MyOriShop.Transport

/-!
# Push body: what a push brings to the merge (`app/routes/sync.py`, `app/services/merge.py`)

A body is cut with `str.splitlines`, at boundaries the writer leaves inside a text as well. A line
that is cut there is no document any more, and the parser refuses the whole body for it: what is
accepted was read as it was sent.

Results:
* `splitlines_of_parsed`: a body that parses is cut where it was joined.
* `applyMerge_received`: the merge does not look at the stamps that the parser clears.
* `route_outcome`: a request is merged in one commit, or leaves the database as it was.
* `push_merges_iff`: when a push of written rows is merged, and what it leaves.
-/

namespace MyOriShop

open Lib.Json (Value loads dumps dumpChars readChars)
open Lib.Lines Lib.Text Lib.Fallible Lib.Transaction

variable {sha256 : String → String} {envelope : Envelope} {records : List ExchangeRecord}

/-! ## Lines that parse -/

theorem loads_of_parseObject {index : Nat} {raw : String} {obj : Data}
    (h : parseObject index raw = .ok obj) : loads raw ≠ none := by
  intro hnone
  unfold parseObject at h
  rw [hnone] at h
  cases h

/-- Every line of accepted records is blank or a document. -/
theorem loads_of_parseRecords {lines : List String} {seen : List (Kind × String)} {index : Nat}
    {out : List ExchangeRecord} (h : parseRecords seen index lines = .ok out) :
    ∀ raw ∈ lines, isBlank raw = true ∨ loads raw ≠ none := by
  induction lines generalizing seen index out with
  | nil => exact fun raw hraw => absurd hraw List.not_mem_nil
  | cons line lines ih =>
    unfold parseRecords at h
    split_ifs at h with hblank
    · exact List.forall_mem_cons.mpr ⟨.inl hblank, ih h⟩
    · obtain ⟨obj, hobj, h⟩ := bind_ok_iff.mp h
      obtain ⟨record, -, h⟩ := bind_ok_iff.mp h
      obtain ⟨rest, hrest, -⟩ := bind_ok_iff.mp h
      exact List.forall_mem_cons.mpr ⟨.inr (loads_of_parseObject hobj), ih hrest⟩

theorem loads_of_parseBody {lines : List String} {index : Nat} {header : Data} {batch : ExchangeBatch}
    (h : parseBody index lines header = .ok batch) :
    ∀ raw ∈ lines, isBlank raw = true ∨ loads raw ≠ none := by
  unfold parseBody at h
  split_ifs at h
  obtain ⟨out, hout, -⟩ := bind_ok_iff.mp h
  exact loads_of_parseRecords hout

/-- Every line of an accepted payload is blank or a document. -/
theorem loads_of_parseHeader {lines : List String} {index : Nat} {batch : ExchangeBatch}
    (h : parseHeader index lines = .ok batch) :
    ∀ raw ∈ lines, isBlank raw = true ∨ loads raw ≠ none := by
  induction lines generalizing index with
  | nil => exact fun raw hraw => absurd hraw List.not_mem_nil
  | cons line lines ih =>
    unfold parseHeader at h
    split_ifs at h with hblank
    · exact List.forall_mem_cons.mpr ⟨.inl hblank, ih h⟩
    · obtain ⟨header, hheader, h⟩ := bind_ok_iff.mp h
      exact List.forall_mem_cons.mpr ⟨.inr (loads_of_parseObject hheader), loads_of_parseBody h⟩

/-! ## A line that is cut -/

/-- A written object up to a boundary inside it is neither blank nor a document. -/
theorem cut_refused {pairs : Data} {p q : List Char} {c : Char}
    (h : (dumps (.obj pairs)).toList = p ++ c :: q) (hc : isLineEnd c = true) :
    isBlank (String.ofList p) = false ∧ loads (String.ofList p) = none := by
  rw [dumps, String.toList_ofList] at h
  have hwritten : c ∈ dumpChars (.obj pairs) := by
    rw [h]
    exact List.mem_append_right _ List.mem_cons_self
  have hend : c ∈ writtenLineEnds := (isLineEnd_iff (Lib.Json.dumpChars_ge hwritten)).mp hc
  have hge := writtenLineEnds_ge c hend
  refine ⟨?_, ?_⟩
  · -- the line begins with a brace
    cases p with
    | nil =>
      have hbrace : '\x7b' = c := (List.cons.inj h).1
      subst hbrace
      exact absurd hge (by decide)
    | cons d p =>
      have hbrace : '\x7b' = d := (List.cons.inj h).1
      subst hbrace
      simp [isBlank, isSpace]
  · rw [loads, String.toList_ofList]
    exact Lib.Json.readChars_prefix_none h hge

/-- **A body that parses** is cut where it was joined. -/
theorem splitlines_of_parsed {batch : ExchangeBatch}
    (h : parseExchange (splitlines (payloadText sha256 envelope records)) = .ok batch) :
    splitlines (payloadText sha256 envelope records) =
      serializeExchange sha256 envelope records := by
  refine (splitlines_join_iff fun line hline => ?_).mpr ?_
  · rcases mem_serialize hline with rfl | ⟨r, -, rfl⟩ <;> exact dumps_ne_empty _
  by_contra hdirty
  -- the first line with a boundary in it, and the first boundary of that line
  cases hline : (serializeExchange sha256 envelope records).find? fun line => line.toList.any isLineEnd with
  | none =>
    refine hdirty fun line hmem c hc => ?_
    have hclean := List.find?_eq_none.mp hline line hmem
    rw [List.any_eq_true, not_exists] at hclean
    exact Bool.eq_false_iff.mpr fun hend => hclean c ⟨hc, hend⟩
  | some line =>
    obtain ⟨hend, before, after, hlines, hbefore⟩ := List.find?_eq_some_iff_append.mp hline
    obtain ⟨c, hchar⟩ := Option.isSome_iff_exists.mp (List.find?_isSome.mpr (List.any_eq_true.mp hend))
    obtain ⟨hc, p, q, hcut, hp⟩ := List.find?_eq_some_iff_append.mp hchar
    have hclean : ∀ a ∈ before, ∀ d ∈ a.toList, isLineEnd d = false := by
      intro a ha d hd
      have hnone := hbefore a ha
      rw [Bool.not_eq_true', List.any_eq_false] at hnone
      exact Bool.eq_false_iff.mpr (hnone d hd)
    obtain ⟨rest, hrest⟩ : ∃ rest, splitlines (join (before ++ line :: after)) =
        before ++ String.ofList p :: rest :=
      splitlines_join_cut hclean (fun d hd => (Bool.not_eq_true' _).mp (hp d hd)) hcut hc
    rw [payloadText, hlines, hrest] at h
    have hread := loads_of_parseHeader h (String.ofList p)
      (List.mem_append_right _ List.mem_cons_self)
    have hmem : line ∈ serializeExchange sha256 envelope records := by
      rw [hlines]
      exact List.mem_append_right _ List.mem_cons_self
    have hpart : isBlank (String.ofList p) = false ∧ loads (String.ofList p) = none := by
      rcases mem_serialize hmem with rfl | ⟨r, -, rfl⟩ <;> exact cut_refused hcut hc
    rcases hread with hblank | hloads
    · exact Bool.false_ne_true (hpart.1.symm.trans hblank)
    · exact hloads hpart.2

/-! ## The merge of what was received -/

theorem bucket_received (records : List ExchangeRecord) (k : Kind) :
    bucket (records.map ExchangeRecord.received) k = (bucket records k).map clearSynced := by
  unfold bucket
  rw [List.filter_map, List.map_map, List.map_map]
  rfl

theorem incoming_received (driver : Driver) (now : String) (d : Db) (records : List ExchangeRecord)
    (k : Kind) : incoming driver now d (records.map ExchangeRecord.received) k =
      incoming driver now d records k := by
  have hnew : ∀ rows : List Data, ((rows.map clearSynced).filter fun row => dataId row ∉ d.ids k) =
      (rows.filter fun row => dataId row ∉ d.ids k).map clearSynced := by
    intro rows
    rw [List.filter_map]
    refine congrArg _ (List.filter_congr fun row _ => ?_)
    rw [Function.comp_apply, dataId_clearSynced]
  unfold incoming
  rw [partitionNew_fst, partitionNew_fst, bucket_received, hnew, List.mapM_map]
  refine congrArg (· >>= _) (congrArg (fun f => List.mapM f _) (funext fun row => ?_))
  exact insertRow_clearSynced driver now k row

theorem kindTally_received (d : Db) (records : List ExchangeRecord) (rows : Incoming) :
    kindTally d (records.map ExchangeRecord.received) rows = kindTally d records rows := by
  funext k
  unfold kindTally
  have hlength : ∀ rows : List Data, (partitionNew (d.ids k) rows).2 =
      rows.length - (rows.filter fun row => dataId row ∉ d.ids k).length := by
    intro rows
    rw [← partitionNew_fst]
    rfl
  rw [hlength, hlength, bucket_received, List.filter_map, List.length_map, List.length_map]
  simp only [Function.comp_def, dataId_clearSynced]

/-- **The merge does not look at the stamps** that the parser clears. -/
theorem applyMerge_received {driver : Driver} {now : String} {d d' : Db} {report : MergeReport}
    (hd : d.Ok) : applyMerge driver now d (records.map ExchangeRecord.received) = .ok (d', report) ↔
      applyMerge driver now d records = .ok (d', report) := by
  simp only [applyMerge_ok_iff hd, incoming_received, kindTally_received]

/-! ## What a route leaves -/

theorem mergeAnswer_ok {rv : Receiver} {batch : ExchangeBatch} {d d' : Db} {report : MergeReport}
    (hd : d.Ok) (h : applyMerge rv.driver rv.now d batch.records = .ok (d', report)) (w : Conn)
    (reads commits : Nat) : mergeAnswer rv batch ⟨⟨d, false⟩, w, reads, commits⟩ =
      (.ok (.merged report), idle d' reads (commits + 1)) :=
  bind_run_ok (mergeOwned_ok hd h w reads commits)

/-- A request is merged in one commit, or leaves the database as it was. -/
theorem route_outcome (rv : Receiver) (request : Ingest) {d : Db} (hd : d.Ok) (reads commits : Nat) :
    (∃ batch d' report, request.accepted rv = some batch ∧
        applyMerge rv.driver rv.now d batch.records = .ok (d', report) ∧
        request.handler rv (idle d reads commits) =
          (.ok (.merged report), idle d' reads (commits + 1))) ∨
      (∃ answer w, (∀ report, answer ≠ .ok (.merged report)) ∧
        request.handler rv (idle d reads commits) = (answer, ⟨⟨d, false⟩, w, reads, commits⟩)) := by
  have hend := routeEnd rv request d reads commits
  generalize request.handler rv (idle d reads commits) = out at hend ⊢
  generalize request.accepted rv = accepted at hend ⊢
  cases hend with
  | stop answer w h => exact .inr ⟨answer, w, h, rfl⟩
  | merge batch w =>
    cases hmerge : applyMerge rv.driver rv.now d batch.records with
    | ok out =>
      obtain ⟨d', report⟩ := out
      exact .inl ⟨batch, d', report, rfl, hmerge, mergeAnswer_ok hd hmerge w reads commits⟩
    | error e =>
      refine .inr ⟨.error (.merge e), ⟨d, false⟩, fun report h => ?_,
        bind_run_error (mergeOwned_error hmerge w reads commits)⟩
      cases h

/-! ## A push of written rows -/

variable {rv : Receiver} {r : PushRequest} {rows : List AnyRow} {batch : ExchangeBatch}

/-- What `sync_push` asks of a request before it reads the body. -/
def PushRequest.Fits (r : PushRequest) : Prop :=
  r.withinRate = true ∧ (∀ n ∈ r.contentLength, n ≤ maxBytes) ∧ r.payload.size ≤ maxBytes

theorem push_batch_iff {text : String} (hbody : r.payload = text.toByteArray) :
    r.batch = .ok batch ↔ r.Fits ∧ parseExchange (splitlines text) = .ok batch := by
  have hgate : parseGate (splitlines text) = .ok batch ↔ parseExchange (splitlines text) = .ok batch := by
    refine ⟨parseGate_ok, fun h => ?_⟩
    rw [parseGate, h]
  have hlength : (r.contentLength.any fun n => (maxBytes : Int) < n) = true ↔
      ¬∀ n ∈ r.contentLength, n ≤ (maxBytes : Int) := by
    cases r.contentLength with
    | none => simp
    | some n => simp
  unfold PushRequest.batch PushRequest.Fits
  rw [← hgate]
  by_cases hrate : r.withinRate = true
  · rw [if_neg (by simp [hrate])]
    by_cases hdeclared : ∀ n ∈ r.contentLength, n ≤ (maxBytes : Int)
    · rw [if_neg fun h => hlength.mp h hdeclared]
      by_cases hsize : r.payload.size ≤ maxBytes
      · rw [if_neg (by omega), hbody, fromUTF8?_toByteArray]
        exact (and_iff_right ⟨hrate, hdeclared, hbody ▸ hsize⟩).symm
      · rw [if_pos (by omega)]
        exact iff_of_false (by rintro ⟨⟩) fun h => hsize h.1.2.2
    · rw [if_pos (hlength.mpr hdeclared)]
      exact iff_of_false (by rintro ⟨⟩) fun h => hdeclared h.1.2.1
  · rw [if_pos (by simp [hrate])]
    exact iff_of_false (by rintro ⟨⟩) fun h => hrate h.1.1

/-- What a push of a written payload is accepted as. -/
theorem accepted_push_iff
    (hbody : r.payload = (payloadText sha256 envelope records).toByteArray) :
    (Ingest.push r).accepted rv = some batch ↔ r.Fits ∧
      splitlines (payloadText sha256 envelope records) = serializeExchange sha256 envelope records ∧
        parseExchange (serializeExchange sha256 envelope records) = .ok batch ∧
          pushSchemaOk envelope.schemaVersion rv.schemaVersion = true := by
  show acceptedPush rv r.batch = some batch ↔ _
  constructor
  · intro h
    cases hbatch : r.batch with
    | error stop =>
      rw [hbatch] at h
      cases h
    | ok batch' =>
      rw [hbatch, acceptedPush, Option.ite_none_right_eq_some] at h
      obtain ⟨hschema, hsame⟩ := h
      obtain rfl : batch' = batch := Option.some.inj hsame
      obtain ⟨hfits, hparsed⟩ := (push_batch_iff hbody).mp hbatch
      have hlines := splitlines_of_parsed hparsed
      rw [hlines] at hparsed
      exact ⟨hfits, hlines, hparsed, schemaVersion_payload hparsed ▸ hschema⟩
  · rintro ⟨hfits, hlines, hparsed, hschema⟩
    have hbatch : r.batch = .ok batch := (push_batch_iff hbody).mpr ⟨hfits, hlines.symm ▸ hparsed⟩
    rw [hbatch, acceptedPush, if_pos (schemaVersion_payload hparsed ▸ hschema)]

/-- A push whose rows are merged is answered with their report, in one commit. -/
structure Merges (rv : Receiver) (r : PushRequest) (rows : List AnyRow) (d d' : Db)
    (report : MergeReport) (reads commits : Nat) : Prop where
  merged : applyMerge rv.driver rv.now d (rows.map AnyRow.record) = .ok (d', report)
  answered : syncPush rv r (idle d reads commits) =
    (.ok (.merged report), idle d' reads (commits + 1))

/-- **A push of written rows** is merged exactly when it fits, no text of it holds a line boundary
that the writer leaves, the exchange takes each row, no two of a kind have one id, the schema is not
ahead and the rows merge. It then merges those rows and no others; otherwise nothing is written. -/
theorem push_merges_iff (hhex : ∀ s, ∀ c ∈ (sha256 s).toList, c ∈ hexDigits) (rv : Receiver)
    (r : PushRequest) (envelope : Envelope) (rows : List AnyRow)
    (hbody : r.payload = (payloadText sha256 envelope (rows.map AnyRow.record)).toByteArray)
    (db : Database) (reads commits : Nat) :
    ((∃ d' report, Merges rv r rows db.db d' report reads commits) ↔
      r.Fits ∧
        (∀ c ∈ writtenLineEnds, c ∉ envelope.chars ∧
          ∀ row ∈ rows, c ∉ Lib.Json.textPairs (toData row.1 row.2)) ∧
        ((∀ row ∈ rows, rowId row.1 row.2 ≠ "" ∧ Acceptable row.1 row.2) ∧
          (rows.map AnyRow.key).Nodup) ∧
        pushSchemaOk envelope.schemaVersion rv.schemaVersion = true ∧
        ∃ out, applyMerge rv.driver rv.now db.db (rows.map AnyRow.record) = .ok out) ∧
    ((∃ d' report, Merges rv r rows db.db d' report reads commits) ∨
      (∃ answer w, (∀ report, answer ≠ .ok (.merged report)) ∧
        syncPush rv r (idle db.db reads commits) = (answer, ⟨⟨db.db, false⟩, w, reads, commits⟩))) := by
  have hclean : splitlines (payloadText sha256 envelope (rows.map AnyRow.record)) =
      serializeExchange sha256 envelope (rows.map AnyRow.record) ↔
        ∀ c ∈ writtenLineEnds, c ∉ envelope.chars ∧
          ∀ row ∈ rows, c ∉ Lib.Json.textPairs (toData row.1 row.2) := by
    refine (splitlines_join_iff fun line hline => ?_).trans ((clean_serialize_iff hhex).trans ?_)
    · rcases mem_serialize hline with rfl | ⟨r, -, rfl⟩ <;> exact dumps_ne_empty _
    · simp only [List.forall_mem_map]
      rfl
  -- what was accepted are the rows that were sent
  have hrecords : ∀ batch, (Ingest.push r).accepted rv = some batch → ∀ d' report,
      applyMerge rv.driver rv.now db.db batch.records = .ok (d', report) →
        applyMerge rv.driver rv.now db.db (rows.map AnyRow.record) = .ok (d', report) := by
    intro batch hbatch d' report h
    obtain ⟨-, -, hparsed, -⟩ := (accepted_push_iff hbody).mp hbatch
    have hreceived : batch.records = (rows.map AnyRow.record).map ExchangeRecord.received := by
      rw [parseExchange_rows_records hparsed, List.map_map]
      rfl
    rw [hreceived] at h
    exact (applyMerge_received db.ok).mp h
  refine ⟨⟨?_, ?_⟩, ?_⟩
  · rintro ⟨d', report, h⟩
    rcases route_outcome rv (.push r) db.ok reads commits with
      ⟨batch, d'', report', hbatch, hmerge, hrun⟩ | ⟨answer, w, hanswer, hrun⟩
    · obtain ⟨hfits, hlines, hparsed, hschema⟩ := (accepted_push_iff hbody).mp hbatch
      exact ⟨hfits, hclean.mp hlines, parseExchange_rows_iff.mp ⟨batch, hparsed⟩, hschema,
        (d', report), h.merged⟩
    · have hboth := hrun.symm.trans h.answered
      exact absurd (congrArg Prod.fst hboth) (hanswer report)
  · rintro ⟨hfits, hlines, hrows, hschema, ⟨d', report⟩, hmerge⟩
    obtain ⟨batch, hparsed⟩ : ∃ batch, parseExchange
        (serializeExchange sha256 envelope (rows.map AnyRow.record)) = .ok batch :=
      parseExchange_rows_iff.mpr hrows
    have hbatch : (Ingest.push r).accepted rv = some batch :=
      (accepted_push_iff hbody).mpr ⟨hfits, hclean.mpr hlines, hparsed, hschema⟩
    have hreceived : batch.records = (rows.map AnyRow.record).map ExchangeRecord.received := by
      rw [parseExchange_rows_records hparsed, List.map_map]
      rfl
    have hbatchMerge : applyMerge rv.driver rv.now db.db batch.records = .ok (d', report) := by
      rw [hreceived]
      exact (applyMerge_received db.ok).mpr hmerge
    refine ⟨d', report, hmerge, ?_⟩
    have hrun : syncPush rv r (idle db.db reads commits) =
        mergeAnswer rv batch (idle db.db reads commits) := handler_of_accepted hbatch
    exact hrun.trans (mergeAnswer_ok db.ok hbatchMerge ⟨db.db, false⟩ reads commits)
  · rcases route_outcome rv (.push r) db.ok reads commits with
      ⟨batch, d', report, hbatch, hmerge, hrun⟩ | ⟨answer, w, hanswer, hrun⟩
    · exact .inl ⟨d', report, hrecords batch hbatch d' report hmerge, hrun⟩
    · exact .inr ⟨answer, w, hanswer, hrun⟩

/-- A customer whose name has a line separator in it. -/
def cutCustomer : AnyRow := ⟨.customer, (
  { id := "c"
    name := "Анна\u2028Петрова"
    surname := none
    consultantNumber := none
    address := none
    searchLc := some "анна"
    createdAt := "2026-01-01T00:00:00+00:00"
    updatedAt := "2026-01-01T00:00:00+00:00" } : Customer)⟩

/-- A body with her record. -/
def cutBody : PushRequest where
  withinRate := true
  contentLength := none
  payload := (payloadText (fun _ => "0") sampleEnvelope ([cutCustomer].map AnyRow.record)).toByteArray

/-- Her record does not travel, and nothing else that goes with it. -/
theorem push_merges_iff_cutCustomer : ∃ answer w, (∀ report, answer ≠ .ok (.merged report)) ∧
    syncPush ⟨Driver.strict, fun _ => "0", "0030", ""⟩ cutBody (idle {} 0 0) =
      (answer, ⟨⟨{}, false⟩, w, 0, 0⟩) := by
  have hhex : ∀ _ : String, ∀ c ∈ "0".toList, c ∈ hexDigits :=
    fun _ => mem_hexDigits_of_all (by decide)
  have hpush := push_merges_iff hhex ⟨Driver.strict, fun _ => "0", "0030", ""⟩ cutBody
    sampleEnvelope [cutCustomer] (by simp only [cutBody]) ⟨{}, by decide⟩ 0 0
  refine hpush.2.resolve_left fun h => ?_
  have hkept := ((hpush.1.mp h).2.1 '\u2028' (by decide)).2 _ (List.mem_singleton_self _)
  revert hkept
  decide

end MyOriShop
