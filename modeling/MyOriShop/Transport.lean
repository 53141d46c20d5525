import MyOriShop.Ingest

/-!
# Transport: one text, three receivers (`app/routes/sync.py`, `sync_client.py`, `offline.py`)

The lines of a payload travel as one text. The push route decodes the body and cuts it with
`str.splitlines`, the pull client cuts the response text the same way, the offline route cuts at
newlines alone. The writer escapes every control character below U+0020 and leaves every character
from U+0080 on as it is, three line boundaries of `str.splitlines` among them.

* `Transports` says of a payload that all three receivers read the lines that were sent, and what
  follows from it.

Results:
* `mem_header_chars`: what the header line holds from outside ASCII.
* `transports_iff`: the three agree exactly where no text of the payload has one of the three.
-/

namespace MyOriShop

open Lib.Json (Value valueAt lookup dumps dumpChars textChars textPairs)
open Lib.Lines Lib.Transaction

variable {sha256 : String → String} {envelope : Envelope} {records : List ExchangeRecord}

/-! ## The line boundaries a writer leaves -/

/-- The line boundaries of `str.splitlines` that the writer does not escape. -/
def writtenLineEnds : List Char := ['\u0085', '\u2028', '\u2029']

theorem isLineEnd_iff {c : Char} (h : 32 ≤ c.toNat) : isLineEnd c = true ↔ c ∈ writtenLineEnds := by
  have hchar : ∀ d : Char, c = d ↔ c.toNat = d.toNat := fun d => Char.toNat_inj.symm
  simp only [writtenLineEnds, List.mem_cons, List.not_mem_nil, or_false, hchar]
  simp only [isLineEnd, Bool.or_eq_true, Bool.and_eq_true, decide_eq_true_eq, beq_iff_eq]
  have h1 : '\u0085'.toNat = 0x85 := by decide
  have h2 : '\u2028'.toNat = 0x2028 := by decide
  have h3 : '\u2029'.toNat = 0x2029 := by decide
  omega

theorem writtenLineEnds_ge : ∀ c ∈ writtenLineEnds, 128 ≤ c.toNat := by
  have hall : writtenLineEnds.all (fun c => 128 ≤ c.toNat) = true := by decide
  exact fun c hc => of_decide_eq_true (List.all_eq_true.mp hall c hc)

/-- A written value is one line exactly where no text in it has such a boundary. -/
theorem clean_dumps_iff (j : Value) : (∀ c ∈ (dumps j).toList, isLineEnd c = false) ↔
    ∀ c ∈ writtenLineEnds, c ∉ textChars j := by
  unfold dumps
  rw [String.toList_ofList]
  constructor
  · intro h c hc hmem
    have hge := writtenLineEnds_ge c hc
    have hwritten := h c ((Lib.Json.mem_dumpChars_iff hge).mpr hmem)
    rw [(isLineEnd_iff (by omega)).mpr hc] at hwritten
    cases hwritten
  · intro h c hc
    by_contra hend
    rw [Bool.not_eq_false, isLineEnd_iff (Lib.Json.dumpChars_ge hc)] at hend
    exact h c hend ((Lib.Json.mem_dumpChars_iff (writtenLineEnds_ge c hend)).mp hc)

/-! ## The texts of a payload -/

/-- The characters of the envelope's own texts. -/
def Envelope.chars (e : Envelope) : List Char :=
  e.schemaVersion.toList ++ (e.sourceDeviceId.getD "").toList ++ e.generatedAt.toList

theorem mem_textPairs {c : Char} {pairs : Data} :
    c ∈ textPairs pairs ↔ ∃ kv ∈ pairs, c ∈ kv.1.toList ∨ c ∈ textChars kv.2 := by
  induction pairs with
  | nil => simp [textPairs]
  | cons kv pairs ih => simp [textPairs, ih, or_assoc]

theorem kindKey_lt (k : Kind) : ∀ c ∈ k.key.toList, c.toNat < 128 := by
  have hall : k.key.toList.all (fun c => c.toNat < 128) = true := by cases k <;> decide
  exact fun c hc => of_decide_eq_true (List.all_eq_true.mp hall c hc)

theorem mem_kindCounts_lt {c : Char} (h : c ∈ textPairs (kindCounts records)) : c.toNat < 128 := by
  obtain ⟨kv, hkv, hc⟩ := mem_textPairs.mp h
  obtain ⟨k, -, rfl⟩ := List.mem_map.mp hkv
  rcases hc with hc | hc
  · exact kindKey_lt k c hc
  · cases hc

/-- The texts of the header that are the same in every payload. -/
def headerTexts : List String :=
  ["kind", "header", "format_version", "schema_version", "source_device_id", "generated_at",
    "counts", "payload_sha256"]

theorem headerTexts_lt : ∀ s ∈ headerTexts, ∀ c ∈ s.toList, c.toNat < 128 := by
  have hall : headerTexts.all (fun s => s.toList.all fun c => c.toNat < 128) = true := by decide
  exact fun s hs c hc => of_decide_eq_true
    (List.all_eq_true.mp (List.all_eq_true.mp hall s hs) c hc)

/-- `hexdigest()`: what a digest is written in. -/
def hexDigits : List Char := "0123456789abcdef".toList

theorem hexDigits_lt : ∀ c ∈ hexDigits, c.toNat < 128 := by
  have hall : hexDigits.all (fun c => c.toNat < 128) = true := by decide
  exact fun c hc => of_decide_eq_true (List.all_eq_true.mp hall c hc)

theorem mem_hexDigits_of_all {s : String} (h : s.toList.all (fun c => c ∈ hexDigits) = true) :
    ∀ c ∈ s.toList, c ∈ hexDigits :=
  fun c hc => of_decide_eq_true (List.all_eq_true.mp h c hc)

/-- The header line holds from outside ASCII what its envelope does. -/
theorem mem_header_chars (hhex : ∀ s, ∀ c ∈ (sha256 s).toList, c ∈ hexDigits) {c : Char}
    (hc : 128 ≤ c.toNat) :
    c ∈ textChars (.obj (headerData sha256 envelope records)) ↔ c ∈ envelope.chars := by
  have hfixed : ∀ s ∈ headerTexts, c ∉ s.toList := by
    intro s hs hmem
    have := headerTexts_lt s hs c hmem
    omega
  have hdigest : c ∉ (payloadDigest sha256 (records.map recordLine)).toList := by
    intro hmem
    have := hexDigits_lt c (hhex _ c hmem)
    omega
  have hcounts : c ∉ textPairs (kindCounts records) := by
    intro hmem
    have := mem_kindCounts_lt hmem
    omega
  have hdevice : c ∈ textChars (optStr envelope.sourceDeviceId) ↔
      c ∈ (envelope.sourceDeviceId.getD "").toList := by
    cases envelope.sourceDeviceId <;> simp [optStr, textChars]
  simp only [headerTexts, List.forall_mem_cons] at hfixed
  simp only [headerData, textChars, textPairs, Envelope.chars, List.mem_append, hfixed, hdigest,
    hcounts, hdevice, List.not_mem_nil, false_or, or_false, or_assoc]

/-! ## The three receivers -/

/-- The text of a push and of an upload. -/
def payloadText (sha256 : String → String) (envelope : Envelope) (records : List ExchangeRecord) :
    String :=
  join (serializeExchange sha256 envelope records)

/-- The three receivers read the lines that were sent. -/
structure Transports (sha256 : String → String) (envelope : Envelope)
    (records : List ExchangeRecord) : Prop where
  push : (String.fromUTF8? (payloadText sha256 envelope records).toByteArray).map splitlines =
    some (serializeExchange sha256 envelope records)
  pull : splitlines (terminate (serializeExchange sha256 envelope records)) =
    serializeExchange sha256 envelope records
  upload : splitLf (payloadText sha256 envelope records) =
    serializeExchange sha256 envelope records
  /-- What the offline route accepts, the push route merges in the same way. -/
  merged : ∀ rv batch,
    (Ingest.upload ⟨true, payloadText sha256 envelope records⟩).accepted rv = some batch →
    ∀ d reads commits,
      (Ingest.push ⟨true, none, (payloadText sha256 envelope records).toByteArray⟩).handler rv
          (idle d reads commits) =
        (Ingest.upload ⟨true, payloadText sha256 envelope records⟩).handler rv
          (idle d reads commits)
  /-- A page is parsed as the lines the server has written. -/
  page : parseExchange (splitlines (terminate (serializeExchange sha256 envelope records))) =
    parseExchange (serializeExchange sha256 envelope records)

theorem dumps_ne_empty (pairs : Data) : dumps (.obj pairs) ≠ "" := by
  intro h
  have hlength := congrArg String.toList h
  simp [dumps, dumpChars] at hlength

/-- The lines of a payload. -/
theorem mem_serialize {line : String} (h : line ∈ serializeExchange sha256 envelope records) :
    line = dumps (.obj (headerData sha256 envelope records)) ∨
      ∃ r ∈ records, line = dumps (.obj (("kind", .str r.kind.key) :: r.data)) := by
  rcases List.mem_cons.mp h with rfl | h
  · exact .inl rfl
  · obtain ⟨r, hr, rfl⟩ := List.mem_map.mp h
    exact .inr ⟨r, hr, rfl⟩

/-- A payload is cut where it was joined exactly where none of its texts has a line boundary. -/
theorem clean_serialize_iff (hhex : ∀ s, ∀ c ∈ (sha256 s).toList, c ∈ hexDigits) :
    (∀ line ∈ serializeExchange sha256 envelope records, ∀ c ∈ line.toList, isLineEnd c = false) ↔
      ∀ c ∈ writtenLineEnds, c ∉ envelope.chars ∧ ∀ r ∈ records, c ∉ textPairs r.data := by
  have hrecord : ∀ (r : ExchangeRecord) (c : Char), c ∈ writtenLineEnds →
      (c ∈ textChars (.obj (("kind", .str r.kind.key) :: r.data)) ↔ c ∈ textPairs r.data) := by
    intro r c hc
    have hge := writtenLineEnds_ge c hc
    have hkind : c ∉ "kind".toList := by
      intro hmem
      have := headerTexts_lt "kind" (by simp [headerTexts]) c hmem
      omega
    have hkey : c ∉ r.kind.key.toList := by
      intro hmem
      have := kindKey_lt r.kind c hmem
      omega
    simp only [textChars, textPairs, List.mem_append, hkind, hkey, false_or]
  constructor
  · intro h c hc
    refine ⟨fun hmem => ?_, fun r hr hmem => ?_⟩
    · refine (clean_dumps_iff _).mp (h _ List.mem_cons_self) c hc ?_
      exact (mem_header_chars hhex (writtenLineEnds_ge c hc)).mpr hmem
    · refine (clean_dumps_iff _).mp (h _ (List.mem_cons_of_mem _ ?_)) c hc
        ((hrecord r c hc).mpr hmem)
      exact List.mem_map_of_mem hr
  · intro h line hline
    rcases mem_serialize hline with rfl | ⟨r, hr, rfl⟩
    · refine (clean_dumps_iff _).mpr fun c hc hmem => (h c hc).1 ?_
      exact (mem_header_chars hhex (writtenLineEnds_ge c hc)).mp hmem
    · exact (clean_dumps_iff _).mpr fun c hc hmem => (h c hc).2 r hr ((hrecord r c hc).mp hmem)

/-- **The offline route** reads the lines that were sent, whatever they hold. -/
theorem splitLf_payload (sha256 : String → String) (envelope : Envelope)
    (records : List ExchangeRecord) : splitLf (payloadText sha256 envelope records) =
      serializeExchange sha256 envelope records := by
  have hge : ∀ line ∈ serializeExchange sha256 envelope records, ∀ c ∈ line.toList, 32 ≤ c.toNat := by
    intro line hline c hc
    rcases mem_serialize hline with rfl | ⟨r, -, rfl⟩
    all_goals
      rw [dumps, String.toList_ofList] at hc
      exact Lib.Json.dumpChars_ge hc
  refine splitLf_join (List.cons_ne_nil _ _) fun line hline => ⟨fun hc => ?_, fun hc => ?_⟩
  · exact absurd (hge line hline _ hc) (by decide)
  · exact absurd (hge line hline _ hc) (by decide)

/-- The header of a bundle that passes the gates is the one that was written. -/
theorem header_payload {rv : Receiver} {header : Data}
    (h : UploadRequest.header rv ⟨true, payloadText sha256 envelope records⟩ = .ok header) :
    header = headerData sha256 envelope records ∧
      ¬maxBytes < (payloadText sha256 envelope records).utf8ByteSize := by
  unfold UploadRequest.header at h
  rw [splitLf_payload] at h
  split_ifs at h with htoken hsize
  refine ⟨?_, hsize⟩
  simp only [serializeExchange, Lib.Json.loads_dumps] at h
  split_ifs at h
  cases h
  rfl

/-- The batch of a written payload carries its schema version. -/
theorem schemaVersion_payload {batch : ExchangeBatch}
    (h : parseExchange (serializeExchange sha256 envelope records) = .ok batch) :
    batch.schemaVersion = envelope.schemaVersion := by
  rw [parseHeader_serialize] at h
  obtain ⟨out, -, hbatch⟩ := Lib.Fallible.bind_ok_iff.mp h
  cases hbatch
  simp [headerBatch, valueAt, lookup, headerData]

/-- What the offline route accepts, the push route accepts, where it reads the same lines. -/
theorem accepted_push {rv : Receiver} {batch : ExchangeBatch}
    (hlines : splitlines (payloadText sha256 envelope records) =
      serializeExchange sha256 envelope records)
    (h : (Ingest.upload ⟨true, payloadText sha256 envelope records⟩).accepted rv = some batch) :
    (Ingest.push ⟨true, none, (payloadText sha256 envelope records).toByteArray⟩).accepted rv =
      some batch := by
  change acceptedUpload rv (splitLf (payloadText sha256 envelope records)) _ = some batch at h
  cases hheader : UploadRequest.header rv ⟨true, payloadText sha256 envelope records⟩ with
  | error refusal =>
    rw [hheader] at h
    cases h
  | ok header =>
    obtain ⟨rfl, hsize⟩ := header_payload hheader
    rw [hheader, acceptedUpload, splitLf_payload, Option.ite_none_right_eq_some] at h
    obtain ⟨hschema, hparsed⟩ := h
    have hok : parseExchange (serializeExchange sha256 envelope records) = .ok batch := by
      cases hbatch : parseExchange (serializeExchange sha256 envelope records) with
      | error e =>
        rw [hbatch] at hparsed
        cases hparsed
      | ok batch' =>
        rw [hbatch] at hparsed
        cases hparsed
        rfl
    have hbatch : PushRequest.batch
        ⟨true, none, (payloadText sha256 envelope records).toByteArray⟩ = .ok batch := by
      have hbytes : ¬maxBytes < (payloadText sha256 envelope records).toByteArray.size := hsize
      unfold PushRequest.batch
      rw [if_neg (by simp), if_neg (by simp), if_neg hbytes, fromUTF8?_toByteArray]
      simp only [hlines, parseGate, hok]
    have hversion : pushSchemaOk batch.schemaVersion rv.schemaVersion = true := by
      have hfile : headerSchema (headerData sha256 envelope records) =
          .str envelope.schemaVersion := by
        simp [headerSchema, lookup, headerData]
      rw [hfile] at hschema
      rw [schemaVersion_payload hok, pushSchemaOk]
      simp only [schemaVersionOk, isStr, Bool.or_eq_true, decide_eq_true_eq] at hschema ⊢
      rcases hschema with hempty | hsame
      · exact .inl (.inr hempty)
      · exact .inr hsame.le
    show acceptedPush rv (PushRequest.batch _) = some batch
    rw [hbatch, acceptedPush, if_pos hversion]

/-- **Transport**: the three receivers read the lines that were sent exactly where no text of the
envelope and of the records has one of the three line boundaries the writer leaves as they are. -/
theorem transports_iff (hhex : ∀ s, ∀ c ∈ (sha256 s).toList, c ∈ hexDigits) (envelope : Envelope)
    (records : List ExchangeRecord) : Transports sha256 envelope records ↔
      ∀ c ∈ writtenLineEnds, c ∉ envelope.chars ∧ ∀ r ∈ records, c ∉ textPairs r.data := by
  rw [← clean_serialize_iff hhex]
  constructor
  · exact fun h => splitlines_terminate_iff.mp h.pull
  · intro h
    have hpull := splitlines_terminate_iff.mpr h
    have hpush : splitlines (payloadText sha256 envelope records) =
        serializeExchange sha256 envelope records := by
      refine (splitlines_join_iff fun line hline => ?_).mpr h
      rcases mem_serialize hline with rfl | ⟨r, -, rfl⟩ <;> exact dumps_ne_empty _
    constructor
    · rw [fromUTF8?_toByteArray, Option.map_some, hpush]
    · exact hpull
    · exact splitLf_payload sha256 envelope records
    · intro rv batch hbatch d reads commits
      rw [handler_of_accepted hbatch, handler_of_accepted (accepted_push hpush hbatch)]
    · rw [hpull]

/-! ## A customer on the wire -/

/-- A customer's record. -/
def customerRecord (name search : String) : ExchangeRecord :=
  rowRecord .customer (
    { id := "c"
      name := name
      surname := none
      consultantNumber := none
      address := none
      searchLc := some search
      createdAt := "2026-01-01T00:00:00+00:00"
      updatedAt := "2026-01-01T00:00:00+00:00" } : Customer)

/-- What the two payloads below are sent with. -/
def sampleEnvelope : Envelope := ⟨"0030", some "device", "2026-01-01T00:00:00+00:00"⟩

theorem transports_anna : Transports
    (fun _ => "679d1b504dfd68f8e76c179af5d12f00c9f13a6cff9fc66cd274b23d42ce8cb4") sampleEnvelope
    [customerRecord "Анна" "анна"] := by
  refine (transports_iff (fun _ => mem_hexDigits_of_all (by decide)) sampleEnvelope _).mpr ?_
  exact List.forall_mem_cons.mpr ⟨by decide, List.forall_mem_cons.mpr
    ⟨by decide, List.forall_mem_singleton.mpr (by decide)⟩⟩

/-- A name with a line separator in it is cut by `str.splitlines`. -/
theorem not_transports : ¬ ∀ (sha256 : String → String),
    (∀ s, ∀ c ∈ (sha256 s).toList, c ∈ hexDigits) → ∀ envelope records,
      Transports sha256 envelope records := by
  intro h
  have hhex : ∀ _ : String, ∀ c ∈
      "1c1a4057c6cf2a26808aba31b0610f00fa56090d4d9e6c954c1ff4162a1c3c77".toList, c ∈ hexDigits :=
    fun _ => mem_hexDigits_of_all (by decide)
  have hpull := (h _ hhex sampleEnvelope
    [customerRecord "Анна\u2028Петрова" "анна\u2028петрова"]).pull
  have hclean := (clean_serialize_iff hhex).mp (splitlines_terminate_iff.mp hpull)
  have hkept := (hclean '\u2028' (by decide)).2 _ (List.mem_singleton_self _)
  revert hkept
  decide

end MyOriShop
