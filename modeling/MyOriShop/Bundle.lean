import MyOriShop.Lib.JsonText
import MyOriShop.RoundTrip
import MyOriShop.Transport

/-!
# Bundle: an offline payload inside an HTML page (`app/routes/offline.py`, `self_upload.html`)

The export route writes the payload into a script element of a page. It escapes what would close the
element, in any case; the page takes the escape back before it stages the payload in its form. The
form may send the newlines as CRLF; the upload route makes them LF again.

* `scriptEscape` holds both regular expressions. Python's `re.IGNORECASE` folds as Unicode does, so
  its `s` takes U+017F and its `i` takes U+0130 and U+0131; the flags `gi` without `u` never fold a
  character from outside ASCII into it.
* `embed` is the text the server puts into the page, `recover` what the page makes of it.
* `Survives` is what the round trip is for.

Results:
* `occurs_marked`: no payload looks escaped.
* `lost_payload`: the inverse misses a match exactly inside a text of the payload.
* `survives_iff`: a bundle survives exactly where no text closes the element with one of the three.
-/

namespace MyOriShop

open Lib.Json (Value texts textsPairs dumpChars dumps isFrame Plain Foreign Fronted)
open Lib.Lines Lib.Replace

variable {sha256 : String → String} {envelope : Envelope} {records : List ExchangeRecord}

/-! ## The two regular expressions -/

/-- One of the characters. -/
def oneOf (s : String) : Char → Bool := fun c => s.toList.contains c

/-- What `re.IGNORECASE` takes for the letters of `script`. -/
def pyScript : Pattern :=
  [oneOf "sS\u017f", oneOf "cC", oneOf "rR", oneOf "iI\u0130\u0131", oneOf "pP", oneOf "tT"]

/-- What the flags `gi` take for them. -/
def jsScript : Pattern := [oneOf "sS", oneOf "cC", oneOf "rR", oneOf "iI", oneOf "pP", oneOf "tT"]

theorem pyScript_of_jsScript {cs : List Char} (h : starts jsScript cs = true) :
    starts pyScript cs = true := by
  match cs with
  | a :: b :: c :: d :: e :: f :: rest =>
    simp only [jsScript, pyScript, starts, oneOf, Bool.and_true, Bool.and_eq_true,
      List.contains_iff_mem] at h ⊢
    obtain ⟨ha, hb, hc, hd, he, hf⟩ := h
    have hwider : ∀ {c : Char} {s s' : String}, c ∈ s.toList → s.toList ⊆ s'.toList →
        c ∈ s'.toList := fun hc hs => hs hc
    exact ⟨hwider ha (by decide), hb, hc, hwider hd (by decide), he, hf⟩
  | [] | [_] | [_, _] | [_, _, _] | [_, _, _, _] | [_, _, _, _, _] =>
    simp [jsScript, starts] at h

/-- The escape of the server, `"<\\/" + m.group(0)[2:]`, and that of the page, `"</$1"`. -/
def scriptEscape : Escaping where
  head := '<'
  mark := '\\'
  wide := is '/' :: pyScript
  narrow := is '/' :: jsScript
  put m := '<' :: '\\' :: '/' :: m.drop 2
  take m := '<' :: '/' :: m.drop 3
  mark_ne := by decide
  head_wide := by decide
  head_narrow := by decide
  narrow_wide cs h := by
    cases cs with
    | nil => cases h
    | cons c cs =>
      obtain ⟨hc, hcs⟩ := Bool.and_eq_true_iff.mp h
      exact Bool.and_eq_true_iff.mpr ⟨hc, pyScript_of_jsScript hcs⟩
  put_eq m h _ := by
    cases m with
    | nil => cases h
    | cons c m =>
      obtain rfl : c = '/' := of_decide_eq_true (Bool.and_eq_true_iff.mp h).1
      rfl
  take_eq m h _ := by
    cases m with
    | nil => cases h
    | cons c m =>
      obtain rfl : c = '/' := of_decide_eq_true (Bool.and_eq_true_iff.mp h).1
      rfl

/-- `embedded`. -/
def embed (body : String) : String := String.ofList (scriptEscape.escape body.toList)

/-- `ndjson`. -/
def recover (raw : String) : String := String.ofList (scriptEscape.unescape raw.toList)

/-! ## The form -/

/-- A form sends a text, some of its newlines as CRLF. -/
inductive Submitted : List Char → List Char → Prop where
  | nil : Submitted [] []
  | keep (c : Char) {cs ds : List Char} (h : Submitted cs ds) : Submitted (c :: cs) (c :: ds)
  | crlf {cs ds : List Char} (h : Submitted cs ds) : Submitted ('\n' :: cs) ('\r' :: '\n' :: ds)

theorem Submitted.refl : ∀ cs : List Char, Submitted cs cs
  | [] => .nil
  | c :: cs => .keep c (refl cs)

/-- `payload.replace("\r\n", "\n").replace("\r", "\n")`. -/
def canonical (payload : String) : String := String.ofList (toLf payload.toList)

theorem Submitted.toLf {cs ds : List Char} (h : Submitted cs ds) (hcr : '\r' ∉ cs) :
    Lib.Lines.toLf ds = cs := by
  induction h with
  | nil => rfl
  | keep c h ih =>
    obtain ⟨hc, hcs⟩ := not_or.mp (mt List.mem_cons.mpr hcr)
    rw [Lib.Lines.toLf, ih hcs, if_neg fun heq => hc heq.symm]
    rintro cs' rfl
    exact fun _ => hc rfl
  | crlf h ih => rw [Lib.Lines.toLf, ih (List.not_mem_of_not_mem_cons hcr)]

theorem splitLf_canonical {payload body : String} (h : canonical payload = body)
    (hbody : '\r' ∉ body.toList) : splitLf payload = splitLf body := by
  have hlist : toLf payload.toList = body.toList := by rw [← h, canonical, String.toList_ofList]
  rw [splitLf, splitLf, hlist, toLf_of_not_mem hbody]

/-! ## What a payload holds -/

/-- The values on the lines of a payload. -/
def payloadValues (sha256 : String → String) (envelope : Envelope)
    (records : List ExchangeRecord) : List Value :=
  .obj (headerData sha256 envelope records) ::
    records.map fun r => .obj (("kind", .str r.kind.key) :: r.data)

theorem payloadText_toList : (payloadText sha256 envelope records).toList =
    joinChars ((payloadValues sha256 envelope records).map dumpChars) := by
  have hlines : (serializeExchange sha256 envelope records).map String.toList =
      (payloadValues sha256 envelope records).map dumpChars := by
    simp [serializeExchange, payloadValues, recordLine, dumps, Function.comp_def]
  rw [payloadText, join, String.toList_ofList, hlines]

theorem cr_notMem_payload : '\r' ∉ (payloadText sha256 envelope records).toList := by
  rw [payloadText_toList]
  intro hmem
  rcases mem_joinChars hmem with h | ⟨l, hl, hc⟩
  · exact absurd h (by decide)
  · obtain ⟨j, -, rfl⟩ := List.mem_map.mp hl
    exact absurd (Lib.Json.dumpChars_ge hc) (by decide)

/-- No payload looks escaped: behind a backslash the writer never puts a slash. -/
theorem occurs_marked :
    occurs scriptEscape.marked (payloadText sha256 envelope records).toList = false := by
  have hforeign : Foreign (starts scriptEscape.marked) fun _ => false :=
    Lib.Json.foreign_backslash (by decide) fun d hd =>
      Bool.eq_false_iff.mpr fun h => absurd (of_decide_eq_true h ▸ hd) (by decide)
  rw [occurs, payloadText_toList, hforeign.join]
  simp

theorem plain_is {d : Char} (h : Plain d) : ∀ c, is d c = true → Plain c :=
  fun c hc => (of_decide_eq_true hc : c = d) ▸ h

theorem plain_oneOf {s : String} (h : ∀ c ∈ s.toList, Plain c) : ∀ c, oneOf s c = true → Plain c :=
  fun c hc => h c (List.contains_iff_mem.mp hc)

theorem plain_script (letters : List String)
    (h : letters.all (fun s => s.toList.all fun c => Lib.Json.escapeChar c = [c]) = true) :
    ∀ q ∈ is '<' :: is '/' :: letters.map oneOf, ∀ c, q c = true → Plain c := by
  refine List.forall_mem_cons.mpr ⟨plain_is (by unfold Plain; decide), ?_⟩
  refine List.forall_mem_cons.mpr ⟨plain_is (by unfold Plain; decide), ?_⟩
  intro q hq
  obtain ⟨s, hs, rfl⟩ := List.mem_map.mp hq
  refine plain_oneOf fun c hc => ?_
  have hplain := List.all_eq_true.mp (List.all_eq_true.mp h s hs) c hc
  rwa [decide_eq_true_eq] at hplain

/-- A match that the page does not know is one inside a single text. -/
theorem foreign_losing : Foreign scriptEscape.losing scriptEscape.lost := by
  refine Lib.Json.foreign_of_plain ?_ ?_
  · intro l hl
    have hwide := (Bool.and_eq_true_iff.mp hl).1
    exact ⟨'<', head_of_starts hwide, by decide⟩
  · intro cs rest
    have hpy := plain_script ["sS\u017f", "cC", "rR", "iI\u0130\u0131", "pP", "tT"] (by decide)
    have hjs := plain_script ["sS", "cC", "rR", "iI", "pP", "tT"] (by decide)
    exact congrArg₂ (fun w n : Bool => w && !n) (Lib.Json.starts_escapeChars hpy cs rest)
      (Lib.Json.starts_escapeChars hjs cs rest)

/-! ## The texts of a payload -/

/-- The texts that a payload is made from: those of the envelope and those of the records. -/
def payloadTexts (envelope : Envelope) (records : List ExchangeRecord) : List (List Char) :=
  [envelope.schemaVersion.toList, (envelope.sourceDeviceId.getD "").toList,
    envelope.generatedAt.toList] ++ records.flatMap fun r => textsPairs r.data

theorem lost_of_notMem {cs : List Char} (h : '<' ∉ cs) : scriptEscape.lost cs = false :=
  anyTail_eq_false (fun _ hl => head_of_starts (Bool.and_eq_true_iff.mp hl).1) h

theorem lost_of_mem {cs l : List Char} (h : ∀ c ∈ l, c ∈ cs) (hcs : '<' ∉ cs) :
    scriptEscape.lost l = false :=
  lost_of_notMem fun hmem => hcs (h _ hmem)

theorem lost_kindKey (k : Kind) : scriptEscape.lost k.key.toList = false := by
  cases k <;> decide

theorem lost_kindCounts : (textsPairs (kindCounts records)).any scriptEscape.lost = false := by
  rw [kindCounts]
  generalize (records.map ExchangeRecord.kind).reverse.dedup.reverse = kinds
  induction kinds with
  | nil => rfl
  | cons k kinds ih =>
    have hint : ∀ n : ℤ, texts (.int n) = [] := fun _ => rfl
    rw [List.map_cons, Lib.Json.textsPairs_cons, List.any_cons, lost_kindKey, Bool.false_or, hint,
      List.nil_append, ih]

/-- Where the page misses a match in a payload, it misses it in one of these texts. -/
theorem lost_payload (hhex : ∀ s, ∀ c ∈ (sha256 s).toList, c ∈ hexDigits) :
    scriptEscape.lost (payloadText sha256 envelope records).toList =
      (payloadTexts envelope records).any scriptEscape.lost := by
  have hdevice : (texts (optStr envelope.sourceDeviceId)).any scriptEscape.lost =
      scriptEscape.lost (envelope.sourceDeviceId.getD "").toList := by
    cases envelope.sourceDeviceId with
    | none => rfl
    | some s => simp [optStr, texts]
  have hdigest : scriptEscape.lost (payloadDigest sha256 (records.map recordLine)).toList = false :=
    lost_of_mem (hhex _) (by decide)
  have hheader : (texts (.obj (headerData sha256 envelope records))).any scriptEscape.lost =
      (scriptEscape.lost envelope.schemaVersion.toList ||
        (scriptEscape.lost (envelope.sourceDeviceId.getD "").toList ||
          scriptEscape.lost envelope.generatedAt.toList)) := by
    have hfixed : ∀ s ∈ headerTexts, scriptEscape.lost s.toList = false := by decide
    simp only [headerTexts, List.forall_mem_cons] at hfixed
    simp only [headerData, texts, textsPairs, List.any_cons, List.any_append, List.any_nil, hfixed,
      hdevice, hdigest, lost_kindCounts, Bool.false_or, Bool.or_false, List.nil_append,
      List.cons_append]
  have hrecord : ∀ r : ExchangeRecord,
      (texts (.obj (("kind", .str r.kind.key) :: r.data))).any scriptEscape.lost =
        (textsPairs r.data).any scriptEscape.lost := by
    intro r
    have hkind : scriptEscape.lost "kind".toList = false := by decide
    simp only [texts, textsPairs, List.any_cons, List.any_append, List.any_nil, hkind,
      lost_kindKey, Bool.false_or]
  rw [Escaping.lost, payloadText_toList, foreign_losing.join, List.any_flatMap, payloadValues,
    List.any_cons, hheader, payloadTexts, List.any_append, List.any_map]
  simp only [Function.comp_def, hrecord, List.any_flatMap, List.any_cons, List.any_nil,
    Bool.or_false]
  rfl

/-! ## A bundle that survives -/

/-- Whatever the form sends, the upload route has the exported text again, its digest is the
header's, and it hands the exported records to the merge. -/
structure Survives (sha256 : String → String) (envelope : Envelope)
    (records : List ExchangeRecord) : Prop where
  canonical : ∀ sent : String,
    Submitted (recover (embed (payloadText sha256 envelope records))).toList sent.toList →
      canonical sent = payloadText sha256 envelope records
  digest : ∀ sent : String,
    Submitted (recover (embed (payloadText sha256 envelope records))).toList sent.toList →
      ∀ rv : Receiver, rv.sha256 = sha256 → ¬maxBytes < sent.utf8ByteSize →
        UploadRequest.header rv ⟨true, sent⟩ = .ok (headerData sha256 envelope records)
  handed : ∀ sent : String,
    Submitted (recover (embed (payloadText sha256 envelope records))).toList sent.toList →
      ∀ rv : Receiver, rv.sha256 = sha256 → ¬maxBytes < sent.utf8ByteSize →
        schemaVersionOk (.str envelope.schemaVersion) rv.schemaVersion = true →
        (∀ r ∈ records, r.FieldRules) → (records.map ExchangeRecord.key).Nodup →
          (Ingest.upload ⟨true, sent⟩).accepted rv = some
            ⟨.int formatVersion, envelope.schemaVersion, optStr envelope.sourceDeviceId, records⟩

/-- The gates of the upload route on a text with the lines of the payload. -/
theorem header_of_lines {rv : Receiver} {sent : String}
    (hlines : splitLf sent = serializeExchange rv.sha256 envelope records)
    (hsize : ¬maxBytes < sent.utf8ByteSize) :
    UploadRequest.header rv ⟨true, sent⟩ = .ok (headerData rv.sha256 envelope records) := by
  have hdigest : Lib.Json.valueAt "payload_sha256" (headerData rv.sha256 envelope records) =
      .str (payloadDigest rv.sha256 (records.map recordLine)) :=
    valueAt_header (m := envelope.metadata) (by simp [Metadata.header])
  unfold UploadRequest.header
  rw [if_neg (by simp), if_neg hsize, hlines, serializeExchange]
  simp only [Lib.Json.loads_dumps, hdigest, isStr, decide_true, if_true]

theorem survives_of_lines (hlines : ∀ sent : String,
    Submitted (recover (embed (payloadText sha256 envelope records))).toList sent.toList →
      canonical sent = payloadText sha256 envelope records) : Survives sha256 envelope records := by
  have hsplit : ∀ sent : String,
      Submitted (recover (embed (payloadText sha256 envelope records))).toList sent.toList →
        splitLf sent = serializeExchange sha256 envelope records := fun sent hsent => by
    rw [splitLf_canonical (hlines sent hsent) cr_notMem_payload, splitLf_payload]
  refine ⟨hlines, ?_, ?_⟩
  · rintro sent hsent rv rfl hsize
    exact header_of_lines (hsplit sent hsent) hsize
  · rintro sent hsent rv rfl hsize hschema hrules hdistinct
    have hback : WrittenBack rv.sha256 envelope.metadata records := written_back hrules hdistinct
    have hparsed := hback.parsed
    rw [serialize_metadata] at hparsed
    have hfile : headerSchema (headerData rv.sha256 envelope records) =
        .str envelope.schemaVersion := by
      simp [headerSchema, Lib.Json.lookup, headerData]
    show acceptedUpload rv (splitLf sent) _ = _
    rw [header_of_lines (hsplit sent hsent) hsize, acceptedUpload, hfile, if_pos hschema,
      hsplit sent hsent, hparsed]
    rfl

theorem recover_toList : (recover (embed (payloadText sha256 envelope records))).toList =
    scriptEscape.unescape (scriptEscape.escape (payloadText sha256 envelope records).toList) := by
  rw [recover, embed, String.toList_ofList, String.toList_ofList]

/-- The page gives the payload back exactly where it misses no match in one of its texts. -/
theorem recover_iff (hhex : ∀ s, ∀ c ∈ (sha256 s).toList, c ∈ hexDigits) :
    (recover (embed (payloadText sha256 envelope records))).toList =
      (payloadText sha256 envelope records).toList ↔
        ∀ t ∈ payloadTexts envelope records, scriptEscape.lost t = false := by
  rw [recover_toList, scriptEscape.unescape_escape_iff occurs_marked, lost_payload hhex,
    List.any_eq_false]
  simp only [Bool.not_eq_true]

/-- A payload that survives comes out of the page as it went in: no newline of it is a CR. -/
theorem Survives.recovered (h : Survives sha256 envelope records) :
    (recover (embed (payloadText sha256 envelope records))).toList =
      (payloadText sha256 envelope records).toList := by
  have hcr : '\r' ∉ (recover (embed (payloadText sha256 envelope records))).toList := by
    rw [recover_toList]
    intro hmem
    rcases scriptEscape.mem_escape (scriptEscape.mem_unescape hmem) with hmem | hmem
    · exact cr_notMem_payload hmem
    · exact absurd hmem (by decide)
  have hsame := congrArg String.toList (h.canonical _ (Submitted.refl _))
  rwa [MyOriShop.canonical, String.toList_ofList, toLf_of_not_mem hcr] at hsame

/-- **The offline bundle** survives its page exactly where no text of the payload holds `</` and the
letters of `script` with U+017F, U+0130 or U+0131 among them. -/
theorem survives_iff (hhex : ∀ s, ∀ c ∈ (sha256 s).toList, c ∈ hexDigits) (envelope : Envelope)
    (records : List ExchangeRecord) : Survives sha256 envelope records ↔
      ∀ t ∈ payloadTexts envelope records, scriptEscape.lost t = false := by
  rw [← recover_iff hhex]
  constructor
  · exact Survives.recovered
  · intro h
    refine survives_of_lines fun sent hsent => ?_
    rw [h] at hsent
    rw [canonical, hsent.toLf cr_notMem_payload, String.ofList_toList]

/-! ## A customer in a page -/

theorem survives_anna : Survives
    (fun _ => "679d1b504dfd68f8e76c179af5d12f00c9f13a6cff9fc66cd274b23d42ce8cb4") sampleEnvelope
    [customerRecord "Анна</SCRIPT>" "анна</script>"] := by
  refine (survives_iff (fun _ => mem_hexDigits_of_all (by decide)) sampleEnvelope _).mpr ?_
  decide

/-- A name that closes the element with a long s comes back with the mark in it. -/
theorem not_survives : ¬∀ (sha256 : String → String),
    (∀ s, ∀ c ∈ (sha256 s).toList, c ∈ hexDigits) → ∀ envelope records,
      Survives sha256 envelope records := by
  intro h
  have hhex : ∀ _ : String, ∀ c ∈
      "1c1a4057c6cf2a26808aba31b0610f00fa56090d4d9e6c954c1ff4162a1c3c77".toList, c ∈ hexDigits :=
    fun _ => mem_hexDigits_of_all (by decide)
  have hclean := (recover_iff hhex).mp (h _ hhex sampleEnvelope
    [customerRecord "Анна</\u017fcript" "анна</\u017fcript"]).recovered
  revert hclean
  decide

end MyOriShop
