import MyOriShop.Bundle
import MyOriShop.Lib.ScriptData

/-!
# ScriptBlock: the payload's element of the page (`app/routes/offline.py`, `self_upload.html`)

The export route escapes `</script` in the payload and nothing else. A browser nests deeper: inside
a comment another `<script` may open, and then the template's own closing tag only closes that one.

* `payloadBlock` is what stands behind the opening tag of the payload's element.
* `unclosed` on `payloadWords`: a comment that no text ends, with a script tag in it.

Results:
* `reading_scan`: a written value has the level of its strings, and only three delimiters matter.
* `scan_escape`, `occurs_endTag_escape`: the escape takes away every end tag and changes no level.
* `payload_block_iff`: the element ends at the template's closing tag, with the embedded text in it,
  exactly where no comment of the texts is left open with a script tag in it.
-/

namespace MyOriShop

open Lib.Json (Value texts textsPairs dumpChars escapeChar escapeChars escapeChar_frame isFrame
  Plain Calm Reading starts_escapeChars escapeChars_cons)
open Lib.Lines Lib.Replace Lib.ScriptData

variable {sha256 : String → String} {envelope : Envelope} {records : List ExchangeRecord}
  {level : Level} {cs : List Char}

/-! ## A written value -/

/-- The delimiters that a string is written with. -/
def plainDelimiter (c : Char) : Bool := " />".toList.contains c

theorem ne_less_of_isFrame {c : Char} (h : isFrame c = true) : c ≠ '<' := by
  rintro rfl
  exact absurd h (by decide)

/-- Frame characters end no comment. -/
theorem commentEnd_frame {rest : List Char} (hcs : ∀ c ∈ cs, isFrame c = true)
    (hrest : Calm rest) : ¬starts commentEnd ('-' :: (cs ++ rest)) = true := by
  have hgreater : ¬isFrame '>' = true := by decide
  intro h
  have hbehind : starts [is '-', is '>'] (cs ++ rest) = true := (Bool.and_eq_true_iff.mp h).2
  match cs, rest with
  | [], [] => cases hbehind
  | [], c :: rest =>
    have hc : c = '-' := of_decide_eq_true (Bool.and_eq_true_iff.mp hbehind).1
    exact (hrest c rfl).2 hc
  | [_], [] => cases (Bool.and_eq_true_iff.mp hbehind).2
  | [_], c :: rest =>
    have hc : c = '>' :=
      of_decide_eq_true (Bool.and_eq_true_iff.mp (Bool.and_eq_true_iff.mp hbehind).2).1
    exact hgreater (hc ▸ (hrest c rfl).1)
  | _ :: c :: cs, rest =>
    have hc : c = '>' :=
      of_decide_eq_true (Bool.and_eq_true_iff.mp (Bool.and_eq_true_iff.mp hbehind).2).1
    exact hgreater (hc ▸ hcs c (List.mem_cons_of_mem _ List.mem_cons_self))

/-- Frame characters, and no dash behind them. -/
theorem scan_frame {rest : List Char} (hcs : ∀ c ∈ cs, isFrame c = true) (hrest : Calm rest) :
    scan delimiter level (cs ++ rest) = scan delimiter level rest := by
  induction cs with
  | nil => rfl
  | cons c cs ih =>
    obtain ⟨hc, hbehind⟩ := List.forall_mem_cons.mp hcs
    rw [← ih hbehind, List.cons_append]
    by_cases hdash : c = '-'
    · subst hdash
      rw [scan, next_dash (commentEnd_frame hbehind hrest)]
    · exact scan_of_ne (ne_less_of_isFrame hc) hdash

/-- Characters that begin no pattern. -/
theorem scan_skip {behind : Char → Bool} {rest : List Char} (hless : '<' ∉ cs) (hdash : '-' ∉ cs) :
    scan behind level (cs ++ rest) = scan behind level rest := by
  induction cs with
  | nil => rfl
  | cons c cs ih =>
    rw [List.mem_cons, not_or] at hless hdash
    rw [List.cons_append, scan_of_ne (Ne.symm hless.1) (Ne.symm hdash.1), ih hless.2 hdash.2]

theorem plain_tag : ∀ q ∈ is '<' :: scriptName, ∀ c, q c = true → Plain c := by
  refine List.forall_mem_cons.mpr ⟨plain_is (by decide), fun q hq => ?_⟩
  obtain ⟨s, hs, rfl⟩ := List.mem_map.mp hq
  have hall : ∀ s ∈ ["sS", "cC", "rR", "iI", "pP", "tT"], s.toList.all (Plain ·) = true := by decide
  exact plain_oneOf (List.all_iff_forall_prop.mp (hall s hs))

theorem delimiter_of_plain {c : Char} (hc : Plain c) : delimiter c = plainDelimiter c := by
  have hall : "\t\n\x0c />".toList = ['\t', '\n', '\x0c', ' ', '/', '>'] := by decide
  have hplain : " />".toList = [' ', '/', '>'] := by decide
  have hne : ∀ d, ¬Plain d → c ≠ d := by
    rintro d hd rfl
    exact hd hc
  simp [delimiter, plainDelimiter, hall, hplain, hne '\t' (by decide), hne '\n' (by decide),
    hne '\x0c' (by decide)]

theorem plain_of_delimiter {c : Char} (h : plainDelimiter c = true) : Plain c := by
  have hall : ∀ c ∈ " />".toList, Plain c := List.all_iff_forall_prop.mp (by decide)
  exact hall c (List.contains_iff_mem.mp h)

/-- A place of a written string is of the kind that it has in the string. -/
theorem next_escapeChars (cs rest : List Char) :
    level.next delimiter (escapeChars cs ++ '"' :: rest) = level.next plainDelimiter cs := by
  have hplain : ∀ s : List Char, (∀ c ∈ s, Plain c) →
      ∀ q ∈ s.map is, ∀ c, q c = true → Plain c := by
    intro s hs q hq
    obtain ⟨d, hd, rfl⟩ := List.mem_map.mp hq
    exact plain_is (hs d hd)
  have hend : starts commentEnd (escapeChars cs ++ '"' :: rest) = starts commentEnd cs :=
    starts_escapeChars (hplain ['-', '-', '>'] (List.all_iff_forall_prop.mp (by decide))) cs rest
  have hstart : starts commentStart (escapeChars cs ++ '"' :: rest) = starts commentStart cs :=
    starts_escapeChars (hplain ['<', '!', '-', '-'] (List.all_iff_forall_prop.mp (by decide)))
      cs rest
  have htag : starts (startTag delimiter) (escapeChars cs ++ '"' :: rest) =
      starts (startTag plainDelimiter) cs := by
    refine Lib.Json.starts_escapeChars_last (by decide) (by decide) (fun c hc => ?_)
      (fun c hc => ?_) rest plain_tag cs
    · exact delimiter_of_plain hc
    · exact Bool.eq_false_iff.mpr fun h => hc (plain_of_delimiter h)
  unfold Level.next
  rw [hend, hstart, htag]

/-- **A written value** has the level of its strings. -/
theorem reading_scan : Reading (scan delimiter) (scan plainDelimiter) where
  frame _ {_ _} hcs hrest := scan_frame hcs hrest
  mark _ {_} _ hc hdash := scan_of_ne (ne_less_of_isFrame hc) hdash
  string level cs rest := by
    induction cs generalizing level with
    | nil => exact scan_of_ne (by decide) (by decide)
    | cons c cs ih =>
      have hnext : level.next delimiter (escapeChars (c :: cs) ++ '"' :: rest) = _ :=
        next_escapeChars (c :: cs) rest
      rw [escapeChars_cons] at hnext ⊢
      rw [scan, ← ih]
      by_cases hc : Plain c
      · rw [show escapeChar c = [c] from hc, List.cons_append, List.nil_append] at hnext ⊢
        rw [scan, hnext]
      · obtain ⟨d, -, tail, htail, hframe⟩ := (escapeChar_frame c).resolve_left hc
        have hless : '<' ∉ escapeChar c := fun h => ne_less_of_isFrame (hframe _ h) rfl
        have hsame : level.next plainDelimiter (c :: cs) = level := by
          refine next_of_ne ?_ ?_
          · rintro rfl
            exact hc (by decide)
          · rintro rfl
            exact hc (by decide)
        rw [scan_skip hless (Lib.Json.dash_notMem_escapeChar hc), hsame]

/-! ## The embedded text -/

theorem scan_mark : scan delimiter level ('<' :: '\\' :: cs) = scan delimiter level cs := by
  have hmark : scan delimiter level ('\\' :: cs) = scan delimiter level cs :=
    scan_of_ne (by decide) (by decide)
  rw [← hmark]
  cases level with
  | data => exact scan_less_data (by simp [starts, commentStart, is])
  | escaped => exact scan_less_escaped (by simp [starts, startTag, scriptName])
  | doubled => exact scan_less_doubled

/-- A pattern that may only begin with `<` does not see the escape behind its first character. -/
theorem starts_cons_escape {q : Char → Bool} {p : Pattern} (hp : ∀ r ∈ p, r '<' = false)
    (c : Char) :
    starts (q :: p) (c :: scriptEscape.escape cs) = starts (q :: p) (c :: cs) := by
  rw [starts, starts, scriptEscape.starts_escape hp]

theorem no_less_tag : ∀ q ∈ scriptName ++ [delimiter], q '<' = false := by
  intro q hq
  rcases List.mem_append.mp hq with hq | hq
  · exact scriptName_letters (by decide) q hq
  · rw [List.mem_singleton.mp hq]
    decide

/-- The escape changes no level. -/
theorem scan_escape : scan delimiter level (scriptEscape.escape cs) = scan delimiter level cs := by
  induction cs generalizing level with
  | nil => rfl
  | cons c cs ih =>
    rw [scriptEscape.escape_cons]
    split_ifs with hmatch
    · -- a match goes on with a slash, which opens nothing
      obtain ⟨rfl, hwide⟩ := hmatch
      have hslash : ∃ cs', cs = '/' :: cs' := by
        cases cs with
        | nil => cases hwide
        | cons d cs' =>
          have hd : d = '/' := of_decide_eq_true (Bool.and_eq_true_iff.mp hwide).1
          exact ⟨cs', by rw [hd]⟩
      obtain ⟨cs', rfl⟩ := hslash
      have hbehind : scan delimiter level ('/' :: cs') = scan delimiter level cs' :=
        scan_of_ne (by decide) (by decide)
      exact (scan_mark.trans ih).trans (hbehind.trans scan_slash.symm)
    · have hend : starts commentEnd (c :: scriptEscape.escape cs) = starts commentEnd (c :: cs) :=
        starts_cons_escape (by decide) c
      have hstart : starts commentStart (c :: scriptEscape.escape cs) =
          starts commentStart (c :: cs) :=
        starts_cons_escape (by decide) c
      have htag : starts (startTag delimiter) (c :: scriptEscape.escape cs) =
          starts (startTag delimiter) (c :: cs) :=
        starts_cons_escape no_less_tag c
      have hnext : level.next delimiter (c :: scriptEscape.escape cs) =
          level.next delimiter (c :: cs) := by
        unfold Level.next
        rw [hend, hstart, htag]
      rw [scan, scan, hnext, ih]

/-- Every end tag is one of the matches. -/
theorem starts_wide_of_endTag (h : starts scriptName cs = true) : starts pyScript cs = true := by
  refine pyScript_of_jsScript ?_
  rwa [show jsScript = scriptName from rfl]

/-- The escape leaves no end tag. -/
theorem occurs_endTag_escape : occurs endTag (scriptEscape.escape cs) = false := by
  induction cs with
  | nil => rfl
  | cons c cs ih =>
    rw [scriptEscape.escape_cons]
    split_ifs with hmatch
    · rw [occurs_cons, occurs_cons, ih]
      simp [endTag, starts, is, scriptEscape]
    · rw [occurs_cons, ih, Bool.or_false, Bool.eq_false_iff]
      intro h
      have hless : ∀ q ∈ is '/' :: scriptName, q '<' = false :=
        List.forall_mem_cons.mpr ⟨by decide, scriptName_letters (by decide)⟩
      rw [endTag, starts_cons_escape hless] at h
      obtain ⟨hc, hname⟩ := Bool.and_eq_true_iff.mp h
      refine hmatch ⟨of_decide_eq_true hc, ?_⟩
      cases cs with
      | nil => cases hname
      | cons d cs =>
        obtain ⟨hd, hname⟩ := Bool.and_eq_true_iff.mp hname
        exact Bool.and_eq_true_iff.mpr ⟨hd, starts_wide_of_endTag hname⟩

/-! ## The texts of a payload -/

/-- The texts of a payload one after another, each with its closing quote. -/
def payloadWords (envelope : Envelope) (records : List ExchangeRecord) : List Char :=
  (payloadTexts envelope records).flatMap fun t => t ++ ['"']

/-- A text that opens and ends nothing. -/
def Neutral (t : List Char) : Prop := '<' ∉ t ∧ '-' ∉ t

instance (t : List Char) : Decidable (Neutral t) := inferInstanceAs (Decidable (_ ∧ _))

theorem Neutral.scan {t : List Char} (h : Neutral t) : scan plainDelimiter level t = level := by
  have hscan : Lib.ScriptData.scan plainDelimiter level (t ++ []) = level := scan_skip h.1 h.2
  rwa [List.append_nil] at hscan

theorem neutral_kindKey (k : Kind) : Neutral k.key.toList := by
  cases k <;> decide

theorem foldl_kindCounts :
    (textsPairs (kindCounts records)).foldl (scan plainDelimiter) level = level := by
  rw [kindCounts]
  generalize (records.map ExchangeRecord.kind).reverse.dedup.reverse = kinds
  induction kinds with
  | nil => rfl
  | cons k kinds ih =>
    have hint : ∀ n : ℤ, texts (.int n) = [] := fun _ => rfl
    rw [List.map_cons, Lib.Json.textsPairs_cons, hint, List.nil_append, List.foldl_cons,
      (neutral_kindKey k).scan, ih]

theorem foldl_records : (records.flatMap fun r =>
    texts (.obj (("kind", .str r.kind.key) :: r.data))).foldl (scan plainDelimiter) level =
      (records.flatMap fun r => textsPairs r.data).foldl (scan plainDelimiter) level := by
  have hkind : Neutral "kind".toList := by decide
  induction records generalizing level with
  | nil => rfl
  | cons r records ih =>
    have htexts : texts (.obj (("kind", .str r.kind.key) :: r.data)) =
        "kind".toList :: r.kind.key.toList :: textsPairs r.data := rfl
    rw [List.flatMap_cons, List.flatMap_cons, List.foldl_append, List.foldl_append, ih, htexts,
      List.foldl_cons, List.foldl_cons, hkind.scan, (neutral_kindKey r.kind).scan]

/-- A payload has the level of its texts. -/
theorem scan_payload (hhex : ∀ s, ∀ c ∈ (sha256 s).toList, c ∈ hexDigits) :
    scan delimiter .data (payloadText sha256 envelope records).toList =
      (payloadTexts envelope records).foldl (scan plainDelimiter) .data := by
  have hdigest : Neutral (payloadDigest sha256 (records.map recordLine)).toList :=
    ⟨fun h => absurd (hhex _ _ h) (by decide), fun h => absurd (hhex _ _ h) (by decide)⟩
  have hfixed : ∀ s ∈ headerTexts, ∀ level, scan plainDelimiter level s.toList = level := by
    have hall : ∀ s ∈ headerTexts, Neutral s.toList := by decide
    exact fun s hs level => (hall s hs).scan
  have hdevice : ∀ level,
      (texts (optStr envelope.sourceDeviceId)).foldl (scan plainDelimiter) level =
        scan plainDelimiter level (envelope.sourceDeviceId.getD "").toList := by
    intro level
    cases envelope.sourceDeviceId <;> rfl
  have hheader : ∀ level, (texts (.obj (headerData sha256 envelope records))).foldl
      (scan plainDelimiter) level =
        [envelope.schemaVersion.toList, (envelope.sourceDeviceId.getD "").toList,
          envelope.generatedAt.toList].foldl (scan plainDelimiter) level := by
    intro level
    simp only [headerTexts, List.forall_mem_cons] at hfixed
    simp only [headerData, texts, textsPairs, List.foldl_cons, List.foldl_append, List.foldl_nil,
      List.nil_append, List.cons_append, hfixed, hdevice, hdigest.scan, foldl_kindCounts]
  have hrecords : ((records.map fun r => Value.obj (("kind", .str r.kind.key) :: r.data)).flatMap
      texts) = records.flatMap fun r => texts (.obj (("kind", .str r.kind.key) :: r.data)) :=
    List.flatMap_map ..
  rw [payloadText_toList, reading_scan.join, scan, payloadValues, List.flatMap_cons, hrecords,
    List.foldl_append, hheader, foldl_records, payloadTexts, List.foldl_append]

/-- A character that no pattern takes ends every match. -/
theorem starts_append_mark {d : Char} : ∀ {p : Pattern} {t l : List Char},
    (∀ q ∈ p, q d = false) → starts p (t ++ d :: l) = starts p t
  | [], _, _, _ => rfl
  | q :: p, [], l, hp => by simp [starts, hp q List.mem_cons_self]
  | q :: p, c :: t, l, hp => by
    rw [List.cons_append, starts, starts,
      starts_append_mark fun q hq => hp q (List.mem_cons_of_mem _ hq)]

theorem no_quote_tag : ∀ q ∈ startTag plainDelimiter, q '"' = false := by
  refine List.forall_mem_cons.mpr ⟨by decide, fun q hq => ?_⟩
  rcases List.mem_append.mp hq with hq | hq
  · exact scriptName_letters (by decide) q hq
  · rw [List.mem_singleton.mp hq]
    decide

/-- A text and its closing quote. -/
theorem scan_word (t l : List Char) : scan plainDelimiter level (t ++ '"' :: l) =
    scan plainDelimiter (scan plainDelimiter level t) l := by
  induction t generalizing level with
  | nil => exact scan_of_ne (by decide) (by decide)
  | cons c t ih =>
    have hend : starts commentEnd (c :: t ++ '"' :: l) = starts commentEnd (c :: t) :=
      starts_append_mark (by decide)
    have hstart : starts commentStart (c :: t ++ '"' :: l) = starts commentStart (c :: t) :=
      starts_append_mark (by decide)
    have htag : starts (startTag plainDelimiter) (c :: t ++ '"' :: l) =
        starts (startTag plainDelimiter) (c :: t) :=
      starts_append_mark no_quote_tag
    have hnext : level.next plainDelimiter (c :: t ++ '"' :: l) =
        level.next plainDelimiter (c :: t) := by
      unfold Level.next
      rw [hend, hstart, htag]
    rw [List.cons_append] at hnext ⊢
    rw [scan, scan, hnext, ih]

theorem scan_words {ts : List (List Char)} :
    scan plainDelimiter level (ts.flatMap fun t => t ++ ['"']) =
      ts.foldl (scan plainDelimiter) level := by
  induction ts generalizing level with
  | nil => rfl
  | cons t ts ih =>
    rw [List.flatMap_cons, List.append_assoc, List.singleton_append, scan_word, ih,
      List.foldl_cons]

/-! ## The element of the payload -/

/-- The page behind the opening tag of the payload's element. -/
def payloadBlock (embedded : String) (rest : List Char) : List Char :=
  embedded.toList ++ ("</script>".toList ++ rest)

/-- The element holds the embedded text and ends at the template's closing tag: what stands behind
it is read as markup. -/
def BlockEnds (embedded : String) (rest : List Char) : Prop :=
  tokenize (.base .data) [] (payloadBlock embedded rest) = .closed embedded.toList rest

/-- No payload holds a NUL, and the escape makes none. -/
theorem nul_notMem_embed :
    '\x00' ∉ scriptEscape.escape (payloadText sha256 envelope records).toList := by
  intro h
  rcases scriptEscape.mem_escape h with h | h
  · rw [payloadText_toList] at h
    rcases mem_joinChars h with h | ⟨l, hl, hc⟩
    · exact absurd h (by decide)
    · obtain ⟨j, -, rfl⟩ := List.mem_map.mp hl
      exact absurd (Lib.Json.dumpChars_ge hc) (by decide)
  · exact absurd h (by decide)

theorem block_ends_iff (hhex : ∀ s, ∀ c ∈ (sha256 s).toList, c ∈ hexDigits) (rest : List Char) :
    BlockEnds (embed (payloadText sha256 envelope records)) rest ↔
      unclosed plainDelimiter (payloadWords envelope records) = false := by
  have hscan : scan delimiter .data
      (scriptEscape.escape (payloadText sha256 envelope records).toList) =
        scan plainDelimiter .data (payloadWords envelope records) := by
    rw [scan_escape, scan_payload hhex, payloadWords, scan_words]
  rw [BlockEnds, payloadBlock, embed, String.toList_ofList,
    tokenize_scan_iff occurs_endTag_escape nul_notMem_embed, hscan, ne_eq, scan_doubled_iff,
    Level.stays, Bool.false_or, Bool.not_eq_true]

/-- **The payload's element** ends at the template's closing tag exactly where its texts, one after
another, leave no comment open with a script tag in it. -/
theorem payload_block_iff (hhex : ∀ s, ∀ c ∈ (sha256 s).toList, c ∈ hexDigits)
    (envelope : Envelope) (records : List ExchangeRecord) (rest : List Char) :
    BlockEnds (embed (payloadText sha256 envelope records)) rest ↔
      unclosed plainDelimiter (payloadWords envelope records) = false :=
  block_ends_iff hhex rest

/-- A comment with a script tag in it that a later text ends. -/
theorem payload_block_anna : BlockEnds (embed (payloadText
    (fun _ => "679d1b504dfd68f8e76c179af5d12f00c9f13a6cff9fc66cd274b23d42ce8cb4") sampleEnvelope
    [customerRecord "<!--<script>" "--></script>"])) "\n    <script>".toList := by
  refine (payload_block_iff (fun _ => mem_hexDigits_of_all (by decide)) sampleEnvelope _
    _).mpr ?_
  decide

/-- One that stays open takes the template's closing tag for its own. -/
theorem not_block_ends : ¬∀ (sha256 : String → String),
    (∀ s, ∀ c ∈ (sha256 s).toList, c ∈ hexDigits) → ∀ envelope records rest,
      BlockEnds (embed (payloadText sha256 envelope records)) rest := by
  intro h
  have hhex : ∀ _ : String, ∀ c ∈
      "679d1b504dfd68f8e76c179af5d12f00c9f13a6cff9fc66cd274b23d42ce8cb4".toList, c ∈ hexDigits :=
    fun _ => mem_hexDigits_of_all (by decide)
  have hends := (block_ends_iff hhex []).mp (h _ hhex sampleEnvelope
    [customerRecord "<!--<script>" "<!--<script>"] [])
  revert hends
  decide

end MyOriShop
