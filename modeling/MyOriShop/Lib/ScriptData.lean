import Mathlib.Data.Bool.AllAny
import MyOriShop.Lib.Replace

/-!
# ScriptData: the tokenizer of HTML inside a script element

Three levels of nesting, with the states between them. `</script` and a delimiter close the element
from the first two; inside a comment that has opened another script element they only close that.

* `State` are the states of the standard: script data, escaped and double escaped (`base`), with one
  or two dashes read (`dash`, `dashDash`), behind `<`, in an end tag, and the others by their names.
* `tokenize` gives the text of the element and what stands behind it.
* `scan` follows the level by what begins at each place of the text: `<!--`, `<script` with a
  delimiter, `-->`.
* `unclosed` says where a text leaves the element on the third level.

Results:
* `scan_step`: the level of every state is the one that `scan` finds.
* `tokenize_closes_iff`: behind a text without end tags, the next one closes the element exactly
  where no comment of the text is left open with a script element in it.
-/

namespace MyOriShop.Lib.ScriptData

open Lib.Replace

/-! ## The tokenizer -/

/-- Script data, script data escaped and script data double escaped. -/
inductive Level where
  | data
  | escaped
  | doubled
  deriving DecidableEq

/-- The letters of a tag's name. -/
abbrev Word := { w : List Char // ∀ c ∈ w, c.isAlpha = true }

def Word.push (w : Word) (c : Char) (h : c.isAlpha = true) : Word :=
  ⟨w.1 ++ [c], fun _ hd =>
    (List.mem_append.mp hd).elim (w.2 _) fun hd => List.mem_singleton.mp hd ▸ h⟩

def Word.empty : Word := ⟨[], fun _ h => absurd h List.not_mem_nil⟩

inductive State where
  | base (level : Level)
  | dash (level : Level)
  | dashDash (level : Level)
  | lessThan (level : Level)
  | endTagOpen (level : Level)
  | endTagName (level : Level) (buffer : Word)
  | escapeStart
  | escapeStartDash
  | doubleEscapeStart (buffer : Word)
  | doubleEscapeEnd (buffer : Word)

/-- `script`, in any case. -/
def scriptName : Pattern := ["sS", "cC", "rR", "iI", "pP", "tT"].map fun s c => s.toList.contains c

/-- What may stand behind the name of a tag. -/
def delimiter (c : Char) : Bool := "\t\n\x0c />".toList.contains c

/-- The text is a match, and nothing else. -/
def fits : Pattern → List Char → Bool
  | [], [] => true
  | p :: ps, c :: cs => p c && fits ps cs
  | _, _ => false

/-- What a character does: a next state and some text, or the end tag of the element. -/
inductive Move where
  | go (s : State) (text : List Char)
  | close
  | attributes

/-- A character is emitted as it is, but for NUL. -/
def emitted (c : Char) : Char := if c = '\x00' then '\ufffd' else c

/-- "Reconsume in": the three base states, behind the text that was held back. -/
def reconsume (held : List Char) : Level → Char → Move
  | .data, c =>
    if c = '<' then .go (.lessThan .data) held else .go (.base .data) (held ++ [emitted c])
  | .escaped, c =>
    if c = '-' then .go (.dash .escaped) (held ++ ['-'])
    else if c = '<' then .go (.lessThan .escaped) held
    else .go (.base .escaped) (held ++ [emitted c])
  | .doubled, c =>
    if c = '-' then .go (.dash .doubled) (held ++ ['-'])
    else if c = '<' then .go (.lessThan .doubled) (held ++ ['<'])
    else .go (.base .doubled) (held ++ [emitted c])

def step : State → Char → Move
  | .base level, c => reconsume [] level c
  | .dash level, c => if c = '-' then .go (.dashDash level) ['-'] else reconsume [] level c
  | .dashDash level, c =>
    if c = '-' then .go (.dashDash level) ['-']
    else if c = '>' then .go (.base .data) ['>']
    else reconsume [] level c
  | .lessThan .data, c =>
    if c = '/' then .go (.endTagOpen .data) []
    else if c = '!' then .go .escapeStart ['<', '!']
    else reconsume ['<'] .data c
  | .lessThan .escaped, c =>
    if c = '/' then .go (.endTagOpen .escaped) []
    else if h : c.isAlpha = true then .go (.doubleEscapeStart (Word.empty.push c h)) ['<', c]
    else reconsume ['<'] .escaped c
  | .lessThan .doubled, c =>
    if c = '/' then .go (.doubleEscapeEnd .empty) ['/'] else reconsume [] .doubled c
  | .endTagOpen level, c =>
    if h : c.isAlpha = true then .go (.endTagName level (Word.empty.push c h)) []
    else reconsume ['<', '/'] level c
  | .endTagName level buffer, c =>
    if delimiter c = true ∧ fits scriptName buffer.1 = true then
      if c = '>' then .close else .attributes
    else if h : c.isAlpha = true then .go (.endTagName level (buffer.push c h)) []
    else reconsume ('<' :: '/' :: buffer.1) level c
  | .escapeStart, c => if c = '-' then .go .escapeStartDash ['-'] else reconsume [] .data c
  | .escapeStartDash, c =>
    if c = '-' then .go (.dashDash .escaped) ['-'] else reconsume [] .data c
  | .doubleEscapeStart buffer, c =>
    if delimiter c = true then
      .go (.base (if fits scriptName buffer.1 = true then .doubled else .escaped)) [c]
    else if h : c.isAlpha = true then .go (.doubleEscapeStart (buffer.push c h)) [c]
    else reconsume [] .escaped c
  | .doubleEscapeEnd buffer, c =>
    if delimiter c = true then
      .go (.base (if fits scriptName buffer.1 = true then .escaped else .doubled)) [c]
    else if h : c.isAlpha = true then .go (.doubleEscapeEnd (buffer.push c h)) [c]
    else reconsume [] .doubled c

/-- What is held back until it is known to be no end tag. -/
def State.held : State → List Char
  | .lessThan .data | .lessThan .escaped => ['<']
  | .endTagOpen _ => ['<', '/']
  | .endTagName _ buffer => '<' :: '/' :: buffer.1
  | _ => []

/-- How the element ends: with a closing tag, with one that goes on, or not at all. -/
inductive Ending where
  | closed (text rest : List Char)
  | attributes (text rest : List Char)
  | eof (text : List Char)
  deriving DecidableEq

/-- The element from a state on, behind the text so far. -/
def tokenize : State → List Char → List Char → Ending
  | s, text, [] => .eof (text ++ s.held)
  | s, text, c :: cs =>
    match step s c with
    | .go s' more => tokenize s' (text ++ more) cs
    | .close => .closed text cs
    | .attributes => .attributes text cs

/-! ## The level of a place -/

/-- `<!--` -/
def commentStart : Pattern := [is '<', is '!', is '-', is '-']

/-- `-->` -/
def commentEnd : Pattern := [is '-', is '-', is '>']

/-- `<script` and what may follow it. -/
def startTag (behind : Char → Bool) : Pattern := is '<' :: (scriptName ++ [behind])

/-- `</script` -/
def endTag : Pattern := is '<' :: is '/' :: scriptName

/-- The level behind a place of the text. -/
def Level.next (behind : Char → Bool) (level : Level) (cs : List Char) : Level :=
  if starts commentEnd cs = true then .data
  else match level with
    | .data => if starts commentStart cs = true then .escaped else .data
    | .escaped => if starts (startTag behind) cs = true then .doubled else .escaped
    | .doubled => .doubled

/-- The level behind a text. -/
def scan (behind : Char → Bool) : Level → List Char → Level
  | level, [] => level
  | level, c :: cs => scan behind (level.next behind (c :: cs)) cs

/-- A comment begins here that does not end, and a script element begins in it. -/
def opensHere (behind : Char → Bool) (cs : List Char) : Bool :=
  starts commentStart cs && !occurs commentEnd cs && occurs (startTag behind) cs

/-- There is such a comment. -/
def unclosed (behind : Char → Bool) : List Char → Bool := anyTail (opensHere behind)

/-! ## The level of a state -/

def State.level : State → Level
  | .base level | .dash level | .dashDash level | .lessThan level | .endTagOpen level
  | .endTagName level _ => level
  | .escapeStart | .escapeStartDash => .data
  | .doubleEscapeStart _ => .escaped
  | .doubleEscapeEnd _ => .doubled

/-- What has been read of a pattern that may still come. -/
def State.pending : State → List Char
  | .base _ => []
  | .dash _ => ['-']
  | .dashDash _ => ['-', '-']
  | .lessThan _ => ['<']
  | .endTagOpen _ => ['<', '/']
  | .endTagName _ buffer | .doubleEscapeEnd buffer => '<' :: '/' :: buffer.1
  | .escapeStart => ['<', '!']
  | .escapeStartDash => ['<', '!', '-']
  | .doubleEscapeStart buffer => '<' :: buffer.1

/-! ## Following the level -/

variable {behind : Char → Bool} {level : Level} {c : Char} {cs l : List Char}

theorem next_of_ne (hless : c ≠ '<') (hdash : c ≠ '-') : level.next behind (c :: cs) = level := by
  cases level <;> simp [Level.next, starts, commentStart, commentEnd, startTag, is, hless, hdash]

theorem scan_of_ne (hless : c ≠ '<') (hdash : c ≠ '-') :
    scan behind level (c :: cs) = scan behind level cs := by
  rw [scan, next_of_ne hless hdash]

theorem ne_of_isAlpha {d : Char} (h : c.isAlpha = true) (hd : d.isAlpha = false) : c ≠ d := by
  rintro rfl
  rw [h] at hd
  cases hd

theorem next_dash (h : ¬starts commentEnd ('-' :: cs) = true) :
    level.next behind ('-' :: cs) = level := by
  cases level <;> simp [Level.next, starts, commentStart, startTag, is, h]

/-- Letters change nothing. -/
theorem scan_letters : ∀ {b : List Char}, (∀ c ∈ b, c.isAlpha = true) →
    scan behind level (b ++ cs) = scan behind level cs
  | [], _ => rfl
  | c :: b, h => by
    obtain ⟨hc, hb⟩ := List.forall_mem_cons.mp h
    rw [List.cons_append, scan_of_ne (ne_of_isAlpha hc rfl) (ne_of_isAlpha hc rfl),
      scan_letters hb]

/-- A dash before another character. -/
theorem scan_dash (hdash : c ≠ '-') :
    scan behind level ('-' :: c :: cs) = scan behind level (c :: cs) := by
  rw [scan]
  congr 1
  cases level <;> simp [Level.next, starts, commentStart, commentEnd, startTag, is, hdash]

/-- Two dashes before another character. -/
theorem scan_dashDash (hend : c ≠ '>') (hdash : c ≠ '-') :
    scan behind level ('-' :: '-' :: c :: cs) = scan behind level (c :: cs) := by
  rw [scan, ← scan_dash hdash]
  congr 1
  cases level <;> simp [Level.next, starts, commentStart, commentEnd, startTag, is, hend]

/-- The third dash takes the place of the first. -/
theorem scan_dashes : scan behind level ('-' :: '-' :: '-' :: cs) =
    scan behind level ('-' :: '-' :: cs) := by
  rw [scan]
  congr 1
  cases level <;> simp [Level.next, starts, commentStart, commentEnd, startTag, is]

/-- The end of a comment. -/
theorem scan_commentEnd : scan behind level ('-' :: '-' :: '>' :: cs) = scan behind .data cs := by
  have hhere : level.next behind ('-' :: '-' :: '>' :: cs) = .data := by
    simp [Level.next, starts, commentEnd, is]
  have hbehind : Level.data.next behind ('-' :: '>' :: cs) = .data := by
    simp [Level.next, starts, commentEnd, commentStart, is]
  rw [scan, hhere, scan, hbehind, scan_of_ne (by decide) (by decide)]

/-- The beginning of a comment. -/
theorem scan_commentStart : scan behind .data ('<' :: '!' :: '-' :: '-' :: cs) =
    scan behind .escaped ('-' :: '-' :: cs) := by
  have hhere : Level.data.next behind ('<' :: '!' :: '-' :: '-' :: cs) = .escaped := by
    simp [Level.next, starts, commentEnd, commentStart, is]
  rw [scan, hhere, scan_of_ne (by decide) (by decide)]

/-- A tag opens nothing outside a comment. -/
theorem scan_less_data (h : ¬starts commentStart ('<' :: cs) = true) :
    scan behind .data ('<' :: cs) = scan behind .data cs := by
  rw [scan]
  congr 1
  simp [Level.next, h]

theorem scan_less_escaped (h : ¬starts (startTag behind) ('<' :: cs) = true) :
    scan behind .escaped ('<' :: cs) = scan behind .escaped cs := by
  rw [scan]
  congr 1
  simp [Level.next, starts, commentEnd, is, h]

theorem scan_less_doubled : scan behind .doubled ('<' :: cs) = scan behind .doubled cs := by
  have hhere : Level.doubled.next behind ('<' :: cs) = .doubled := by
    simp [Level.next, starts, commentEnd, is]
  rw [scan, hhere]

/-- An end tag opens nothing. -/
theorem scan_slash : scan behind level ('<' :: '/' :: cs) = scan behind level cs := by
  have hslash : scan behind level ('/' :: cs) = scan behind level cs :=
    scan_of_ne (by decide) (by decide)
  rw [← hslash]
  cases level with
  | data => exact scan_less_data (by simp [starts, commentStart, is])
  | escaped => exact scan_less_escaped (by simp [starts, startTag, scriptName])
  | doubled => exact scan_less_doubled

/-! ## The steps -/

/-- A step keeps the level and the text. -/
structure Follows (s : State) (c : Char) (s' : State) (text : List Char) : Prop where
  scanned : ∀ cs, scan delimiter s.level (s.pending ++ c :: cs) =
    scan delimiter s'.level (s'.pending ++ cs)
  pending : s'.pending <:+ s.pending ++ [c]
  text : c ≠ '\x00' → s.held ++ [c] = text ++ s'.held

variable {s s' : State} {text : List Char}

/-- A character that is read again in a base state. -/
theorem reconsume_follows (hscan : ∀ cs,
    scan delimiter s.level (s.pending ++ c :: cs) = scan delimiter s.level (c :: cs)) :
    ∃ s' text, reconsume s.held s.level c = .go s' text ∧ Follows s c s' text := by
  have hone : [c] <:+ s.pending ++ [c] := List.suffix_append _ _
  by_cases hless : c = '<'
  · subst hless
    cases hlevel : s.level with
    | data =>
      refine ⟨.lessThan .data, _, rfl, fun cs => ?_, hone, fun _ => rfl⟩
      rw [hscan, hlevel]
      rfl
    | escaped =>
      refine ⟨.lessThan .escaped, _, rfl, fun cs => ?_, hone, fun _ => rfl⟩
      rw [hscan, hlevel]
      rfl
    | doubled =>
      refine ⟨.lessThan .doubled, _, rfl, fun cs => ?_, hone, fun _ => (List.append_nil _).symm⟩
      rw [hscan, hlevel]
      rfl
  by_cases hdash : c = '-' ∧ s.level ≠ .data
  · obtain ⟨rfl, hlevel⟩ := hdash
    refine ⟨.dash s.level, s.held ++ ['-'], ?_, fun cs => hscan cs, hone,
      fun _ => (List.append_nil _).symm⟩
    cases h : s.level with
    | data => exact absurd h hlevel
    | escaped | doubled => rfl
  · refine ⟨.base s.level, s.held ++ [emitted c], ?_, fun cs => ?_, List.nil_suffix, fun hc => ?_⟩
    · cases hlevel : s.level with
      | data => simp [reconsume, hless]
      | escaped | doubled =>
        have hdash : c ≠ '-' := fun hc => hdash ⟨hc, by simp [hlevel]⟩
        simp [reconsume, hless, hdash]
    · rw [hscan]
      by_cases hc : c = '-'
      · have hlevel : s.level = .data := by
          by_contra h
          exact hdash ⟨hc, h⟩
        subst hc
        have hhere : Level.data.next delimiter ('-' :: cs) = .data := by
          simp [Level.next, starts, commentStart, is]
        rw [hlevel, scan, hhere]
        rfl
      · exact scan_of_ne hless hc
    · have hsame : emitted c = c := if_neg hc
      rw [hsame]
      exact (List.append_nil _).symm

theorem starts_append {q : Char → Bool} : ∀ {p : Pattern} {b : List Char},
    (∀ d ∈ p, d c = false) → (∀ d ∈ b, q d = false) →
      starts (p ++ [q]) (b ++ c :: cs) = (fits p b && q c)
  | [], [], _, _ => by simp [starts, fits]
  | [], d :: b, _, hb => by simp [starts, fits, hb d List.mem_cons_self]
  | d :: p, [], hp, _ => by simp [starts, fits, hp d List.mem_cons_self]
  | d :: p, e :: b, hp, hb => by
    rw [List.cons_append, List.cons_append, starts, fits, starts_append
      (fun d hd => hp d (List.mem_cons_of_mem _ hd)) fun d hd => hb d (List.mem_cons_of_mem _ hd),
      Bool.and_assoc]

theorem starts_of_fits : ∀ {p : Pattern} {b : List Char}, fits p b = true →
    starts p (b ++ cs) = true
  | [], [], _ => rfl
  | d :: p, e :: b, h => by
    obtain ⟨hd, hb⟩ := Bool.and_eq_true_iff.mp h
    exact Bool.and_eq_true_iff.mpr ⟨hd, starts_of_fits hb⟩

/-- The letters of a name are letters. -/
theorem scriptName_letters (hc : c.isAlpha = false) : ∀ p ∈ scriptName, p c = false := by
  intro p hp
  obtain ⟨letters, hletters, rfl⟩ := List.mem_map.mp hp
  rw [Bool.eq_false_iff]
  intro h
  have hall : ∀ s ∈ ["sS", "cC", "rR", "iI", "pP", "tT"], s.toList.all Char.isAlpha = true := by
    decide
  rw [List.all_eq_true.mp (hall letters hletters) c (List.contains_iff_mem.mp h)] at hc
  cases hc

theorem isAlpha_of_delimiter (h : delimiter c = true) : c.isAlpha = false := by
  have hall : ∀ c ∈ "\t\n\x0c />".toList, c.isAlpha = false :=
    List.all_iff_forall_prop.mp (by decide)
  exact hall c (List.contains_iff_mem.mp h)

theorem delimiter_letter (hc : c.isAlpha = true) : delimiter c = false := by
  rw [Bool.eq_false_iff]
  intro h
  rw [isAlpha_of_delimiter h] at hc
  cases hc

theorem delimiter_ne {d : Char} (hc : delimiter c = true) (hd : delimiter d = false) : c ≠ d := by
  rintro rfl
  rw [hc] at hd
  cases hd

/-- A start tag is known by the character behind its name. -/
theorem starts_startTag {b : List Char} (hb : ∀ c ∈ b, c.isAlpha = true) (hc : c.isAlpha = false) :
    starts (startTag delimiter) ('<' :: (b ++ c :: cs)) = (fits scriptName b && delimiter c) := by
  rw [startTag, starts,
    starts_append (scriptName_letters hc) fun d hd => delimiter_letter (hb d hd)]
  rfl

/-- So is an end tag: the text holds one. -/
theorem occurs_endTag {b : List Char} (hb : fits scriptName b = true) :
    occurs endTag ('<' :: '/' :: (b ++ cs)) = true := by
  have hhere : starts endTag ('<' :: '/' :: (b ++ cs)) = true := by
    simp [endTag, starts, is, starts_of_fits hb]
  rw [occurs, anyTail, hhere, Bool.true_or]

/-- Behind `<`. -/
theorem lessThan_follows (level : Level) :
    ∃ s' text, step (.lessThan level) c = .go s' text ∧ Follows (.lessThan level) c s' text := by
  cases level with
  | data =>
    rw [step]
    split_ifs with hslash hbang
    · subst hslash
      exact ⟨_, _, rfl, fun _ => rfl, List.suffix_rfl, fun _ => rfl⟩
    · subst hbang
      exact ⟨_, _, rfl, fun _ => rfl, List.suffix_rfl, fun _ => rfl⟩
    · refine reconsume_follows (s := .lessThan .data) fun cs => ?_
      exact scan_less_data (by simp [starts, commentStart, is, hbang])
  | escaped =>
    rw [step]
    split_ifs with hslash hletter
    · subst hslash
      exact ⟨_, _, rfl, fun _ => rfl, List.suffix_rfl, fun _ => rfl⟩
    · exact ⟨_, _, rfl, fun _ => rfl, List.suffix_rfl, fun _ => rfl⟩
    · refine reconsume_follows (s := .lessThan .escaped) fun cs => ?_
      have hname : fits scriptName [] = false := rfl
      have htag : starts (startTag delimiter) ('<' :: ([] ++ c :: cs)) = _ :=
        starts_startTag (List.forall_mem_nil _) (by simpa using hletter)
      rw [hname, Bool.false_and] at htag
      exact scan_less_escaped (Bool.eq_false_iff.mp htag)
  | doubled =>
    rw [step]
    split_ifs with hslash
    · subst hslash
      exact ⟨_, _, rfl, fun _ => rfl, List.suffix_rfl, fun _ => rfl⟩
    · exact reconsume_follows (s := .lessThan .doubled) fun cs => scan_less_doubled

/-- A name and the delimiter behind it. -/
theorem scan_behind (buffer : Word) (hc : delimiter c = true) :
    scan behind level (buffer.1 ++ c :: cs) = scan behind level cs := by
  rw [scan_letters buffer.2, scan_of_ne (delimiter_ne hc rfl) (delimiter_ne hc rfl)]

/-- In the name of a tag that may open a script element in a comment. -/
theorem doubleEscapeStart_follows (buffer : Word) : ∃ s' text,
    step (.doubleEscapeStart buffer) c = .go s' text ∧
      Follows (.doubleEscapeStart buffer) c s' text := by
  have htag : ∀ cs, c.isAlpha = false → starts (startTag delimiter)
      ('<' :: (buffer.1 ++ c :: cs)) = (fits scriptName buffer.1 && delimiter c) :=
    fun cs hc => starts_startTag buffer.2 hc
  rw [step]
  split_ifs with hdelimiter hname hletter
  · have hc := isAlpha_of_delimiter hdelimiter
    refine ⟨_, _, rfl, fun cs => ?_, List.nil_suffix, fun _ => rfl⟩
    have hnext : Level.escaped.next delimiter ('<' :: (buffer.1 ++ c :: cs)) = .doubled := by
      simp [Level.next, htag cs hc, hname, hdelimiter, starts, commentEnd, is]
    have hscan : scan delimiter .escaped ('<' :: (buffer.1 ++ c :: cs)) =
        scan delimiter .doubled (buffer.1 ++ c :: cs) := by
      rw [scan, hnext]
    exact hscan.trans (scan_behind buffer hdelimiter)
  · have hc := isAlpha_of_delimiter hdelimiter
    refine ⟨_, _, rfl, fun cs => ?_, List.nil_suffix, fun _ => rfl⟩
    have hless : scan delimiter .escaped ('<' :: (buffer.1 ++ c :: cs)) =
        scan delimiter .escaped (buffer.1 ++ c :: cs) :=
      scan_less_escaped (by simp [htag cs hc, hname])
    exact hless.trans (scan_behind buffer hdelimiter)
  · exact ⟨_, _, rfl, fun cs => by simp [State.pending, Word.push, State.level],
      by simp [State.pending, Word.push], fun _ => rfl⟩
  · refine reconsume_follows (s := .doubleEscapeStart buffer) fun cs => ?_
    have hless : scan delimiter .escaped ('<' :: (buffer.1 ++ c :: cs)) =
        scan delimiter .escaped (buffer.1 ++ c :: cs) :=
      scan_less_escaped (by simp [htag cs (by simpa using hletter), hdelimiter])
    exact hless.trans (scan_letters buffer.2)

/-- Without an end tag in the text, every step stays in the element. -/
theorem step_follows (s : State) (hend : occurs endTag (s.pending ++ c :: cs) = false) :
    ∃ s' text, step s c = .go s' text ∧ Follows s c s' text := by
  cases s with
  | base level => exact reconsume_follows (s := .base level) fun _ => rfl
  | dash level =>
    rw [step]
    split_ifs with hdash
    · subst hdash
      exact ⟨_, _, rfl, fun _ => rfl, List.suffix_rfl, fun _ => rfl⟩
    · exact reconsume_follows (s := .dash level) fun cs => scan_dash hdash
  | dashDash level =>
    rw [step]
    split_ifs with hdash hgreater
    · subst hdash
      exact ⟨_, _, rfl, fun cs => scan_dashes, List.suffix_cons .., fun _ => rfl⟩
    · subst hgreater
      exact ⟨_, _, rfl, fun cs => scan_commentEnd, List.nil_suffix, fun _ => rfl⟩
    · exact reconsume_follows (s := .dashDash level) fun cs => scan_dashDash hgreater hdash
  | lessThan level => exact lessThan_follows level
  | endTagOpen level =>
    rw [step]
    split_ifs with hletter
    · refine ⟨_, _, rfl, fun cs => rfl, List.suffix_rfl, fun _ => rfl⟩
    · exact reconsume_follows (s := .endTagOpen level) fun cs => scan_slash
  | endTagName level buffer =>
    have hopen : ¬(delimiter c = true ∧ fits scriptName buffer.1 = true) := fun h => by
      have hoccurs : occurs endTag ('<' :: '/' :: (buffer.1 ++ c :: cs)) = true :=
        occurs_endTag h.2
      exact absurd (hoccurs.symm.trans hend) (by decide)
    rw [step, if_neg hopen]
    split_ifs with hletter
    · exact ⟨_, _, rfl, fun cs => by simp [State.pending, Word.push, State.level],
        by simp [State.pending, Word.push], fun _ => by simp [State.held, Word.push]⟩
    · refine reconsume_follows (s := .endTagName level buffer) fun cs => ?_
      exact scan_slash.trans (scan_letters buffer.2)
  | escapeStart =>
    rw [step]
    split_ifs with hdash
    · subst hdash
      exact ⟨_, _, rfl, fun _ => rfl, List.suffix_rfl, fun _ => rfl⟩
    · refine reconsume_follows (s := .escapeStart) fun cs => ?_
      have hless : scan delimiter .data ('<' :: '!' :: c :: cs) =
          scan delimiter .data ('!' :: c :: cs) :=
        scan_less_data (by simp [starts, commentStart, is, hdash])
      exact hless.trans (scan_of_ne (by decide) (by decide))
  | escapeStartDash =>
    rw [step]
    split_ifs with hdash
    · subst hdash
      refine ⟨_, _, rfl, fun cs => scan_commentStart, ?_, fun _ => rfl⟩
      exact ⟨['<', '!'], rfl⟩
    · refine reconsume_follows (s := .escapeStartDash) fun cs => ?_
      have hless : scan delimiter .data ('<' :: '!' :: '-' :: c :: cs) =
          scan delimiter .data ('!' :: '-' :: c :: cs) :=
        scan_less_data (by simp [starts, commentStart, is, hdash])
      exact hless.trans ((scan_of_ne (by decide) (by decide)).trans (scan_dash hdash))
  | doubleEscapeStart buffer => exact doubleEscapeStart_follows buffer
  | doubleEscapeEnd buffer =>
    rw [step]
    split_ifs with hdelimiter hname hletter
    · have hoccurs : occurs endTag ('<' :: '/' :: (buffer.1 ++ c :: cs)) = true :=
        occurs_endTag hname
      exact absurd (hoccurs.symm.trans hend) (by decide)
    · refine ⟨_, _, rfl, fun cs => ?_, List.nil_suffix, fun _ => rfl⟩
      exact scan_slash.trans (scan_behind buffer hdelimiter)
    · exact ⟨_, _, rfl, fun cs => by simp [State.pending, Word.push, State.level],
        by simp [State.pending, Word.push], fun _ => rfl⟩
    · refine reconsume_follows (s := .doubleEscapeEnd buffer) fun cs => ?_
      exact scan_slash.trans (scan_letters buffer.2)

/-! ## Whole texts -/

theorem starts_letters {q : Char → Bool} : ∀ {p : Pattern} {b : List Char},
    (∀ d ∈ b, q d = false) → starts (p ++ [q]) b = false
  | [], [], _ => rfl
  | [], d :: b, hb => by simp [starts, hb d List.mem_cons_self]
  | d :: p, [], _ => rfl
  | d :: p, e :: b, hb => by
    rw [List.cons_append, starts, starts_letters fun d hd => hb d (List.mem_cons_of_mem _ hd),
      Bool.and_false]

/-- A pattern that is not complete changes nothing. -/
theorem scan_pending (s : State) : scan delimiter s.level s.pending = s.level := by
  have hletters : ∀ {level : Level} (b : Word), scan delimiter level b.1 = level := by
    intro level b
    have hscan : scan delimiter level (b.1 ++ []) = scan delimiter level [] := scan_letters b.2
    rwa [List.append_nil] at hscan
  cases s with
  | base level => rfl
  | dash level => cases level <;> rfl
  | dashDash level => cases level <;> rfl
  | lessThan level => cases level <;> rfl
  | endTagOpen level => exact scan_slash
  | endTagName level buffer => exact scan_slash.trans (hletters buffer)
  | escapeStart => rfl
  | escapeStartDash => rfl
  | doubleEscapeStart buffer =>
    have hless : scan delimiter .escaped ('<' :: buffer.1) = scan delimiter .escaped buffer.1 := by
      refine scan_less_escaped ?_
      rw [startTag, starts, starts_letters fun d hd => delimiter_letter (buffer.2 d hd)]
      simp
    exact hless.trans (hletters buffer)
  | doubleEscapeEnd buffer => exact scan_slash.trans (hletters buffer)

theorem occurs_of_suffix {p : Pattern} (h : l <:+ cs) (hcs : occurs p cs = false) :
    occurs p l = false := by
  obtain ⟨front, rfl⟩ := h
  induction front with
  | nil => exact hcs
  | cons c front ih =>
    rw [List.cons_append, occurs, anyTail, Bool.or_eq_false_iff] at hcs
    exact ih hcs.2

/-- **The tokenizer stays in the element** along a text without end tags, and finds its level. -/
theorem tokenize_follows {s : State} {text : List Char}
    (hend : occurs endTag (s.pending ++ cs) = false) (hnul : '\x00' ∉ cs) :
    ∃ s' text', text ++ s.held ++ cs = text' ++ s'.held ∧
      (∀ rest, tokenize s text (cs ++ rest) = tokenize s' text' rest) ∧
      scan delimiter s.level (s.pending ++ cs) = s'.level := by
  induction cs generalizing s text with
  | nil => exact ⟨s, text, List.append_nil _, fun _ => rfl, by rw [List.append_nil, scan_pending]⟩
  | cons c cs ih =>
    obtain ⟨hc, hcs⟩ := not_or.mp (mt List.mem_cons.mpr hnul)
    obtain ⟨s₁, more, hstep, hfollows⟩ := step_follows s hend
    have hsuffix : s₁.pending ++ cs <:+ s.pending ++ c :: cs := by
      obtain ⟨front, hfront⟩ := hfollows.pending
      refine ⟨front, ?_⟩
      rw [← List.append_assoc, hfront, List.append_assoc, List.singleton_append]
    obtain ⟨s', text', htext, hruns, hlevel⟩ :=
      @ih s₁ (text ++ more) (occurs_of_suffix hsuffix hend) hcs
    refine ⟨s', text', ?_, fun rest => ?_, (hfollows.scanned cs).trans hlevel⟩
    · have hheld : s.held ++ [c] = more ++ s₁.held := hfollows.text (Ne.symm hc)
      rw [← htext, List.append_assoc text more, ← hheld]
      simp
    · rw [List.cons_append, tokenize, hstep]
      exact hruns rest

/-- The text of an element begins with what has been emitted. -/
theorem tokenize_text {s : State} {text t rest : List Char}
    (h : tokenize s text cs = .closed t rest) : text <+: t := by
  induction cs generalizing s text with
  | nil => cases h
  | cons c cs ih =>
    rw [tokenize] at h
    split at h
    · exact (List.prefix_append _ _).trans (ih h)
    · cases h
      exact List.prefix_rfl
    · cases h

/-- What of a `<` is emitted before the next character is known. -/
def Level.early : Level → List Char
  | .doubled => ['<']
  | .data | .escaped => []

/-- A tag begins in every state. -/
theorem step_less (s : State) : step s '<' = .go (.lessThan s.level) (s.held ++ s.level.early) := by
  have hreconsume : ∀ (held : List Char) (level : Level),
      reconsume held level '<' = .go (.lessThan level) (held ++ level.early) := by
    intro held level
    cases level <;> simp [reconsume, Level.early]
  have hdelimiter : delimiter '<' = false := rfl
  have hletter : Char.isAlpha '<' = false := by decide
  cases s with
  | lessThan level => cases level <;> simp [step, hreconsume, State.held, State.level]
  | endTagName level buffer =>
    simp [step, hreconsume, hdelimiter, hletter, State.held, State.level]
  | _ => simp [step, hreconsume, hdelimiter, hletter, State.held, State.level]

/-- The rest of an end tag closes the element, on the first two levels. -/
theorem tokenize_endTag {level : Level} {text rest : List Char} (hlevel : level ≠ .doubled) :
    tokenize (.lessThan level) text (['/', 's', 'c', 'r', 'i', 'p', 't', '>'] ++ rest) =
      .closed text rest := by
  have hfits : fits scriptName ['s', 'c', 'r', 'i', 'p', 't'] = true := by decide
  have hdelimiter : delimiter '>' = true := by decide
  have hletters : ∀ c ∈ ['c', 'r', 'i', 'p', 't'], delimiter c = false :=
    List.all_iff_forall_prop.mp (by decide)
  simp only [List.forall_mem_cons] at hletters
  cases level with
  | data | escaped =>
    simp [tokenize, step, Word.push, Word.empty, hfits, hdelimiter, hletters]
  | doubled => exact absurd rfl hlevel

/-- **An end tag behind a text without end tags** closes the element exactly where the text does not
leave it on the third level. -/
theorem tokenize_scan_iff {rest : List Char} (hend : occurs endTag cs = false)
    (hnul : '\x00' ∉ cs) :
    tokenize (.base .data) [] (cs ++ ("</script>".toList ++ rest)) = .closed cs rest ↔
      scan delimiter .data cs ≠ .doubled := by
  obtain ⟨s, text, htext, hruns, hlevel⟩ :=
    @tokenize_follows cs (.base .data) [] hend hnul
  have hcs : cs = text ++ s.held := htext
  have hscan : scan delimiter .data cs = s.level := hlevel
  have hname : "</script>".toList = ['<', '/', 's', 'c', 'r', 'i', 'p', 't', '>'] := by decide
  rw [hruns, hname, List.cons_append, tokenize, step_less, hscan]
  simp only
  rw [← List.append_assoc, ← hcs]
  cases s.level with
  | data | escaped =>
    rw [Level.early, List.append_nil]
    exact iff_of_true (tokenize_endTag (by decide)) (by decide)
  | doubled =>
    refine iff_of_false (fun hclosed => ?_) (fun h => h rfl)
    have hlength := (tokenize_text hclosed).length_le
    rw [Level.early, List.length_append] at hlength
    exact absurd hlength (by simp)

/-! ## What leaves an element open -/

/-- The text behind leaves this level on the third one by itself. -/
def Level.stays (behind : Char → Bool) : Level → List Char → Bool
  | .data, _ => false
  | .escaped, cs => !occurs commentEnd cs && occurs (startTag behind) cs
  | .doubled, cs => !occurs commentEnd cs

theorem occurs_cons {p : Pattern} : occurs p (c :: cs) = (starts p (c :: cs) || occurs p cs) := rfl

/-- A comment and a tag do not begin at one place. -/
theorem startTag_of_commentStart (h : starts commentStart cs = true) :
    starts (startTag behind) cs = false := by
  cases cs with
  | nil => cases h
  | cons c cs =>
    cases cs with
    | nil => cases (Bool.and_eq_true_iff.mp h).2
    | cons d cs =>
      have hd : d = '!' :=
        of_decide_eq_true (Bool.and_eq_true_iff.mp (Bool.and_eq_true_iff.mp h).2).1
      simp [startTag, scriptName, starts, hd]

/-- The level behind a text is the third one where the text leaves it so, or opens it itself. -/
theorem scan_doubled_iff : scan behind level cs = .doubled ↔
    (level.stays behind cs || unclosed behind cs) = true := by
  induction cs generalizing level with
  | nil => cases level <;> simp [scan, Level.stays, unclosed, anyTail, opensHere, occurs, starts,
      commentStart, commentEnd, startTag]
  | cons c cs ih =>
    have hunclosed : unclosed behind (c :: cs) =
        (opensHere behind (c :: cs) || unclosed behind cs) := rfl
    rw [scan, ih, hunclosed, opensHere]
    unfold Level.next
    by_cases hend : starts commentEnd (c :: cs) = true
    · cases level <;> simp [Level.stays, occurs_cons, hend]
    by_cases hstart : starts commentStart (c :: cs) = true
    · have htag : starts (startTag behind) (c :: cs) = false := startTag_of_commentStart hstart
      cases level with
      | data => simp [Level.stays, occurs_cons, hend, hstart, htag]
      | escaped => simp [Level.stays, occurs_cons, hend, hstart, htag]
      | doubled =>
        simp [Level.stays, occurs_cons, hend, hstart, htag]
        tauto
    · cases level with
      | data => simp [Level.stays, hend, hstart]
      | escaped =>
        by_cases htag : starts (startTag behind) (c :: cs) = true
        · simp [Level.stays, occurs_cons, hend, hstart, htag]
        · simp [Level.stays, occurs_cons, hend, hstart, htag]
      | doubled => simp [Level.stays, occurs_cons, hend, hstart]

/-- **The end of the element** is the end tag behind a text without end tags, exactly where the text
leaves no comment open with a script element in it. -/
theorem tokenize_closes_iff {rest : List Char} (hend : occurs endTag cs = false)
    (hnul : '\x00' ∉ cs) :
    tokenize (.base .data) [] (cs ++ ("</script>".toList ++ rest)) = .closed cs rest ↔
      unclosed delimiter cs = false := by
  rw [tokenize_scan_iff hend hnul, ne_eq, scan_doubled_iff, Level.stays, Bool.false_or,
    Bool.not_eq_true]

end MyOriShop.Lib.ScriptData
