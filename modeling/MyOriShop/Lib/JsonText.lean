import Mathlib.Data.List.TakeDrop
import Mathlib.Data.List.TakeWhile
import MyOriShop.Lib.Json
import MyOriShop.Lib.Lines
import MyOriShop.Lib.Replace

/-!
# JsonText: what stands in the text of a written JSON value

Outside its strings a written value is made of frame characters, and a character of a string is
written as it is or as a backslash and more frame characters. A test of a place in the text that
only a foreign character passes can therefore pass inside a written string only.

Results:
* `Reading.dump`, `Reading.join`: a reading that frame characters do not change reads a written
  value, and the lines of a file, as their strings.
* `Foreign.join`: where a foreign test passes in the lines of a file is told by their strings.
* `foreign_of_plain`: a test that does not see the escapes passes where it passes in a string.
* `foreign_backslash`: no string is written with a foreign character, a backslash and a character
  that no escape begins with.
-/

namespace MyOriShop.Lib.Json

open Lib.Lines Lib.Replace

/-! ## Frame characters -/

/-- The characters that stand outside the strings of a written value, and those of the escapes. -/
def isFrame (c : Char) : Bool :=
  c.isDigit || "\x7b\x7d[]:, \"\\+-.abcdefnrtulsEINityx\n".toList.contains c

/-- What an escape begins with behind its backslash. -/
def escapeLetters : List Char := "\"\\nrtfbu".toList

/-- The character is written as it is. -/
def Plain (c : Char) : Prop := escapeChar c = [c]

instance : DecidablePred Plain := fun c => inferInstanceAs (Decidable (escapeChar c = [c]))

theorem isFrame_of_isDigit {c : Char} (h : c.isDigit = true) : isFrame c = true := by
  rw [isFrame, h, Bool.true_or]

theorem isFrame_hexDigit : ∀ d, d < 16 → isFrame (hexDigit d) = true := by decide

/-- An escape is the character itself or a backslash and frame characters. -/
theorem escapeChar_frame (c : Char) : Plain c ∨
    ∃ d ∈ escapeLetters, ∃ tail, escapeChar c = '\\' :: d :: tail ∧
      ∀ x ∈ escapeChar c, isFrame x = true := by
  unfold Plain escapeChar
  split_ifs with h1 h2 h3 h4 h5 h6 h7 h8
  · exact .inr ⟨_, by decide, _, rfl, List.all_eq_true.mp (by decide)⟩
  · exact .inr ⟨_, by decide, _, rfl, List.all_eq_true.mp (by decide)⟩
  · exact .inr ⟨_, by decide, _, rfl, List.all_eq_true.mp (by decide)⟩
  · exact .inr ⟨_, by decide, _, rfl, List.all_eq_true.mp (by decide)⟩
  · exact .inr ⟨_, by decide, _, rfl, List.all_eq_true.mp (by decide)⟩
  · exact .inr ⟨_, by decide, _, rfl, List.all_eq_true.mp (by decide)⟩
  · exact .inr ⟨_, by decide, _, rfl, List.all_eq_true.mp (by decide)⟩
  · refine .inr ⟨_, by decide, _, rfl, ?_⟩
    have hhi := isFrame_hexDigit (c.toNat / 16) (by omega)
    have hlo := isFrame_hexDigit (c.toNat % 16) (by omega)
    simp only [List.forall_mem_cons, List.not_mem_nil, false_implies, implies_true, and_true]
    exact ⟨by decide, by decide, by decide, by decide, hhi, hlo⟩
  · exact .inl rfl

/-- No escape holds a dash. -/
theorem dash_notMem_escapeChar {c : Char} (h : ¬Plain c) : '-' ∉ escapeChar c := by
  have hhex : ∀ d, d < 16 → hexDigit d ≠ '-' := by decide
  unfold Plain at h
  unfold escapeChar at h ⊢
  split_ifs at h ⊢ with h1 h2 h3 h4 h5 h6 h7 h8
  any_goals decide
  · have hhi := (hhex (c.toNat / 16) (by omega)).symm
    have hlo := (hhex (c.toNat % 16) (by omega)).symm
    simp [hhi, hlo]
  · exact absurd rfl h

theorem Plain.ne_backslash {c : Char} (h : Plain c) : c ≠ '\\' := by
  rintro rfl
  revert h
  unfold Plain
  decide

theorem Plain.ne_quote {c : Char} (h : Plain c) : c ≠ '"' := by
  rintro rfl
  revert h
  unfold Plain
  decide

/-! ## Atoms -/

theorem isFrame_all {cs : List Char} (h : cs.all Char.isDigit = true) :
    ∀ c ∈ cs, isFrame c = true :=
  fun c hc => isFrame_of_isDigit (List.all_eq_true.mp h c hc)

theorem isFrame_natLit {cs : List Char} {n : Nat} (h : natLit cs = some n) :
    ∀ c ∈ cs, isFrame c = true := by
  unfold natLit at h
  by_cases hzero : cs = ['0']
  · subst hzero
    exact List.all_eq_true.mp (by decide)
  · rw [if_neg hzero] at h
    cases cs with
    | nil => cases h
    | cons d ds =>
      by_cases hall : (d :: ds).all Char.isDigit = true
      · exact isFrame_all hall
      · simp only [if_neg hall, ite_self] at h
        cases h

theorem isFrame_intLit {cs : List Char} {n : Int} (h : intLit cs = some n) :
    ∀ c ∈ cs, isFrame c = true := by
  unfold intLit at h
  split at h
  · obtain ⟨m, hm, -⟩ := Option.map_eq_some_iff.mp h
    exact List.forall_mem_cons.mpr ⟨by decide, isFrame_natLit hm⟩
  · obtain ⟨m, hm, -⟩ := Option.map_eq_some_iff.mp h
    exact isFrame_natLit hm

theorem isFrame_isExponent {cs : List Char} (h : isExponent cs = true) :
    ∀ c ∈ cs, isFrame c = true := by
  unfold isExponent at h
  split at h
  · exact fun c hc => nomatch hc
  · next c cs =>
    obtain ⟨hc, hds⟩ := Bool.and_eq_true_iff.mp h
    have hletter : isFrame c = true := by
      rcases Bool.or_eq_true_iff.mp hc with hc | hc <;> rw [eq_of_beq hc] <;> decide
    refine List.forall_mem_cons.mpr ⟨hletter, ?_⟩
    obtain ⟨-, hds⟩ := Bool.and_eq_true_iff.mp hds
    split at hds
    · exact List.forall_mem_cons.mpr ⟨by decide, isFrame_all hds⟩
    · exact List.forall_mem_cons.mpr ⟨by decide, isFrame_all hds⟩
    · exact isFrame_all hds

/-- Digits and then frame characters. -/
theorem isFrame_span {cs : List Char} (h : ∀ c ∈ cs.dropWhile Char.isDigit, isFrame c = true) :
    ∀ c ∈ cs, isFrame c = true := by
  intro c hc
  rw [← List.takeWhile_append_dropWhile (p := Char.isDigit) (l := cs)] at hc
  rcases List.mem_append.mp hc with hc | hc
  · exact isFrame_of_isDigit (List.mem_takeWhile_imp hc)
  · exact h c hc

theorem isFrame_isFraction {cs : List Char} (h : isFraction cs = true) :
    ∀ c ∈ cs, isFrame c = true := by
  unfold isFraction at h
  split at h
  · rw [List.span_eq_takeWhile_dropWhile] at h
    obtain ⟨-, h⟩ := Bool.and_eq_true_iff.mp h
    exact List.forall_mem_cons.mpr ⟨by decide, isFrame_span (isFrame_isExponent h)⟩
  · cases h
  · exact isFrame_isExponent h

theorem isFrame_float (lit : FloatLit) : ∀ c ∈ lit.chars, isFrame c = true := by
  have hlit : isFloatLit lit.chars = true := by
    have hvalid := lit.valid
    unfold isFloatAtom at hvalid
    simp only [Bool.and_eq_true] at hvalid
    exact hvalid.1.1.1.1.1.1
  generalize lit.chars = cs at hlit
  -- the body, and a sign in front of it
  obtain ⟨body, hbody, hcs⟩ : ∃ body : List Char,
      (body = "Infinity".toList ∨
        isFraction (body.dropWhile Char.isDigit) = true ∨ cs = "NaN".toList) ∧
        (cs = '-' :: body ∨ cs = body) := by
    unfold isFloatLit at hlit
    simp only [List.span_eq_takeWhile_dropWhile, Bool.or_eq_true, Bool.and_eq_true,
      beq_iff_eq] at hlit
    rcases hlit with (⟨-, hfraction⟩ | hnan) | hinfinity
    · split at hfraction
      · exact ⟨_, .inr (.inl hfraction), .inl rfl⟩
      · exact ⟨_, .inr (.inl hfraction), .inr rfl⟩
    · exact ⟨cs, .inr (.inr hnan), .inr rfl⟩
    · split at hinfinity
      · exact ⟨_, .inl hinfinity, .inl rfl⟩
      · exact ⟨_, .inl hinfinity, .inr rfl⟩
  have hframe : cs = "NaN".toList ∨ ∀ c ∈ body, isFrame c = true := by
    rcases hbody with rfl | hfraction | hnan
    · exact .inr (List.all_eq_true.mp (by decide))
    · exact .inr (isFrame_span (isFrame_isFraction hfraction))
    · exact .inl hnan
  rcases hframe with rfl | hframe
  · exact List.all_eq_true.mp (by decide)
  · rcases hcs with rfl | rfl
    · exact List.forall_mem_cons.mpr ⟨by decide, hframe⟩
    · exact hframe

theorem isFrame_readAtom {cs : List Char} {j : Value} (h : readAtom cs = some j) :
    ∀ c ∈ cs, isFrame c = true := by
  unfold readAtom at h
  split at h
  · next hnull => exact hnull ▸ List.all_eq_true.mp (by decide)
  split at h
  · next htrue => exact htrue ▸ List.all_eq_true.mp (by decide)
  split at h
  · next hfalse => exact hfalse ▸ List.all_eq_true.mp (by decide)
  split at h
  · next n hn => exact isFrame_intLit hn
  split at h
  · next hfloat => exact isFrame_float ⟨cs, hfloat⟩
  · cases h

/-! ## Tests of a place in the text -/

mutual
/-- The strings inside a value, keys included. -/
def texts : Value → List (List Char)
  | .str s => [s.toList]
  | .arr items => textsItems items
  | .obj pairs => textsPairs pairs
  | _ => []

/-- The strings of array items. -/
def textsItems : List Value → List (List Char)
  | [] => []
  | j :: js => texts j ++ textsItems js

/-- The strings of object pairs. -/
def textsPairs : List (String × Value) → List (List Char)
  | [] => []
  | (k, j) :: kvs => k.toList :: (texts j ++ textsPairs kvs)
end

theorem dumpItems_cons (j j' : Value) (js : List Value) :
    dumpItems (j :: j' :: js) = dumpChars j ++ ',' :: ' ' :: dumpItems (j' :: js) :=
  rfl

theorem dumpPairs_cons (k : String) (j : Value) (kv : String × Value)
    (kvs : List (String × Value)) : dumpPairs ((k, j) :: kv :: kvs) =
      Json.quote k ++ ':' :: ' ' :: (dumpChars j ++ ',' :: ' ' :: dumpPairs (kv :: kvs)) :=
  rfl

theorem textsItems_cons (j : Value) (js : List Value) :
    textsItems (j :: js) = texts j ++ textsItems js := by
  rw [textsItems]

theorem textsPairs_cons (k : String) (j : Value) (kvs : List (String × Value)) :
    textsPairs ((k, j) :: kvs) = k.toList :: (texts j ++ textsPairs kvs) := by
  rw [textsPairs]

/-- Only a place with a foreign character in front passes the test. -/
def Fronted (test : List Char → Bool) : Prop :=
  ∀ l, test l = true → ∃ c ∈ l.head?, isFrame c = false

/-- Such a test, and what it comes to on the written form of a string. -/
structure Foreign (test : List Char → Bool) (weight : List Char → Bool) : Prop where
  fronted : Fronted test
  string : ∀ cs rest, anyTail test (escapeChars cs ++ '"' :: rest) =
    (weight cs || anyTail test rest)

variable {test weight : List Char → Bool}

theorem Fronted.here (h : Fronted test) {c : Char} (hc : isFrame c = true) (cs : List Char) :
    test (c :: cs) = false := by
  rw [Bool.eq_false_iff]
  intro ht
  obtain ⟨d, hd, hframe⟩ := h _ ht
  obtain rfl := Option.some_inj.mp hd
  rw [hc] at hframe
  cases hframe

theorem Fronted.nil (h : Fronted test) : anyTail test [] = false := by
  rw [anyTail, Bool.eq_false_iff]
  intro ht
  obtain ⟨c, hc, -⟩ := h _ ht
  cases hc

theorem Fronted.cons (h : Fronted test) {c : Char} (hc : isFrame c = true) (rest : List Char) :
    anyTail test (c :: rest) = anyTail test rest := by
  rw [anyTail, h.here hc, Bool.false_or]

/-- Frame characters in front change nothing. -/
theorem Fronted.frame (h : Fronted test) : ∀ {cs : List Char} (rest : List Char),
    (∀ c ∈ cs, isFrame c = true) → anyTail test (cs ++ rest) = anyTail test rest
  | [], _, _ => rfl
  | c :: cs, rest, hcs => by
    obtain ⟨hc, hcs⟩ := List.forall_mem_cons.mp hcs
    rw [List.cons_append, h.cons hc, h.frame rest hcs]

/-! ## Readings of a written value -/

/-- The text does not go on with a dash or a foreign character. -/
def Calm (rest : List Char) : Prop := ∀ c ∈ rest.head?, isFrame c = true ∧ c ≠ '-'

theorem calm_nil : Calm [] := fun _ h => nomatch h

theorem calm_cons {c : Char} (hc : isFrame c = true) (hdash : c ≠ '-') (rest : List Char) :
    Calm (c :: rest) :=
  fun _ h => Option.some_inj.mp h ▸ ⟨hc, hdash⟩

/-- A reading from the left that frame characters do not change, and what a string does to it. -/
structure Reading {μ ρ : Type} (read : μ → List Char → ρ) (weigh : μ → List Char → μ) : Prop where
  frame : ∀ m {cs rest : List Char}, (∀ c ∈ cs, isFrame c = true) → Calm rest →
    read m (cs ++ rest) = read m rest
  mark : ∀ m {c : Char} (rest : List Char), isFrame c = true → c ≠ '-' →
    read m (c :: rest) = read m rest
  string : ∀ m cs rest, read m (escapeChars cs ++ '"' :: rest) = read (weigh m cs) rest

section Reading

variable {μ ρ : Type} {read : μ → List Char → ρ} {weigh : μ → List Char → μ}

theorem Reading.quote (h : Reading read weigh) (m : μ) (s : String) (rest : List Char) :
    read m (Json.quote s ++ rest) = read (weigh m s.toList) rest := by
  have hquote : Json.quote s ++ rest = '"' :: (escapeChars s.toList ++ '"' :: rest) := by
    simp [Json.quote]
  rw [hquote, h.mark m _ (by decide) (by decide), h.string]

mutual
/-- A written value is read as its strings are. -/
theorem Reading.dump (h : Reading read weigh) (m : μ) : ∀ (j : Value) {rest : List Char},
    Calm rest → read m (dumpChars j ++ rest) = read ((texts j).foldl weigh m) rest
  | .null, _, hrest => h.frame m (List.all_eq_true.mp (by decide)) hrest
  | .bool true, _, hrest => h.frame m (List.all_eq_true.mp (by decide)) hrest
  | .bool false, _, hrest => h.frame m (List.all_eq_true.mp (by decide)) hrest
  | .int n, _, hrest => h.frame m (isFrame_intLit (intLit_intChars n)) hrest
  | .float lit, _, hrest => h.frame m (isFrame_float lit) hrest
  | .str s, rest, _ => by rw [dumpChars, h.quote, texts, List.foldl_cons, List.foldl_nil]
  | .arr items, rest, _ => by
    rw [dumpChars, List.cons_append, h.mark m _ (by decide) (by decide), List.append_assoc,
      List.singleton_append, h.items m items (calm_cons (by decide) (by decide) rest), texts]
    exact h.mark _ rest (by decide) (by decide)
  | .obj pairs, rest, _ => by
    rw [dumpChars, List.cons_append, h.mark m _ (by decide) (by decide), List.append_assoc,
      List.singleton_append, h.pairs m pairs (calm_cons (by decide) (by decide) rest), texts]
    exact h.mark _ rest (by decide) (by decide)

theorem Reading.items (h : Reading read weigh) (m : μ) : ∀ (js : List Value) {rest : List Char},
    Calm rest → read m (dumpItems js ++ rest) = read ((textsItems js).foldl weigh m) rest
  | [], _, _ => rfl
  | [j], _, hrest => by rw [dumpItems, h.dump m j hrest, textsItems, textsItems, List.append_nil]
  | j :: j' :: js, rest, hrest => by
    rw [dumpItems_cons, List.append_assoc, List.cons_append, List.cons_append,
      h.dump m j (calm_cons (by decide) (by decide) _), h.mark _ _ (by decide) (by decide),
      h.mark _ _ (by decide) (by decide), h.items _ (j' :: js) hrest, textsItems_cons j,
      List.foldl_append]

theorem Reading.pairs (h : Reading read weigh) (m : μ) :
    ∀ (kvs : List (String × Value)) {rest : List Char},
    Calm rest → read m (dumpPairs kvs ++ rest) = read ((textsPairs kvs).foldl weigh m) rest
  | [], _, _ => rfl
  | [(k, j)], _, hrest => by
    rw [dumpPairs, List.append_assoc, h.quote, List.cons_append, List.cons_append,
      h.mark _ _ (by decide) (by decide), h.mark _ _ (by decide) (by decide), h.dump _ j hrest,
      textsPairs, textsPairs, List.append_nil, List.foldl_cons]
  | (k, j) :: kv :: kvs, rest, hrest => by
    rw [dumpPairs_cons, List.append_assoc, h.quote, List.cons_append, List.cons_append,
      h.mark _ _ (by decide) (by decide), h.mark _ _ (by decide) (by decide), List.append_assoc,
      List.cons_append, List.cons_append, h.dump _ j (calm_cons (by decide) (by decide) _),
      h.mark _ _ (by decide) (by decide), h.mark _ _ (by decide) (by decide),
      h.pairs _ (kv :: kvs) hrest, textsPairs_cons k, List.foldl_cons, List.foldl_append]
end

/-- So are the lines of a file. -/
theorem Reading.join (h : Reading read weigh) (m : μ) (js : List Value) :
    read m (joinChars (js.map dumpChars)) = read ((js.flatMap texts).foldl weigh m) [] := by
  induction js generalizing m with
  | nil => rfl
  | cons j js ih =>
    cases js with
    | nil =>
      have hone := h.dump m j calm_nil
      rw [List.append_nil] at hone
      rw [List.flatMap_singleton]
      exact hone
    | cons j' js =>
      have hlines : joinChars ((j :: j' :: js).map dumpChars) =
          dumpChars j ++ '\n' :: joinChars ((j' :: js).map dumpChars) := rfl
      have htexts : (j :: j' :: js).flatMap texts = texts j ++ (j' :: js).flatMap texts := rfl
      rw [hlines, htexts, h.dump m j (calm_cons (by decide) (by decide) _),
        h.mark _ _ (by decide) (by decide), ih, List.foldl_append]

end Reading

theorem Foreign.reading (h : Foreign test weight) :
    Reading (fun found cs => found || anyTail test cs) fun found cs => found || weight cs where
  frame _ {_ rest} hcs _ := congrArg _ (h.fronted.frame rest hcs)
  mark _ {_} rest hc _ := congrArg _ (h.fronted.cons hc rest)
  string m cs rest := by rw [h.string, Bool.or_assoc]

theorem foldl_or {α : Type} {p : α → Bool} : ∀ {l : List α} {found : Bool},
    l.foldl (fun found a => found || p a) found = (found || l.any p)
  | [], found => (Bool.or_false found).symm
  | a :: l, found => by rw [List.foldl_cons, foldl_or, List.any_cons, Bool.or_assoc]

/-- Where such a test passes in the lines of a file is told by their strings. -/
theorem Foreign.join (h : Foreign test weight) (js : List Value) :
    anyTail test (joinChars (js.map dumpChars)) = (js.flatMap texts).any weight := by
  have hjoin := h.reading.join false js
  rwa [foldl_or, h.fronted.nil, Bool.false_or, Bool.false_or, Bool.or_false] at hjoin

/-! ## Patterns of plain characters -/

theorem escapeChars_cons (c : Char) (cs rest : List Char) :
    escapeChars (c :: cs) ++ rest = escapeChar c ++ (escapeChars cs ++ rest) := by
  rw [escapeChars, List.flatMap_cons, List.append_assoc, ← escapeChars]

/-- A pattern of characters that are written as they are does not see the escapes. -/
theorem starts_escapeChars : ∀ {p : Pattern}, (∀ q ∈ p, ∀ c, q c = true → Plain c) →
    ∀ cs rest, starts p (escapeChars cs ++ '"' :: rest) = starts p cs
  | [], _, _, _ => rfl
  | q :: p, hp, [], rest => by
    obtain ⟨hq, -⟩ := List.forall_mem_cons.mp hp
    have hquote : q '"' = false := Bool.eq_false_iff.mpr fun h => (hq _ h).ne_quote rfl
    simp [escapeChars, starts, hquote]
  | q :: p, hp, c :: cs, rest => by
    obtain ⟨hq, hp⟩ := List.forall_mem_cons.mp hp
    rw [escapeChars_cons]
    rcases escapeChar_frame c with hc | ⟨d, -, tail, htail, -⟩
    · rw [show escapeChar c = [c] from hc, List.cons_append, List.nil_append, starts, starts,
        starts_escapeChars hp]
    · have hbackslash : q '\\' = false := Bool.eq_false_iff.mpr fun h => (hq _ h).ne_backslash rfl
      have hno : q c = false := by
        rw [Bool.eq_false_iff]
        intro h
        rw [show escapeChar c = [c] from hq c h] at htail
        cases htail
      rw [htail, List.cons_append, starts, starts, hbackslash, hno, Bool.false_and,
        Bool.false_and]

/-- Nor does a last character that takes what is written as it is. -/
theorem starts_escapeChars_last {q q' : Char → Bool} (hquote : q '"' = false)
    (hbackslash : q '\\' = false) (hq : ∀ c, Plain c → q c = q' c)
    (hq' : ∀ c, ¬Plain c → q' c = false) (rest : List Char) : ∀ {p : Pattern},
    (∀ r ∈ p, ∀ c, r c = true → Plain c) → ∀ cs,
      starts (p ++ [q]) (escapeChars cs ++ '"' :: rest) = starts (p ++ [q']) cs
  | [], _, [] => by simp [escapeChars, starts, hquote]
  | [], _, c :: cs => by
    rw [escapeChars_cons]
    by_cases hc : Plain c
    · rw [show escapeChar c = [c] from hc]
      simp [starts, hq c hc]
    · obtain ⟨d, -, tail, htail, -⟩ := (escapeChar_frame c).resolve_left hc
      rw [htail]
      simp [starts, hbackslash, hq' c hc]
  | r :: p, hp, [] => by
    obtain ⟨hr, -⟩ := List.forall_mem_cons.mp hp
    have hrquote : r '"' = false := Bool.eq_false_iff.mpr fun h => (hr _ h).ne_quote rfl
    simp [escapeChars, starts, hrquote]
  | r :: p, hp, c :: cs => by
    obtain ⟨hr, hp⟩ := List.forall_mem_cons.mp hp
    rw [escapeChars_cons]
    by_cases hc : Plain c
    · have ih := starts_escapeChars_last hquote hbackslash hq hq' rest hp cs
      rw [show escapeChar c = [c] from hc, List.cons_append, List.cons_append, List.cons_append,
        List.nil_append, starts, starts, ih]
    · obtain ⟨d, -, tail, htail, -⟩ := (escapeChar_frame c).resolve_left hc
      have hrbackslash : r '\\' = false :=
        Bool.eq_false_iff.mpr fun h => (hr _ h).ne_backslash rfl
      have hrc : r c = false := Bool.eq_false_iff.mpr fun h => hc (hr c h)
      rw [htail]
      simp [starts, hrbackslash, hrc]

/-- A test that does not see the escapes weighs a string as it stands. -/
theorem foreign_of_plain (h : Fronted test)
    (htest : ∀ cs rest, test (escapeChars cs ++ '"' :: rest) = test cs) :
    Foreign test (anyTail test) where
  fronted := h
  string cs rest := by
    induction cs with
    | nil =>
      rw [h.nil, Bool.false_or]
      exact h.cons (by decide) rest
    | cons c cs ih =>
      have hhere := htest (c :: cs) rest
      rw [escapeChars_cons] at hhere ⊢
      rcases escapeChar_frame c with hc | ⟨d, -, tail, htail, hframe⟩
      · rw [show escapeChar c = [c] from hc, List.cons_append, List.nil_append] at hhere ⊢
        rw [anyTail, anyTail, hhere, ih, Bool.or_assoc]
      · rw [htail, List.cons_append, h.here (by decide)] at hhere
        rw [h.frame _ hframe, ih, anyTail, ← hhere, Bool.false_or]

/-- No string is written with a foreign character, a backslash and a character that no escape
begins with. -/
theorem foreign_backslash {head : Char} {q : Char → Bool} {p : Pattern}
    (hframe : isFrame head = false) (hq : ∀ d ∈ escapeLetters, q d = false) :
    Foreign (starts (is head :: is '\\' :: q :: p)) fun _ => false := by
  have hfronted : Fronted (starts (is head :: is '\\' :: q :: p)) :=
    fun l h => ⟨head, head_of_starts h, hframe⟩
  refine ⟨hfronted, fun cs rest => ?_⟩
  rw [Bool.false_or]
  induction cs with
  | nil => exact hfronted.cons (by decide) rest
  | cons c cs ih =>
    rw [escapeChars_cons]
    rcases escapeChar_frame c with hc | ⟨d, -, tail, -, hframe⟩
    · have hnext : starts (is '\\' :: q :: p) (escapeChars cs ++ '"' :: rest) = false := by
        cases cs with
        | nil => rfl
        | cons d ds =>
          rw [escapeChars_cons]
          rcases escapeChar_frame d with hd | ⟨x, hx, tail, htail, -⟩
          · rw [show escapeChar d = [d] from hd, List.cons_append, starts, is,
              decide_eq_false hd.ne_backslash, Bool.false_and]
          · rw [htail, List.cons_append, List.cons_append, starts, starts, hq x hx,
              Bool.false_and, Bool.and_false]
      rw [show escapeChar c = [c] from hc, List.cons_append, List.nil_append, anyTail, starts,
        hnext, Bool.and_false, Bool.false_or, ih]
    · rw [hfronted.frame _ hframe, ih]

end MyOriShop.Lib.Json
