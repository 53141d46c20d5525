import Mathlib.Data.List.Lex
import Mathlib.Data.Prod.Lex
import Mathlib.Data.String.Basic

/-!
# NaturalOrder: texts in the order of the numbers in them

A text is split into what is between its numbers and the numbers. Keys made of the two compare text by
text and number by number, so that `5` comes before `39`.

* `Digits` are the digits of a character table: those of a decimal system have a value, others (a
  superscript, a digit in a circle) are digits without one.
* `split` is `re.split(r"(\d+)", s)`: the text before the first number, and each number with the text
  after it.
* `naturalKey` is `[int(p) if p.isdigit() else p.lower() for p in parts]`, none where `int` raises:
  for a text between numbers that is all digits, or a number with too many digits.

Results:
* `join_split`, `split_texts`, `split_numbers`: the parts make up the text and alternate.
* `split_append`: a text is split where a number begins.
* `naturalKey_lt`: texts that agree up to a number compare as the numbers.
-/

namespace MyOriShop.Lib.NaturalOrder

/-- The digits of a character table. -/
structure Digits where
  /-- `\d`: the digits of a decimal system. -/
  decimal : Char → Bool
  /-- `str.isdigit` of one character. -/
  digit : Char → Bool
  /-- What a decimal digit means. -/
  value : Char → Nat
  digit_of_decimal : ∀ c, decimal c = true → digit c = true

variable (u : Digits)

/-! ## Splitting -/

/-- A text split at its numbers. -/
abbrev Parts := List Char × List (List Char × List Char)

/-- A character before a text that is split. -/
def extend (c : Char) : Parts → Parts
  | (text, []) => if u.decimal c then ([], [([c], text)]) else (c :: text, [])
  | ([], (number, after) :: rest) =>
    if u.decimal c then ([], (c :: number, after) :: rest) else ([c], (number, after) :: rest)
  | (t :: text, pair :: rest) =>
    if u.decimal c then ([], ([c], t :: text) :: pair :: rest) else (c :: t :: text, pair :: rest)

/-- `re.split(r"(\d+)", s)`. -/
def split : List Char → Parts
  | [] => ([], [])
  | c :: cs => extend u c (split cs)

/-- The parts one after another. -/
def join (parts : Parts) : List Char := parts.1 ++ parts.2.flatMap fun p => p.1 ++ p.2

variable {u}

theorem extend_text {c : Char} (h : u.decimal c = false) (parts : Parts) :
    extend u c parts = (c :: parts.1, parts.2) := by
  obtain ⟨_ | ⟨t, text⟩, _ | ⟨pair, rest⟩⟩ := parts <;> simp [extend, h]

theorem extend_decimal_fst {c : Char} (h : u.decimal c = true) (parts : Parts) :
    (extend u c parts).1 = [] := by
  obtain ⟨_ | ⟨t, text⟩, _ | ⟨pair, rest⟩⟩ := parts <;> simp [extend, h]

/-- A digit before a text begins a number of its own. -/
theorem extend_new {c t : Char} (h : u.decimal c = true) (text : List Char)
    (rest : List (List Char × List Char)) :
    extend u c (t :: text, rest) = ([], ([c], t :: text) :: rest) := by
  cases rest <;> simp [extend, h]

theorem join_extend (c : Char) (parts : Parts) : join (extend u c parts) = c :: join parts := by
  obtain ⟨_ | ⟨t, text⟩, _ | ⟨pair, rest⟩⟩ := parts <;> unfold extend join <;> split_ifs <;> simp

/-- **The parts make up the text.** -/
theorem join_split (cs : List Char) : join (split u cs) = cs := by
  induction cs with
  | nil => rfl
  | cons c cs ih => rw [split, join_extend, ih]

/-- The texts between the numbers. -/
def texts (parts : Parts) : List (List Char) := parts.1 :: parts.2.map Prod.snd

/-- The numbers. -/
def numbers (parts : Parts) : List (List Char) := parts.2.map Prod.fst

/-- No text between numbers has a decimal digit. -/
theorem split_texts (cs : List Char) :
    ∀ text ∈ texts (split u cs), ∀ c ∈ text, u.decimal c = false := by
  induction cs with
  | nil => simp [split, texts]
  | cons c cs ih =>
    unfold split
    generalize split u cs = parts at ih
    by_cases hc : u.decimal c = true
    · unfold texts at ih ⊢
      obtain ⟨hfirst, hrest⟩ := List.forall_mem_cons.mp ih
      rw [extend_decimal_fst hc]
      refine List.forall_mem_cons.mpr ⟨fun _ h => absurd h List.not_mem_nil, ?_⟩
      obtain ⟨_ | ⟨t, text⟩, _ | ⟨pair, rest⟩⟩ := parts
      · simp [extend, hc]
      · simpa only [extend, hc, if_true, List.map_cons] using hrest
      · rw [extend_new hc]
        exact List.forall_mem_cons.mpr ⟨hfirst, hrest⟩
      · rw [extend_new hc]
        exact List.forall_mem_cons.mpr ⟨hfirst, hrest⟩
    · rw [Bool.not_eq_true] at hc
      rw [extend_text hc]
      unfold texts at ih ⊢
      obtain ⟨hfirst, hrest⟩ := List.forall_mem_cons.mp ih
      exact List.forall_mem_cons.mpr ⟨List.forall_mem_cons.mpr ⟨hc, hfirst⟩, hrest⟩

/-- Every number is made of decimal digits, at least one. -/
theorem split_numbers (cs : List Char) :
    ∀ number ∈ numbers (split u cs), number ≠ [] ∧ ∀ c ∈ number, u.decimal c = true := by
  induction cs with
  | nil => simp [split, numbers]
  | cons c cs ih =>
    unfold split
    generalize split u cs = parts at ih
    by_cases hc : u.decimal c = true
    · have hone : [c] ≠ [] ∧ ∀ d ∈ [c], u.decimal d = true :=
        ⟨List.cons_ne_nil _ _, List.forall_mem_singleton.mpr hc⟩
      unfold numbers at ih ⊢
      obtain ⟨_ | ⟨t, text⟩, _ | ⟨pair, rest⟩⟩ := parts
      · simp [extend, hc]
      · obtain ⟨hfirst, hrest⟩ := List.forall_mem_cons.mp ih
        simp only [extend, hc, if_true]
        exact List.forall_mem_cons.mpr
          ⟨⟨List.cons_ne_nil _ _, List.forall_mem_cons.mpr ⟨hc, hfirst.2⟩⟩, hrest⟩
      · rw [extend_new hc]
        exact List.forall_mem_cons.mpr ⟨hone, ih⟩
      · rw [extend_new hc]
        exact List.forall_mem_cons.mpr ⟨hone, ih⟩
    · rw [Bool.not_eq_true] at hc
      rw [extend_text hc]
      exact ih

theorem split_eq_nil {cs : List Char} (h : split u cs = ([], [])) : cs = [] := by
  rw [← join_split (u := u) cs, h]
  rfl

/-! ## Where a number begins -/

/-- The text does not end in a decimal digit. -/
def EndsInText (u : Digits) (cs : List Char) : Prop := ∀ c ∈ cs.getLast?, u.decimal c = false

/-- The text does not begin with a decimal digit. -/
def BeginsWithText (u : Digits) (cs : List Char) : Prop := ∀ c ∈ cs.head?, u.decimal c = false

/-- Before a number a text is split by itself. -/
theorem split_append {before cs : List Char} (hbefore : EndsInText u before)
    (hcs : (split u cs).1 = []) :
    split u (before ++ cs) = ((split u before).1, (split u before).2 ++ (split u cs).2) := by
  induction before with
  | nil =>
    rw [List.nil_append, split, List.nil_append]
    exact Prod.ext hcs rfl
  | cons c before ih =>
    rw [List.cons_append, split, split]
    cases before with
    | nil =>
      have hc : u.decimal c = false := hbefore c rfl
      rw [List.nil_append, extend_text hc, extend_text hc, hcs]
      rfl
    | cons b before =>
      have hlast : EndsInText u (b :: before) := by
        unfold EndsInText at hbefore ⊢
        rwa [List.getLast?_cons_cons] at hbefore
      have hne : split u (b :: before) ≠ ([], []) := fun h => nomatch split_eq_nil h
      rw [ih hlast]
      generalize split u (b :: before) = parts at hne
      by_cases hc : u.decimal c = true
      · obtain ⟨_ | ⟨t, text⟩, _ | ⟨pair, rest⟩⟩ := parts
        · exact absurd rfl hne
        · simp [extend, hc]
        · simp [extend_new hc]
        · simp [extend_new hc]
      · rw [Bool.not_eq_true] at hc
        rw [extend_text hc, extend_text hc]

/-- A text that is none of a number. -/
theorem split_fst {cs : List Char} (h : BeginsWithText u cs) : (split u cs).1 ≠ [] ∨ cs = [] := by
  cases cs with
  | nil => exact .inr rfl
  | cons c cs =>
    rw [split, extend_text (h c rfl)]
    exact .inl (List.cons_ne_nil _ _)

/-- A number and the text after it. -/
theorem split_number {number cs : List Char} (hne : number ≠ [])
    (hnumber : ∀ c ∈ number, u.decimal c = true) (hcs : BeginsWithText u cs) :
    split u (number ++ cs) = ([], (number, (split u cs).1) :: (split u cs).2) := by
  induction number with
  | nil => exact absurd rfl hne
  | cons c number ih =>
    obtain ⟨hc, hrest⟩ := List.forall_mem_cons.mp hnumber
    rw [List.cons_append, split]
    cases number with
    | nil =>
      rw [List.nil_append]
      rcases split_fst hcs with hfst | rfl
      · obtain ⟨t, text, ht⟩ := List.exists_cons_of_ne_nil hfst
        rw [← Prod.mk.eta (p := split u cs), ht, extend_new hc]
      · simp [split, extend, hc]
    | cons b number =>
      rw [ih (List.cons_ne_nil _ _) hrest]
      simp [extend, hc]

/-! ## Keys -/

variable (u)

/-- What a number means. -/
def number (ds : List Char) : Nat := ds.foldl (fun n c => n * 10 + u.value c) 0

/-- `int(p)` of a number; `none` for the `ValueError` of too many digits. -/
def intOf (limit : Nat) (ds : List Char) : Option Nat :=
  if ds.length ≤ limit then some (number u ds) else none

/-- `int(p) if p.isdigit() else p.lower()` of a text without decimal digits, where `int` raises. -/
def textOf (lower : String → String) (text : List Char) : Option String :=
  if text ≠ [] ∧ text.all u.digit = true then none else some (lower (String.ofList text))

/-- A number and the text after it, as a key. -/
def pairOf (lower : String → String) (limit : Nat) (p : List Char × List Char) :
    Option (Nat ×ₗ String) :=
  (intOf u limit p.1).bind fun n => (textOf u lower p.2).map fun t => toLex (n, t)

/-- The key of a text. -/
abbrev Key := String ×ₗ List (Nat ×ₗ String)

/-- The key of a text; `none` for `ValueError`. -/
def naturalKey (lower : String → String) (limit : Nat) (cs : List Char) : Option Key :=
  (textOf u lower (split u cs).1).bind fun t =>
    ((split u cs).2.mapM (pairOf u lower limit)).map fun pairs => toLex (t, pairs)

variable {u} {lower : String → String} {limit : Nat}

/-- **What can be compared**: no text between numbers is all digits, and no number is too long. -/
theorem naturalKey_isSome {cs : List Char} : (naturalKey u lower limit cs).isSome ↔
    (∀ text ∈ texts (split u cs), text ≠ [] → ∃ c ∈ text, u.digit c = false) ∧
      ∀ number ∈ numbers (split u cs), number.length ≤ limit := by
  have htext : ∀ text : List Char, (textOf u lower text).isSome ↔
      (text ≠ [] → ∃ c ∈ text, u.digit c = false) := by
    intro text
    unfold textOf
    split_ifs with h
    · simpa using h
    · simpa using h
  have hpair : ∀ p : List Char × List Char, (pairOf u lower limit p).isSome ↔
      p.1.length ≤ limit ∧ (p.2 ≠ [] → ∃ c ∈ p.2, u.digit c = false) := by
    intro p
    rw [← htext]
    unfold pairOf intOf
    split_ifs with h <;> simp [h]
  have hpairs : ∀ pairs : List (List Char × List Char), (pairs.mapM (pairOf u lower limit)).isSome ↔
      ∀ p ∈ pairs, (pairOf u lower limit p).isSome := by
    intro pairs
    induction pairs with
    | nil => simp
    | cons p pairs ih =>
      rw [List.forall_mem_cons, ← ih, List.mapM_cons]
      cases pairOf u lower limit p <;> cases pairs.mapM (pairOf u lower limit) <;> simp
  unfold naturalKey texts numbers
  rw [List.forall_mem_cons, List.forall_mem_map, List.forall_mem_map, ← htext]
  generalize split u cs = parts
  have hall := hpairs parts.2
  simp only [hpair] at hall
  cases textOf u lower parts.1 with
  | none => simp
  | some t =>
    rw [Option.bind_some, Option.isSome_map, hall]
    simp only [Option.isSome_some, true_and]
    exact ⟨fun h => ⟨fun p hp => (h p hp).2, fun p hp => (h p hp).1⟩,
      fun h p hp => ⟨h.2 p hp, h.1 p hp⟩⟩

/-- **Texts that agree up to a number** compare as the numbers there. -/
theorem naturalKey_lt {before m n after after' : List Char} {k k' : Key}
    (hbefore : EndsInText u before) (hm : m ≠ []) (hm' : ∀ c ∈ m, u.decimal c = true)
    (hn : n ≠ []) (hn' : ∀ c ∈ n, u.decimal c = true) (hafter : BeginsWithText u after)
    (hafter' : BeginsWithText u after') (hlt : number u m < number u n)
    (hk : naturalKey u lower limit (before ++ (m ++ after)) = some k)
    (hk' : naturalKey u lower limit (before ++ (n ++ after')) = some k') : k < k' := by
  have hsplit : ∀ ds rest, ds ≠ [] → (∀ c ∈ ds, u.decimal c = true) → BeginsWithText u rest →
      split u (before ++ (ds ++ rest)) = ((split u before).1,
        (split u before).2 ++ (ds, (split u rest).1) :: (split u rest).2) := by
    intro ds rest hne hds hrest
    have hnumber := split_number hne hds hrest
    rw [split_append hbefore (by rw [hnumber]), hnumber]
  -- both keys begin with the key of what is before the number
  have hkey : ∀ ds rest k, naturalKey u lower limit (before ++ (ds ++ rest)) = some k → ds ≠ [] →
      (∀ c ∈ ds, u.decimal c = true) → BeginsWithText u rest →
      ∃ t pairs text others, textOf u lower (split u before).1 = some t ∧
        (split u before).2.mapM (pairOf u lower limit) = some pairs ∧
        k = toLex (t, pairs ++ toLex (number u ds, text) :: others) := by
    intro ds rest k hk hne hds hrest
    unfold naturalKey at hk
    rw [hsplit ds rest hne hds hrest] at hk
    obtain ⟨t, ht, hk⟩ := Option.bind_eq_some_iff.mp hk
    obtain ⟨all, hall, rfl⟩ := Option.map_eq_some_iff.mp hk
    rw [List.mapM_append] at hall
    obtain ⟨pairs, hpairs, hall⟩ := Option.bind_eq_some_iff.mp hall
    obtain ⟨tail, htail, hall⟩ := Option.bind_eq_some_iff.mp hall
    cases hall
    rw [List.mapM_cons] at htail
    obtain ⟨pair, hpair, htail⟩ := Option.bind_eq_some_iff.mp htail
    obtain ⟨others, hothers, htail⟩ := Option.bind_eq_some_iff.mp htail
    cases htail
    unfold pairOf intOf at hpair
    obtain ⟨v, hv, hpair⟩ := Option.bind_eq_some_iff.mp hpair
    obtain ⟨text, htext, rfl⟩ := Option.map_eq_some_iff.mp hpair
    split_ifs at hv
    cases hv
    exact ⟨t, pairs, text, others, ht, hpairs, rfl⟩
  obtain ⟨t, pairs, text, others, ht, hpairs, rfl⟩ := hkey m after k hk hm hm' hafter
  obtain ⟨t', pairs', text', others', ht', hpairs', rfl⟩ := hkey n after' k' hk' hn hn' hafter'
  rw [ht, Option.some_inj] at ht'
  rw [hpairs, Option.some_inj] at hpairs'
  subst ht' hpairs'
  refine Prod.Lex.toLex_lt_toLex.mpr (.inr ⟨rfl, ?_⟩)
  refine List.append_left_lt (List.cons_lt_cons_iff.mpr (.inl ?_))
  exact Prod.Lex.toLex_lt_toLex.mpr (.inl hlt)

end MyOriShop.Lib.NaturalOrder
