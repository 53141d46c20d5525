import Mathlib.Data.List.Basic
import Mathlib.Data.String.Basic

/-!
# Lines: three ways to cut a text into lines

A sender joins its lines with `\n`; the receivers cut the text again, in two different ways.

* `join` is `"\n".join(lines)`.
* `splitlines` is `str.splitlines()`: it cuts at every character of `isLineEnd`, the ten that the
  source language treats as line boundaries, takes `\r\n` as one boundary, and drops the empty
  line after a final boundary.
* `splitLf` is `text.replace("\r\n", "\n").replace("\r", "\n").split("\n")`: only the three newline
  styles are boundaries, and the empty line after a final boundary stays.

Results:
* `splitLf_join`: lines without `\r` and `\n` come back from `splitLf`.
* `splitlines_join_iff`: non-empty lines come back from `splitlines` exactly when none of them has
  one of the ten characters.
* `splitlines_terminate_iff`: the same of lines that are each ended by `\n`.
* `splitlines_join_cut`: otherwise the first line with such a character is cut in front of it.
-/

namespace MyOriShop.Lib.Lines

/-- The characters at which `str.splitlines` cuts. -/
def isLineEnd (c : Char) : Bool :=
  let n := c.toNat
  (10 ≤ n && n ≤ 13) || (28 ≤ n && n ≤ 30) || n == 0x85 || n == 0x2028 || n == 0x2029

/-- `"\n".join(lines)` on character lists. -/
def joinChars : List (List Char) → List Char
  | [] => []
  | [l] => l
  | l :: ls => l ++ '\n' :: joinChars ls

/-- `"\n".join(lines)`. -/
def join (lines : List String) : String := String.ofList (joinChars (lines.map String.toList))

/-- Every line ended by `\n`, on character lists. -/
def terminateChars : List (List Char) → List Char
  | [] => []
  | l :: ls => l ++ '\n' :: terminateChars ls

/-- Every line ended by `\n`. -/
def terminate (lines : List String) : String :=
  String.ofList (terminateChars (lines.map String.toList))

/-- `str.splitlines()`, the characters of the current line in `acc`, latest first. -/
def splitAcc (acc : List Char) : List Char → List (List Char)
  | [] => if acc = [] then [] else [acc.reverse]
  | '\r' :: '\n' :: cs => acc.reverse :: splitAcc [] cs
  | c :: cs => if isLineEnd c then acc.reverse :: splitAcc [] cs else splitAcc (c :: acc) cs

/-- `str.splitlines()`. -/
def splitlines (s : String) : List String := (splitAcc [] s.toList).map String.ofList

/-- `text.replace("\r\n", "\n").replace("\r", "\n")`. -/
def toLf : List Char → List Char
  | [] => []
  | '\r' :: '\n' :: cs => '\n' :: toLf cs
  | c :: cs => (if c = '\r' then '\n' else c) :: toLf cs

/-- `text.split("\n")`, the current line in `acc`, latest first. -/
def splitOnLf (acc : List Char) : List Char → List (List Char)
  | [] => [acc.reverse]
  | c :: cs => if c = '\n' then acc.reverse :: splitOnLf [] cs else splitOnLf (c :: acc) cs

/-- The offline receiver's lines. -/
def splitLf (s : String) : List String := (splitOnLf [] (toLf s.toList)).map String.ofList

/-! ## Cutting at the three newline styles -/

theorem toLf_of_not_mem {cs : List Char} (h : '\r' ∉ cs) : toLf cs = cs := by
  induction cs with
  | nil => rfl
  | cons c cs ih =>
    simp only [List.mem_cons, not_or] at h
    rw [toLf]
    · simp [Ne.symm h.1, ih h.2]
    · rintro cs' rfl
      exact absurd rfl h.1

theorem splitOnLf_line {l : List Char} (h : '\n' ∉ l) (acc rest : List Char) :
    splitOnLf acc (l ++ rest) = splitOnLf (l.reverse ++ acc) rest := by
  induction l generalizing acc with
  | nil => rfl
  | cons c l ih =>
    simp only [List.mem_cons, not_or] at h
    simp [splitOnLf, Ne.symm h.1, ih h.2]

theorem splitOnLf_joinChars : ∀ (ls : List (List Char)), ls ≠ [] → (∀ l ∈ ls, '\n' ∉ l) →
    splitOnLf [] (joinChars ls) = ls
  | [l], _, h => by
    have := splitOnLf_line (h l (by simp)) [] []
    simpa [joinChars, splitOnLf] using this
  | l :: l' :: ls, _, h => by
    have hrest := splitOnLf_joinChars (l' :: ls) (by simp)
      fun k hk => h k (List.mem_cons_of_mem l hk)
    simp [joinChars, splitOnLf_line (h l (by simp)), splitOnLf, hrest]

theorem mem_joinChars {c : Char} : ∀ {ls : List (List Char)}, c ∈ joinChars ls →
    c = '\n' ∨ ∃ l ∈ ls, c ∈ l
  | [], h => by simp [joinChars] at h
  | [l], h => .inr ⟨l, by simp, h⟩
  | l :: l' :: ls, h => by
    simp only [joinChars, List.mem_append, List.mem_cons] at h
    rcases h with h | rfl | h
    · exact .inr ⟨l, by simp, h⟩
    · exact .inl rfl
    · rcases mem_joinChars h with h | ⟨k, hk, hc⟩
      · exact .inl h
      · exact .inr ⟨k, List.mem_cons_of_mem l hk, hc⟩

theorem map_ofList_toList (lines : List String) :
    (lines.map String.toList).map String.ofList = lines := by
  simp [Function.comp_def]

theorem splitLf_join {lines : List String} (hne : lines ≠ [])
    (h : ∀ l ∈ lines, '\r' ∉ l.toList ∧ '\n' ∉ l.toList) : splitLf (join lines) = lines := by
  have hcr : '\r' ∉ joinChars (lines.map String.toList) := by
    intro hmem
    rcases mem_joinChars hmem with h0 | ⟨l, hl, hc⟩
    · exact absurd h0 (by decide)
    · obtain ⟨s, hs, rfl⟩ := List.mem_map.mp hl
      exact (h s hs).1 hc
  have hlf : ∀ l ∈ lines.map String.toList, '\n' ∉ l := by
    intro l hl
    obtain ⟨s, hs, rfl⟩ := List.mem_map.mp hl
    exact (h s hs).2
  unfold splitLf join
  rw [String.toList_ofList, toLf_of_not_mem hcr, splitOnLf_joinChars _ (by simpa using hne) hlf,
    map_ofList_toList]

/-! ## Cutting at every line boundary -/

/-- No character of the line is a line boundary. -/
def Clean (l : List Char) : Prop := ∀ c ∈ l, isLineEnd c = false

theorem splitAcc_cons {acc : List Char} {c : Char} {cs : List Char} (h : isLineEnd c = false) :
    splitAcc acc (c :: cs) = splitAcc (c :: acc) cs := by
  rw [splitAcc]
  · simp [h]
  · rintro cs' rfl
    exact absurd h (by decide)

theorem splitAcc_line {l : List Char} (h : Clean l) (acc rest : List Char) :
    splitAcc acc (l ++ rest) = splitAcc (l.reverse ++ acc) rest := by
  induction l generalizing acc with
  | nil => rfl
  | cons c l ih =>
    rw [List.cons_append, splitAcc_cons (h c (by simp)),
      ih (fun d hd => h d (List.mem_cons_of_mem c hd))]
    simp

/-- A line boundary ends the current line, whatever comes after it. -/
theorem splitAcc_end (acc cs : List Char) {c : Char} (h : isLineEnd c = true) :
    ∃ rest, splitAcc acc (c :: cs) = acc.reverse :: rest := by
  unfold splitAcc
  split
  · next heq => cases heq
  · exact ⟨_, rfl⟩
  · next heq =>
    cases heq
    rw [if_pos h]
    exact ⟨_, rfl⟩

theorem splitAcc_lf (acc cs : List Char) : splitAcc acc ('\n' :: cs) = acc.reverse :: splitAcc [] cs := by
  rw [splitAcc]
  · rfl
  · intro cs' h
    exact absurd h (by decide)

/-- Clean non-empty lines in front of a joined text come back first. -/
theorem splitAcc_joinChars_append : ∀ (as : List (List Char)) (b : List Char) (ls : List (List Char)),
    (∀ a ∈ as, Clean a) →
    splitAcc [] (joinChars (as ++ b :: ls)) = as ++ splitAcc [] (joinChars (b :: ls))
  | [], _, _, _ => rfl
  | a :: as, b, ls, h => by
    have ih := splitAcc_joinChars_append as b ls fun k hk => h k (List.mem_cons_of_mem a hk)
    have hjoin : joinChars (a :: as ++ b :: ls) = a ++ '\n' :: joinChars (as ++ b :: ls) := by
      cases as <;> rfl
    rw [hjoin, splitAcc_line (h a (by simp)), splitAcc_lf, ih]
    simp

theorem splitAcc_joinChars {ls : List (List Char)} (hne : ∀ l ∈ ls, l ≠ [])
    (h : ∀ l ∈ ls, Clean l) : splitAcc [] (joinChars ls) = ls := by
  rcases List.eq_nil_or_concat ls with rfl | ⟨as, b, rfl⟩
  · rfl
  · rw [List.concat_eq_append] at h hne ⊢
    have hb : splitAcc [] (joinChars [b]) = [b] := by
      have := splitAcc_line (h b (by simp)) [] []
      rw [List.append_nil] at this
      rw [joinChars, this, splitAcc]
      simp [hne b (by simp)]
    rw [splitAcc_joinChars_append as b [] fun a ha => h a (by simp [ha]), hb]

/-- Every line of `splitlines` is clean. -/
theorem clean_splitAcc (cs acc : List Char) (h : Clean acc) : ∀ l ∈ splitAcc acc cs, Clean l := by
  have hrev : Clean acc.reverse := fun c hc => h c (List.mem_reverse.mp hc)
  have hnil : Clean [] := fun c hc => by simp at hc
  fun_induction splitAcc acc cs with
  | case1 => simp
  | case2 => simpa using hrev
  | case3 acc cs ih =>
    rintro l (_ | ⟨_, hl⟩)
    · exact hrev
    · exact ih hnil hnil l hl
  | case4 acc c cs _ hc ih =>
    rintro l (_ | ⟨_, hl⟩)
    · exact hrev
    · exact ih hnil hnil l hl
  | case5 acc c cs _ hc ih =>
    have hacc : Clean (c :: acc) := by
      intro d hd
      rcases List.mem_cons.mp hd with rfl | hd
      · simpa using hc
      · exact h d hd
    exact ih hacc (fun d hd => hacc d (List.mem_reverse.mp hd))

/-- **Exactness of `splitlines`**: the non-empty lines that were joined come back exactly when
none of them has a line boundary inside. -/
theorem splitlines_join_iff {lines : List String} (hne : ∀ l ∈ lines, l ≠ "") :
    splitlines (join lines) = lines ↔ ∀ l ∈ lines, ∀ c ∈ l.toList, isLineEnd c = false := by
  unfold splitlines join
  rw [String.toList_ofList]
  constructor
  · intro h l hl
    rw [← h] at hl
    obtain ⟨cs, hcs, rfl⟩ := List.mem_map.mp hl
    rw [String.toList_ofList]
    exact clean_splitAcc _ [] (fun c hc => by simp at hc) cs hcs
  · intro h
    rw [splitAcc_joinChars, map_ofList_toList]
    · intro l hl
      obtain ⟨s, hs, rfl⟩ := List.mem_map.mp hl
      have := hne s hs
      simpa using this
    · intro l hl
      obtain ⟨s, hs, rfl⟩ := List.mem_map.mp hl
      exact h s hs

theorem splitAcc_terminateChars {ls : List (List Char)} (h : ∀ l ∈ ls, Clean l) :
    splitAcc [] (terminateChars ls) = ls := by
  induction ls with
  | nil => rfl
  | cons l ls ih =>
    rw [terminateChars, splitAcc_line (h l List.mem_cons_self), splitAcc_lf,
      ih fun k hk => h k (List.mem_cons_of_mem l hk)]
    simp

/-- Lines that were each ended by `\n` come back under the same condition. -/
theorem splitlines_terminate_iff {lines : List String} :
    splitlines (terminate lines) = lines ↔ ∀ l ∈ lines, ∀ c ∈ l.toList, isLineEnd c = false := by
  unfold splitlines terminate
  rw [String.toList_ofList]
  constructor
  · intro h l hl
    rw [← h] at hl
    obtain ⟨cs, hcs, rfl⟩ := List.mem_map.mp hl
    rw [String.toList_ofList]
    exact clean_splitAcc _ [] (fun c hc => absurd hc List.not_mem_nil) cs hcs
  · intro h
    rw [splitAcc_terminateChars, map_ofList_toList]
    intro l hl
    obtain ⟨s, hs, rfl⟩ := List.mem_map.mp hl
    exact h s hs

/-- The first line with a boundary inside is cut in front of it; the lines before it are whole. -/
theorem splitlines_join_cut {as ls : List String} {b : String} {p q : List Char} {c : Char}
    (has : ∀ a ∈ as, ∀ d ∈ a.toList, isLineEnd d = false) (hp : ∀ d ∈ p, isLineEnd d = false)
    (hb : b.toList = p ++ c :: q) (hc : isLineEnd c = true) :
    ∃ rest, splitlines (join (as ++ b :: ls)) = as ++ String.ofList p :: rest := by
  have hclean : ∀ a ∈ as.map String.toList, Clean a := by
    intro a ha
    obtain ⟨s, hs, rfl⟩ := List.mem_map.mp ha
    exact has s hs
  have htail : ∃ t, joinChars (b.toList :: ls.map String.toList) = p ++ c :: t := by
    rw [hb]
    cases ls with
    | nil => exact ⟨q, rfl⟩
    | cons l ls => exact ⟨q ++ '\n' :: joinChars ((l :: ls).map String.toList), by simp [joinChars]⟩
  obtain ⟨t, ht⟩ := htail
  obtain ⟨rest, hrest⟩ := splitAcc_end (p.reverse ++ []) t hc
  refine ⟨rest.map String.ofList, ?_⟩
  unfold splitlines join
  rw [String.toList_ofList, List.map_append, List.map_cons,
    splitAcc_joinChars_append _ _ _ hclean, ht, splitAcc_line hp, hrest]
  simp [Function.comp_def]

/-- What was encoded decodes. -/
theorem fromUTF8?_toByteArray (s : String) : String.fromUTF8? s.toByteArray = some s :=
  dif_pos s.isValidUTF8

end MyOriShop.Lib.Lines
