import Mathlib.Data.List.Basic

/-!
# Replace: rewriting every match of a pattern, and undoing it

A pattern says of each of its characters what it may be. `replace` rewrites its matches from the
left, without overlaps, as `re.sub` and a global `String.replace` do.

An `Escaping` puts a mark behind the first character of every match of one pattern; its inverse
takes the mark out again in front of every match of a narrower one.

Results:
* `Escaping.escape_cons`, `Escaping.unescape_cons`: the two from left to right.
* `Escaping.unescape_escape_iff`: a text comes back exactly where no match of the wide pattern is
  outside the narrow one.
-/

namespace MyOriShop.Lib.Replace

/-! ## Matches -/

/-- What each character of a match may be. -/
abbrev Pattern := List (Char → Bool)

/-- The pattern of one character. -/
def is (c : Char) : Char → Bool := fun d => d = c

/-- The text begins with a match. -/
def starts : Pattern → List Char → Bool
  | [], _ => true
  | _ :: _, [] => false
  | p :: ps, c :: cs => p c && starts ps cs

/-- Some rest of the text passes the test. -/
def anyTail (test : List Char → Bool) : List Char → Bool
  | [] => test []
  | c :: cs => test (c :: cs) || anyTail test cs

/-- A match stands somewhere in the text. -/
def occurs (p : Pattern) : List Char → Bool := anyTail (starts p)

/-- Every match rewritten; the first `skip` characters belong to the match before. -/
def sub (p : Pattern) (f : List Char → List Char) : ℕ → List Char → List Char
  | _, [] => []
  | skip + 1, _ :: cs => sub p f skip cs
  | 0, c :: cs =>
    if starts p (c :: cs) then f ((c :: cs).take p.length) ++ sub p f (p.length - 1) cs
    else c :: sub p f 0 cs

/-- Every match rewritten. -/
def replace (p : Pattern) (f : List Char → List Char) (cs : List Char) : List Char := sub p f 0 cs

variable {p q : Pattern} {f : List Char → List Char} {head mark : Char}

theorem starts_take : ∀ {p : Pattern} {cs : List Char}, starts p cs = true →
    starts p (cs.take p.length) = true ∧ (cs.take p.length).length = p.length
  | [], cs, _ => ⟨rfl, by simp⟩
  | q :: p, [], h => nomatch h
  | q :: p, c :: cs, h => by
    obtain ⟨hc, hcs⟩ := Bool.and_eq_true_iff.mp h
    obtain ⟨hstarts, hlength⟩ := starts_take hcs
    exact ⟨Bool.and_eq_true_iff.mpr ⟨hc, hstarts⟩, by simpa using hlength⟩

/-- The characters of a match, where no part of the pattern takes `head`. -/
theorem ne_of_starts : ∀ {p : Pattern} {cs : List Char}, starts p cs = true →
    (∀ q ∈ p, q head = false) → ∀ c ∈ cs.take p.length, c ≠ head
  | [], cs, _, _, c, hc => by simp at hc
  | q :: p, [], h, _, _, _ => nomatch h
  | q :: p, c :: cs, h, hhead, d, hd => by
    obtain ⟨hc, hcs⟩ := Bool.and_eq_true_iff.mp h
    obtain ⟨hq, hp⟩ := List.forall_mem_cons.mp hhead
    rcases List.mem_cons.mp hd with rfl | hd
    · rintro rfl
      rw [hq] at hc
      cases hc
    · exact ne_of_starts hcs hp d hd

/-- Where no match can begin, the text is copied. -/
theorem sub_zero_eq : ∀ {n : ℕ} {cs : List Char}, (∀ c ∈ cs.take n, c ≠ head) →
    sub (is head :: p) f 0 cs = cs.take n ++ sub (is head :: p) f n cs
  | 0, cs, _ => rfl
  | n + 1, [], _ => rfl
  | n + 1, c :: cs, h => by
    obtain ⟨hc, hcs⟩ := List.forall_mem_cons.mp h
    have hstarts : ¬starts (is head :: p) (c :: cs) = true := by simp [starts, is, hc]
    have hzero : sub (is head :: p) f 0 (c :: cs) = c :: sub (is head :: p) f 0 cs := if_neg hstarts
    rw [hzero, sub_zero_eq hcs, sub, List.take_succ_cons, List.cons_append]

theorem anyTail_eq_false {test : List Char → Bool} {cs : List Char}
    (htest : ∀ l, test l = true → l.head? = some head) (h : head ∉ cs) :
    anyTail test cs = false := by
  induction cs with
  | nil =>
    rw [anyTail, Bool.eq_false_iff]
    exact fun ht => nomatch htest [] ht
  | cons c cs ih =>
    obtain ⟨hc, hcs⟩ := not_or.mp (mt List.mem_cons.mpr h)
    rw [anyTail, ih hcs, Bool.or_false, Bool.eq_false_iff]
    intro ht
    exact hc (Option.some_inj.mp (htest _ ht)).symm

theorem head_of_starts {l : List Char} (h : starts (is head :: p) l = true) :
    l.head? = some head := by
  cases l with
  | nil => cases h
  | cons c l =>
    have hc : c = head := of_decide_eq_true (Bool.and_eq_true_iff.mp h).1
    rw [hc, List.head?_cons]

/-! ## Escaping -/

/-- An escape and its inverse. The escape puts `mark` behind the `head` of every match of `wide`,
the inverse takes it out in front of every match of `narrow`. -/
structure Escaping where
  head : Char
  mark : Char
  wide : Pattern
  narrow : Pattern
  put : List Char → List Char
  take : List Char → List Char
  mark_ne : mark ≠ head
  head_wide : ∀ q ∈ wide, q head = false
  head_narrow : ∀ q ∈ narrow, q head = false
  narrow_wide : ∀ cs, starts narrow cs = true → starts wide cs = true
  put_eq : ∀ m, starts wide m = true → m.length = wide.length →
    put (head :: m) = head :: mark :: m
  take_eq : ∀ m, starts narrow m = true → m.length = narrow.length →
    take (head :: mark :: m) = head :: m

namespace Escaping

variable (e : Escaping)

/-- The escape. -/
def escape (cs : List Char) : List Char := replace (is e.head :: e.wide) e.put cs

/-- Its inverse. -/
def unescape (cs : List Char) : List Char :=
  replace (is e.head :: is e.mark :: e.narrow) e.take cs

/-- The text begins with a match that the inverse does not know. -/
def losing (cs : List Char) : Bool :=
  starts (is e.head :: e.wide) cs && !starts (is e.head :: e.narrow) cs

/-- Such a match stands somewhere in the text. -/
def lost : List Char → Bool := anyTail e.losing

/-- What the inverse would take for an escaped match. -/
def marked : Pattern := is e.head :: is e.mark :: e.narrow

theorem escape_cons (c : Char) (cs : List Char) : e.escape (c :: cs) =
    if c = e.head ∧ starts e.wide cs = true then e.head :: e.mark :: e.escape cs
    else c :: e.escape cs := by
  have hstarts : starts (is e.head :: e.wide) (c :: cs) = true ↔
      c = e.head ∧ starts e.wide cs = true := by simp [starts, is]
  rw [escape, replace, sub]
  split_ifs with h h' h'
  · obtain ⟨rfl, hcs⟩ := h'
    obtain ⟨hm, hlength⟩ := starts_take hcs
    have hcopy : e.escape cs = cs.take e.wide.length ++
        sub (is e.head :: e.wide) e.put e.wide.length cs :=
      sub_zero_eq (ne_of_starts hcs e.head_wide)
    rw [List.length_cons, List.take_succ_cons, e.put_eq _ hm hlength, hcopy]
    rfl
  · exact absurd (hstarts.mp h) h'
  · exact absurd (hstarts.mpr h') h
  · rfl

theorem unescape_cons (c : Char) (cs : List Char) : e.unescape (c :: cs) =
    if c = e.head ∧ starts (is e.mark :: e.narrow) cs = true then e.head :: e.unescape cs.tail
    else c :: e.unescape cs := by
  have hstarts : starts (is e.head :: is e.mark :: e.narrow) (c :: cs) = true ↔
      c = e.head ∧ starts (is e.mark :: e.narrow) cs = true := by simp [starts, is]
  rw [unescape, replace, sub]
  split_ifs with h h' h'
  · obtain ⟨rfl, hcs⟩ := h'
    cases cs with
    | nil => cases hcs
    | cons d ds =>
      obtain ⟨hd, hds⟩ := Bool.and_eq_true_iff.mp hcs
      obtain rfl : d = e.mark := of_decide_eq_true hd
      obtain ⟨hm, hlength⟩ := starts_take hds
      have hcopy : e.unescape ds = ds.take e.narrow.length ++
          sub (is e.head :: is e.mark :: e.narrow) e.take e.narrow.length ds :=
        sub_zero_eq (ne_of_starts hds e.head_narrow)
      rw [List.length_cons, List.length_cons, List.take_succ_cons, List.take_succ_cons,
        e.take_eq _ hm hlength, List.tail_cons, hcopy]
      rfl
  · exact absurd (hstarts.mp h) h'
  · exact absurd (hstarts.mpr h') h
  · rfl

theorem mem_escape {d : Char} : ∀ {cs : List Char}, d ∈ e.escape cs → d ∈ cs ∨ d = e.mark
  | [], h => nomatch h
  | c :: cs, h => by
    rw [escape_cons] at h
    split_ifs at h with hc
    · rw [List.mem_cons, List.mem_cons, ← hc.1] at h
      rcases h with rfl | rfl | h
      · exact .inl List.mem_cons_self
      · exact .inr rfl
      · exact (mem_escape h).imp_left (List.mem_cons_of_mem _)
    · rcases List.mem_cons.mp h with rfl | h
      · exact .inl List.mem_cons_self
      · exact (mem_escape h).imp_left (List.mem_cons_of_mem _)

theorem mem_unescape {d : Char} {cs : List Char} (h : d ∈ e.unescape cs) : d ∈ cs := by
  match cs with
  | [] => cases h
  | c :: cs =>
    rw [unescape_cons] at h
    split_ifs at h with hc
    · rw [← hc.1] at h
      rcases List.mem_cons.mp h with rfl | h
      · exact List.mem_cons_self
      · exact List.mem_cons_of_mem _ (List.mem_of_mem_tail (mem_unescape h))
    · rcases List.mem_cons.mp h with rfl | h
      · exact List.mem_cons_self
      · exact List.mem_cons_of_mem _ (mem_unescape h)
termination_by cs.length
decreasing_by
  · simp only [List.length_tail, List.length_cons]
    omega
  · simp

/-- A pattern without `head` does not see the escape. -/
theorem starts_escape : ∀ {p : Pattern}, (∀ q ∈ p, q e.head = false) → ∀ cs,
    starts p (e.escape cs) = starts p cs
  | [], _, _ => rfl
  | _ :: _, _, [] => rfl
  | q :: p, hp, c :: cs => by
    obtain ⟨hq, hp⟩ := List.forall_mem_cons.mp hp
    rw [escape_cons]
    split_ifs with h
    · rw [h.1]
      simp [starts, hq]
    · rw [starts, starts, starts_escape hp]

theorem unescape_mark (cs : List Char) : e.unescape (e.mark :: cs) = e.mark :: e.unescape cs := by
  rw [unescape_cons, if_neg fun h => e.mark_ne h.1]

/-- From left to right: the mark stays exactly behind a match that the inverse does not know. -/
theorem unescape_escape_cons {c : Char} {cs : List Char}
    (hhere : starts e.marked (c :: cs) = false) : e.unescape (e.escape (c :: cs)) =
      if e.losing (c :: cs) = true then e.head :: e.mark :: e.unescape (e.escape cs)
      else c :: e.unescape (e.escape cs) := by
  have hlosing : e.losing (c :: cs) = true ↔
      (c = e.head ∧ starts e.wide cs = true) ∧ ¬starts e.narrow cs = true := by
    by_cases hc : c = e.head <;> simp [losing, starts, is, hc]
  by_cases hc : c = e.head ∧ starts e.wide cs = true
  · have hnarrow : starts (is e.mark :: e.narrow) (e.mark :: e.escape cs) =
        starts e.narrow cs := by
      rw [starts, is, decide_eq_true rfl, Bool.true_and, e.starts_escape e.head_narrow]
    rw [escape_cons, if_pos hc, unescape_cons, hnarrow]
    by_cases hn : starts e.narrow cs = true
    · rw [if_pos ⟨rfl, hn⟩, if_neg fun h => (hlosing.mp h).2 hn, List.tail_cons, hc.1]
    · rw [if_neg fun h => hn h.2, if_pos (hlosing.mpr ⟨hc, hn⟩), unescape_mark]
  · have hmark : ∀ q ∈ is e.mark :: e.narrow, q e.head = false :=
      List.forall_mem_cons.mpr ⟨decide_eq_false e.mark_ne.symm, e.head_narrow⟩
    have hmarked : ¬(c = e.head ∧ starts (is e.mark :: e.narrow) (e.escape cs) = true) := by
      rintro ⟨rfl, h⟩
      rw [e.starts_escape hmark] at h
      simp [marked, starts, is] at hhere h
      simp [h] at hhere
    rw [escape_cons, if_neg hc, unescape_cons, if_neg hmarked, if_neg fun h => hc (hlosing.mp h).1]

/-- Nothing is taken away. -/
theorem length_le : ∀ {cs : List Char}, occurs e.marked cs = false →
    cs.length ≤ (e.unescape (e.escape cs)).length
  | [], _ => Nat.zero_le _
  | c :: cs, hclean => by
    obtain ⟨hhere, hrest⟩ := Bool.or_eq_false_iff.mp hclean
    have ih := length_le hrest
    rw [e.unescape_escape_cons hhere]
    split_ifs <;> simp only [List.length_cons] <;> omega

/-- Behind a match that the inverse does not know, the mark stays. -/
theorem length_lt : ∀ {cs : List Char}, occurs e.marked cs = false → e.lost cs = true →
    cs.length < (e.unescape (e.escape cs)).length
  | [], _, hlost => nomatch hlost
  | c :: cs, hclean, hlost => by
    obtain ⟨hhere, hrest⟩ := Bool.or_eq_false_iff.mp hclean
    have hle := e.length_le hrest
    rw [e.unescape_escape_cons hhere]
    split_ifs with hlosing
    · simp only [List.length_cons]
      omega
    · have hlt := length_lt hrest ((Bool.or_eq_true_iff.mp hlost).resolve_left hlosing)
      simp only [List.length_cons]
      omega

theorem unescape_escape : ∀ {cs : List Char}, occurs e.marked cs = false → e.lost cs = false →
    e.unescape (e.escape cs) = cs
  | [], _, _ => rfl
  | c :: cs, hclean, hlost => by
    obtain ⟨hhere, hrest⟩ := Bool.or_eq_false_iff.mp hclean
    obtain ⟨hlosing, hlost⟩ := Bool.or_eq_false_iff.mp hlost
    rw [e.unescape_escape_cons hhere, if_neg (Bool.eq_false_iff.mp hlosing),
      unescape_escape hrest hlost]

/-- A text in which nothing looks escaped comes back exactly where the inverse knows every
match. -/
theorem unescape_escape_iff {cs : List Char} (hclean : occurs e.marked cs = false) :
    e.unescape (e.escape cs) = cs ↔ e.lost cs = false := by
  constructor
  · intro h
    rw [Bool.eq_false_iff]
    intro hlost
    have hlt := e.length_lt hclean hlost
    rw [h] at hlt
    exact Nat.lt_irrefl _ hlt
  · exact e.unescape_escape hclean

end Escaping

end MyOriShop.Lib.Replace
