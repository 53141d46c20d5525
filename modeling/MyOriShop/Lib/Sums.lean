import Mathlib.Algebra.Ring.Int.Defs
import Mathlib.Data.List.Perm.Basic

/-!
# Sums: a ledger added up by a condition

`sumOver w p l` adds the weights `w` of the entries of `l` that satisfy `p`, the `SELECT SUM(w)
WHERE p` of a ledger.

* `sumOver_cons`, `sumOver_append`, `sumOver_perm` follow the ledger.
* `sumOver_congr`, `sumOver_split`, `sumOver_or` follow the condition.
* `sum_lines` adds up the lines of a table with a line for some keys, `sum_sumOver_keys` the sums of
  some keys.
* `sumOver_byOwner` adds up the owners' sums: when the owners' keys are pairwise distinct, each
  entry is counted once, by the owner its reference names. `sumOver_byKey` does so for weights
  with a factor that depends on the key.
-/

namespace MyOriShop.Lib.Sums

variable {α β κ : Type}

/-- The weights of the entries that satisfy `p`, added up. -/
def sumOver (w : α → Int) (p : α → Bool) (l : List α) : Int :=
  l.foldr (fun a s => (if p a then w a else 0) + s) 0

@[simp] theorem sumOver_nil (w : α → Int) (p : α → Bool) : sumOver w p [] = 0 := rfl

theorem sumOver_cons (w : α → Int) (p : α → Bool) (a : α) (l : List α) :
    sumOver w p (a :: l) = (if p a then w a else 0) + sumOver w p l := rfl

@[simp] theorem sumOver_append (w : α → Int) (p : α → Bool) (l l' : List α) :
    sumOver w p (l ++ l') = sumOver w p l + sumOver w p l' := by
  induction l with
  | nil => rw [List.nil_append, sumOver_nil, Int.zero_add]
  | cons a l ih => rw [List.cons_append, sumOver_cons, sumOver_cons, ih, Int.add_assoc]

theorem sumOver_perm {w : α → Int} {p : α → Bool} {l l' : List α} (h : l.Perm l') :
    sumOver w p l = sumOver w p l' := by
  induction h with
  | nil => rfl
  | cons a _ ih => rw [sumOver_cons, sumOver_cons, ih]
  | swap a b l =>
    rw [sumOver_cons, sumOver_cons, sumOver_cons, sumOver_cons]
    omega
  | trans _ _ ih ih' => rw [ih, ih']

/-- Conditions that agree on the entries of weight other than 0 give the same sum. -/
theorem sumOver_congr {w : α → Int} {p q : α → Bool} {l : List α}
    (h : ∀ a ∈ l, w a ≠ 0 → p a = q a) : sumOver w p l = sumOver w q l := by
  induction l with
  | nil => rfl
  | cons a l ih =>
    rw [sumOver_cons, sumOver_cons, ih fun b hb => h b (List.mem_cons_of_mem _ hb)]
    by_cases hw : w a = 0
    · simp [hw]
    · rw [h a List.mem_cons_self hw]

/-- Nothing but entries of weight 0 satisfies the condition. -/
theorem sumOver_eq_zero {w : α → Int} {p : α → Bool} {l : List α}
    (h : ∀ a ∈ l, p a = true → w a = 0) : sumOver w p l = 0 := by
  induction l with
  | nil => rfl
  | cons a l ih =>
    rw [sumOver_cons, ih fun b hb => h b (List.mem_cons_of_mem _ hb)]
    by_cases hp : p a = true
    · rw [if_pos hp, h a List.mem_cons_self hp, Int.zero_add]
    · rw [if_neg hp, Int.zero_add]

/-- A sum is split by a second condition. -/
theorem sumOver_split (w : α → Int) (p q : α → Bool) (l : List α) :
    sumOver w p l = sumOver w (fun a => p a && q a) l + sumOver w (fun a => p a && !q a) l := by
  induction l with
  | nil => rfl
  | cons a l ih =>
    rw [sumOver_cons, sumOver_cons, sumOver_cons, ih]
    cases p a <;> cases q a <;> simp <;> omega

/-- Equal weights on the entries that count give the same sum. -/
theorem sumOver_weights {w w' : α → Int} {p : α → Bool} {l : List α}
    (h : ∀ a ∈ l, p a = true → w a = w' a) : sumOver w p l = sumOver w' p l := by
  induction l with
  | nil => rfl
  | cons a l ih =>
    rw [sumOver_cons, sumOver_cons, ih fun b hb => h b (List.mem_cons_of_mem _ hb)]
    by_cases hp : p a = true
    · rw [if_pos hp, if_pos hp, h a List.mem_cons_self hp]
    · rw [if_neg hp, if_neg hp]

theorem sumOver_add (w w' : α → Int) (p : α → Bool) (l : List α) :
    sumOver (fun a => w a + w' a) p l = sumOver w p l + sumOver w' p l := by
  induction l with
  | nil => rfl
  | cons a l ih =>
    rw [sumOver_cons, sumOver_cons, sumOver_cons, ih]
    split_ifs <;> omega

theorem sumOver_nonneg {w : α → Int} {p : α → Bool} {l : List α}
    (h : ∀ a ∈ l, p a = true → 0 ≤ w a) : 0 ≤ sumOver w p l := by
  induction l with
  | nil => exact Int.le_refl 0
  | cons a l ih =>
    have hrest := ih fun b hb => h b (List.mem_cons_of_mem _ hb)
    rw [sumOver_cons]
    by_cases hp : p a = true
    · have ha := h a List.mem_cons_self hp
      rw [if_pos hp]
      omega
    · rw [if_neg hp]
      omega

theorem sumOver_neg (w : α → Int) (p : α → Bool) (l : List α) :
    sumOver (fun a => -w a) p l = -sumOver w p l := by
  induction l with
  | nil => rfl
  | cons a l ih =>
    rw [sumOver_cons, sumOver_cons, ih]
    split_ifs <;> omega

/-- Two conditions that exclude each other. -/
theorem sumOver_or {w : α → Int} {p q : α → Bool} {l : List α}
    (h : ∀ a ∈ l, p a = true → q a = false) :
    sumOver w (fun a => p a || q a) l = sumOver w p l + sumOver w q l := by
  induction l with
  | nil => rfl
  | cons a l ih =>
    have ha := h a List.mem_cons_self
    rw [sumOver_cons, sumOver_cons, sumOver_cons, ih fun b hb => h b (List.mem_cons_of_mem _ hb)]
    cases hp : p a with
    | false =>
      simp only [Bool.false_or]
      cases q a <;> simp
      omega
    | true =>
      rw [ha hp]
      simp
      omega

/-- A list with entries left out. -/
theorem sumOver_filter (w : α → Int) (p q : α → Bool) (l : List α) :
    sumOver w p (l.filter q) = sumOver w (fun a => p a && q a) l := by
  induction l with
  | nil => rfl
  | cons a l ih =>
    rw [sumOver_cons, ← ih]
    cases hq : q a with
    | false => simp [hq]
    | true => rw [List.filter_cons_of_pos hq, sumOver_cons, Bool.and_true]

/-- A list mapped entry by entry. -/
theorem sumOver_map (w : β → Int) (p : β → Bool) (f : α → β) (l : List α) :
    sumOver w p (l.map f) = sumOver (fun a => w (f a)) (fun a => p (f a)) l := by
  induction l with
  | nil => rfl
  | cons a l ih => rw [List.map_cons, sumOver_cons, sumOver_cons, ih]

/-- The figures of the lines that a table has for some of its keys. -/
theorem sum_lines {L : Type} {line : κ → Option L} {name : L → β} {key : κ → β} {w : L → Int}
    {v : κ → Int} (hname : ∀ k l, line k = some l → name l = key k)
    (hvalue : ∀ k, (line k).elim 0 w = v k) (p : β → Bool) (keys : List κ) :
    (((keys.filterMap line).filter fun l => p (name l)).map w).sum =
      ((keys.filter fun k => p (key k)).map v).sum := by
  induction keys with
  | nil => rfl
  | cons k keys ih =>
    have hk := hvalue k
    cases hline : line k with
    | none =>
      rw [hline] at hk
      rw [List.filterMap_cons_none hline, ih, List.filter_cons]
      split_ifs
      · rw [List.map_cons, List.sum_cons, ← hk]
        exact (Int.zero_add _).symm
      · rfl
    | some l =>
      rw [hline] at hk
      rw [List.filterMap_cons_some hline, List.filter_cons, List.filter_cons, hname k l hline]
      split_ifs
      · rw [List.map_cons, List.map_cons, List.sum_cons, List.sum_cons, ih, ← hk]
        rfl
      · exact ih

/-- The line of one key, if the table has it. -/
theorem sum_line [DecidableEq β] {L : Type} {line : κ → Option L} {name : L → β} {key : κ → β}
    {w : L → Int} {v : β → Int} (hname : ∀ k l, line k = some l → name l = key k)
    (hvalue : ∀ k, (line k).elim 0 w = v (key k)) {keys : List κ}
    (hkeys : (keys.map key).Nodup) (b : β) :
    (((keys.filterMap line).filter fun l => name l = b).map w).sum =
      if b ∈ keys.map key then v b else 0 := by
  have hmap : ((keys.filter fun k => key k = b).map fun k => v (key k)) =
      ((keys.map key).filter fun c => c = b).map v := by
    rw [List.filter_map, List.map_map]
    rfl
  have h := sum_lines hname hvalue (fun c => decide (c = b)) keys
  rw [h, hmap, List.filter_eq, hkeys.count]
  split_ifs <;> simp

/-! ## By owner -/

variable [DecidableEq κ]

/-- A constant counted at the owners a reference names is counted once, or never. -/
theorem sumOver_named {key : β → κ} {q : β → Bool} {bs : List β} (hkeys : (bs.map key).Nodup)
    (r : Option κ) (n : Int) :
    sumOver (fun b => if r = some (key b) then n else 0) q bs =
      if bs.any (fun b => q b && decide (r = some (key b))) then n else 0 := by
  induction bs with
  | nil => rfl
  | cons b bs ih =>
    obtain ⟨hb, hbs⟩ := List.nodup_cons.mp hkeys
    rw [sumOver_cons, ih hbs, List.any_cons]
    by_cases hr : r = some (key b)
    · have hnone : bs.any (fun b' => q b' && decide (r = some (key b'))) = false := by
        rw [List.any_eq_false]
        intro b' hb'
        have hne : key b ≠ key b' := fun h => hb (h ▸ List.mem_map_of_mem hb')
        simp [hr, hne]
      rw [hnone]
      cases q b <;> simp [hr]
    · cases q b <;> simp [hr]

/-- **The owners' sums, added up**: each entry is counted once, by the owner its reference
names. -/
theorem sumOver_byOwner {key : β → κ} {q : β → Bool} {bs : List β} (hkeys : (bs.map key).Nodup)
    (ref : α → Option κ) (w : α → Int) (l : List α) :
    sumOver (fun b => sumOver w (fun a => decide (ref a = some (key b))) l) q bs =
      sumOver w (fun a => bs.any fun b => q b && decide (ref a = some (key b))) l := by
  induction l with
  | nil =>
    simp only [sumOver_nil]
    exact sumOver_eq_zero fun _ _ _ => rfl
  | cons a l ih =>
    simp only [sumOver_cons, decide_eq_true_eq]
    rw [sumOver_add, ih, sumOver_named hkeys]

/-- **Weights that depend on a key**, added up key by key. -/
theorem sumOver_byKey {keys : List κ} (hkeys : keys.Nodup) {key : α → κ} {p : α → Bool}
    {l : List α} (hmem : ∀ a ∈ l, p a = true → key a ∈ keys) (v : α → Int) (g : κ → Int) :
    sumOver (fun a => v a * g (key a)) p l =
      sumOver (fun k => sumOver v (fun a => p a && decide (key a = k)) l * g k) (fun _ => true)
        keys := by
  induction l with
  | nil =>
    refine (sumOver_eq_zero fun k _ _ => ?_).symm
    rw [sumOver_nil, Int.zero_mul]
  | cons a l ih =>
    have hrest := ih fun b hb => hmem b (List.mem_cons_of_mem _ hb)
    -- the entry counts at its own key, once
    have hone : sumOver (fun k => if some (key a) = some k then v a * g (key a) else 0)
        (fun _ => true) keys = if key a ∈ keys then v a * g (key a) else 0 := by
      have hkeys' : (keys.map fun k => k).Nodup := by rwa [List.map_id']
      refine (sumOver_named hkeys' _ _).trans ?_
      simp only [Bool.true_and, Option.some.injEq, List.any_eq_true, decide_eq_true_eq,
        exists_eq_right']
    have hsplit : ∀ k, sumOver v (fun b => p b && decide (key b = k)) (a :: l) * g k =
        (if p a = true then if some (key a) = some k then v a * g (key a) else 0 else 0) +
          sumOver v (fun b => p b && decide (key b = k)) l * g k := by
      intro k
      rw [sumOver_cons, Int.add_mul]
      by_cases hk : key a = k
      · subst hk
        cases p a <;> simp
      · cases p a <;> simp [hk]
    simp only [hsplit]
    rw [sumOver_cons, hrest, sumOver_add]
    by_cases hp : p a = true
    · simp only [if_pos hp]
      rw [hone, if_pos (hmem a List.mem_cons_self hp)]
    · simp only [if_neg hp]
      rw [sumOver_eq_zero fun _ _ _ => rfl]

/-- **The sums of some keys**, added up: the entries whose key is one of them. -/
theorem sum_sumOver_keys {keys : List κ} (hkeys : keys.Nodup) (w : α → Int) (p : α → Bool)
    (key : α → κ) (l : List α) :
    (keys.map fun k => sumOver w (fun a => p a && decide (key a = k)) l).sum =
      sumOver w (fun a => p a && decide (key a ∈ keys)) l := by
  induction keys with
  | nil => exact (sumOver_eq_zero fun a _ h => by simp at h).symm
  | cons k keys ih =>
    obtain ⟨hk, hrest⟩ := List.nodup_cons.mp hkeys
    rw [List.map_cons, List.sum_cons, ih hrest, ← sumOver_or]
    · refine sumOver_congr fun a _ _ => ?_
      by_cases hkey : key a = k
      · simp only [hkey, List.mem_cons, true_or, decide_true, Bool.and_true]
        cases p a <;> rfl
      · simp [hkey, List.mem_cons]
    · intro a _ h
      simp only [Bool.and_eq_true, decide_eq_true_eq] at h
      rw [h.2, decide_eq_false hk, Bool.and_false]

end MyOriShop.Lib.Sums
