import Mathlib.Algebra.Order.Field.Basic
import Mathlib.Algebra.Order.Group.MinMax
import Mathlib.Data.List.Count
import Mathlib.Tactic.Linarith

/-!
# TokenBucket: a bucket that is refilled by the time between two readings of a clock

* `take` refills a bucket up to the reading and takes one token, if there is one; a bucket that is
  not there yet is a full one of that time. The reading is kept whether it is later than the one
  before it or not.
* `grants` are the answers to a list of readings, `drained` is what they leave of the bucket.
* `advance`: how far a list of readings moves forward, backward moves not deducted.

Results:
* `granted_le`: as many are granted as the bucket holds, and what the readings advance by; the
  first of them only fills the bucket.
* `advance_le`: readings in order advance by no more than the time they are taken in.
-/

namespace MyOriShop.Lib.TokenBucket

variable {K : Type} [Field K] [LinearOrder K]

/-- What is left, and the reading at which it was. -/
structure Bucket (K : Type) where
  tokens : K
  last : K

/-- Refilled up to `now`. -/
def refill (capacity rate : K) (stored : Option (Bucket K)) (now : K) : K :=
  let bucket := stored.getD ⟨capacity, now⟩
  min capacity (bucket.tokens + max 0 (now - bucket.last) * rate)

/-- One token, if there is one. -/
def take (capacity rate : K) (stored : Option (Bucket K)) (now : K) : Bool × Bucket K :=
  let tokens := refill capacity rate stored now
  if tokens < 1 then (false, ⟨tokens, now⟩) else (true, ⟨tokens - 1, now⟩)

/-- The answers, one after another. -/
def grants (capacity rate : K) : Option (Bucket K) → List K → List Bool
  | _, [] => []
  | stored, now :: nows =>
    (take capacity rate stored now).1 ::
      grants capacity rate (some (take capacity rate stored now).2) nows

/-- The bucket after them. -/
def drained (capacity rate : K) (stored : Option (Bucket K)) (nows : List K) : Option (Bucket K) :=
  nows.foldl (fun stored now => some (take capacity rate stored now).2) stored

/-- The sum of the forward moves. -/
def advance : List K → K
  | now :: now' :: nows => max 0 (now' - now) + advance (now' :: nows)
  | _ => 0

/-- No bucket holds less than nothing. -/
def Filled (stored : Option (Bucket K)) : Prop := ∀ b ∈ stored, 0 ≤ b.tokens

variable {capacity rate : K} {stored : Option (Bucket K)} {now s t : K} {nows : List K}

theorem grants_append (stored : Option (Bucket K)) (nows nows' : List K) :
    grants capacity rate stored (nows ++ nows') = grants capacity rate stored nows ++
      grants capacity rate (drained capacity rate stored nows) nows' := by
  induction nows generalizing stored with
  | nil => rfl
  | cons now nows ih =>
    rw [List.cons_append, grants, grants, List.cons_append, ih]
    rfl

theorem drained_append (stored : Option (Bucket K)) (nows nows' : List K) :
    drained capacity rate stored (nows ++ nows') =
      drained capacity rate (drained capacity rate stored nows) nows' :=
  List.foldl_append

theorem length_grants (stored : Option (Bucket K)) (nows : List K) :
    (grants capacity rate stored nows).length = nows.length := by
  induction nows generalizing stored with
  | nil => rfl
  | cons now nows ih => rw [grants, List.length_cons, ih, List.length_cons]

variable [IsStrictOrderedRing K]

theorem refill_nonneg (now : K) (hcapacity : 0 ≤ capacity) (hrate : 0 ≤ rate) (h : Filled stored) :
    0 ≤ refill capacity rate stored now := by
  have htokens : 0 ≤ (stored.getD ⟨capacity, now⟩).tokens := by
    cases stored with
    | none => exact hcapacity
    | some b => exact h b rfl
  exact le_min hcapacity (add_nonneg htokens (mul_nonneg (le_max_left _ _) hrate))

theorem filled_take (hcapacity : 0 ≤ capacity) (hrate : 0 ≤ rate) (h : Filled stored) :
    Filled (some (take capacity rate stored now).2) := by
  intro b hb
  cases hb
  unfold take
  simp only
  split_ifs with hless
  · exact refill_nonneg now hcapacity hrate h
  · exact sub_nonneg.mpr (not_lt.mp hless)

theorem filled_drained (hcapacity : 0 ≤ capacity) (hrate : 0 ≤ rate) (h : Filled stored) :
    Filled (drained capacity rate stored nows) := by
  induction nows generalizing stored with
  | nil => exact h
  | cons now nows ih => exact ih (filled_take hcapacity hrate h)

/-- What one answer leaves for the others. -/
theorem granted_cons_le (hcapacity : 0 ≤ capacity) (hrate : 0 ≤ rate) (h : Filled stored)
    (hrest : ∀ tokens : K, 0 ≤ tokens →
      ((grants capacity rate (some ⟨tokens, now⟩) nows).count true : K) ≤
        tokens + rate * advance (now :: nows)) :
    ((grants capacity rate stored (now :: nows)).count true : K) ≤
      refill capacity rate stored now + rate * advance (now :: nows) := by
  have htokens := refill_nonneg now hcapacity hrate h
  rw [grants]
  unfold take
  simp only
  split_ifs with hless
  · rw [List.count_cons_of_ne Bool.false_ne_true]
    exact hrest _ htokens
  · rw [List.count_cons_self, Nat.cast_add, Nat.cast_one]
    linarith [hrest _ (sub_nonneg.mpr (not_lt.mp hless))]

/-- From a bucket that is there, every forward move counts. -/
theorem granted_le_of_some (hcapacity : 0 ≤ capacity) (hrate : 0 ≤ rate) {tokens last : K}
    (htokens : 0 ≤ tokens) :
    ((grants capacity rate (some ⟨tokens, last⟩) nows).count true : K) ≤
      tokens + rate * advance (last :: nows) := by
  induction nows generalizing tokens last with
  | nil => simpa [grants, advance] using htokens
  | cons now nows ih =>
    have hfilled : Filled (some (⟨tokens, last⟩ : Bucket K)) := by
      intro b hb
      cases hb
      exact htokens
    have hfirst := granted_cons_le hcapacity hrate hfilled
      (fun _ hnow => @ih _ now hnow)
    have hrefill : refill capacity rate (some ⟨tokens, last⟩) now ≤
        tokens + max 0 (now - last) * rate := min_le_right _ _
    rw [advance, mul_add, mul_comm rate (max 0 (now - last))]
    linarith

/-- **What is granted.** The first reading fills the bucket at most; after it every forward move
counts. -/
theorem granted_le (hcapacity : 0 ≤ capacity) (hrate : 0 ≤ rate) (h : Filled stored) :
    ((grants capacity rate stored nows).count true : K) ≤ capacity + rate * advance nows := by
  cases nows with
  | nil => simpa [grants, advance] using hcapacity
  | cons now nows =>
    have hfirst : ((grants capacity rate stored (now :: nows)).count true : K) ≤
        refill capacity rate stored now + rate * advance (now :: nows) :=
      granted_cons_le hcapacity hrate h fun _ => granted_le_of_some hcapacity hrate
    have hrefill : refill capacity rate stored now ≤ capacity := min_le_left _ _
    linarith

theorem advance_cons_le (horder : (now :: nows).IsChain (· ≤ ·))
    (hlast : ∀ now' ∈ now :: nows, now' ≤ t) : advance (now :: nows) ≤ t - now := by
  induction nows generalizing now with
  | nil => simpa [advance] using hlast now List.mem_cons_self
  | cons now' nows ih =>
    obtain ⟨hle, horder⟩ := List.isChain_cons_cons.mp horder
    have hrest := ih horder fun m hm => hlast m (List.mem_cons_of_mem _ hm)
    rw [advance, max_eq_right (sub_nonneg.mpr hle)]
    linarith

/-- **Readings in order** advance by no more than the time they are taken in. -/
theorem advance_le (hst : s ≤ t) (horder : (s :: nows).IsChain (· ≤ ·))
    (hlast : ∀ now ∈ nows, now ≤ t) : advance nows ≤ t - s := by
  cases nows with
  | nil => simpa [advance] using hst
  | cons now nows =>
    obtain ⟨hle, horder⟩ := List.isChain_cons_cons.mp horder
    exact (advance_cons_le horder hlast).trans (sub_le_sub_left hle t)

end MyOriShop.Lib.TokenBucket
