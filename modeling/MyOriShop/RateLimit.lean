import Mathlib.Algebra.Order.Ring.Rat
import Mathlib.Data.List.Pairwise
import MyOriShop.Lib.TokenBucket

/-!
# RateLimit: the limiter of the sync requests (`app/services/rate_limit.py`)

`check_rate_limit` reads the clock, and then waits for the lock, under which it refills the bucket of
the key and takes a token. The endpoints run in a threadpool: calls that have read the clock update
the bucket in any order, however much later.

* `checkRateLimit` is what happens under the lock.
* `Limiter`: the clock, the calls that have read it and wait for the lock, the buckets, and all
  updates that have been made; `Limiter.step` is one step of any thread or of the clock.
* `window key s t`: the updates of a key that were made between two times.

`reset_buckets` is left out: nothing but the tests calls it. Numbers are rational.

Results:
* `allowed_le`: what is allowed in a window is bounded by what its readings advance.
* `allowed_le_of_advance`: by the time, where they do not advance by more than it passes.
* `advance_window_le`: they do not where none is older than the window or than the one before it.
* `not_allowed_le`: a call that waited a minute for the lock sets the bucket back by that minute, and
  the next one is credited with it again.
-/

namespace MyOriShop

open Lib.TokenBucket

/-- `SYNC_BUCKET_CAPACITY`. -/
def syncBucketCapacity : ℚ := 30

/-- `SYNC_BUCKET_REFILL_PER_SECOND`. -/
def syncBucketRefillPerSecond : ℚ := 1 / 2

/-- The part of `check_rate_limit` under the lock: whether the call is allowed, and what is stored. -/
def checkRateLimit (stored : Option (Bucket ℚ)) (now : ℚ) : Bool × Bucket ℚ :=
  take syncBucketCapacity syncBucketRefillPerSecond stored now

/-- An update that was made at a time, by a call that had read the clock at `now`. -/
structure BucketUpdate where
  key : String
  time : ℚ
  now : ℚ
  allowed : Bool

/-- The limiter in the middle of the calls. -/
structure Limiter where
  time : ℚ
  /-- The keys of the calls that wait for the lock, and what they read from the clock. -/
  waiting : List (String × ℚ)
  buckets : String → Option (Bucket ℚ)
  updates : List BucketUpdate

/-- What can happen next. -/
inductive LimiterStep where
  | tick (elapsed : ℚ)
  | read (key : String)
  /-- A waiting call gets the lock. -/
  | update (call : Nat)

namespace Limiter

/-- `_buckets` of a new process. -/
def start (time : ℚ) : Limiter := ⟨time, [], fun _ => none, []⟩

/-- A waiting call is done. -/
def update (l : Limiter) (call : Nat) (key : String) (now : ℚ) : Limiter :=
  let out := checkRateLimit (l.buckets key) now
  { l with
    waiting := l.waiting.eraseIdx call
    buckets := Function.update l.buckets key (some out.2)
    updates := l.updates ++ [⟨key, l.time, now, out.1⟩] }

/-- One step, if it is possible. -/
def step (l : Limiter) : LimiterStep → Option Limiter
  | .tick elapsed => if 0 ≤ elapsed then some { l with time := l.time + elapsed } else none
  | .read key => some { l with waiting := l.waiting ++ [(key, l.time)] }
  | .update call => l.waiting[call]?.map fun c => l.update call c.1 c.2

/-- The steps one after another. -/
def run (l : Limiter) (steps : List LimiterStep) : Option Limiter := steps.foldlM step l

/-- The updates of a key. -/
def updatesOf (l : Limiter) (key : String) : List BucketUpdate :=
  l.updates.filter (·.key = key)

/-- Those that were made between two times. -/
def window (l : Limiter) (key : String) (s t : ℚ) : List BucketUpdate :=
  (l.updatesOf key).filter fun u => s ≤ u.time ∧ u.time ≤ t

/-- The calls that were allowed by them. -/
def allowed (l : Limiter) (key : String) (s t : ℚ) : Nat :=
  (l.window key s t).countP (·.allowed)

/-! ## Every run -/

/-- The updates stand in the order of their times, none has a reading from its future, and the bucket
of a key is what they made of it. -/
structure Served (l : Limiter) : Prop where
  sorted : l.updates.Pairwise (·.time ≤ ·.time)
  past : ∀ u ∈ l.updates, u.time ≤ l.time
  read : ∀ u ∈ l.updates, u.now ≤ u.time
  waiting : ∀ c ∈ l.waiting, c.2 ≤ l.time
  answers : ∀ key, (l.updatesOf key).map BucketUpdate.allowed =
    grants syncBucketCapacity syncBucketRefillPerSecond none
      ((l.updatesOf key).map BucketUpdate.now)
  buckets : ∀ key, l.buckets key =
    drained syncBucketCapacity syncBucketRefillPerSecond none
      ((l.updatesOf key).map BucketUpdate.now)

variable {l l' : Limiter} {key : String} {s t : ℚ}

theorem start_served (time : ℚ) : (start time).Served where
  sorted := .nil
  past _ h := absurd h List.not_mem_nil
  read _ h := absurd h List.not_mem_nil
  waiting _ h := absurd h List.not_mem_nil
  answers _ := rfl
  buckets _ := rfl

theorem updatesOf_update (l : Limiter) (call : Nat) (key : String) (now : ℚ) (k : String) :
    (l.update call key now).updatesOf k = l.updatesOf k ++
      if key = k then [⟨key, l.time, now, (checkRateLimit (l.buckets key) now).1⟩] else [] := by
  unfold updatesOf update
  rw [List.filter_append, List.filter_cons, List.filter_nil]
  by_cases hk : key = k <;> simp [hk]

/-- **Every step** keeps the record of the updates. -/
theorem Served.step (h : Served l) {a : LimiterStep} (hstep : l.step a = some l') : Served l' := by
  cases a with
  | tick elapsed =>
    simp only [Limiter.step] at hstep
    split_ifs at hstep with helapsed
    cases hstep
    have hlater : l.time ≤ l.time + elapsed := le_add_of_nonneg_right helapsed
    exact { h with
      past := fun u hu => (h.past u hu).trans hlater
      waiting := fun c hc => (h.waiting c hc).trans hlater }
  | read key =>
    cases hstep
    refine { h with waiting := fun c hc => ?_ }
    rcases List.mem_append.mp hc with hc | hc
    · exact h.waiting c hc
    · rw [List.mem_singleton.mp hc]
  | update call =>
    obtain ⟨⟨key, now⟩, hcall, rfl⟩ := Option.map_eq_some_iff.mp hstep
    have hnow : now ≤ l.time := h.waiting _ (List.mem_of_getElem? hcall)
    constructor
    case sorted =>
      refine List.pairwise_append.mpr ⟨h.sorted, List.pairwise_singleton _ _, fun u hu u' hu' => ?_⟩
      rw [List.mem_singleton.mp hu']
      exact h.past u hu
    case past =>
      intro u hu
      rcases List.mem_append.mp hu with hu | hu
      · exact h.past u hu
      · rw [List.mem_singleton.mp hu]
        exact le_rfl
    case read =>
      intro u hu
      rcases List.mem_append.mp hu with hu | hu
      · exact h.read u hu
      · rw [List.mem_singleton.mp hu]
        exact hnow
    case waiting => exact fun c hc => h.waiting c (List.mem_of_mem_eraseIdx hc)
    case answers =>
      intro k
      rw [updatesOf_update]
      by_cases hk : key = k
      · subst hk
        rw [if_pos rfl, List.map_append, List.map_append, grants_append, h.answers key,
          ← h.buckets key]
        rfl
      · rw [if_neg hk, List.append_nil]
        exact h.answers k
    case buckets =>
      intro k
      rw [updatesOf_update]
      by_cases hk : key = k
      · subst hk
        rw [if_pos rfl, List.map_append, drained_append, ← h.buckets key]
        exact Function.update_self ..
      · rw [if_neg hk, List.append_nil, ← h.buckets k]
        exact Function.update_of_ne (Ne.symm hk) ..

/-- **Every run.** -/
theorem Served.run (h : Served l) {steps : List LimiterStep} (hrun : l.run steps = some l') :
    Served l' := by
  induction steps generalizing l with
  | nil =>
    cases hrun
    exact h
  | cons a steps ih =>
    obtain ⟨mid, hmid, hrest⟩ := Option.bind_eq_some_iff.mp hrun
    exact ih (h.step hmid) hrest

/-! ## Windows -/

/-- What was made until a time stands before the rest. -/
theorem takeWhile_until {us : List BucketUpdate} (h : us.Pairwise (·.time ≤ ·.time)) (t : ℚ) :
    us.takeWhile (·.time ≤ t) = us.filter (·.time ≤ t) := by
  induction us with
  | nil => rfl
  | cons u us ih =>
    obtain ⟨hu, hus⟩ := List.pairwise_cons.mp h
    by_cases ht : u.time ≤ t
    · rw [List.takeWhile_cons_of_pos (by simpa using ht),
        List.filter_cons_of_pos (by simpa using ht), ih hus]
    · rw [List.takeWhile_cons_of_neg (by simpa using ht), eq_comm, List.filter_eq_nil_iff]
      intro u' hu' hle
      have hless : t < u'.time := by
        rcases List.mem_cons.mp hu' with rfl | hu'
        · exact not_le.mp ht
        · exact (not_le.mp ht).trans_le (hu u' hu')
      exact absurd (of_decide_eq_true hle) (not_le.mpr hless)

/-- What was made from a time on stands behind the rest. -/
theorem dropWhile_from {us : List BucketUpdate} (h : us.Pairwise (·.time ≤ ·.time)) (s : ℚ) :
    us.dropWhile (·.time < s) = us.filter (s ≤ ·.time) := by
  induction us with
  | nil => rfl
  | cons u us ih =>
    obtain ⟨hu, hus⟩ := List.pairwise_cons.mp h
    by_cases hs : u.time < s
    · rw [List.dropWhile_cons_of_pos (by simpa using hs),
        List.filter_cons_of_neg (by simpa using hs), ih hus]
    · rw [List.dropWhile_cons_of_neg (by simpa using hs), eq_comm, List.filter_eq_self]
      intro u' hu'
      rcases List.mem_cons.mp hu' with rfl | hu'
      · exact decide_eq_true (not_lt.mp hs)
      · exact decide_eq_true ((not_lt.mp hs).trans (hu u' hu'))

/-- The updates of a window stand together. -/
theorem window_infix (h : Served l) (key : String) (s t : ℚ) :
    ∃ pre post, l.updatesOf key = pre ++ l.window key s t ++ post := by
  have hsorted : (l.updatesOf key).Pairwise (·.time ≤ ·.time) := h.sorted.filter _
  have hwindow : l.window key s t =
      ((l.updatesOf key).takeWhile (·.time ≤ t)).dropWhile (·.time < s) := by
    rw [takeWhile_until hsorted, dropWhile_from (hsorted.filter _), List.filter_filter]
    refine List.filter_congr fun u _ => ?_
    rw [Bool.decide_and]
  refine ⟨((l.updatesOf key).takeWhile (·.time ≤ t)).takeWhile (·.time < s),
    (l.updatesOf key).dropWhile (·.time ≤ t), ?_⟩
  rw [hwindow, List.takeWhile_append_dropWhile, List.takeWhile_append_dropWhile]

/-- **What a window allows**: a full bucket, and what its readings advance. -/
theorem allowed_le (h : Served l) (key : String) (s t : ℚ) :
    (l.allowed key s t : ℚ) ≤ syncBucketCapacity + syncBucketRefillPerSecond *
      advance ((l.window key s t).map BucketUpdate.now) := by
  obtain ⟨pre, post, hupdates⟩ := window_infix h key s t
  have hanswers := h.answers key
  rw [hupdates, List.map_append, List.map_append, List.map_append, List.map_append, grants_append,
    grants_append] at hanswers
  obtain ⟨hbefore, -⟩ := List.append_inj hanswers (by
    simp [length_grants])
  obtain ⟨-, hwindow⟩ := List.append_inj hbefore (by simp [length_grants])
  have hcount : l.allowed key s t = ((l.window key s t).map BucketUpdate.allowed).count true := by
    rw [List.count, List.countP_map, allowed]
    refine List.countP_congr fun u _ => ?_
    simp
  rw [hcount, hwindow]
  refine granted_le (by decide +kernel) (by decide +kernel) (filled_drained ?_ ?_ ?_)
  · decide
  · decide +kernel
  · exact fun b hb => nomatch hb

/-- **The bound.** From a new process on, whatever threads read the clock and get the lock in whatever
order: in a window whose readings, in the order of the updates, advance by no more than the time
that passes, no more than a full bucket and the refill of that time is allowed. -/
theorem allowed_le_of_advance {t₀ : ℚ} {steps : List LimiterStep}
    (hrun : (start t₀).run steps = some l) (key : String) (s t : ℚ)
    (hadvance : advance ((l.window key s t).map BucketUpdate.now) ≤ t - s) :
    (l.allowed key s t : ℚ) ≤ 30 + 1 / 2 * (t - s) := by
  have hserved := (start_served t₀).run hrun
  refine (allowed_le hserved key s t).trans (add_le_add_right ?_ _)
  exact mul_le_mul_of_nonneg_left hadvance (by decide +kernel)

/-- Calls that get the lock as soon as they have read the clock, while as many others wait for it. -/
def promptCalls (key : String) (waiting calls : Nat) : List LimiterStep :=
  (List.replicate calls [LimiterStep.read key, .update waiting]).flatten

/-- Forty calls at once. -/
theorem allowed_le_of_advance_burst :
    ∃ l, (start 0).run (promptCalls "a1b2c3" 0 40) = some l ∧ l.allowed "a1b2c3" 0 0 = 30 ∧
      (l.allowed "a1b2c3" 0 0 : ℚ) ≤ 30 + 1 / 2 * (0 - 0) := by
  have hburst : ((start 0).run (promptCalls "a1b2c3" 0 40)).map (fun l =>
      (l.allowed "a1b2c3" 0 0, advance ((l.window "a1b2c3" 0 0).map BucketUpdate.now))) =
      some (30, 0) := by decide +kernel
  obtain ⟨l, hrun, hl⟩ := Option.map_eq_some_iff.mp hburst
  obtain ⟨hallowed, hadvance⟩ := Prod.mk.inj hl
  exact ⟨l, hrun, hallowed, allowed_le_of_advance hrun _ _ _ (hadvance.le.trans (by decide +kernel))⟩

/-- **Where the readings do not go back**: none is from before the window, or older than the one of
the update before it. -/
theorem advance_window_le (h : Served l) (hst : s ≤ t)
    (horder : (s :: (l.window key s t).map BucketUpdate.now).IsChain (· ≤ ·)) :
    advance ((l.window key s t).map BucketUpdate.now) ≤ t - s := by
  refine advance_le hst horder fun now hnow => ?_
  obtain ⟨u, hu, rfl⟩ := List.mem_map.mp hnow
  obtain ⟨hmem, hwithin⟩ := List.mem_filter.mp hu
  exact (h.read u (List.mem_filter.mp hmem).1).trans (of_decide_eq_true hwithin).2

/-- A call reads the clock, and waits a minute for the lock. Thirty others empty the bucket, and the
call is refused, with its own reading stored; one more call is credited with the minute. -/
def stalledCall : List LimiterStep :=
  .read "a1b2c3" :: .tick 60 :: promptCalls "a1b2c3" 1 30 ++ .update 0 :: promptCalls "a1b2c3" 0 1

/-- **One minute, credited twice**: 31 calls are allowed at one time. -/
theorem not_allowed_le : ∃ l, (start 0).run stalledCall = some l ∧
    l.allowed "a1b2c3" 60 60 = 31 ∧
    ¬(l.allowed "a1b2c3" 60 60 : ℚ) ≤ 30 + 1 / 2 * (60 - 60) := by
  have hstalled : ((start 0).run stalledCall).map (fun l => l.allowed "a1b2c3" 60 60) =
      some 31 := by decide +kernel
  obtain ⟨l, hrun, hallowed⟩ := Option.map_eq_some_iff.mp hstalled
  refine ⟨l, hrun, hallowed, ?_⟩
  rw [hallowed]
  decide +kernel

end Limiter

end MyOriShop
