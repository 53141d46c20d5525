import MyOriShop.Lib.Atomic
import MyOriShop.Runs

/-!
# Posting: what the two write paths stage (`app/services/ledger.py`, `finance.py`)

* `Recorded env args w op w'`: `record_operation` found the working copy `w` sound, its guards let
  the call pass, it appended the row `op` and left `w'`.
* `CashRecorded` is the same for `record_cash_movement`.
* `Answers checked`: a service's checks answer no, if they answer.

Results:
* `stages_recordOperation`, `stages_recordCashMovement`: that is all the two write paths do.
* `closes_orAnswer`: a service whose checks answer has written nothing.
-/

namespace MyOriShop

open Lib.IsoDate Lib.Transaction Lib.Fallible

/-! ## The clock -/

variable {α β : Type} {w c : Db} {env : Env}

theorem stages_localToday : Stages w (localToday env) fun _ w' => w' = w :=
  stages_tick (f := fun n => pure (env.localDay (env.clock n))) fun _ => stages_pure rfl

theorem stages_utcnowIso : Stages w (utcnowIso env) fun s w' => ClockText s ∧ w' = w := by
  refine stages_tick (f := fun n => pure (env.clock n).isoformat) fun n => stages_pure ?_
  have hclock : ClockText (env.clock n).isoformat := ⟨_, rfl⟩
  exact ⟨hclock, rfl⟩

theorem stages_dayOrToday (day : Option Date) :
    Stages w (dayOrToday env day) fun d w' => (∀ d' ∈ day, d = d') ∧ w' = w := by
  cases day with
  | none => exact stages_localToday.mono fun _ _ h => ⟨fun _ h' => (nomatch h'), h⟩
  | some d =>
    refine stages_pure ⟨?_, rfl⟩
    rintro _ ⟨⟩
    rfl

theorem stages_parseOpDate (raw : String) : Stages w (parseOpDate env raw) fun _ w' => w' = w := by
  unfold parseOpDate
  split_ifs
  · exact stages_pure rfl
  · cases Date.fromIso (Lib.Text.strip raw) with
    | none => exact stages_pure rfl
    | some parsed =>
      dsimp only
      split_ifs
      · exact stages_pure rfl
      · refine stages_bind stages_localToday ?_
        rintro today _ rfl
        split_ifs <;> exact stages_pure rfl

/-! ## The write paths -/

theorem stages_orRaise {r : Except Exn β} {k : β → Act α} {Q : α → Db → Prop}
    (h : ∀ b, r = .ok b → Stages w (k b) Q) : Stages w (orRaise r k) Q := by
  unfold orRaise
  split
  · exact h _ rfl
  · exact stages_raise

theorem stages_flush' {f : Unit → Act β} {Q : β → Db → Prop} (h : w.Ok → Stages w (f ()) Q) :
    Stages w (flush >>= f) Q :=
  stages_flush fun hc => h ((Db.check_iff w).mp hc)

/-- What `record_operation` has checked and appended. -/
structure Recorded (env : Env) (args : OperationArgs) (w : Db) (op : Operation) (w' : Db) :
    Prop where
  ok : w.Ok
  product : productGuard w args = .ok ()
  batch : batchGuard env w args = .ok op.batchId
  row : ∃ createdAt day, ClockText createdAt ∧ (∀ d ∈ args.businessDate, day = d) ∧
    op = newOperation env w args op.batchId createdAt day
  next : ∃ stamp, w' = w.applyOperation op stamp

/-- **The single write path for stock.** -/
theorem stages_recordOperation (args : OperationArgs) :
    Stages w (recordOperation env args) (Recorded env args w) := by
  unfold recordOperation
  refine stages_orRaise fun _ _ => stages_flush' fun hok => stages_read ?_
  refine stages_orRaise fun _ hproduct => stages_orRaise fun batchId hbatch => ?_
  refine stages_bind stages_utcnowIso ?_
  rintro createdAt _ ⟨hcreated, rfl⟩
  refine stages_bind (stages_dayOrToday args.businessDate) ?_
  rintro day _ ⟨hday, rfl⟩
  refine stages_bind stages_utcnowIso ?_
  rintro stamp w' ⟨-, rfl⟩
  refine stages_stage (stages_pure ?_)
  exact ⟨hok, hproduct, hbatch, ⟨createdAt, day, hcreated, hday, rfl⟩, stamp, rfl⟩

/-- What `record_cash_movement` has checked and appended. -/
structure CashRecorded (env : Env) (args : CashArgs) (w : Db) (m : CashMovement) (w' : Db) :
    Prop where
  ok : w.Ok
  guard : cashGuard args = .ok ()
  row : ∃ createdAt day, ClockText createdAt ∧ (∀ d ∈ args.businessDate, day = d) ∧
    m = newCashMovement env w args createdAt day
  next : w' = w.insert .cashMovement [m]

/-- **The single write path for cash.** -/
theorem stages_recordCashMovement (args : CashArgs) :
    Stages w (recordCashMovement env args) (CashRecorded env args w) := by
  unfold recordCashMovement
  refine stages_orRaise fun _ hguard => stages_flush' fun hok => ?_
  refine stages_bind stages_utcnowIso ?_
  rintro createdAt _ ⟨hcreated, rfl⟩
  refine stages_bind (stages_dayOrToday args.businessDate) ?_
  rintro day w' ⟨hday, rfl⟩
  refine stages_read (stages_stage (stages_pure ?_))
  exact ⟨hok, hguard, ⟨createdAt, day, hcreated, hday, rfl⟩, rfl⟩

/-! ## Answers -/

/-- The service wrote nothing. -/
def Outcome.No : Outcome α → Prop
  | .done _ => False
  | .warned _ | .refused _ => True

/-- The service is done. -/
def Outcome.isDone : Outcome α → Bool
  | .done _ => true
  | .warned _ | .refused _ => false

/-- The service asks for a confirmation. -/
def Outcome.isWarned : Outcome α → Bool
  | .warned _ => true
  | .done _ | .refused _ => false

theorem reply_done {x : Act (Outcome α)}
    (h : (x.reply w).toOption.any Outcome.isDone = true) : ∃ a, x.reply w = .ok (.done a) := by
  obtain ⟨answer, hreply, hanswer⟩ := toOption_any_iff.mp h
  cases answer with
  | done a => exact ⟨a, hreply⟩
  | warned | refused => cases hanswer

theorem reply_warned {x : Act (Outcome α)}
    (h : (x.reply w).toOption.any Outcome.isWarned = true) :
    ∃ warning, x.reply w = .ok (.warned warning) := by
  obtain ⟨answer, hreply, hanswer⟩ := toOption_any_iff.mp h
  cases answer with
  | warned warning => exact ⟨warning, hreply⟩
  | done | refused => cases hanswer

/-- The checks of a service answer no, if they answer. -/
def Answers (checked : Except (Outcome α) β) : Prop := ∀ a, checked = .error a → a.No

theorem answers_ok {b : β} : Answers (.ok b : Except (Outcome α) β) := fun _ h => nomatch h

theorem answers_refuse {field message : String} :
    Answers (refuse field message : Except (Outcome α) β) := by
  rintro _ ⟨⟩
  trivial

theorem refuse_bind {γ : Type} (field message : String) (f : γ → Except (Outcome α) β) :
    (refuse field message >>= f) = refuse field message := rfl

theorem warned_bind {γ : Type} (warning : Warning) (f : γ → Except (Outcome α) β) :
    ((throw (.warned warning) : Except (Outcome α) γ) >>= f) = throw (.warned warning) := rfl

theorem answers_warned {warning : Warning} :
    Answers (throw (.warned warning) : Except (Outcome α) β) := by
  rintro _ ⟨⟩
  trivial

theorem answers_stop {errors : Errors} : Answers (errors.stop : Except (Outcome α) Unit) := by
  unfold Errors.stop
  split_ifs
  · exact answers_ok
  · rintro _ ⟨⟩
    trivial

theorem answers_bind {γ : Type} {x : Except (Outcome α) γ} {f : γ → Except (Outcome α) β}
    (hx : Answers x) (hf : ∀ b, Answers (f b)) : Answers (x >>= f) := by
  cases x with
  | ok b => exact hf b
  | error a =>
    rintro _ ⟨⟩
    exact hx a rfl

/-- A service whose checks answer has written nothing. -/
theorem closes_orAnswer {checked : Except (Outcome α) β} {write : β → Act (Outcome α)}
    {Q : Outcome α → Db → Prop} (hno : Answers checked)
    (h : ∀ plan, checked = .ok plan → Closes c c Outcome.No (write plan) Q) :
    Closes c c Outcome.No (orAnswer checked write) Q := by
  unfold orAnswer
  split
  · next a => exact closes_refuse (hno a rfl)
  · exact h _ rfl

/-- The handler that rolls back and refuses. -/
theorem closes_rollbackWith {answer : Outcome α} {takes : Exn → Bool} {e : Exn}
    {y : Act (Outcome α)} {Q : Outcome α → Db → Prop}
    (h : rollbackWith answer takes e = some y) (hno : answer.No) (w : Db) :
    Closes c w Outcome.No y Q := by
  unfold rollbackWith at h
  split_ifs at h
  cases h
  exact closes_rollback hno

/-- The commit and the answer of a service that is done. -/
theorem closes_done {a : α} {Q : Outcome α → Db → Prop} (hQ : w.Ok → Q (.done a) w) :
    Closes c w Outcome.No (commit >>= fun _ => (pure (.done a) : Act (Outcome α))) Q :=
  closes_commit id fun hc => hQ ((Db.check_iff w).mp hc)

end MyOriShop
