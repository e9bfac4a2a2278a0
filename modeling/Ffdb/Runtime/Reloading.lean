import Ffdb.Runtime.Convergence

/-! Values that were written as JSON and are bound again: those of the log, and those of query results. Policies on a
logged row see its values without what the table declares of its columns. -/
namespace Ffdb.Runtime
open Sql Rls Fallible
open Sync (Value JsonMap)

variable {doubles : Doubles} {reader : JsonReader}

section Values

end Values

section Policies

inductive Affinity where
  | blob
  | text
  | numeric
  | integer
  | real
  deriving DecidableEq

inductive Collation where
  | binary
  | noCase
  | rtrim
  deriving DecidableEq

structure Declared where
  affinity : Affinity
  collation : Collation

/-- A column in an expression: comparisons apply its affinity and its collation. -/
structure Operand where
  value : SqlValue
  declared : Declared

/-- How expressions are evaluated on the columns of a row, which has a number (`rowid`) where it
lies in a table. A clause that does not resolve without one is an error elsewhere. -/
structure Evaluation where
  resolves : Clause → Bool
  truth : AuthContext → (Identifier → Contents) → Clause → Option Int64 → (Identifier → Operand) → Truth

def Evaluation.stored (evaluation : Evaluation) (declared : Identifier → Declared) (rowid : Option Int64) : Verdict :=
  fun auth contents clause row => evaluation.truth auth contents clause rowid fun column =>
    ⟨row.value column, declared column⟩

/-- On named parameters, which have no affinity, are compared byte by byte and have no number. -/
def Evaluation.bound (evaluation : Evaluation) : Verdict := evaluation.stored (fun _ => ⟨.blob, .binary⟩) none

end Policies

end Ffdb.Runtime
