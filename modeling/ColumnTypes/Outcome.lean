import ColumnTypes.Fault
namespace ColumnTypes

-- How a call ends. `failed` leaves the caller in control, `aborted` does not.
inductive Outcome (α : Type) where
  | done (value : α)
  | failed (fault : Fault)
  | aborted (violation : Violation)
deriving DecidableEq, Repr

def Outcome.ofExcept : Except Fault α → Outcome α
  | .ok value => .done value
  | .error fault => .failed fault

def Outcome.map (f : α → β) : Outcome α → Outcome β
  | .done value => .done (f value)
  | .failed fault => .failed fault
  | .aborted violation => .aborted violation

def Outcome.isAborted : Outcome α → Bool
  | .aborted _ => true
  | _ => false

-- A call without a place for its answer is refused before anything else.
inductive Target where
  | given
  | missing
deriving DecidableEq, Repr

end ColumnTypes
