import ColumnTypes.Event
import ColumnTypes.Outcome
namespace ColumnTypes

structure Answer (α : Type) where
  outcome : Outcome α
  events : List Event
deriving DecidableEq, Repr

def Answer.map (f : α → β) (answer : Answer α) : Answer β :=
  ⟨answer.outcome.map f,answer.events⟩

def Answer.andThen (answer : Answer α) (next : α → Answer β) : Answer β :=
  match answer.outcome with
  | .done value =>
    let second := next value
    ⟨second.outcome,answer.events ++ second.events⟩
  | .failed fault => ⟨.failed fault,answer.events⟩
  | .aborted violation => ⟨.aborted violation,answer.events⟩

end ColumnTypes
