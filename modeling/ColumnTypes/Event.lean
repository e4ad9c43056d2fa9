import ColumnTypes.Descriptor
namespace ColumnTypes

structure Request where
  column : Text
  descriptor : Option Descriptor
deriving DecidableEq, Repr

inductive Event where
  | normalized (name : Text)
  | rejected (column raw : Text)
  | requested (request : Request)
deriving DecidableEq, Repr

def Event.report? : Event → Option Text
  | .normalized _ => none
  | .rejected column raw =>
    some ("Failed to parse column type for ".toList ++ column ++ " '".toList ++ raw ++ "'".toList)
  | .requested _ => none

def Event.normalizerInput? : Event → Option Text
  | .normalized name => some name
  | .rejected _ _ => none
  | .requested _ => none

def Event.request? : Event → Option Request
  | .normalized _ => none
  | .rejected _ _ => none
  | .requested request => some request

end ColumnTypes
