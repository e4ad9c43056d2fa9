import ColumnTypes.Answer
namespace ColumnTypes

structure Parser where
  normalizer : Normalizer

def Parser.make? : Option Normalizer → Except Violation Parser
  | none => .error .normalizerUnset
  | some normalizer => .ok ⟨normalizer⟩

-- Nothing else calls the normalizer, so no call goes without its event.
def Parser.normalize (parser : Parser) (name : Text) : Answer Text :=
  ⟨.done (parser.normalizer name),[.normalized name]⟩

-- The column's name serves reports only.
def Parser.parse (parser : Parser) (column raw : Text) (isOptional : Bool) :
    Target → Answer Descriptor
  | .missing => ⟨.failed .noResultTarget,[]⟩
  | .given =>
    match Reading.ofText? raw with
    | none => ⟨.failed (.malformed column raw),[.rejected column raw]⟩
    | some reading =>
      (parser.normalize reading.baseType).map fun element => reading.named element isOptional

structure Holding where
  answer : Answer Descriptor
  held : Option Descriptor
deriving DecidableEq, Repr

def Parser.parseInto (parser : Parser) (column : Text) (isOptional : Bool)
    (held : Option Descriptor) (raw : Text) : Holding :=
  let answer := parser.parse column raw isOptional .given
  match answer.outcome with
  | .done descriptor => ⟨answer,some descriptor⟩
  | _ => ⟨answer,held⟩

def Parser.parseAll (parser : Parser) (column : Text) (isOptional : Bool) :
    Option Descriptor → List Text → List Holding
  | _, [] => []
  | held, raw :: rest =>
    let first := parser.parseInto column isOptional held raw
    first :: parser.parseAll column isOptional first.held rest

end ColumnTypes
