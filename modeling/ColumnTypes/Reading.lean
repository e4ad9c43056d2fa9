import ColumnTypes.Decimal
import ColumnTypes.Modifiers
import ColumnTypes.Spelling
namespace ColumnTypes

-- Nothing here depends on the column that carries the text or on the catalog's
-- name for the type.
structure Reading where
  schema : Option Text
  baseType : Text
  fullType : Text
  isArray : Bool
  modifiers : List Text
  length : Option Int32
  scale : Option Int32
deriving DecidableEq, Repr

def Body.words? (body : Body) : Option Text :=
  let base := trim body.base
  let suffix := trim body.suffix
  if base.isEmpty then none
  else if suffix.isEmpty then some base
  else some (base ++ ' ' :: suffix)

def Body.tokens (body : Body) : List Text :=
  match body.modifiers with
  | none => []
  | some inside => modifierTokens inside

-- Modifiers are positional and lenient: a token that is no integer counts as
-- absent, and the token after it keeps its own place.
def integerAt (tokens : List Text) (place : Nat) : Option Int32 :=
  match tokens[place]? with
  | none => none
  | some token => readInt32? token

def catalogArrayMark : Char := '_'

def unmark? : Text → Option (Text × Bool)
  | [] => none
  | c :: rest =>
    if c = catalogArrayMark then if rest.isEmpty then none else some (rest,true)
    else some (c :: rest,false)

-- The underscore leaves the full type as well, where only blanks can precede it.
def Spelling.reading? (spelling : Spelling) : Option Reading :=
  let body := spelling.body
  match body.words? with
  | none => none
  | some words =>
    match unmark? words with
    | none => none
    | some (baseType,marked) =>
      let fullType := if marked then body.full.erase catalogArrayMark else body.full
      some ⟨spelling.schema,baseType,fullType,marked || body.isArray,body.tokens,
        integerAt body.tokens 0,integerAt body.tokens 1⟩

def Reading.ofText? (t : Text) : Option Reading :=
  match Spelling.read? t with
  | none => none
  | some spelling => spelling.reading?

def Reading.schemaPrefix (reading : Reading) : Text :=
  match reading.schema with
  | none => []
  | some schema => schema ++ [schemaMark]

def Reading.baseTypeWithSchema (reading : Reading) : Text :=
  reading.schemaPrefix ++ reading.baseType

def Reading.fullTypeWithSchema (reading : Reading) : Text :=
  reading.schemaPrefix ++ reading.fullType

def Reading.canonical (reading : Reading) : Text :=
  reading.fullTypeWithSchema ++ if reading.isArray then arrayMark else []

end ColumnTypes
