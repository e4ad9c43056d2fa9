import ColumnTypes.Spelling.Body
namespace ColumnTypes

structure Spelling where
  schema : Option Text
  body : Body
deriving DecidableEq, Repr

def schemaMark : Char := '.'

def endsSchema (c : Char) : Bool := c == schemaMark || c == '('

def Spelling.text (spelling : Spelling) : Text :=
  match spelling.schema with
  | none => spelling.body.text
  | some schema => schema ++ schemaMark :: spelling.body.text

def Spelling.readQualified? (t : Text) : Option Spelling :=
  let schema := t.takeWhile fun c => !endsSchema c
  match t.dropWhile fun c => !endsSchema c with
  | [] => none
  | c :: rest =>
    if c = schemaMark ∧ schema ≠ [] then (Body.read? rest).map fun body => ⟨some schema,body⟩
    else none

-- The qualified reading wins. A text without one, such as `a.(x)`, may still be
-- a body as a whole, its dots then belonging to the base or to the modifiers.
def Spelling.read? (t : Text) : Option Spelling :=
  match Spelling.readQualified? t with
  | some spelling => some spelling
  | none => (Body.read? t).map fun body => ⟨none,body⟩

end ColumnTypes
