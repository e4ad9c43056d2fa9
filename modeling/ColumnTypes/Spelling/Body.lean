import ColumnTypes.Spelling.Group
namespace ColumnTypes

structure Body where
  base : Text
  modifiers : Option Text
  suffix : Text
  isArray : Bool
deriving DecidableEq, Repr

def arrayMark : Text := ['[',']']

def endsBase (c : Char) : Bool := c == '(' || c == '['

def isBracket (c : Char) : Bool := c == '(' || c == ')' || c == '[' || c == ']'

def Body.group (body : Body) : Text :=
  match body.modifiers with
  | none => []
  | some inside => '(' :: inside ++ [')']

def Body.full (body : Body) : Text := body.base ++ body.group ++ body.suffix

def Body.text (body : Body) : Text :=
  body.full ++ if body.isArray then arrayMark else []

-- A suffix needs a group in front of it: without one its words belong to the base.
def Body.WellFormed (body : Body) : Prop :=
  body.base ≠ [] ∧ (∀ c ∈ body.base, endsBase c = false) ∧
  (∀ inside, body.modifiers = some inside → inside ≠ [] ∧ Balanced inside) ∧
  (∀ c ∈ body.suffix, isBracket c = false) ∧
  (body.modifiers = none → body.suffix = [])

def readGroup? (t : Text) : Option (Option Text × Text) :=
  if t.head? = some '(' then
    match closing? t with
    | none => none
    | some close =>
      if close = 1 then none else some (some ((t.take close).drop 1),t.drop (close + 1))
  else some (none,t)

def readTail? (t : Text) : Option (Text × Bool) :=
  let marked := arrayMark.isSuffixOf t
  let suffix := if marked then t.take (t.length - arrayMark.length) else t
  if suffix.any isBracket then none else some (suffix,marked)

def Body.read? (t : Text) : Option Body :=
  let base := t.takeWhile fun c => !endsBase c
  if base.isEmpty then none else
  match readGroup? (t.dropWhile fun c => !endsBase c) with
  | none => none
  | some (modifiers,rest) =>
    match readTail? rest with
    | none => none
    | some (suffix,isArray) => some ⟨base,modifiers,suffix,isArray⟩

end ColumnTypes
