import ColumnTypes.Text
namespace ColumnTypes

def Balanced (t : Text) : Prop :=
  (∀ k, (t.take k).count ')' ≤ (t.take k).count '(') ∧ t.count ')' = t.count '('

-- The text follows an opened group, inside which `inner` further groups are
-- open. The answer is how many characters precede the end of the outer group.
def closingFrom (inner : Nat) : Text → Option Nat
  | [] => none
  | c :: rest =>
    if c = '(' then (closingFrom (inner + 1) rest).map (· + 1)
    else if c = ')' then
      match inner with
      | 0 => some 0
      | fewer + 1 => (closingFrom fewer rest).map (· + 1)
    else (closingFrom inner rest).map (· + 1)

def closing? : Text → Option Nat
  | [] => none
  | c :: rest => if c = '(' then (closingFrom 0 rest).map (· + 1) else none

end ColumnTypes
