import ColumnTypes.Text
namespace ColumnTypes

def readDigits? (t : Text) : Option Nat :=
  if t.isEmpty then none
  else if t.all Char.isDigit then some (Nat.ofDigitChars 10 t 0)
  else none

-- A second sign is no digit, so `+-1` and `++1` have no value.
def readSigned? : Text → Option Int
  | [] => none
  | c :: rest =>
    if c = '-' then (readDigits? rest).map fun n => -Int.ofNat n
    else if c = '+' then (readDigits? rest).map Int.ofNat
    else (readDigits? (c :: rest)).map Int.ofNat

def readInt32? (t : Text) : Option Int32 :=
  match readSigned? t with
  | none => none
  | some value =>
    if -2147483648 ≤ value ∧ value ≤ 2147483647 then some (Int32.ofInt value) else none

end ColumnTypes
