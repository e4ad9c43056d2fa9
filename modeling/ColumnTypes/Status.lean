import ColumnTypes.Text
namespace ColumnTypes

inductive StatusCode where
  | ok
  | invalidArgument
  | parseError
  | unknownType
deriving DecidableEq, Repr

def StatusCode.toNat : StatusCode → Nat
  | .ok => 0
  | .invalidArgument => 1
  | .parseError => 2
  | .unknownType => 3

def StatusCode.name : StatusCode → Text
  | .ok => "OK".toList
  | .invalidArgument => "InvalidArgument".toList
  | .parseError => "ParseError".toList
  | .unknownType => "UnknownType".toList

structure Status where
  code : StatusCode := .ok
  message : Text := []
deriving DecidableEq, Repr

def Status.success : Status := ⟨.ok,[]⟩
def Status.invalidArgument (message : Text) : Status := ⟨.invalidArgument,message⟩
def Status.parseError (message : Text) : Status := ⟨.parseError,message⟩
def Status.unknownType (message : Text) : Status := ⟨.unknownType,message⟩

def Status.isOk (status : Status) : Bool := status.code == .ok
def Status.isError (status : Status) : Bool := status.code != .ok
def Status.isParseError (status : Status) : Bool := status.code == .parseError
def Status.isUnknownType (status : Status) : Bool := status.code == .unknownType

def Status.text (status : Status) : Text :=
  if status.message.isEmpty then status.code.name
  else status.code.name ++ ": ".toList ++ status.message

end ColumnTypes
