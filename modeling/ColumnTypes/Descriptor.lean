import ColumnTypes.Reading
import ColumnTypes.TypeName
namespace ColumnTypes

structure Descriptor extends Reading where
  normalizedName : Text
  isOptional : Bool
deriving DecidableEq, Repr

def Reading.named (reading : Reading) (element : Text) (isOptional : Bool) : Descriptor :=
  ⟨reading,if reading.isArray then catalogArrayMark :: element else element,isOptional⟩

-- A scalar keeps its name, also one that begins with an underscore of its own.
def Descriptor.elementTypeName (descriptor : Descriptor) : Text :=
  match descriptor.normalizedName with
  | [] => []
  | c :: rest => if descriptor.isArray ∧ c = catalogArrayMark then rest else c :: rest

end ColumnTypes
