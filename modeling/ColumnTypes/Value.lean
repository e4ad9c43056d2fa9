import ColumnTypes.Descriptor
import ColumnTypes.Registry
namespace ColumnTypes

-- `unavailable` answers a call that this kind of resolver does not offer.
inductive Value where
  | oid (oid : Oid)
  | contains (present : Bool)
  | size (entries : Nat)
  | descriptor (descriptor : Descriptor)
  | info (name rawType : Text) (isOptional hasMetadata : Bool)
  | unavailable
deriving DecidableEq, Repr

end ColumnTypes
