import ColumnTypes.Status
namespace ColumnTypes

inductive Fault where
  | noResultTarget
  | noOidTarget
  | malformed (column raw : Text)
  | noTypeName (column : Text)
  | unknownType (name column : Text)
deriving DecidableEq, Repr

def Fault.status : Fault → Status
  | .noResultTarget => .invalidArgument "Result pointer cannot be null".toList
  | .noOidTarget => .invalidArgument "OID pointer cannot be null".toList
  | .malformed column raw => .parseError
      ("Failed to parse column type '".toList ++ raw ++ "' for column ".toList ++ column)
  | .noTypeName column => .unknownType ("No type name available for column ".toList ++ column)
  | .unknownType name column => .unknownType
      ("Unknown type '".toList ++ name ++ "' for column ".toList ++ column)

inductive Violation where
  | resolverUnset
  | normalizerUnset
  | noMetadata (column : Text)
  | notArray (column raw : Text)
deriving DecidableEq, Repr

def Violation.message : Violation → Text
  | .resolverUnset => "OID resolver must be set".toList
  | .normalizerUnset => "type name normalizer must be set".toList
  | .noMetadata column => "Metadata not available for column ".toList ++ column
  | .notArray column raw =>
    "Column ".toList ++ column ++ " of type ".toList ++ raw ++ " is not an array".toList

end ColumnTypes
