import ColumnTypes.Text
import Std.Data.ExtHashMap
namespace ColumnTypes

abbrev Oid := UInt32

def genericArrayOid : Oid := 2003

-- The hash of the core library, even where another one for characters is in reach.
instance : Hashable Text := @instHashableList Char instHashableChar

-- Two registries with the same entries are equal, in whatever order the entries
-- were made.
structure Registry where
  oids : Std.ExtHashMap Text Oid

def Registry.empty : Registry := ⟨∅⟩

def Registry.register (registry : Registry) (name : Text) (oid : Oid) : Registry :=
  ⟨registry.oids.insert name oid⟩

def Registry.contains (registry : Registry) (name : Text) : Bool :=
  registry.oids.contains name

def Registry.size (registry : Registry) : Nat := registry.oids.size

def Registry.find? (registry : Registry) (name : Text) : Option Oid := registry.oids[name]?

def Registry.registerAll (registry : Registry) (entries : List (Text × Oid)) : Registry :=
  entries.foldl (fun registry entry => registry.register entry.1 entry.2) registry

def builtinTypes : List (Text × Oid) := [
  ("bool".toList,16),("bytea".toList,17),("char".toList,18),
  ("name".toList,19),("int8".toList,20),("int2".toList,21),
  ("int4".toList,23),("text".toList,25),("oid".toList,26),
  ("xid".toList,28),("json".toList,114),("xml".toList,142),
  ("point".toList,600),("lseg".toList,601),("path".toList,602),
  ("box".toList,603),("polygon".toList,604),("line".toList,628),
  ("cidr".toList,650),("float4".toList,700),("float8".toList,701),
  ("circle".toList,718),("macaddr8".toList,774),("money".toList,790),
  ("macaddr".toList,829),("inet".toList,869),("bpchar".toList,1042),
  ("varchar".toList,1043),("date".toList,1082),("time".toList,1083),
  ("timestamp".toList,1114),("timestamptz".toList,1184),("interval".toList,1186),
  ("timetz".toList,1266),("bit".toList,1560),("varbit".toList,1562),
  ("numeric".toList,1700),("uuid".toList,2950),("jsonb".toList,3802),
  ("int4range".toList,3904),("numrange".toList,3906),("tsrange".toList,3908),
  ("tstzrange".toList,3910),("daterange".toList,3912),("int8range".toList,3926)]

def Registry.builtin : Registry := Registry.empty.registerAll builtinTypes

end ColumnTypes
