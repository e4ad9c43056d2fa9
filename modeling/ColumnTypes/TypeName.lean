import ColumnTypes.Text
namespace ColumnTypes

-- A function of the name alone: what it was asked before makes no difference.
abbrev Normalizer := Text → Text

def longNames : List (Text × Text) := [
  ("bigint".toList,"int8".toList),
  ("bit varying".toList,"varbit".toList),
  ("boolean".toList,"bool".toList),
  ("character".toList,"bpchar".toList),
  ("character varying".toList,"varchar".toList),
  ("double precision".toList,"float8".toList),
  ("integer".toList,"int4".toList),
  ("real".toList,"float4".toList),
  ("smallint".toList,"int2".toList),
  ("timestamp without time zone".toList,"timestamp".toList),
  ("timestamp with time zone".toList,"timestamptz".toList),
  ("time without time zone".toList,"time".toList),
  ("time with time zone".toList,"timetz".toList)]

def normalizeTypeName : Normalizer := fun name => (longNames.lookup name).getD name

end ColumnTypes
