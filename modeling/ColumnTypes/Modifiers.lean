import ColumnTypes.Text
namespace ColumnTypes

def afterCommas : Text → List Text
  | [] => []
  | c :: rest => if c = ',' then rest :: afterCommas rest else afterCommas rest

def modifierFields (t : Text) : List Text :=
  (t :: afterCommas t).map fun start => start.takeWhile fun c => !(c == ',')

def dropTrailingEmpty (tokens : List Text) : List Text :=
  (tokens.reverse.dropWhile List.isEmpty).reverse

-- Blank fields before the last token are kept, so a token stays at the place of
-- its field.
def modifierTokens (t : Text) : List Text := dropTrailingEmpty ((modifierFields t).map trim)

end ColumnTypes
