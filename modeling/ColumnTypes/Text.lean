namespace ColumnTypes

-- A text is the list of its characters. Every rule of this library tests and
-- cuts at ASCII characters only; any other character is carried along as it is.
abbrev Text := List Char

-- NUL, the no-break space and the other spaces of Unicode are ordinary characters.
def isBlank (c : Char) : Bool :=
  c == ' ' || c == '\t' || c == '\n' || c == '\r' || c == '\x0c' || c == '\x0b'

def trimStart (t : Text) : Text := t.dropWhile isBlank

def trimEnd (t : Text) : Text := (t.reverse.dropWhile isBlank).reverse

def trim (t : Text) : Text := trimEnd (trimStart t)

end ColumnTypes
