namespace Orchestra.Toml

/-- Floats and dates are kept as they are written. -/
inductive Value
  | string (s : String)
  | integer (n : Int)
  | float (written : String)
  | boolean (b : Bool)
  | datetime (written : String)
  | array (items : List Value)
  | table (entries : List (String × Value))

/-- Arrays and inline tables nested deeper than this are refused, and so are longer keys. -/
def depthLimit : Nat := 80

def isBlank (c : Char) : Bool :=
  c == ' ' || c == '\t'

def isPlain (c : Char) : Bool :=
  c == '\t' || (' ' ≤ c && c.toNat ≠ 0x7F)

def newline? : List Char → Option (List Char)
  | '\n' :: rest => some rest
  | '\r' :: '\n' :: rest => some rest
  | _ => none

def lineRest (cs : List Char) : List Char :=
  match cs.dropWhile isBlank with
  | '#' :: rest => rest.dropWhile isPlain
  | rest => rest

end Orchestra.Toml
