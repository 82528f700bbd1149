namespace Orchestra.Template

def isQuote (c : Char) : Bool :=
  c == '\x22' || c == '\x27'

/-- The only characters that separate tokens. Other white space belongs to a token. -/
def isBlank (c : Char) : Bool :=
  c == ' ' || c == '\t' || c == '\r' || c == '\n'

def isEscapable (c : Char) : Bool :=
  isQuote c || c == '\\'

def isNameChar (c : Char) : Bool :=
  c.isAlphanum || c == '_'

def isName (s : String) : Bool :=
  s ≠ "" && s.toList.all isNameChar

end Orchestra.Template
