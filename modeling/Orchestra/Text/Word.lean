import Orchestra.Text.Case
import Orchestra.Text.WordTable

namespace Orchestra.Text

def isWord (c : Char) : Bool :=
  if c.toNat < 0x80 then c.isAlphanum || c == '_' else inRanges wordRanges c.toNat

end Orchestra.Text
