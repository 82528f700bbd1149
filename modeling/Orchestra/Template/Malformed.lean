namespace Orchestra.Template

inductive Malformation
  | noDollar
  | manyDots
  | noSeparator
  | argumentStart
  | unseparated
  | unclosedQuote (content : String)
deriving DecidableEq

def Malformation.message : Malformation → String
  | .noDollar => "a variable must start with `$`"
  | .manyDots =>
      "a function identifier can contain at most one dot separating the plugin name from the function name"
  | .noSeparator => "a named argument must contain a name and a value separated by `=`"
  | .argumentStart => "a named argument value must start with a quote or `$`"
  | .unseparated => "tokens must be separated by at least one space"
  | .unclosedQuote content => "unterminated quote in `" ++ content ++ "`"

structure Malformed where
  cause : Malformation
  content : String
deriving DecidableEq

end Orchestra.Template
