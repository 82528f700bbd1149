namespace Orchestra

inductive CallError
  | functionNotFound (plugin function : String)
  | invocationFailed (function reason : String)
  | completionFailed (reason : String)
  | invalidArgument (name reason : String)
  | json (reason : String)
  | internal (reason : String)
deriving DecidableEq, Inhabited

def CallError.message : CallError → String
  | .functionNotFound plugin function => "function not found: " ++ plugin ++ "." ++ function
  | .invocationFailed function reason => "function `" ++ function ++ "` failed: " ++ reason
  | .completionFailed reason => "text completion failed: " ++ reason
  | .invalidArgument name reason => "invalid argument `" ++ name ++ "`: " ++ reason
  | .json reason => "json error: " ++ reason
  | .internal reason => "internal kernel error: " ++ reason

end Orchestra
