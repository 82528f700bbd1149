import Orchestra.CallError
import Orchestra.Registry
import Orchestra.Settings
import Orchestra.Variables

namespace Orchestra

/-- A computation over a world `σ` that may fail. What happened to the world before a failure
remains. -/
abbrev Run (σ ε α : Type) := ExceptT ε (StateM σ) α

def Run.exec (x : Run σ ε α) (w : σ) : Except ε α × σ :=
  StateT.run (ExceptT.run x) w

def Run.mapError (f : ε → ε') (x : Run σ ε α) : Run σ ε' α :=
  ExceptT.adapt f x

def Run.ofExcept (x : Except ε α) : Run σ ε α :=
  ExceptT.mk (pure x)

variable {F : Type} [Described F]

def defaultLocale : String := "en-US"

/-- What a function runs in: its variables, the functions it can reach, and the caller's locale. -/
structure Context (F : Type) [Described F] where
  vars : Variables
  registry : Registry F
  locale : String := defaultLocale

namespace Context

def withVariables (c : Context F) (v : Variables) : Context F :=
  { c with vars := v }

def result (c : Context F) : String :=
  c.vars.input

end Context

/-- How functions are called. A function gives back the context that holds its result. -/
abbrev Invoke (σ F : Type) [Described F] :=
  F → Context F → Settings → Run σ CallError (Context F)

variable {σ : Type}

def runPipeline (invoke : Invoke σ F) (settings : Settings) :
    List F → Context F → Run σ CallError (Context F)
  | [], c => pure c
  | f :: rest, c => do runPipeline invoke settings rest (← invoke f c settings)

def Registry.get? (r : Registry F) (plugin : Option String) (name : String) :
    Except CallError F :=
  match r.resolve? plugin name with
  | some f => .ok f
  | none => .error (.functionNotFound (plugin.getD globalPlugin) name)

end Orchestra
