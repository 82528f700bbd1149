import Orchestra.Plan.Step
import Orchestra.Prompt.Basic

namespace Orchestra

/-- What a native function is given and gives back. -/
structure Scope where
  vars : Variables
  locale : String

/-- The way from a native function to other functions, by plugin and name. -/
abbrev Reach (σ : Type) :=
  Option String → String → Scope → Settings → Run σ CallError Scope

/-- The three kinds of functions. A native function reaches others only through the registry of
the context it is called in. It holds no functions of its own and does not hand back another
registry, both of which a handler written by hand could do. -/
inductive Function (σ : Type)
  | native (signature : Signature)
      (handler : Reach σ → Scope → Settings → Run σ CallError Scope)
  | prompt (p : Prompt σ)
  | plan (signature : Signature) (p : Plan (Function σ))

namespace Function

variable {σ : Type}

instance : Described (Function σ) where
  signature
    | .native s _ => s
    | .prompt p => p.signature
    | .plan s _ => s

def ofPlan (p : Plan (Function σ)) : Function σ :=
  .plan p.signature p

def ofText (plugin name description : String) (parameters : List Parameter)
    (transform : String → Run σ CallError String) : Function σ :=
  .native
    { name, plugin := Signature.pluginOf plugin, description
      parameters := { name := inputName, description := "Input text" } :: parameters }
    fun _ scope _ => do
      let out ← transform scope.vars.input
      return { scope with vars := scope.vars.setInput out }

/-- Calls a function. `depth` bounds how deep functions may call one another. It is there because this
definition has to end: calls have no such bound in themselves, and a function may call itself for
ever. What is said of all calls is said for every depth. -/
def invoke : Nat → Invoke σ (Function σ)
  | 0, _, _, _ => throw (.internal "functions call one another too deeply")
  | depth + 1, .native _ handler, c, s => do
      let reach : Reach σ := fun plugin name scope s => do
        let f ← .ofExcept (c.registry.get? plugin name)
        let out ← invoke depth f { c with vars := scope.vars, locale := scope.locale } s
        return ⟨out.vars, out.locale⟩
      let out ← handler reach ⟨c.vars, c.locale⟩ s
      return { c with vars := out.vars, locale := out.locale }
  | depth + 1, .prompt p, c, s => p.invoke (invoke depth) c s
  | depth + 1, .plan _ p, c, s => p.invoke (invoke depth) c s

end Function

end Orchestra
