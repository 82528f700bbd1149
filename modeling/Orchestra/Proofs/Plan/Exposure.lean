import Orchestra.Function
import Orchestra.Proofs.Plan.References

namespace Orchestra

open Text

theorem Variables.exists_entry_of_get? {v : Variables} {name value : String}
    (h : v.get? name = some value) : ∃ e ∈ v.entries, e.2 = value := by
  obtain ⟨e, he, rfl⟩ := Option.map_eq_some_iff.1 h
  exact ⟨e, List.mem_of_find?_eq_some he, rfl⟩

namespace Plan

theorem Part.substituted_congr {names : List (List Char)} {value value' : List Char → List Char}
    (h : ∀ n ∈ names, value n = value' n) (part : Part) :
    part.substituted names value = part.substituted names value' := by
  cases part with
  | plain c => rfl
  | reference name =>
      have hlongest := longest_longestPrefix? names name
      rw [substituted, substituted]
      generalize longestPrefix? names name = best at hlongest ⊢
      cases hlongest with
      | missing => rfl
      | found hp => simp only [h _ hp]

theorem Part.expanded_congr {text : String} {find find' : List Char → Option (List Char)}
    (h : ∀ name, Mentions text name → find name = find' name) (part : Part) :
    part.expanded text find = part.expanded text find' := by
  have hknown : knownNames text find = knownNames text find' := by
    refine List.filter_congr fun name hname => ?_
    rw [h name (mem_references_iff.1 hname)]
  rw [Part.expanded, Part.expanded, hknown]
  refine Part.substituted_congr (fun name hname => ?_) part
  rw [h name (mem_knownNames.1 hname).1]

theorem expand_congr {text : String} {state state' : Variables} (caller : Variables)
    (h : ∀ name, Mentions text name →
      state.get? (String.ofList name) = state'.get? (String.ofList name)) :
    expand text caller state = expand text caller state' := by
  have hfind : ∀ name, Mentions text name →
      valueOf? caller state name = valueOf? caller state' name := by
    intro name hname
    rw [valueOf?, valueOf?, lookup?, lookup?, h name hname]
  rw [expand_eq_flatMap, expand_eq_flatMap]
  refine congrArg String.ofList (List.flatMap_congr fun part _ => ?_)
  exact Part.expanded_congr hfind part

variable {F : Type} [Described F]

/-- The names under which a step asks for what the state holds: the main value, the parameters of
its function, the names of its defaults, and what these refer to. -/
inductive Asks (step : Plan F) : String → Prop
  | input : Asks step inputName
  | parameter {q : Parameter} (h : q ∈ step.signature.parameters) : Asks step q.name
  | default {e : String × String} (h : e ∈ step.parameters.entries) : Asks step e.1
  | reference {e : String × String} {name : List Char} (h : e ∈ step.parameters.entries)
      (hname : Mentions e.2 name) : Asks step (String.ofList name)

/-- The states give the same answer under every name the step asks for. -/
def AlikeFor (step : Plan F) (state state' : Variables) : Prop :=
  ∀ name, step.Asks name → state.get? name = state'.get? name

namespace AlikeFor

variable {step : Plan F} {state state' : Variables} (h : step.AlikeFor state state')
  (caller : Variables)

include h

theorem expand_eq {d name : String} (hd : step.parameters.get? name = some d) :
    expand d caller state = expand d caller state' := by
  obtain ⟨e, he, rfl⟩ := Variables.exists_entry_of_get? hd
  exact expand_congr caller fun name hname => h _ (.reference he hname)

theorem stepInput_eq : stepInput caller state step = stepInput caller state' step := by
  have hinput : state.input = state'.input := by
    rw [Variables.input, Variables.input, h _ .input]
  rw [stepInput, stepInput, h.expand_eq caller step.parameters.get?_input, hinput]

theorem addDeclared_eq (v : Variables) {q : Parameter} (hq : q ∈ step.signature.parameters) :
    addDeclared caller state step.parameters v q = addDeclared caller state' step.parameters v q := by
  have hrefers : ((step.parameters.get? q.name).any fun d => expand d caller state ≠ d) =
      (step.parameters.get? q.name).any fun d => expand d caller state' ≠ d := by
    cases hd : step.parameters.get? q.name with
    | none => rfl
    | some d => rw [Option.any_some, Option.any_some, h.expand_eq caller hd]
  rw [addDeclared, addDeclared, hrefers, h _ (.parameter hq)]

theorem addDefault_eq (v : Variables) {e : String × String} (he : e ∈ step.parameters.entries) :
    addDefault caller state v e = addDefault caller state' v e := by
  have hexpand : expand e.2 caller state = expand e.2 caller state' :=
    expand_congr caller fun name hname => h _ (.reference he hname)
  rw [addDefault, addDefault, hexpand, h _ (.default he)]

theorem stepVariables_eq : stepVariables caller state step = stepVariables caller state' step := by
  have hdeclared : step.signature.parameters.foldl (addDeclared caller state step.parameters)
        (.withInput (stepInput caller state step)) =
      step.signature.parameters.foldl (addDeclared caller state' step.parameters)
        (.withInput (stepInput caller state' step)) := by
    rw [h.stepInput_eq]
    exact List.foldl_ext _ _ _ fun v q hq => h.addDeclared_eq caller v hq
  have hdefaults (v : Variables) : step.parameters.entries.foldl (addDefault caller state) v =
      step.parameters.entries.foldl (addDefault caller state') v :=
    List.foldl_ext _ _ _ fun v e he => h.addDefault_eq caller v he
  rw [stepVariables, stepVariables, hdeclared, hdefaults]

end AlikeFor

theorem alikeFor_set {step : Plan F} {name : String}
    (h : ∀ asked, step.Asks asked → ¬ SameName name asked) (state : Variables) (value : String) :
    step.AlikeFor (state.set name value) state := by
  intro asked hasked
  rw [Variables.get?_set, if_neg (h asked hasked)]

/-- What a step is given depends on the state only under the names that the step asks for. Two
states alike under them give the same variables, in the same order and spelling, and writing under
any other name changes nothing. -/
theorem stepVariables_eq_of_alike (caller : Variables) (step : Plan F) :
    (∀ state state' : Variables,
      (∀ name, step.Asks name → state.get? name = state'.get? name) →
        stepVariables caller state step = stepVariables caller state' step) ∧
    ∀ (state : Variables) (name value : String),
      (∀ asked, step.Asks asked → ¬ SameName name asked) →
        stepVariables caller (state.set name value) step = stepVariables caller state step := by
  constructor
  · intro state state' h
    exact AlikeFor.stepVariables_eq h caller
  · intro state name value h
    exact (alikeFor_set h state value).stepVariables_eq caller

def reporting : Plan (Function Unit) :=
  { ofFunction (.ofText "text" "report" "" [{ name := "topic" }] pure) with
    parameters := Variables.empty.set "title" "$place: $topic" }

def heldInOslo : Variables :=
  .ofList [("topic", "rain"), ("place", "Oslo"), ("key", "1")]

def heldElsewhere : Variables :=
  .ofList [("KEY", "2"), ("PLACE", "Oslo"), ("notes", "none"), ("Topic", "rain")]

theorem mem_of_asks_reporting {name : String} (h : reporting.Asks name) :
    name ∈ ["INPUT", "topic", "title", "place"] := by
  have hparts : parts "$place: $topic".toList =
      [.reference "place".toList, .plain ':', .plain ' ', .reference "topic".toList] := by
    simp [parts, isWord]
  cases h with
  | input => decide
  | parameter hq =>
      have hall : ∀ q ∈ reporting.signature.parameters,
          q.name ∈ ["INPUT", "topic", "title", "place"] := by decide
      exact hall _ hq
  | default he =>
      have hall : ∀ e ∈ reporting.parameters.entries,
          e.1 ∈ ["INPUT", "topic", "title", "place"] := by decide
      exact hall _ he
  | reference he hname =>
      have hentries : reporting.parameters.entries =
          [("INPUT", ""), ("title", "$place: $topic")] := rfl
      rw [hentries] at he
      simp only [List.mem_cons, List.not_mem_nil, or_false] at he
      rcases he with rfl | rfl
      · simp [Mentions, parts] at hname
      · rw [Mentions, hparts] at hname
        simp only [List.mem_cons, List.not_mem_nil, reduceCtorEq, Part.reference.injEq, or_false,
          false_or] at hname
        rcases hname with rfl | rfl <;> decide

theorem stepVariables_eq_of_alike_elsewhere :
    (∀ name, reporting.Asks name → heldInOslo.get? name = heldElsewhere.get? name) ∧
      (∀ asked, reporting.Asks asked → ¬ SameName "key" asked) ∧
      stepVariables .empty heldInOslo reporting = stepVariables .empty heldElsewhere reporting ∧
      stepVariables .empty (heldInOslo.set "key" "3") reporting =
        stepVariables .empty heldInOslo reporting ∧
      (stepVariables .empty heldInOslo reporting).entries =
        [("INPUT", ""), ("topic", "rain"), ("title", "Oslo: rain")] := by
  have hheld : ∀ name ∈ ["INPUT", "topic", "title", "place"],
      heldInOslo.get? name = heldElsewhere.get? name := by decide
  have hkey : ∀ asked ∈ ["INPUT", "topic", "title", "place"], ¬ SameName "key" asked := by decide
  have halike : ∀ name, reporting.Asks name → heldInOslo.get? name = heldElsewhere.get? name :=
    fun name h => hheld name (mem_of_asks_reporting h)
  have hapart : ∀ asked, reporting.Asks asked → ¬ SameName "key" asked :=
    fun asked h => hkey asked (mem_of_asks_reporting h)
  obtain ⟨hstates, hset⟩ := stepVariables_eq_of_alike .empty reporting
  exact ⟨halike, hapart, hstates _ _ halike, hset heldInOslo "key" "3" hapart, rfl⟩

end Plan

end Orchestra
