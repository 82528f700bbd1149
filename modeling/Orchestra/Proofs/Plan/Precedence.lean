import Orchestra.Proofs.Plan.Resolution

namespace Orchestra.Plan

open Text

variable {F : Type} [Described F]

def firstFilled (texts : List String) : String :=
  (texts.find? (· ≠ "")).getD ""

def expandedDefault? (caller state : Variables) (step : Plan F) (name : String) : Option String :=
  (step.parameters.get? name).bind fun d =>
    if expand d caller state = d then none else some (expand d caller state)

/-- The default of the step as it stands, below any value of the state, be it empty. -/
def plainDefault? (state : Variables) (step : Plan F) (name : String) : Option String :=
  (step.parameters.get? name).map fun d => (state.get? name).getD d

/-- What the state holds for a declared parameter, unless that is empty. -/
def declaredState? (state : Variables) (step : Plan F) (name : String) : Option String :=
  if ∃ q ∈ step.signature.parameters, SameName q.name name then
    (state.get? name).filter (· ≠ "")
  else none

omit [Described F] in
theorem get?_foldl_addDeclared_input {name : String} (hname : SameName inputName name)
    (caller state : Variables) (step : Plan F) (qs : List Parameter) (v : Variables) :
    (qs.foldl (addDeclared caller state step.parameters) v).get? name = v.get? name := by
  induction qs generalizing v with
  | nil => rfl
  | cons q qs ih =>
      rw [List.foldl_cons, ih, addDeclared]
      split
      · rfl
      · rename_i hq
        have hne : ¬ SameName q.name name := fun h =>
          hq ((sameAscii_inputName_iff q.name).2 (h.trans hname.symm))
        split
        · rfl
        · split
          · rw [Variables.get?_set, if_neg hne]
          · rfl

theorem get?_stepVariables_input {name : String} (hname : SameName inputName name)
    (caller state : Variables) (step : Plan F) :
    (stepVariables caller state step).get? name = some (stepInput caller state step) := by
  have hdefaults : addDefault caller state = fun v e =>
      v.setMissing e.1 (defaultValue caller state e) := rfl
  have hinput : (Variables.withInput (stepInput caller state step)).get? name =
      some (stepInput caller state step) := by
    rw [← Variables.get?_congr _ hname, Variables.get?_input, Variables.input_withInput]
  rw [stepVariables, Variables.get?_setAllMissing, hdefaults, Variables.get?_foldl_setMissing,
    get?_foldl_addDeclared_input hname, hinput]
  rfl

omit [Described F] in
theorem stepInput_eq (caller state : Variables) (step : Plan F) :
    stepInput caller state step =
      if step.parameters.input ≠ "" then expand step.parameters.input caller state
      else firstFilled [caller.input, state.input,
        if step.steps.isEmpty then step.description else ""] := by
  rw [stepInput]
  split
  · rfl
  · by_cases hcaller : caller.input = ""
    · by_cases hstate : state.input = ""
      · by_cases hsteps : step.steps.isEmpty
        · by_cases hdescription : step.description = ""
          · simp [firstFilled, hcaller, hstate, hsteps, hdescription]
          · simp [firstFilled, hcaller, hstate, hsteps, hdescription]
        · simp [firstFilled, hcaller, hstate, hsteps]
      · simp [firstFilled, hcaller, hstate]
    · simp [firstFilled, hcaller]

omit [Described F] in
theorem find?_map_defaultValue (caller state : Variables) (step : Plan F) (name : String) :
    (step.parameters.entries.find? fun e => SameName e.1 name).map (defaultValue caller state) =
      (step.parameters.get? name).map fun d =>
        if expand d caller state = d then ((caller.get? name).or (state.get? name)).getD d
        else expand d caller state := by
  have hget : step.parameters.get? name =
      (step.parameters.entries.find? fun e => SameName e.1 name).map Prod.snd := rfl
  rw [hget, Option.map_map]
  cases he : step.parameters.entries.find? fun e => SameName e.1 name with
  | none => rfl
  | some e =>
      have hsame : SameName e.1 name := by simpa using List.find?_some he
      rw [Option.map_some, Option.map_some, defaultValue, caller.get?_congr hsame,
        state.get?_congr hsame, ite_not]
      rfl

/-- Three loops that skip what is not theirs come to four tiers, for each name on its own. -/
theorem or_tiers (declared : Prop) [Decidable declared] (expanded : String → String)
    (default caller state : Option String) :
    ((if declared then
          if default.any fun d => expanded d ≠ d then none
          else caller.or (state.filter (· ≠ ""))
        else none).or
      (default.map fun d => if expanded d = d then (caller.or state).getD d else expanded d)).or
        caller =
      (default.bind fun d => if expanded d = d then none else some (expanded d)).or
        (caller.or ((default.map fun d => state.getD d).or
          (if declared then state.filter (· ≠ "") else none))) := by
  cases default with
  | none =>
      cases caller with
      | none => simp
      | some v => by_cases hd : declared <;> simp [hd]
  | some d =>
      by_cases hexpanded : expanded d = d
      · cases caller with
        | some v => by_cases hd : declared <;> simp [hexpanded, hd]
        | none =>
            cases state with
            | none => simp [hexpanded]
            | some s =>
                by_cases hd : declared
                · by_cases hs : s = "" <;> simp [hexpanded, hd, hs, Option.filter]
                · simp [hexpanded, hd]
      · simp [hexpanded]

/-- The variables of a step in closed form. The main value has an order of its own. For any other
name a default whose references resolve comes first, then the value of the caller, then a default as
it stands or what the state holds for it, and at last what the state holds for a parameter. -/
theorem get?_stepVariables_tiers (caller state : Variables) (step : Plan F) (name : String) :
    (stepVariables caller state step).get? name =
      if SameName inputName name then
        some (if step.parameters.input ≠ "" then expand step.parameters.input caller state
          else firstFilled [caller.input, state.input,
            if step.steps.isEmpty then step.description else ""])
      else
        (expandedDefault? caller state step name).or ((caller.get? name).or
          ((plainDefault? state step name).or (declaredState? state step name))) := by
  by_cases hname : SameName inputName name
  · rw [if_pos hname, get?_stepVariables_input hname, stepInput_eq]
  · rw [if_neg hname, get?_stepVariables hname, find?_map_defaultValue]
    exact or_tiers _ (fun d => expand d caller state) _ _ _

end Orchestra.Plan
