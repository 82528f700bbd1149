import Orchestra.Plan.Resolve
import Orchestra.Proofs.Variables.Lookup

namespace Orchestra

open Text

namespace Plan

variable {F : Type} [Described F]

def refers (caller state : Variables) (step : Plan F) (name : String) : Bool :=
  (step.parameters.get? name).any fun d => expand d caller state ≠ d

def declaredValue? (caller state : Variables) (step : Plan F) (name : String) : Option String :=
  if refers caller state step name then none
  else (caller.get? name).or ((state.get? name).filter (· ≠ ""))

def defaultValue (caller state : Variables) (e : String × String) : String :=
  if expand e.2 caller state ≠ e.2 then expand e.2 caller state
  else ((caller.get? e.1).or (state.get? e.1)).getD e.2

omit [Described F] in
theorem declaredValue?_congr (caller state : Variables) (step : Plan F) {a b : String}
    (h : SameName a b) :
    declaredValue? caller state step a = declaredValue? caller state step b := by
  rw [declaredValue?, declaredValue?, refers, refers, caller.get?_congr h, state.get?_congr h,
    step.parameters.get?_congr h]

omit [Described F] in
theorem get?_addDeclared {name : String} (hname : ¬ SameName inputName name)
    (caller state : Variables) (step : Plan F) (v : Variables) (q : Parameter) :
    (addDeclared caller state step.parameters v q).get? name =
      if SameName q.name name then (declaredValue? caller state step name).or (v.get? name)
      else v.get? name := by
  unfold addDeclared
  by_cases hq : SameName q.name name
  · have hinput : ¬ sameAscii q.name inputName = true := fun h =>
      hname ((sameName_of_sameAscii h).symm.trans hq)
    rw [if_neg hinput, if_pos hq, ← declaredValue?_congr caller state step hq, declaredValue?,
      refers]
    by_cases hr : ((step.parameters.get? q.name).any fun d => expand d caller state ≠ d) = true
    · rw [if_pos hr, if_pos hr, Option.none_or]
    · rw [if_neg hr, if_neg hr]
      cases (caller.get? q.name).or ((state.get? q.name).filter (· ≠ "")) with
      | none => rfl
      | some value => simp [Variables.get?_set, hq]
  · rw [if_neg hq]
    split
    · rfl
    · split
      · rfl
      · split
        · rw [Variables.get?_set, if_neg hq]
        · rfl

omit [Described F] in
theorem get?_foldl_addDeclared {name : String} (hname : ¬ SameName inputName name)
    (caller state : Variables) (step : Plan F) (qs : List Parameter) (v : Variables) :
    (qs.foldl (addDeclared caller state step.parameters) v).get? name =
      if ∃ q ∈ qs, SameName q.name name then
        (declaredValue? caller state step name).or (v.get? name)
      else v.get? name := by
  induction qs generalizing v with
  | nil => simp
  | cons q qs ih =>
      rw [List.foldl_cons, ih, get?_addDeclared hname]
      by_cases hq : SameName q.name name
      · simp only [List.mem_cons, exists_eq_or_imp, hq, true_or, if_true]
        split
        · rw [← Option.or_assoc, Option.or_self]
        · rfl
      · simp only [List.mem_cons, exists_eq_or_imp, hq, false_or, if_false]

/-- Every value but the main one: a declared parameter first, then the defaults of the step, and at
last whatever else the caller holds. -/
theorem get?_stepVariables {name : String} (hname : ¬ SameName inputName name)
    (caller state : Variables) (step : Plan F) :
    (stepVariables caller state step).get? name =
      ((if ∃ q ∈ step.signature.parameters, SameName q.name name then
          declaredValue? caller state step name
        else none).or
        ((step.parameters.entries.find? fun e => SameName e.1 name).map
          (defaultValue caller state))).or (caller.get? name) := by
  have hdefaults : addDefault caller state = fun v e =>
      v.setMissing e.1 (defaultValue caller state e) := rfl
  rw [stepVariables, Variables.get?_setAllMissing, hdefaults, Variables.get?_foldl_setMissing,
    get?_foldl_addDeclared hname, Variables.get?_withInput hname, Option.or_none, ← Variables.get?]

theorem find?_entries_eq_none_iff (v : Variables) (name : String) :
    (v.entries.find? fun e => SameName e.1 name) = none ↔ v.get? name = none :=
  Option.map_eq_none_iff.symm

theorem get?_stepVariables_eq_none_iff {name : String} (hname : ¬ SameName inputName name)
    (caller state : Variables) (step : Plan F) :
    (stepVariables caller state step).get? name = none ↔
      caller.get? name = none ∧ step.parameters.get? name = none ∧
        ((∃ q ∈ step.signature.parameters, SameName q.name name) →
          (state.get? name).filter (· ≠ "") = none) := by
  rw [get?_stepVariables hname, Option.or_eq_none_iff, Option.or_eq_none_iff,
    Option.map_eq_none_iff, find?_entries_eq_none_iff]
  constructor
  · rintro ⟨⟨hdeclared, hdefault⟩, hcaller⟩
    refine ⟨hcaller, hdefault, ?_⟩
    intro hq
    rw [if_pos hq, declaredValue?, refers, hdefault, hcaller] at hdeclared
    simpa using hdeclared
  · rintro ⟨hcaller, hdefault, hstate⟩
    refine ⟨⟨?_, hdefault⟩, hcaller⟩
    split
    · rename_i hq
      rw [declaredValue?, refers, hdefault, hcaller, hstate hq]
      rfl
    · rfl

end Plan

end Orchestra
