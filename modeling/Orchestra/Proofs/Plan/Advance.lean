import Orchestra.Plan.Step

namespace Orchestra

open Text

theorem Entries.filter_put {q : String → Bool} {name : String}
    (h : ∀ other, SameName name other → q other = false) (value : String)
    (es : List (String × String)) :
    (put name value es).filter (fun e => q e.1) = es.filter fun e => q e.1 := by
  induction es with
  | nil => simp [put, h name (SameName.refl name)]
  | cons e rest ih =>
      by_cases he : SameName e.1 name
      · simp [put, he, h e.1 he.symm]
      · simp [put, he, List.filter_cons, ih]

/-- The two sets have the same entries, in the same order, under the names that `q` picks. -/
def Variables.AgreeOn (q : String → Bool) (v w : Variables) : Prop :=
  (v.entries.filter fun e => q e.1) = w.entries.filter fun e => q e.1

theorem Variables.agreeOn_set {q : String → Bool} {name : String}
    (h : ∀ other, SameName name other → q other = false) (v : Variables) (value : String) :
    (v.set name value).AgreeOn q v :=
  Entries.filter_put h value v.entries

theorem Variables.agreeOn_foldl {q : String → Bool} {f : Variables → String → Variables}
    {names : List String} (h : ∀ name ∈ names, ∀ v, (f v name).AgreeOn q v) (v : Variables) :
    (names.foldl f v).AgreeOn q v := by
  induction names generalizing v with
  | nil => rfl
  | cons name names ih =>
      obtain ⟨hname, hnames⟩ := List.forall_mem_cons.1 h
      exact (ih hnames _).trans (hname v)

namespace Plan

variable {F : Type}

def Lists (step : Plan F) (name : String) : Prop :=
  ∃ output ∈ step.outputs, SameName output name

instance (step : Plan F) : DecidablePred step.Lists := fun name =>
  inferInstanceAs (Decidable (∃ output ∈ step.outputs, SameName output name))

/-- The names under which a step writes into the state of the plan. -/
def Writes (p step : Plan F) (name : String) : Prop :=
  SameName inputName name ∨ (p.sharesOutput step = true ∧ SameName resultName name) ∨
    ∃ output ∈ step.outputs, SameName output name

instance (p step : Plan F) : DecidablePred (p.Writes step) := by
  intro name
  unfold Writes
  infer_instance

theorem agreeOn_putOutputs {q : String → Bool} (result : String) (out : Variables)
    {names : List String} (h : ∀ name ∈ names, ∀ other, SameName name other → q other = false)
    (state : Variables) : (putOutputs result out state names).AgreeOn q state :=
  Variables.agreeOn_foldl (fun name hn v => Variables.agreeOn_set (h name hn) v _) state

theorem agreeOn_advance (p step : Plan F) (out : Variables) :
    (p.advance step out).state.AgreeOn (fun name => ¬ p.Writes step name) p.state := by
  have hinput : ∀ other, SameName inputName other → decide (¬ p.Writes step other) = false := by
    intro other h
    simpa using .inl h
  have houtputs : ∀ name ∈ step.outputs, ∀ other, SameName name other →
      decide (¬ p.Writes step other) = false := by
    intro name hn other h
    simpa using .inr (.inr ⟨name, hn, h⟩)
  have hstate := Variables.agreeOn_set hinput p.state (trim out.input)
  by_cases hs : p.sharesOutput step = true
  · have hresult : ∀ other, SameName resultName other →
        decide (¬ p.Writes step other) = false := by
      intro other h
      simpa using .inr (.inl ⟨hs, h⟩)
    rw [advance, if_pos hs]
    exact (agreeOn_putOutputs _ out houtputs _).trans
      ((Variables.agreeOn_set hresult _ _).trans hstate)
  · rw [advance, if_neg hs]
    exact (agreeOn_putOutputs _ out houtputs _).trans hstate

theorem advance_eq (p step : Plan F) (out : Variables) :
    p.advance step out =
      { p with
        state := (p.advance step out).state
        answer := (p.advance step out).answer
        nextStep := p.nextStep + 1 } := by
  unfold advance
  split <;> rfl

@[simp] theorem steps_advance (p step : Plan F) (out : Variables) :
    (p.advance step out).steps = p.steps := by
  rw [advance_eq]

@[simp] theorem outputs_advance (p step : Plan F) (out : Variables) :
    (p.advance step out).outputs = p.outputs := by
  rw [advance_eq]

@[simp] theorem nextStep_advance (p step : Plan F) (out : Variables) :
    (p.advance step out).nextStep = p.nextStep + 1 := by
  rw [advance_eq]

theorem sharesOutput_advance (p step : Plan F) (out : Variables) (other : Plan F) :
    (p.advance step out).sharesOutput other = p.sharesOutput other := by
  rw [sharesOutput, outputs_advance, ← sharesOutput]

theorem get?_putOutputs (result : String) (out state : Variables) (names : List String)
    (name : String) :
    (putOutputs result out state names).get? name =
      if ∃ n ∈ names, SameName n name then some ((out.get? name).getD result)
      else state.get? name := by
  induction names generalizing state with
  | nil => simp [putOutputs]
  | cons n names ih =>
      have hset := ih (state.set n ((out.get? n).getD result))
      rw [Variables.get?_set] at hset
      rw [putOutputs, List.foldl_cons, ← putOutputs, hset]
      by_cases hn : SameName n name
      · simp [hn, Variables.get?_congr out hn]
      · simp [hn]

theorem get?_advance (p step : Plan F) (out : Variables) (name : String) :
    (p.advance step out).state.get? name =
      if ∃ output ∈ step.outputs, SameName output name then
        some ((out.get? name).getD (trim out.input))
      else if p.sharesOutput step = true ∧ SameName resultName name then
        some (p.extendResult (trim out.input))
      else if SameName inputName name then some (trim out.input)
      else p.state.get? name := by
  unfold advance
  by_cases hs : p.sharesOutput step = true
  · simp [hs, get?_putOutputs, Variables.get?_set, Variables.setInput]
  · simp [hs, get?_putOutputs, Variables.get?_set, Variables.setInput]

theorem get?_advance_of_lists {p step : Plan F} {name : String} (h : step.Lists name)
    (out : Variables) :
    (p.advance step out).state.get? name = some ((out.get? name).getD (trim out.input)) :=
  (get?_advance p step out name).trans (if_pos h)

theorem answer_advance (p step : Plan F) (out : Variables) :
    (p.advance step out).answer =
      if p.sharesOutput step = true then p.extendResult (trim out.input) else p.answer := by
  unfold advance
  by_cases hs : p.sharesOutput step = true
  · simp only [hs, if_true]
  · simp only [hs, Bool.false_eq_true, if_false]

end Plan

end Orchestra
