import Orchestra.Function
import Orchestra.Plan.TextForm
import Orchestra.Proofs.Json.Reading
import Orchestra.Proofs.Json.Record
import Orchestra.Proofs.Variables.Json

namespace Orchestra.Plan

variable {F : Type}

mutual

/-- The plan and all plans below it. -/
def nodes : Plan F → List (Plan F)
  | ⟨name, plugin, description, parameters, content, answer, state, steps, outputs, nextStep, f⟩ =>
      ⟨name, plugin, description, parameters, content, answer, state, steps, outputs, nextStep, f⟩ ::
        nodesAll steps

def nodesAll : List (Plan F) → List (Plan F)
  | [] => []
  | step :: rest => nodes step ++ nodesAll rest

end

mutual

def bare : Plan F → Plan F
  | ⟨name, plugin, description, parameters, content, answer, state, steps, outputs, nextStep, _⟩ =>
      ⟨name, plugin, description, parameters, content, answer, state, bareAll steps, outputs, nextStep,
        none⟩

def bareAll : List (Plan F) → List (Plan F)
  | [] => []
  | step :: rest => bare step :: bareAll rest

end

/-- A leaf whose plugin tells that it holds a function. -/
def Marked (p : Plan F) : Prop :=
  p.steps.isEmpty = true ∧ p.plugin ≠ planPlugin

instance (p : Plan F) : Decidable p.Marked :=
  inferInstanceAs (Decidable (_ ∧ _))

mutual

def stripped : Plan F → Plan F
  | ⟨name, plugin, description, parameters, content, answer, state, steps, outputs, nextStep, f⟩ =>
      ⟨name, plugin, description, parameters, content, answer, state, strippedAll steps, outputs,
        nextStep, if steps.isEmpty = true ∧ plugin ≠ planPlugin then f else none⟩

def strippedAll : List (Plan F) → List (Plan F)
  | [] => []
  | step :: rest => stripped step :: strippedAll rest

end

mutual

theorem plain_toJson : ∀ p : Plan F, (∀ n ∈ p.nodes, n.nextStep < UInt64.size) → p.toJson.Plain
  | ⟨_, _, _, parameters, _, _, state, steps, outputs, _, _⟩, h => by
      obtain ⟨hself, hsteps⟩ := List.forall_mem_cons.1 h
      exact ⟨trivial, trivial, trivial, parameters.plain_toJson, trivial, trivial, state.plain_toJson,
        plain_stepsToJson steps hsteps, Json.plain_strings outputs, Json.fits_ofNat hself, trivial⟩

theorem plain_stepsToJson : ∀ steps : List (Plan F),
    (∀ n ∈ nodesAll steps, n.nextStep < UInt64.size) → Json.PlainItems (stepsToJson steps)
  | [], _ => trivial
  | step :: rest, h => by
      obtain ⟨hstep, hrest⟩ := List.forall_mem_append.1 h
      exact ⟨plain_toJson step hstep, plain_stepsToJson rest hrest⟩

end

mutual

theorem ofJson?_toJson : ∀ (p : Plan F) (levels : Nat),
    (∀ n ∈ p.nodes, n.nextStep < UInt64.size) → p.toJson.depth ≤ levels →
    ofJson? levels p.toJson = some p.bare
  | ⟨name, plugin, description, parameters, content, answer, state, steps, outputs, nextStep, f⟩, levels,
    h, hd => by
      obtain ⟨hself, hsteps⟩ := List.forall_mem_cons.1 h
      simp only [toJson, Json.depth, Json.depthMembers] at hd
      cases levels with
      | zero => simp at hd
      | succ levels =>
          have hread : Json.list? (ofJson? levels) (.array (stepsToJson steps)) = some (bareAll steps) :=
            mapM_stepsToJson steps levels hsteps (by omega)
          have hnext : Json.natBelow? UInt64.size (.ofNat nextStep) = some nextStep :=
            Json.natBelow?_ofNat hself
          have hnodup : fieldNames.Nodup := by decide
          rw [toJson, ofJson?, Json.record?_fields hnodup _ rfl]
          simp [Json.Record.required?, Json.Record.optional?, List.lookup_cons, Json.text?,
            Variables.ofJson?_toJson, Json.list?_strings, hread, hnext, bare]

theorem mapM_stepsToJson : ∀ (steps : List (Plan F)) (levels : Nat),
    (∀ n ∈ nodesAll steps, n.nextStep < UInt64.size) → Json.depthItems (stepsToJson steps) ≤ levels →
    (stepsToJson steps).mapM (ofJson? levels) = some (bareAll steps)
  | [], _, _, _ => rfl
  | step :: rest, levels, h, hd => by
      obtain ⟨hstep, hrest⟩ := List.forall_mem_append.1 h
      simp only [stepsToJson, Json.depthItems] at hd
      have hhead := ofJson?_toJson step levels hstep (by omega)
      have htail := mapM_stepsToJson rest levels hrest (by omega)
      rw [stepsToJson, List.mapM_cons, hhead, htail]
      rfl

end

mutual

theorem bare_stripped : ∀ p : Plan F, p.stripped.bare = p.bare
  | ⟨_, _, _, _, _, _, _, steps, _, _, _⟩ => by
      rw [stripped, bare, bareAll_strippedAll steps, bare]

theorem bareAll_strippedAll : ∀ steps : List (Plan F), bareAll (strippedAll steps) = bareAll steps
  | [] => rfl
  | step :: rest => by
      rw [strippedAll, bareAll, bare_stripped step, bareAll_strippedAll rest, bareAll]

end

mutual

theorem functions_stripped : ∀ p : Plan F,
    p.stripped.nodes.map Plan.function =
      p.nodes.map fun n => if n.Marked then n.function else none
  | ⟨_, _, _, _, _, _, _, steps, _, _, _⟩ => by
      rw [stripped, nodes, nodes, List.map_cons, List.map_cons, functions_strippedAll steps]
      rfl

theorem functions_strippedAll : ∀ steps : List (Plan F),
    (nodesAll (strippedAll steps)).map Plan.function =
      (nodesAll steps).map fun n => if n.Marked then n.function else none
  | [] => rfl
  | step :: rest => by
      rw [strippedAll, nodesAll, nodesAll, List.map_append, List.map_append, functions_stripped step,
        functions_strippedAll rest]

end

theorem ite_none_eq_self_iff {c : Prop} [Decidable c] {f : Option F} :
    (if c then f else none) = f ↔ (f.isSome = true → c) := by
  by_cases h : c
  · simp [h]
  · cases f <;> simp [h]

mutual

theorem stripped_eq_self_iff : ∀ p : Plan F,
    p.stripped = p ↔ ∀ n ∈ p.nodes, n.function.isSome = true → n.Marked
  | ⟨_, plugin, _, _, _, _, _, steps, _, _, f⟩ => by
      rw [stripped, nodes, List.forall_mem_cons, ← strippedAll_eq_self_iff steps]
      simp only [mk.injEq, true_and, ite_none_eq_self_iff]
      exact and_comm

theorem strippedAll_eq_self_iff : ∀ steps : List (Plan F),
    strippedAll steps = steps ↔ ∀ n ∈ nodesAll steps, n.function.isSome = true → n.Marked
  | [] => by simp [strippedAll, nodesAll]
  | step :: rest => by
      rw [strippedAll, nodesAll, List.forall_mem_append, ← stripped_eq_self_iff step,
        ← strippedAll_eq_self_iff rest, List.cons.injEq]

end

variable [Described F]

/-- A function is found under the names of its node, and a node without one carries the plugin of
plans. -/
def Known (r : Registry F) (p : Plan F) : Prop :=
  (∀ f, p.function = some f → r.resolve? (some p.plugin) p.name = some f) ∧
    (p.function = none → p.plugin = planPlugin)

mutual

theorem attach?_bare {r : Registry F} : ∀ p : Plan F, (∀ n ∈ p.nodes, Known r n) →
    p.bare.attach? r = .ok p.stripped
  | ⟨name, plugin, _, _, _, _, _, [], _, _, f⟩, h => by
      obtain ⟨hfound, hnone⟩ := h _ List.mem_cons_self
      rw [bare, bareAll, attach?]
      by_cases hp : plugin = planPlugin
      · rw [if_pos hp, stripped, if_neg (by simp [hp])]
        rfl
      · cases f with
        | none => exact absurd (hnone rfl) hp
        | some f =>
            have hf : r.resolve? (some plugin) name = some f := hfound f rfl
            rw [if_neg hp, hf, stripped, if_pos ⟨rfl, hp⟩]
            rfl
  | ⟨_, _, _, _, _, _, _, step :: rest, _, _, _⟩, h => by
      obtain ⟨-, hsteps⟩ := List.forall_mem_cons.1 h
      obtain ⟨hstep, hrest⟩ := List.forall_mem_append.1 hsteps
      rw [bare, bareAll, attach?, attach?_bare step hstep, attachAll?_bareAll rest hrest]
      rfl

theorem attachAll?_bareAll {r : Registry F} : ∀ steps : List (Plan F),
    (∀ n ∈ nodesAll steps, Known r n) → attachAll? r (bareAll steps) = .ok (strippedAll steps)
  | [], _ => rfl
  | step :: rest, h => by
      obtain ⟨hstep, hrest⟩ := List.forall_mem_append.1 h
      rw [bareAll, attachAll?, attach?_bare step hstep, attachAll?_bareAll rest hrest]
      rfl

end

omit [Described F] in
theorem read_toText {p : Plan F} (hn : ∀ n ∈ p.nodes, n.nextStep < UInt64.size)
    (hd : p.toJson.depth < 128) :
    (Json.parse? p.toText).bind (ofJson? Json.depthLimit) = some p.bare := by
  have hdepth : p.toJson.depth ≤ Json.depthLimit := Nat.le_of_lt_succ hd
  rw [toText, Json.parse?_pretty (plain_toJson p hn) hdepth, Option.bind_some,
    ofJson?_toJson p _ hn hdepth]

theorem ofText?_toText {r : Registry F} {p : Plan F} (hk : ∀ n ∈ p.nodes, Known r n)
    (hn : ∀ n ∈ p.nodes, n.nextStep < UInt64.size) (hd : p.toJson.depth < 128) :
    ofText? r p.toText = .ok p.stripped := by
  rw [ofText?, read_toText hn hd]
  exact attach?_bare p hk

theorem known_forGoal (r : Registry F) (name goal : String) (steps : List (Plan F)) :
    Known r (forGoal name goal steps) :=
  ⟨nofun, fun _ => rfl⟩

theorem known_ofFunction {r : Registry F} {f : F} (h : r.find? (keyOf f) = some f) :
    Known r (ofFunction f) := by
  refine ⟨?_, nofun⟩
  rintro _ ⟨⟩
  exact h

/-- A plan comes back with the functions of its marked leaves, and so it comes back whole exactly
when no other node holds a function. -/
theorem reload_functions (r : Registry F) (p : Plan F) (hk : ∀ n ∈ p.nodes, Known r n)
    (hn : ∀ n ∈ p.nodes, n.nextStep < UInt64.size) (hd : p.toJson.depth < 128) :
    ∃ q, ofText? r p.toText = .ok q ∧ q.bare = p.bare ∧
      q.nodes.map Plan.function = p.nodes.map (fun n => if n.Marked then n.function else none) ∧
      (q = p ↔ ∀ n ∈ p.nodes, n.function.isSome = true → n.Marked) :=
  ⟨p.stripped, ofText?_toText hk hn hd, bare_stripped p, functions_stripped p, stripped_eq_self_iff p⟩

def upper : Function Unit :=
  .ofText "text" "upper" "Uppercase the input" [] pure

def shout : Function Unit :=
  .ofPlan (forGoal "shout" "shout the input" [ofFunction upper])

def registered : Registry (Function Unit) :=
  (Registry.empty.register upper).register shout

theorem find?_shout : registered.find? (keyOf shout) = some shout := by
  rw [registered, Registry.find?_register, if_pos rfl]

theorem find?_upper : registered.find? (keyOf upper) = some upper := by
  rw [registered, Registry.find?_register, if_neg (by decide), Registry.find?_register, if_pos rfl]

def calling (f : Function Unit) : Plan (Function Unit) :=
  forGoal "plan" "goal" [ofFunction f]

theorem known_calling {f : Function Unit} (h : registered.find? (keyOf f) = some f) :
    ∀ n ∈ (calling f).nodes, Known registered n := by
  intro n hn
  rcases List.mem_cons.1 hn with rfl | hn
  · exact known_forGoal ..
  · obtain rfl := List.mem_singleton.1 hn
    exact known_ofFunction h

theorem nextStep_calling (f : Function Unit) : ∀ n ∈ (calling f).nodes, n.nextStep < UInt64.size := by
  have hzero : 0 < UInt64.size := by decide
  intro n hn
  rcases List.mem_cons.1 hn with rfl | hn
  · exact hzero
  · obtain rfl := List.mem_singleton.1 hn
    exact hzero

theorem reload_functions_upper :
    (∀ n ∈ (calling upper).nodes, Known registered n) ∧
      (∀ n ∈ (calling upper).nodes, n.nextStep < UInt64.size) ∧
      (calling upper).toJson.depth < 128 ∧
      ofText? registered (calling upper).toText = .ok (calling upper) := by
  have hk := known_calling find?_upper
  have hn := nextStep_calling upper
  have hd : (calling upper).toJson.depth < 128 := by decide
  refine ⟨hk, hn, hd, ?_⟩
  obtain ⟨q, hq, -, -, hiff⟩ := reload_functions registered (calling upper) hk hn hd
  rw [hq, hiff.2]
  intro n hnode hf
  rcases List.mem_cons.1 hnode with rfl | hnode
  · cases hf
  · obtain rfl := List.mem_singleton.1 hnode
    decide

/-- The step loses its function, though the registry has it under the very names of the step. -/
theorem reload_loses_registered_plan :
    (∀ n ∈ (calling shout).nodes, Known registered n) ∧
      (∀ n ∈ (calling shout).nodes, n.nextStep < UInt64.size) ∧
      (calling shout).toJson.depth < 128 ∧
      ∃ q, ofText? registered (calling shout).toText = .ok q ∧
        (calling shout).nodes.map (fun n => n.function.isSome) = [false, true] ∧
        q.nodes.map (fun n => n.function.isSome) = [false, false] := by
  have hk := known_calling find?_shout
  have hn := nextStep_calling shout
  have hd : (calling shout).toJson.depth < 128 := by decide
  exact ⟨hk, hn, hd, _, ofText?_toText hk hn hd, rfl, rfl⟩

end Orchestra.Plan
