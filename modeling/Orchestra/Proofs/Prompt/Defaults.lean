import Orchestra.Proofs.Prompt.Dependence
import Orchestra.Proofs.Template.Binding
import Orchestra.Proofs.Variables.Log
import Orchestra.Proofs.Variables.Lookup

namespace Orchestra

open Template Text

namespace Prompt

/-- The caller's value of a variable. An empty main value counts as none. -/
def supplied? (v : Variables) (name : String) : Option String :=
  (v.get? name).filter fun value => ¬ SameName inputName name ∨ value ≠ ""

def firstDefault? (ps : List Parameter) (name : String) : Option String :=
  (ps.find? fun p => SameName p.name name ∧ p.default ≠ "").map (·.default)

theorem firstDefault?_cons (p : Parameter) (ps : List Parameter) (name : String) :
    firstDefault? (p :: ps) name = (firstDefault? [p] name).or (firstDefault? ps name) := by
  rw [firstDefault?, ← List.singleton_append, List.find?_append, Option.map_or]
  rfl

theorem firstDefault?_singleton (p : Parameter) (name : String) :
    firstDefault? [p] name =
      if SameName p.name name ∧ p.default ≠ "" then some p.default else none := by
  by_cases h : SameName p.name name ∧ p.default ≠ "" <;> simp [firstDefault?, h]

theorem get?_eq_supplied? (v : Variables) (name : String) :
    v.get? name = (supplied? v name).or (if SameName inputName name then some "" else none) := by
  by_cases hname : SameName inputName name
  · rw [supplied?, ← v.get?_congr hname, v.get?_input, Option.filter_some]
    by_cases hempty : v.input = "" <;> simp [hname, hempty]
  · cases h : v.get? name <;> simp [supplied?, hname, h, Option.filter_some]

theorem isNone_supplied? (v : Variables) {name name' : String} (h : SameName name name') :
    (if sameAscii name inputName then v.input == "" else !v.contains name) =
      (supplied? v name').isNone := by
  by_cases hinput : SameName name inputName
  · have hname : SameName inputName name' := hinput.symm.trans h
    rw [if_pos ((sameAscii_inputName_iff name).2 hinput), supplied?, ← v.get?_congr hname,
      v.get?_input]
    by_cases hempty : v.input = "" <;> simp [hname, hempty]
  · have hname : ¬ SameName inputName name' := fun k => hinput (h.trans k.symm)
    rw [if_neg (mt (sameAscii_inputName_iff name).1 hinput), supplied?, Variables.contains,
      v.get?_congr h]
    cases v.get? name' <;> simp [hname]

theorem fillDefault_cases (v : Variables) (p : Parameter) :
    fillDefault v p = v ∨ fillDefault v p = v.set p.name p.default := by
  unfold fillDefault
  split
  · exact .inl rfl
  · dsimp only
    generalize (if sameAscii p.name inputName = true then v.input == "" else !v.contains p.name) =
      missing
    cases missing
    · exact .inl rfl
    · exact .inr rfl

theorem supplied?_fillDefault (v : Variables) (p : Parameter) (name : String) :
    supplied? (fillDefault v p) name = (supplied? v name).or (firstDefault? [p] name) := by
  rw [firstDefault?_singleton]
  by_cases hname : SameName p.name name
  · by_cases hdefault : p.default = ""
    · simp [fillDefault, hdefault]
    · simp only [fillDefault, if_neg hdefault, isNone_supplied? v hname]
      cases h : supplied? v name with
      | some value => simp [h]
      | none => simp [supplied?, Variables.get?_set, hname, hdefault]
  · have hset : supplied? (v.set p.name p.default) name = supplied? v name := by
      rw [supplied?, Variables.get?_set, if_neg hname, supplied?]
    rw [if_neg (not_and_of_not_left _ hname), Option.or_none]
    rcases fillDefault_cases v p with h | h
    · rw [h]
    · rw [h, hset]

theorem supplied?_fillDefaults (ps : List Parameter) (v : Variables) (name : String) :
    supplied? (fillDefaults ps v) name = (supplied? v name).or (firstDefault? ps name) := by
  induction ps generalizing v with
  | nil => exact (Option.or_none).symm
  | cons p ps ih =>
      rw [fillDefaults, List.foldl_cons, ← fillDefaults, ih, supplied?_fillDefault, Option.or_assoc,
        ← firstDefault?_cons]

theorem names_fillDefault (v : Variables) (p : Parameter) :
    ∃ new, (fillDefault v p).entries.map Prod.fst = v.entries.map Prod.fst ++ new ∧
      new.Sublist [p.name] := by
  rcases fillDefault_cases v p with h | h
  · exact ⟨[], by rw [h, List.append_nil], List.nil_sublist _⟩
  · refine ⟨_, by rw [h, Variables.names_set], ?_⟩
    split
    · exact List.nil_sublist _
    · exact .refl _

theorem names_fillDefaults (ps : List Parameter) (v : Variables) :
    ∃ new, (fillDefaults ps v).entries.map Prod.fst = v.entries.map Prod.fst ++ new ∧
      new.Sublist (ps.map (·.name)) := by
  induction ps generalizing v with
  | nil => exact ⟨[], (List.append_nil _).symm, .slnil⟩
  | cons p ps ih =>
      obtain ⟨first, hfirst, hsub⟩ := names_fillDefault v p
      obtain ⟨new, hnew, hsubs⟩ := ih (fillDefault v p)
      refine ⟨first ++ new, ?_, hsub.append hsubs⟩
      rw [fillDefaults, List.foldl_cons, ← fillDefaults, hnew, hfirst, List.append_assoc]

variable {σ π F : Type} [Described F]

def besideAll (call : Invoke σ F) : Invoke (π × σ) F :=
  fun f c s => Run.beside (call f c s)

theorem renderBlock_besideAll (call : Invoke σ F) (c : Context F) (b : Block) :
    renderBlock (besideAll call : Invoke (π × σ) F) c b = Run.beside (renderBlock call c b) := by
  rcases renderBlock_cases c b with ⟨r, hr⟩ | ⟨i, g, v, -, -, hmade⟩
  · rw [hr, hr]
    rfl
  · rw [hmade, hmade, besideAll, map_eq_pure_bind, map_eq_pure_bind, Run.beside_bind,
      Run.beside_mapError]
    rfl

theorem renderBlocks_besideAll (call : Invoke σ F) (c : Context F) (bs : List Block) :
    renderBlocks (besideAll call : Invoke (π × σ) F) c bs = Run.beside (renderBlocks call c bs) := by
  induction bs with
  | nil => rfl
  | cons b bs ih =>
      rw [renderBlocks, renderBlocks, renderBlock_besideAll, ih, Run.beside_bind]
      congr 1
      funext s
      rw [Run.beside_bind]
      rfl

def noted (p : Prompt σ) : Prompt (List (String × Settings) × σ) where
  signature := p.signature
  blocks := p.blocks
  settings := p.settings
  complete prompt s := do
    modify fun h => (h.1 ++ [(prompt, s)], h.2)
    Run.beside (p.complete prompt s)
  limits := p.limits

@[simp] theorem signature_noted (p : Prompt σ) : p.noted.signature = p.signature := rfl

@[simp] theorem blocks_noted (p : Prompt σ) : p.noted.blocks = p.blocks := rfl

@[simp] theorem settings_noted (p : Prompt σ) : p.noted.settings = p.settings := rfl

theorem exec_complete_noted (p : Prompt σ) (prompt : String) (s : Settings)
    (log : List (String × Settings)) (w : σ) :
    Run.exec (p.noted.complete prompt s) (log, w) =
      ((Run.exec (p.complete prompt s) w).1,
        (log ++ [(prompt, s)], (Run.exec (p.complete prompt s) w).2)) := rfl

theorem exec_invoke (p : Prompt σ) (call : Invoke σ F) (c : Context F) (settings : Settings)
    (w : σ) :
    let v := fillDefaults p.signature.parameters c.vars
    let asked := if settings.isDefault then p.settings else settings
    Run.exec (p.invoke call c settings) w =
      match Run.exec (renderBlocks call (c.withVariables v) p.blocks) w with
      | (.error e, w') => (.error (.invocationFailed p.signature.qualifiedName e.message), w')
      | (.ok prompt, w₁) =>
          ((Run.exec (p.complete prompt asked) w₁).1.map fun answer =>
              c.withVariables (v.setInput answer),
            (Run.exec (p.complete prompt asked) w₁).2) := by
  intro v asked
  rw [invoke_eq]
  change Run.exec (Run.mapError _ (renderBlocks call (c.withVariables v) p.blocks) >>= fun prompt =>
    p.complete prompt asked >>= fun answer => pure (c.withVariables (v.setInput answer))) w = _
  rw [Run.exec_bind, Run.exec_mapError]
  rcases Run.exec (renderBlocks call (c.withVariables v) p.blocks) w with ⟨_ | prompt, w₁⟩
  · rfl
  · dsimp only [Except.mapError]
    rw [bind_pure_comp, Run.exec_map]

/-- What is noted is the one prompt behind a rendering that succeeded. -/
theorem exec_invoke_noted (p : Prompt σ) (call : Invoke σ F) (c : Context F) (settings : Settings)
    (log : List (String × Settings)) (w : σ) :
    let v := fillDefaults p.signature.parameters c.vars
    let asked := if settings.isDefault then p.settings else settings
    Run.exec (p.noted.invoke (besideAll call) c settings) (log, w) =
      match Run.exec (renderBlocks call (c.withVariables v) p.blocks) w with
      | (.error e, w') => (.error (.invocationFailed p.signature.qualifiedName e.message), (log, w'))
      | (.ok prompt, w₁) =>
          ((Run.exec (p.complete prompt asked) w₁).1.map fun answer =>
              c.withVariables (v.setInput answer),
            (log ++ [(prompt, asked)], (Run.exec (p.complete prompt asked) w₁).2)) := by
  intro v asked
  rw [exec_invoke]
  simp only [signature_noted, blocks_noted, settings_noted, renderBlocks_besideAll,
    Run.exec_beside]
  rcases Run.exec (renderBlocks call (c.withVariables v) p.blocks) w with ⟨_ | prompt, w₁⟩
  · rfl
  · dsimp only
    rw [exec_complete_noted]

theorem exec_invoke_noted_ok_iff {p : Prompt σ} {call : Invoke σ F} {c out : Context F}
    {settings : Settings} {log log' : List (String × Settings)} {w w' : σ} :
    let v := fillDefaults p.signature.parameters c.vars
    let asked := if settings.isDefault then p.settings else settings
    Run.exec (p.noted.invoke (besideAll call) c settings) (log, w) = (.ok out, (log', w')) ↔
      ∃ prompt answer w₁,
        Run.exec (renderBlocks call (c.withVariables v) p.blocks) w = (.ok prompt, w₁) ∧
        Run.exec (p.complete prompt asked) w₁ = (.ok answer, w') ∧
        log' = log ++ [(prompt, asked)] ∧ out = c.withVariables (v.setInput answer) := by
  dsimp only
  rw [exec_invoke_noted]
  generalize fillDefaults p.signature.parameters c.vars = v,
    (if settings.isDefault then p.settings else settings) = asked
  rcases Run.exec (renderBlocks call (c.withVariables v) p.blocks) w with ⟨_ | prompt, w₁⟩
  · constructor
    · rintro ⟨⟩
    · rintro ⟨_, _, _, ⟨⟩, -⟩
  · dsimp only
    rcases hanswer : Run.exec (p.complete prompt asked) w₁ with ⟨_ | answer, w₂⟩
    · constructor
      · rintro ⟨⟩
      · rintro ⟨_, _, _, ⟨⟩, hok, -⟩
        cases hanswer.symm.trans hok
    · constructor
      · rintro ⟨⟩
        exact ⟨prompt, answer, w₁, rfl, hanswer, rfl, rfl⟩
      · rintro ⟨_, _, _, ⟨⟩, hok, rfl, rfl⟩
        cases hanswer.symm.trans hok
        rfl

theorem exec_invoke_of_noted (p : Prompt σ) (call : Invoke σ F) (c : Context F)
    (settings : Settings) (log : List (String × Settings)) (w : σ) :
    let out := Run.exec (p.noted.invoke (besideAll call) c settings) (log, w)
    Run.exec (p.invoke call c settings) w = (out.1, out.2.2) := by
  intro out
  have hout : out = _ := exec_invoke_noted p call c settings log w
  rw [hout, exec_invoke]
  rcases Run.exec (renderBlocks call _ p.blocks) w with ⟨_ | prompt, w₁⟩ <;> rfl

theorem entries_setInput (v : Variables) (value : String) :
    (v.setInput value).entries = (inputName, value) :: v.entries.tail := by
  obtain ⟨entries, hfirst, hdistinct⟩ := v
  cases entries with
  | nil => cases hfirst
  | cons e rest =>
      have he : e.1 = inputName := by simpa using hfirst
      simp [Variables.setInput, Variables.set, Entries.put, SameName.refl, he]

theorem eq_withVariables_setInput_iff {c out : Context F} {v : Variables} {value : String} :
    out = c.withVariables (v.setInput value) ↔
      out.vars.entries = (inputName, value) :: v.entries.tail ∧
        out.registry = c.registry ∧ out.locale = c.locale := by
  rw [← entries_setInput, ← Variables.ext_iff]
  constructor
  · rintro rfl
    exact ⟨rfl, rfl, rfl⟩
  · obtain ⟨vars, registry, locale⟩ := out
    rintro ⟨rfl, rfl, rfl⟩
    rfl

/-- A prompt is rendered against the variables of the caller with the defaults filled in: a variable
that the caller does not have gets the first default of its name, and so does an empty main value.
Behind a rendering that succeeds, whatever functions it calls, the service is asked once, and the
answer becomes the main value of the context that was rendered in. -/
theorem invoke_fills_defaults {template : String} {p : Prompt σ}
    (h : extract template true = .ok p.blocks) (c : Context F) (settings : Settings) :
    let asked := if settings.isDefault then p.settings else settings
    ∃ v : Variables,
      (∀ name, v.get? name =
        ((supplied? c.vars name).or (firstDefault? p.signature.parameters name)).or
          (if SameName inputName name then some "" else none)) ∧
      (∀ name value, ¬ SameName inputName name → c.vars.get? name = some value →
        v.get? name = some value) ∧
      (∃ new, v.entries.map Prod.fst = c.vars.entries.map Prod.fst ++ new ∧
        new.Sublist (p.signature.parameters.map (·.name))) ∧
      ∀ (call : Invoke σ F) (log : List (String × Settings)) (w : σ),
        (∀ out log' w', Run.exec (p.noted.invoke (besideAll call) c settings) (log, w) =
            (.ok out, (log', w')) ↔
          ∃ prompt answer w₁,
            Run.exec (render call (c.withVariables v) template) w = (.ok prompt, w₁) ∧
            Run.exec (p.complete prompt asked) w₁ = (.ok answer, w') ∧
            log' = log ++ [(prompt, asked)] ∧
            out.vars.entries = (inputName, answer) :: v.entries.tail ∧
            out.registry = c.registry ∧ out.locale = c.locale) ∧
        (∀ e w', Run.exec (render call (c.withVariables v) template) w = (.error e, w') →
          Run.exec (p.noted.invoke (besideAll call) c settings) (log, w) =
            (.error (.invocationFailed p.signature.qualifiedName e.message), (log, w'))) ∧
        let out := Run.exec (p.noted.invoke (besideAll call) c settings) (log, w)
        Run.exec (p.invoke call c settings) w = (out.1, out.2.2) := by
  intro asked
  have hget (name : String) : (fillDefaults p.signature.parameters c.vars).get? name = _ :=
    get?_eq_supplied? _ name
  simp only [supplied?_fillDefaults] at hget
  refine ⟨fillDefaults p.signature.parameters c.vars, hget, fun name value hname hvalue => ?_,
    names_fillDefaults _ _, fun call log w => ⟨fun out log' w' => ?_, fun e w' hrender => ?_,
      exec_invoke_of_noted p call c settings log w⟩⟩
  · simp [hget, supplied?, hvalue, hname]
  · simp only [render_of_extract h, ← eq_withVariables_setInput_iff]
    exact exec_invoke_noted_ok_iff
  · rw [exec_invoke_noted, ← render_of_extract h, hrender]

def tellConfig : PromptConfig where
  completion := { maxTokens := some 5 }
  parameters := [{ name := "input", default := "none" }, { name := "CITY", default := "Rome" },
    { name := "ΑΣ", default := "1" }, { name := "ασ", default := "2" }]

def tell : Prompt Nat where
  signature := { name := "tell", plugin := globalPlugin, parameters := tellConfig.parameters }
  blocks := [nextBlock]
  settings := tellConfig.completion
  complete prompt _ := do
    modify (· + 10)
    return prompt ++ "!"

theorem extract_tell : extract "{{t.next}}" true = .ok tell.blocks := by
  have hpieces : Piece.ofTemplate "{{t.next}}" = [.text [], .code "t.next".toList true, .text []] :=
    rfl
  rw [extract, blocks?, hpieces, blocksOf?, blocksOf?_next]
  rfl

theorem make?_tell : make? "" "tell" "{{t.next}}" tellConfig tell.complete {} = .ok tell := by
  have hdeclared : declared tellConfig.parameters [nextBlock] = tellConfig.parameters := by
    decide +kernel
  rw [make?, extract_tell]
  change Except.ok { tell with signature :=
    { tell.signature with parameters := declared tellConfig.parameters [nextBlock] } } = _
  rw [hdeclared]
  rfl

def tellContext : Context (Function Unit) :=
  twiceContext.withVariables (.ofList [("city", "")])

theorem exec_renderBlocks_tell (v : Variables) :
    Run.exec (renderBlocks twice (tellContext.withVariables v) tell.blocks) 0 = (.ok "one", 1) := by
  have hcall : startCall (tellContext.withVariables v) "t.next" ⟨some "t", "next"⟩ [] =
      .call ⟨some "t", "next"⟩ (.ofText "t" "next" "" [] pure) (tellContext.withVariables v) :=
    startCall_eq rfl rfl
  have hexec : Run.exec (renderBlock twice (tellContext.withVariables v) nextBlock) 0 =
      (.ok (v.setInput "one").input, 1) := by
    rw [nextBlock, renderBlock, start, startCode, hcall, Start.run, Run.exec_map, Run.exec_mapError]
    rfl
  have hblocks : tell.blocks = [nextBlock] := rfl
  rw [hblocks, renderBlocks, Run.exec_bind, hexec, Variables.input_setInput]
  rfl

theorem invoke_fills_defaults_tell :
    make? "" "tell" "{{t.next}}" tellConfig tell.complete {} = .ok tell ∧
      extract "{{t.next}}" true = .ok tell.blocks ∧
      ∃ v : Variables, v.get? "INPUT" = some "none" ∧ v.get? "city" = some "" ∧
        v.get? "ασ" = some "1" ∧ v.get? "ας" = none ∧
        Run.exec (tell.noted.invoke (besideAll twice) tellContext {}) ([], 0) =
          (.ok (tellContext.withVariables (v.setInput "one!")),
            ([("one", { maxTokens := some 5 })], 11)) := by
  refine ⟨make?_tell, extract_tell, ?_⟩
  obtain ⟨v, hv, -, -, hinvoke⟩ := invoke_fills_defaults extract_tell tellContext {}
  refine ⟨v, (hv _).trans ?_, (hv _).trans ?_, (hv _).trans ?_, (hv _).trans ?_, ?_⟩
  · decide +kernel
  · decide +kernel
  · decide +kernel
  · decide +kernel
  · have hrender := (congrArg (Run.exec · 0) (render_of_extract extract_tell)).trans
      (exec_renderBlocks_tell v)
    exact ((hinvoke twice [] 0).1 _ _ _).2
      ⟨"one", "one!", 1, hrender, rfl, rfl, entries_setInput v "one!", rfl, rfl⟩

end Prompt

end Orchestra
