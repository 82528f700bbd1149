import Orchestra.Function
import Orchestra.Proofs.Template.Failures
import Orchestra.Proofs.Text.Lowercase

namespace Orchestra

open Template Text

namespace Prompt

theorem exists_firstOfEach {seen : List String} {ps : List Parameter} {p : Parameter} (hp : p ∈ ps)
    (hseen : lowercase p.name ∉ seen) :
    ∃ q ∈ firstOfEach seen ps, lowercase q.name = lowercase p.name := by
  induction ps generalizing seen with
  | nil => cases hp
  | cons first rest ih =>
      rw [firstOfEach]
      by_cases hfirst : lowercase first.name = lowercase p.name
      · rw [if_neg (hfirst ▸ hseen)]
        exact ⟨first, List.mem_cons_self .., hfirst⟩
      · have hrest : p ∈ rest := by
          cases hp with
          | head => exact absurd rfl hfirst
          | tail _ h => exact h
        split
        · exact ih hrest hseen
        · have hseen' : lowercase p.name ∉ lowercase first.name :: seen := by
            simp [Ne.symm hfirst, hseen]
          obtain ⟨q, hq, heq⟩ := ih hrest hseen'
          exact ⟨q, List.mem_cons_of_mem first hq, heq⟩

theorem exists_declared (configured : List Parameter) {blocks : List Block} {name : String}
    (h : name ∈ blocksVariables blocks) (hne : name ≠ "") :
    ∃ q ∈ declared configured blocks, lowercase q.name = lowercase name := by
  refine exists_firstOfEach (p := { name }) (List.mem_append_right _ ?_) (List.not_mem_nil)
  exact List.mem_map.2 ⟨name, List.mem_filter.2 ⟨h, by simpa using hne⟩, rfl⟩

theorem blockVariables_subset {b : Block} {bs : List Block} (h : b ∈ bs) :
    blockVariables b ⊆ blocksVariables bs := by
  induction h with
  | head => exact List.subset_append_left _ _
  | tail _ _ ih => exact List.Subset.trans ih (List.subset_append_right _ _)

theorem name_of_plain {b : Block} {vars : Variables} {s name : String} (h : Plain vars b s)
    (hfault : b.fault? = none) (hname : name ∈ blockVariables b) : Grammar.Name name := by
  cases h with
  | text | literal => cases hname
  | @reference source v value hvalue | @missing source v hvalue =>
      obtain rfl : name = v.name := List.mem_singleton.1 hname
      have htoken := (Block.code_fault?_eq_none.1 hfault).1
      rw [tokenFault?, Option.or_eq_none_iff] at htoken
      exact Variable.fault?_eq_none.1 htoken.1

def Agree (ps : List Parameter) (v w : Variables) : Prop :=
  ∀ q ∈ ps, v.get? q.name = w.get? q.name

theorem Agree.fillDefault {ps : List Parameter} {v w : Variables} (h : Agree ps v w) {p : Parameter}
    (hp : p ∈ ps) : Agree ps (fillDefault v p) (fillDefault w p) := by
  have hset : Agree ps (v.set p.name p.default) (w.set p.name p.default) := by
    intro q hq
    rw [Variables.get?_set, Variables.get?_set, h q hq]
  -- The default of the input fills an empty value, and so depends on the value itself.
  have hinput : sameAscii p.name inputName = true → v.input = w.input := by
    intro hsame
    have hname : SameName p.name inputName := sameName_of_sameAscii hsame
    have hvalue := h p hp
    rw [v.get?_congr hname, w.get?_congr hname, v.get?_input, w.get?_input] at hvalue
    exact Option.some.inj hvalue
  unfold Prompt.fillDefault
  split
  · exact h
  · by_cases hsame : sameAscii p.name inputName = true
    · simp only [hsame, if_true, hinput hsame]
      split
      · exact hset
      · exact h
    · simp only [hsame, Variables.contains, h p hp, Bool.false_eq_true, if_false]
      split
      · exact hset
      · exact h

theorem Agree.foldl_fillDefault {all ps : List Parameter} (hps : ps ⊆ all) {v w : Variables}
    (h : Agree all v w) :
    Agree all (ps.foldl Prompt.fillDefault v) (ps.foldl Prompt.fillDefault w) := by
  induction ps generalizing v w with
  | nil => exact h
  | cons p ps ih =>
      obtain ⟨hp, hps⟩ := List.cons_subset.1 hps
      exact ih hps (h.fillDefault hp)

theorem Agree.fillDefaults {ps : List Parameter} {v w : Variables} (h : Agree ps v w) :
    Agree ps (fillDefaults ps v) (fillDefaults ps w) :=
  h.foldl_fillDefault (List.Subset.refl ps)

/-- Names of the template are declared up to a lowercase that reads every spelling of them alike. -/
theorem Agree.get?_eq {configured : List Parameter} {blocks : List Block} {v w : Variables}
    (h : Agree (declared configured blocks) v w) {name : String}
    (hname : name ∈ blocksVariables blocks) (hgrammar : Grammar.Name name) :
    v.get? name = w.get? name := by
  obtain ⟨q, hq, hlower⟩ := exists_declared configured hname hgrammar.1
  have hascii : ∀ c ∈ name.toList, c.toNat < 0x80 := by
    intro c hc
    have hchar := (hgrammar.2 c hc).toNat
    omega
  have hsame : SameName q.name name := sameName_of_lowercase_eq hascii hlower
  rw [← v.get?_congr hsame, ← w.get?_congr hsame, h q hq]

theorem plain_congr {b : Block} {v w : Variables} {s : String} (h : Plain v b s)
    (hagree : ∀ name ∈ blockVariables b, v.get? name = w.get? name) : Plain w b s := by
  cases h with
  | text s => exact .text s
  | literal source l => exact .literal source l
  | reference source hvalue =>
      exact .reference source ((hagree _ (List.mem_singleton_self _)).symm.trans hvalue)
  | missing source hvalue =>
      exact .missing source ((hagree _ (List.mem_singleton_self _)).symm.trans hvalue)

theorem Agree.plains {configured : List Parameter} {blocks : List Block} {v w : Variables}
    (h : Agree (declared configured blocks) v w) (hfaultless : Faultless blocks)
    {ss : List String} (hss : List.Forall₂ (Plain v) blocks ss) :
    List.Forall₂ (Plain w) blocks ss := by
  rw [List.forall₂_iff_get] at hss ⊢
  refine ⟨hss.1, fun i hi hs => plain_congr (hss.2 i hi hs) fun name hname => ?_⟩
  have hmem : blocks.get ⟨i, hi⟩ ∈ blocks := List.get_mem ..
  exact h.get?_eq (blockVariables_subset hmem hname)
    (name_of_plain (hss.2 i hi hs) (hfaultless _ hmem) hname)

variable {σ F : Type} [Described F]

theorem result_invoke {p : Prompt σ} {call : Invoke σ F} {c : Context F} {settings : Settings}
    {ss : List String}
    (h : List.Forall₂ (Plain (fillDefaults p.signature.parameters c.vars)) p.blocks ss) :
    Context.result <$> p.invoke call c settings =
      p.complete (String.join ss) (if settings.isDefault then p.settings else settings) := by
  have hrender : renderBlocks call
      (c.withVariables (fillDefaults p.signature.parameters c.vars)) p.blocks =
        pure (String.join ss) :=
    renderBlocks_of_plain h
  have hpure (f : TemplateError → CallError) (s : String) :
      Run.mapError f (pure s : Run σ TemplateError String) = pure s := rfl
  rw [invoke_eq, hrender, hpure, pure_bind, map_bind]
  simp only [map_pure, Context.result, Context.withVariables, Variables.input_setInput, bind_pure]

theorem make?_eq_ok {plugin name template : String} {config : PromptConfig}
    {complete : Completion σ} {limits : Limits} {p : Prompt σ}
    (h : make? plugin name template config complete limits = .ok p) :
    extract template true = .ok p.blocks ∧
      p.signature.parameters = declared config.parameters p.blocks := by
  rw [make?, bind_pure_eq_map] at h
  obtain ⟨blocks, hblocks, rfl⟩ := exists_of_map_eq_ok h
  exact ⟨hblocks, rfl⟩

/-- A prompt whose template calls nothing depends on the declared parameters alone. Whatever else
the variables hold, and whatever the completion, the service is asked the same, and its answer is
the result. -/
theorem result_invoke_of_agree {plugin name template : String} {config : PromptConfig}
    {made : Completion σ} {limits : Limits} {p : Prompt σ}
    (h : make? plugin name template config made limits = .ok p)
    (hcall : ∀ b ∈ p.blocks, b.called? = none) {c d : Context F}
    (hagree : ∀ q ∈ p.signature.parameters, c.vars.get? q.name = d.vars.get? q.name)
    (call call' : Invoke σ F) (settings : Settings) :
    ∃ prompt, ∀ complete : Completion σ,
      Context.result <$> Prompt.invoke { p with complete } call c settings =
          complete prompt (if settings.isDefault then p.settings else settings) ∧
        Context.result <$> Prompt.invoke { p with complete } call' d settings =
          complete prompt (if settings.isDefault then p.settings else settings) := by
  obtain ⟨hextract, hdeclared⟩ := make?_eq_ok h
  obtain ⟨ss, hss⟩ := exists_plains (sound_of_extract hextract) hcall
    (fillDefaults p.signature.parameters c.vars)
  have hfilled := Agree.fillDefaults hagree
  rw [hdeclared] at hss hfilled
  have hss' := hfilled.plains (extract_eq_ok_iff.1 hextract).2 hss
  rw [← hdeclared] at hss hss'
  exact ⟨String.join ss, fun complete => ⟨result_invoke hss, result_invoke hss'⟩⟩

def kelvin (complete : Completion Nat) : Prompt Nat where
  signature := { name := "heat", plugin := globalPlugin, parameters := [{ name := "\u212a" }] }
  blocks := [.code "$k" [.variable ⟨"k"⟩] true]
  settings := {}
  complete := complete

theorem make?_kelvin (complete : Completion Nat) :
    make? "" "heat" "\x7b\x7b$k\x7d\x7d" { parameters := [{ name := "\u212a" }] } complete {} =
      .ok (kelvin complete) := by
  have hpieces : Piece.ofTemplate "\x7b\x7b$k\x7d\x7d" =
      [.text [], .code ['$', 'k'] true, .text []] := rfl
  have hvariable : Block.codeOfText? (String.ofList ['$', 'k']) true =
      .ok (.code "$k" [.variable ⟨"k"⟩] true) := by
    rw [Block.codeOfText?, tokens?]
    change Except.map _ (tokensFrom "$k" true ['$', 'k']) = _
    rw [tokensFrom]
    rfl
  have hextract : extract "\x7b\x7b$k\x7d\x7d" true = .ok (kelvin complete).blocks := by
    rw [extract, blocks?, hpieces, blocksOf?, blocksOf?, if_neg (by decide), hvariable]
    rfl
  have hdeclared : declared [{ name := "\u212a" }] [.code "$k" [.variable ⟨"k"⟩] true] =
      [{ name := "\u212a" }] := by
    decide +kernel
  rw [make?, hextract, kelvin, ← hdeclared]
  rfl

theorem result_invoke_of_agree_kelvin :
    let c := twiceContext.withVariables (.ofList [("k", "300"), ("city", "Rome")])
    let d := twiceContext.withVariables (.ofList [("input", "x"), ("K", "300")])
    make? "" "heat" "\x7b\x7b$k\x7d\x7d" { parameters := [{ name := "\u212a" }] }
        (fun _ _ => pure "") {} = .ok (kelvin fun _ _ => pure "") ∧
      (∀ q ∈ (kelvin fun _ _ => pure "").signature.parameters,
        c.vars.get? q.name = d.vars.get? q.name) ∧
      ∀ complete, Context.result <$> (kelvin complete).invoke twice c {} =
        Context.result <$> (kelvin complete).invoke twice d {} := by
  have hagree : ∀ q ∈ (kelvin fun _ _ => pure "").signature.parameters,
      (Variables.ofList [("k", "300"), ("city", "Rome")]).get? q.name =
        (Variables.ofList [("input", "x"), ("K", "300")]).get? q.name := by
    exact List.forall_mem_singleton.2 (by decide +kernel)
  obtain ⟨prompt, h⟩ := result_invoke_of_agree (make?_kelvin fun _ _ => pure "")
    (List.forall_mem_singleton.2 rfl)
    (c := twiceContext.withVariables (.ofList [("k", "300"), ("city", "Rome")]))
    (d := twiceContext.withVariables (.ofList [("input", "x"), ("K", "300")])) hagree twice twice {}
  refine ⟨make?_kelvin _, hagree, fun complete => ?_⟩
  obtain ⟨hc, hd⟩ := h complete
  exact hc.trans hd.symm

end Prompt

end Orchestra
