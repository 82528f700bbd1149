import Orchestra.Proofs.Calls
import Orchestra.Proofs.Template.Lossless

namespace Orchestra.Template

open Text

theorem FunctionId.raw_of_ofText? {cs : List Char} {f : FunctionId}
    (h : FunctionId.ofText? (String.ofList cs) = .ok f) : f.raw.toList = trimList cs := by
  have hsplit := List.takeWhile_append_dropWhile (p := (· ≠ '.')) (l := trimList cs)
  rw [ofText?, String.toList_ofList] at h
  split at h
  · rename_i hd
    cases h
    rw [hd, List.append_nil] at hsplit
    rw [raw, String.toList_ofList, hsplit]
  · rename_i d back hd
    split at h
    · cases h
    · cases h
      obtain rfl : d = '.' := by simpa using not_of_dropWhile hd
      rw [hd] at hsplit
      simpa [raw] using hsplit

theorem raw_within_of_taken {w : List Char} {f : FunctionId} (h : Taken w (.function f)) :
    f.raw.toList <:+: w := by
  cases h with
  | function _ h =>
      rw [FunctionId.raw_of_ofText? h]
      exact trimList_within _

theorem taken_of_tokensFrom {whole : String} {first : Bool} {cs : List Char} {bs : List Block}
    (h : tokensFrom whole first cs = .ok bs) : ∀ b ∈ bs, ∃ w, w <:+: cs ∧ Taken w b := by
  have hfront {cs rest w r : List Char} {c : Char} (hd : cs.dropWhile isBlank = c :: rest)
      (hw : c :: rest = w ++ r) : w <:+: cs := by
    have hsuffix := List.dropWhile_suffix isBlank (l := cs)
    rw [hd, hw] at hsuffix
    exact (List.prefix_append w r).isInfix.trans hsuffix.isInfix
  fun_induction tokensFrom whole first cs generalizing bs with
  | case1 =>
      cases h
      exact List.forall_mem_nil _
  | case2 => cases h
  | case3 first cs c rest hd b ht =>
      cases h
      obtain ⟨w, hw, htaken⟩ := taken_of_token? ht
      exact List.forall_mem_singleton.2 ⟨w, hfront hd hw, htaken⟩
  | case4 first cs c rest hd b d after ht hblank ih =>
      obtain ⟨bs, hbs, rfl⟩ := exists_of_map_eq_ok h
      obtain ⟨w, hw, htaken⟩ := taken_of_token? ht
      refine List.forall_mem_cons.2 ⟨⟨w, hfront hd hw, htaken⟩, fun b hb => ?_⟩
      obtain ⟨w', hwithin, htaken'⟩ := ih hbs b hb
      have hafter : after <:+: cs := by
        have hsuffix := List.dropWhile_suffix isBlank (l := cs)
        rw [hd, hw] at hsuffix
        exact (List.suffix_cons d after).isInfix.trans
          ((List.suffix_append w _).isInfix.trans hsuffix.isInfix)
      exact ⟨w', hwithin.trans hafter, htaken'⟩
  | case5 => cases h

theorem raw_within_of_tokens? {inner : List Char} {bs : List Block} {f : FunctionId}
    (h : tokens? (String.ofList inner) = .ok bs) (hf : .function f ∈ bs) :
    f.raw.toList <:+: inner := by
  rcases tokens?_eq (String.ofList inner) with ⟨c, -, -, hlone⟩ | ⟨-, hfrom⟩
  · rw [h] at hlone
    cases hlone
    cases hf with
    | tail _ hf => cases hf
  · rw [String.toList_ofList] at hfrom
    obtain ⟨w, hw, htaken⟩ := taken_of_tokensFrom (hfrom.symm.trans h) _ hf
    exact (raw_within_of_taken htaken).trans (hw.trans (trimList_within inner))

theorem Covers.raw_within {bs : List Block} {cs : List Char} (h : Covers bs cs) {b : Block}
    (hb : b ∈ bs) {i : FunctionId} (hi : b.called? = some i) : i.raw.toList <:+: cs := by
  have hcode {source : String} {tokens : List Block} {closed : Bool} {inner : List Char}
      (htokens : tokens? (String.ofList inner) = .ok tokens)
      (hi : (Block.code source tokens closed).called? = some i) : i.raw.toList <:+: inner := by
    unfold Block.called? at hi
    split at hi
    · rename_i heq
      cases heq
      cases hi
      exact raw_within_of_tokens? htokens (List.mem_cons_self ..)
    · cases hi
  induction h with
  | nil => cases hb
  | @text s bs cs hne hapart h ih =>
      cases hb with
      | head => cases hi
      | tail _ hb => exact (ih hb).trans (List.suffix_append _ cs).isInfix
  | @code inner cs tokens bs hne htokens h ih =>
      cases hb with
      | head =>
          refine (hcode htokens hi).trans ⟨Mark.opening.chars, Mark.closing.chars ++ cs, ?_⟩
          simp
      | tail _ hb => exact (ih hb).trans (List.suffix_append _ cs).isInfix
  | @cut inner tokens htokens =>
      cases hb with
      | head => exact (hcode htokens hi).trans (List.suffix_append _ inner).isInfix
      | tail _ hb => cases hb

theorem exists_bindNamed (source : String) (caller : Variables) {args : List Block}
    (h : ∀ t ∈ args, t.isArgument = true) (v : Variables) :
    ∃ v', bindNamed source caller args v = .ok v' := by
  induction args generalizing v with
  | nil => exact ⟨v, rfl⟩
  | cons t args ih =>
      obtain ⟨ht, hargs⟩ := List.forall_mem_cons.1 h
      match t with
      | .argument a => exact ih hargs _
      | .text _ | .literal _ | .variable _ | .function _ | .code .. => cases ht

/-- The blocks a template consists of: text, a literal, a variable, or a call whose arguments can
be bound in any context. -/
inductive Sound : Block → Prop
  | text (s : String) : Sound (.text s)
  | literal (source : String) (l : Literal) : Sound (.code source [.literal l] true)
  | reference (source : String) (v : Variable) : Sound (.code source [.variable v] true)
  | call {source : String} {args : List Block} (i : FunctionId)
      (h : ∀ caller, ∃ v, bindArguments source caller args = .ok v) :
      Sound (.code source (.function i :: args) true)

theorem exists_bindArguments {source : String} {i : FunctionId} {args : List Block}
    (h : shapeFault? (.function i :: args) = none) (caller : Variables) :
    ∃ v, bindArguments source caller args = .ok v := by
  cases args with
  | nil => exact ⟨caller, rfl⟩
  | cons second rest =>
      rw [shapeFault?] at h
      split at h
      · rename_i hpositional
        have hrest : ∀ t ∈ rest, t.isArgument = true := by
          simpa [List.find?_eq_none] using h
        cases second with
        | literal | «variable» => exact exists_bindNamed source caller hrest _
        | argument a => exact exists_bindNamed source caller (List.forall_mem_cons.2 ⟨rfl, hrest⟩) _
        | text | function | code => cases hpositional
      · cases h

theorem sound_of_shape {source : String} {tokens : List Block}
    (htokens : ∀ t ∈ tokens, t.token?.isSome) (h : shapeFault? tokens = none) :
    Sound (.code source tokens true) := by
  cases tokens with
  | nil => cases h
  | cons first args =>
      cases first with
      | text | code => cases htokens _ (List.mem_cons_self ..)
      | argument => cases h
      | function i => exact .call i (exists_bindArguments h)
      | literal l =>
          cases args with
          | nil => exact .literal source l
          | cons => cases h
      | «variable» v =>
          cases args with
          | nil => exact .reference source v
          | cons => cases h

theorem Covers.sound {bs : List Block} {cs : List Char} (h : Covers bs cs) (hbs : Faultless bs) :
    ∀ b ∈ bs, Sound b := by
  induction h with
  | nil => exact List.forall_mem_nil _
  | text hne hapart h ih =>
      exact List.forall_mem_cons.2 ⟨.text _, ih (List.forall_mem_cons.1 hbs).2⟩
  | code hne htokens h ih =>
      obtain ⟨hb, hrest⟩ := List.forall_mem_cons.1 hbs
      have hshape := (Block.code_fault?_eq_none.1 hb).2
      exact List.forall_mem_cons.2
        ⟨sound_of_shape (isSome_of_tokens? htokens) hshape, ih hrest⟩
  | cut htokens => cases hbs _ (List.mem_singleton_self _)

theorem covers_of_blocks? {template : String} {bs : List Block} (h : blocks? template = .ok bs) :
    Covers bs template.toList := by
  rw [← Piece.chars_ofTemplate template]
  exact covered_ofMarks _ _ bs h

theorem sound_of_extract {template : String} {bs : List Block}
    (h : extract template true = .ok bs) : ∀ b ∈ bs, Sound b := by
  obtain ⟨hread, hfaultless⟩ := extract_eq_ok_iff.1 h
  exact (covers_of_blocks? hread).sound hfaultless

section Rendering

variable {σ F : Type} [Described F]

inductive Plain (vars : Variables) : Block → String → Prop
  | text (s : String) : Plain vars (.text s) s
  | literal (source : String) (l : Literal) : Plain vars (.code source [.literal l] true) l.value
  | reference (source : String) {v : Variable} {value : String} (h : vars.get? v.name = some value) :
      Plain vars (.code source [.variable v] true) value
  | missing (source : String) {v : Variable} (h : vars.get? v.name = none) :
      Plain vars (.code source [.variable v] true) ""

/-- The ways in which a call fails: there is no such function, or the function fails itself. -/
inductive CallFails (call : Invoke σ F) (c : Context F) : Block → σ → TemplateError → σ → Prop
  | missing {source : String} {i : FunctionId} {args : List Block} {closed : Bool} {w : σ}
      (h : c.registry.resolve? i.plugin i.name = none) :
      CallFails call c (.code source (.function i :: args) closed) w (.functionNotFound i.raw) w
  | failed {source : String} {i : FunctionId} {args : List Block} {closed : Bool} {g : F}
      {vars : Variables} {e : CallError} {w w' : σ}
      (h : c.registry.resolve? i.plugin i.name = some g)
      (hvars : bindArguments source c.vars args = .ok vars)
      (he : Run.exec (call g (c.withVariables vars) {}) w = (.error e, w')) :
      CallFails call c (.code source (.function i :: args) closed) w (.functionFailed i.raw e) w'

theorem Sound.exists_plain {b : Block} (h : Sound b) (hcall : b.called? = none) (vars : Variables) :
    ∃ s, Plain vars b s := by
  cases h with
  | text s => exact ⟨s, .text s⟩
  | literal source l => exact ⟨l.value, .literal source l⟩
  | reference source v =>
      cases hvalue : vars.get? v.name with
      | some value => exact ⟨value, .reference source hvalue⟩
      | none => exact ⟨"", .missing source hvalue⟩
  | call => cases hcall

theorem exists_plains {bs : List Block} (h : ∀ b ∈ bs, Sound b)
    (hcall : ∀ b ∈ bs, b.called? = none) (vars : Variables) :
    ∃ ss, List.Forall₂ (Plain vars) bs ss := by
  induction bs with
  | nil => exact ⟨[], .nil⟩
  | cons b bs ih =>
      obtain ⟨hb, hbs⟩ := List.forall_mem_cons.1 h
      obtain ⟨hcallb, hcallbs⟩ := List.forall_mem_cons.1 hcall
      obtain ⟨s, hs⟩ := hb.exists_plain hcallb vars
      obtain ⟨ss, hss⟩ := ih hbs hcallbs
      exact ⟨s :: ss, .cons hs hss⟩

theorem renderBlock_of_plain {call : Invoke σ F} {c : Context F} {b : Block} {s : String}
    (h : Plain c.vars b s) : renderBlock call c b = pure s := by
  cases h with
  | text | literal => rfl
  | reference source hvalue | missing source hvalue =>
      rw [renderBlock, start, startCode, Variable.render, hvalue]
      rfl

theorem renderBlocks_of_plain {call : Invoke σ F} {c : Context F} {bs : List Block}
    {ss : List String} (h : List.Forall₂ (Plain c.vars) bs ss) :
    renderBlocks call c bs = pure (String.join ss) := by
  induction h with
  | nil => rfl
  | cons hs hss ih =>
      rw [renderBlocks, renderBlock_of_plain hs, ih, pure_bind, pure_bind, String.join_cons]

theorem exec_startCall_error_iff {call : Invoke σ F} {c : Context F} {source : String}
    {i : FunctionId} {args : List Block} {closed : Bool}
    (hargs : ∀ caller, ∃ v, bindArguments source caller args = .ok v) {w w' : σ}
    {e : TemplateError} :
    Run.exec ((startCall c source i args).run call) w = (.error e, w') ↔
      CallFails call c (.code source (.function i :: args) closed) w e w' := by
  obtain ⟨vars, hvars⟩ := hargs c.vars
  cases hg : c.registry.resolve? i.plugin i.name with
  | none =>
      rw [startCall, hg]
      constructor
      · rintro ⟨⟩
        exact .missing hg
      · rintro (_ | ⟨h, -, -⟩)
        · rfl
        · rw [hg] at h
          cases h
  | some g =>
      rw [startCall_eq hg hvars, Start.run, ← bind_pure_comp, Run.exec_bind_eq_error_iff]
      constructor
      · rintro (h | ⟨out, w₁, -, h⟩)
        · obtain ⟨e, he, rfl⟩ := Run.exec_mapError_eq_error_iff.1 h
          exact .failed hg hvars he
        · cases h
      · rintro (⟨h⟩ | ⟨h, hvars', he⟩)
        · rw [hg] at h
          cases h
        · obtain rfl := Option.some.inj (hg.symm.trans h)
          obtain rfl := Except.ok.inj (hvars.symm.trans hvars')
          exact .inl (Run.exec_mapError_eq_error_iff.2 ⟨_, he, rfl⟩)

/-- A block that passed the check fails with its call alone. -/
theorem Sound.exec_error_iff {b : Block} (h : Sound b) {call : Invoke σ F} {c : Context F}
    {w w' : σ} {e : TemplateError} :
    Run.exec (renderBlock call c b) w = (.error e, w') ↔ CallFails call c b w e w' := by
  cases h with
  | text | literal | reference => exact ⟨nofun, nofun⟩
  | call i hargs => exact exec_startCall_error_iff hargs

theorem exec_renderBlocks_cons_ok_iff {call : Invoke σ F} {c : Context F} {b : Block}
    {bs : List Block} {w w' : σ} {out : String} :
    Run.exec (renderBlocks call c (b :: bs)) w = (.ok out, w') ↔
      ∃ s t w₁, out = s ++ t ∧ Run.exec (renderBlock call c b) w = (.ok s, w₁) ∧
        Run.exec (renderBlocks call c bs) w₁ = (.ok t, w') := by
  rw [renderBlocks, Run.exec_bind_eq_ok_iff]
  constructor
  · rintro ⟨s, w₁, hb, h⟩
    obtain ⟨t, w₂, hbs, ⟨⟩⟩ := Run.exec_bind_eq_ok_iff.1 h
    exact ⟨s, t, w₁, rfl, hb, hbs⟩
  · rintro ⟨s, t, w₁, rfl, hb, hbs⟩
    exact ⟨s, w₁, hb, Run.exec_bind_eq_ok_iff.2 ⟨t, w', hbs, rfl⟩⟩

theorem exec_renderBlocks_cons_error_iff {call : Invoke σ F} {c : Context F} {b : Block}
    {bs : List Block} {w w' : σ} {e : TemplateError} :
    Run.exec (renderBlocks call c (b :: bs)) w = (.error e, w') ↔
      Run.exec (renderBlock call c b) w = (.error e, w') ∨
        ∃ s w₁, Run.exec (renderBlock call c b) w = (.ok s, w₁) ∧
          Run.exec (renderBlocks call c bs) w₁ = (.error e, w') := by
  rw [renderBlocks, Run.exec_bind_eq_error_iff]
  refine or_congr_right (exists₂_congr fun s w₁ => and_congr_right fun _ => ?_)
  rw [Run.exec_bind_eq_error_iff]
  refine or_iff_left ?_
  rintro ⟨t, w₂, -, h⟩
  cases h

theorem exec_renderBlocks_error_iff {call : Invoke σ F} {c : Context F} {bs : List Block} {w w' : σ}
    {e : TemplateError} :
    Run.exec (renderBlocks call c bs) w = (.error e, w') ↔
      ∃ front b back s w₁, bs = front ++ b :: back ∧
        Run.exec (renderBlocks call c front) w = (.ok s, w₁) ∧
        Run.exec (renderBlock call c b) w₁ = (.error e, w') := by
  induction bs generalizing w with
  | nil => exact ⟨nofun, fun ⟨front, b, back, _, _, h, _⟩ => by simp at h⟩
  | cons b bs ih =>
      rw [exec_renderBlocks_cons_error_iff]
      constructor
      · rintro (hb | ⟨s, w₁, hb, hbs⟩)
        · exact ⟨[], b, bs, "", w, rfl, rfl, hb⟩
        · obtain ⟨front, d, back, t, w₂, rfl, hfront, hd⟩ := ih.1 hbs
          have hwhole := exec_renderBlocks_cons_ok_iff.2 ⟨s, t, w₁, rfl, hb, hfront⟩
          exact ⟨b :: front, d, back, s ++ t, w₂, rfl, hwhole, hd⟩
      · rintro ⟨_ | ⟨d, front⟩, d', back, out, w₂, heq, hfront, he⟩
        · cases heq
          cases hfront
          exact .inl he
        · cases heq
          obtain ⟨s, t, w₁, -, hb, hrest⟩ := exec_renderBlocks_cons_ok_iff.1 hfront
          exact .inr ⟨s, w₁, hb, ih.2 ⟨front, d', back, t, w₂, rfl, hrest, he⟩⟩

/-- A template that passed the check fails only with a call: rendering stops at the first call that
fails, with the error that tells how. What is called is written in the template. Without calls the
rendering succeeds in every context and leaves the world as it was. -/
theorem rendering_fails_iff {template : String} {bs : List Block}
    (h : extract template true = .ok bs) (call : Invoke σ F) (c : Context F) :
    (∀ w e w', Run.exec (renderBlocks call c bs) w = (.error e, w') ↔
      ∃ front b back s w₁, bs = front ++ b :: back ∧
        Run.exec (renderBlocks call c front) w = (.ok s, w₁) ∧ CallFails call c b w₁ e w') ∧
    (∀ b ∈ bs, ∀ i, b.called? = some i → i.raw.toList <:+: template.toList) ∧
    ((∀ b ∈ bs, b.called? = none) →
      ∃ ss, List.Forall₂ (Plain c.vars) bs ss ∧
        ∀ w, Run.exec (renderBlocks call c bs) w = (.ok (String.join ss), w)) := by
  have hsound := sound_of_extract h
  refine ⟨fun w e w' => ?_, fun b hb i hi => ?_, fun hcall => ?_⟩
  · rw [exec_renderBlocks_error_iff]
    constructor
    · rintro ⟨front, b, back, s, w₁, rfl, hfront, he⟩
      have hb : Sound b := hsound b (List.mem_append_right _ (List.mem_cons_self ..))
      exact ⟨front, b, back, s, w₁, rfl, hfront, hb.exec_error_iff.1 he⟩
    · rintro ⟨front, b, back, s, w₁, rfl, hfront, he⟩
      have hb : Sound b := hsound b (List.mem_append_right _ (List.mem_cons_self ..))
      exact ⟨front, b, back, s, w₁, rfl, hfront, hb.exec_error_iff.2 he⟩
  · exact (covers_of_blocks? (extract_eq_ok_iff.1 h).1).raw_within hb hi
  · obtain ⟨ss, hss⟩ := exists_plains hsound hcall c.vars
    exact ⟨ss, hss, fun w => by rw [renderBlocks_of_plain hss]; rfl⟩

end Rendering

def goneBlock : Block :=
  .code "t.gone" [.function ⟨some "t", "gone"⟩] true

theorem extract_gone : extract "{{t.next}}, {{t.gone}}{{t.next}}" true =
    .ok [nextBlock, .text ", ", goneBlock, nextBlock] := by
  have hpieces : Piece.ofTemplate "{{t.next}}, {{t.gone}}{{t.next}}" =
      [.text [], .code "t.next".toList true, .text ", ".toList, .code "t.gone".toList true,
        .text [], .code "t.next".toList true, .text []] := rfl
  have hgone : Block.codeOfText? (String.ofList "t.gone".toList) true = .ok goneBlock :=
    codeOfText?_word 't' ".gone".toList rfl (by decide) rfl rfl true
  rw [extract, blocks?, hpieces, blocksOf?, blocksOf?_next, blocksOf?, blocksOf?, if_neg (by decide),
    hgone, blocksOf?, blocksOf?_next]
  rfl

theorem rendering_fails_iff_gone :
    extract "{{t.next}}, {{t.gone}}{{t.next}}" true =
        .ok [nextBlock, .text ", ", goneBlock, nextBlock] ∧
      Run.exec (renderBlocks twice twiceContext [nextBlock, .text ", ", goneBlock, nextBlock]) 0 =
        (.error (.functionNotFound "t.gone"), 1) ∧
      "t.gone".toList <:+: "{{t.next}}, {{t.gone}}{{t.next}}".toList := by
  obtain ⟨hfails, hwritten, -⟩ := rendering_fails_iff extract_gone twice twiceContext
  refine ⟨extract_gone, ?_, ?_⟩
  · exact (hfails 0 _ 1).2 ⟨[nextBlock, .text ", "], goneBlock, [nextBlock], "one, ", 1, rfl, rfl,
      .missing rfl⟩
  · exact hwritten goneBlock (by simp) ⟨some "t", "gone"⟩ rfl

end Orchestra.Template
