import Orchestra.Proofs.Template.Beginnings
import Orchestra.Proofs.Template.Concatenation

namespace Orchestra

section

variable {σ ε α : Type}

/-- The results that can come of it when anything may happen to the world while it is suspended. -/
def Coroutine.MayGive : Coroutine σ ε α → Except ε α → Prop
  | run x, result => ∃ w, (Run.exec x w).1 = result
  | act _ rest, result => ∃ w, (rest w).MayGive result
  | suspended rest, result => rest.MayGive result

def Poll.MayGive : Poll σ ε α → Except ε α → Prop
  | ready given, result => given = result
  | pending rest, result => rest.MayGive result

theorem Coroutine.mayGive_of_poll {t : Coroutine σ ε α} {w : σ} {result : Except ε α}
    (h : (t.poll w).1.MayGive result) : t.MayGive result := by
  induction t generalizing w with
  | run x => exact ⟨w, h⟩
  | act effect rest ih => exact ⟨w, ih w h⟩
  | suspended rest ih => exact h

end

namespace Template

variable {σ F : Type} [Described F]

/-- Whatever is made of blocks one after another is made of joined blocks in turn, since two texts in
turn are their joint text. -/
theorem joinBlocks_in_turn {X : List Block → σ → Except TemplateError String → σ → Prop}
    {Y : Block → σ → Except TemplateError String → σ → Prop} {bs cs : List Block}
    (hnil : X [] = Ends (pure "")) (htext : ∀ s, Y (.text s) = Ends (pure s))
    (hcons : ∀ b rest, (∃ s, b = .text s) ∨ b ∈ bs → X (b :: rest) = InTurn (Y b) (X rest)) :
    X (joinBlocks bs cs) = InTurn (X bs) (X cs) := by
  fun_induction joinBlocks bs cs with
  | case1 cs => rw [hnil, inTurn_pure]
  | case2 s t cs =>
      rw [hcons _ _ (.inl ⟨_, rfl⟩), hcons _ _ (.inl ⟨_, rfl⟩), hcons _ _ (.inl ⟨_, rfl⟩), htext, htext,
        htext, ← inTurn_texts, hnil, inTurn_assoc, inTurn_assoc, inTurn_pure]
  | case3 b bs cs hne ih =>
      have hrest := ih fun b' rest hb' => hcons b' rest (hb'.imp_right (List.mem_cons_of_mem _))
      rw [hcons _ _ (.inr List.mem_cons_self), hcons _ _ (.inr List.mem_cons_self), hrest,
        inTurn_assoc]

theorem renders_joinBlocks {limits : Limits} {launch : Launch σ F} {c : Context F}
    {bs cs : List Block}
    (h : limits.concurrentRenders ≤ 1 ∨ ∀ b ∈ bs, ((start c b).task launch).Instant) :
    Renders limits launch c (joinBlocks bs cs) =
      InTurn (Renders limits launch c bs) (Renders limits launch c cs) := by
  refine joinBlocks_in_turn (Y := fun b => Ends (renderBlock (completing launch) c b)) renders_nil
    (fun s => rfl) fun b rest hb => renders_cons ?_
  rcases hb with ⟨s, rfl⟩ | hb
  · exact .inr trivial
  · exact h.imp_right fun hall => hall b hb

namespace Rendering

/-- What these come to, in the order of their places, when anything may happen to the world at any
time. -/
def MayJoin : List (Poll σ TemplateError String) →
    Unit → Except TemplateError String → Unit → Prop
  | [] => Ends (pure "")
  | s :: rest => InTurn (fun _ result _ => s.MayGive result) (MayJoin rest)

theorem mayJoin_set_le {slots : List (Poll σ TemplateError String)} {p : Nat}
    {u : Coroutine σ TemplateError String} (hu : slots[p]? = some (.pending u)) (w : σ) :
    MayJoin (slots.set p (u.poll w).1) ≤ MayJoin slots := by
  induction slots generalizing p with
  | nil => cases hu
  | cons s slots ih =>
      cases p with
      | zero =>
          cases hu
          exact inTurn_mono (fun _ _ _ => Coroutine.mayGive_of_poll) le_rfl
      | succ p => exact inTurn_mono le_rfl (ih hu)

/-- The results that the rendering can still come to. -/
def MayEnd (r : Rendering σ) : Unit → Except TemplateError String → Unit → Prop :=
  InTurn (Ends (pure (String.join r.texts))) (MayJoin (r.slots.drop r.front))

theorem mayEnd_give_le (room : Nat) {r : Rendering σ} {text : String}
    (ht : r.slots[r.front]? = some (.ready (.ok text))) :
    (r.give room text).MayEnd ≤ r.MayEnd := by
  obtain ⟨hlt, hslot⟩ := List.getElem?_eq_some_iff.1 ht
  have hslots : (r.give room text).slots = r.slots := rfl
  have hgiven : (Ends (pure text) : Unit → _) ≤ fun _ result _ =>
      (Poll.ready (.ok text) : Poll σ TemplateError String).MayGive result := by
    rintro _ _ _ ⟨⟩
    rfl
  rw [MayEnd, MayEnd, front_give, join_texts_give, hslots, List.drop_eq_getElem_cons hlt, hslot,
    ← inTurn_texts, inTurn_assoc]
  exact inTurn_mono le_rfl (inTurn_mono hgiven le_rfl)

theorem mayEnd_turn_le {r : Rendering σ} {u : Coroutine σ TemplateError String} {p : Nat}
    (hu : r.slots[p]? = some (.pending u)) (queue : List Nat) (w : σ) :
    MayEnd ⟨r.slots.set p (u.poll w).1, r.texts, queue⟩ ≤ r.MayEnd := by
  refine inTurn_mono le_rfl ?_
  change MayJoin ((r.slots.set p (u.poll w).1).drop r.front) ≤ MayJoin (r.slots.drop r.front)
  rw [List.drop_set]
  split
  · exact le_rfl
  · refine mayJoin_set_le ?_ w
    rw [List.getElem?_drop, Nat.add_sub_cancel' (by omega), hu]

theorem Next.mayEnd_le {room : Nat} {s s' : Rendering σ × σ} (h : Next room s s') :
    s'.1.MayEnd ≤ s.1.MayEnd := by
  cases h with
  | wake r w p =>
      rcases wake_cases room r p with hsame | ⟨t, -, -, -, -, hwake⟩
      · rw [hsame]
      · rw [hwake]
        exact le_rfl
  | advance r w =>
      have hstep := advanced room r w
      generalize r.advance room w = out at hstep
      cases hstep with
      | ended | idle | passed => exact le_rfl
      | given ht => exact mayEnd_give_le room ht
      | turn _ _ hu => exact mayEnd_turn_le hu _ w

theorem mayEnd_le_of_reaches {room : Nat} {s s' : Rendering σ × σ} (h : Reaches room s s') :
    s'.1.MayEnd ≤ s.1.MayEnd := by
  induction h with
  | refl => exact le_rfl
  | tail _ hnext ih => exact hnext.mayEnd_le.trans ih

theorem mayEnd_of_outcome? {r : Rendering σ} {result : Except TemplateError String}
    (h : r.outcome? = some result) : r.MayEnd () result () := by
  rcases outcome?_cases h with ⟨hnone, rfl⟩ | ⟨e, he, rfl⟩
  · rw [MayEnd, List.drop_eq_nil_of_le (List.getElem?_eq_none_iff.1 hnone), MayJoin, inTurn_texts,
      String.append_empty]
    rfl
  · obtain ⟨hlt, hslot⟩ := List.getElem?_eq_some_iff.1 he
    rw [MayEnd, List.drop_eq_getElem_cons hlt, hslot]
    exact .inr ⟨_, (), rfl, .inl rfl⟩

end Rendering

open Rendering

/-- What rendering the blocks can come to when anything may happen to the world at any time. -/
def MayRender (launch : Launch σ F) (c : Context F) (bs : List Block) :
    Unit → Except TemplateError String → Unit → Prop :=
  MayJoin ((tasks launch c bs).map .pending)

theorem Renders.mayRender {limits : Limits} {launch : Launch σ F} {c : Context F} {bs : List Block}
    {w w' : σ} {result : Except TemplateError String}
    (h : Renders limits launch c bs w result w') : MayRender launch c bs () result () := by
  obtain ⟨r, hreach, hout⟩ := h
  have hend := mayEnd_le_of_reaches hreach _ _ _ (mayEnd_of_outcome? hout)
  change InTurn (Ends (pure "")) (MayRender launch c bs) () result () at hend
  rwa [inTurn_pure] at hend

theorem mayRender_joinBlocks [Nonempty σ] (launch : Launch σ F) (c : Context F)
    (bs cs : List Block) :
    MayRender launch c (joinBlocks bs cs) =
      InTurn (MayRender launch c bs) (MayRender launch c cs) := by
  refine joinBlocks_in_turn
    (Y := fun b _ result _ => (Poll.pending ((start c b).task launch)).MayGive result) rfl
    (fun s => ?_) fun b rest hb => rfl
  funext _ result _
  obtain ⟨w⟩ := ‹Nonempty σ›
  refine propext ⟨?_, ?_⟩
  · rintro ⟨_, rfl⟩
    rfl
  · rintro ⟨⟩
    exact ⟨w, rfl⟩

theorem calls_joinBlocks (c : Context F) (bs cs : List Block) :
    calls c (joinBlocks bs cs) = calls c bs ++ calls c cs := by
  fun_induction joinBlocks bs cs with
  | case1 cs => rfl
  | case2 s t cs => rfl
  | case3 b bs cs hne ih =>
      rw [calls, List.flatMap_cons, ← calls, ih, ← List.append_assoc]
      rfl

/-- Rendering the template can end this way. -/
def RendersTo (limits : Limits) (launch : Launch σ F) (c : Context F) (template : String) (w : σ)
    (result : Except TemplateError String) (w' : σ) : Prop :=
  match extract template true with
  | .error e => result = .error e ∧ w' = w
  | .ok bs => Renders limits launch c bs w result w'

theorem rendersTo_of_extract {template : String} {bs : List Block}
    (h : extract template true = .ok bs) (limits : Limits) (launch : Launch σ F) (c : Context F) :
    RendersTo limits launch c template = Renders limits launch c bs := by
  funext w result w'
  rw [RendersTo, h]

theorem rendersTo_run (limits : Limits) (invoke : Invoke σ F) (c : Context F) (template : String) :
    RendersTo limits (fun f c s => .run (invoke f c s)) c template =
      Ends (renderWithin limits invoke c template) := by
  rw [renderWithin_eq, render]
  cases hextract : extract template true with
  | error e =>
      funext w result w'
      rw [RendersTo, hextract, Ends]
      change (result = .error e ∧ w' = w) = ((.error e, w) = (result, w'))
      simp [eq_comm]
  | ok bs =>
      rw [rendersTo_of_extract hextract, renders_eq (.inr fun b _ => instant_task_run invoke _)]
      rfl

/-- Two templates that pass stay apart behind one another: nothing but text is joined. Where no block
of the first one is suspended, or one block is rendered at a time, the second one is rendered from the
world that the first one left, just when the first one succeeded. Otherwise blocks of the second one
may have begun before one of the first fails, but still in the order of the blocks, and the texts keep
their places. -/
theorem renders_in_turn {t₁ t₂ : String} {bs cs : List Block} (h₁ : extract t₁ true = .ok bs)
    (h₂ : extract t₂ true = .ok cs)
    (hseam : ¬ (t₁.toList.getLast? = some '{' ∧ t₂.toList.head? = some '{'))
    (limits : Limits) (launch : Launch σ F) (c : Context F) :
    extract (t₁ ++ t₂) true = .ok (joinBlocks bs cs) ∧
      ((limits.concurrentRenders ≤ 1 ∨ ∀ b ∈ bs, ((start c b).task launch).Instant) →
        RendersTo limits launch c (t₁ ++ t₂) =
          InTurn (RendersTo limits launch c t₁) (RendersTo limits launch c t₂)) ∧
      (∀ w result w', RendersTo limits launch c (t₁ ++ t₂) w result w' →
        InTurn (MayRender launch c bs) (MayRender launch c cs) () result ()) ∧
      ∀ log w result log' w',
        RendersTo limits (noted launch) c (t₁ ++ t₂) (log, w) result (log', w') →
          ∃ begun, log' = log ++ begun ∧ begun <+: calls c bs ++ calls c cs ∧
            ∀ text, result = .ok text → begun = calls c bs ++ calls c cs := by
  have hextract := extract_append h₁ h₂ hseam
  rw [rendersTo_of_extract h₁, rendersTo_of_extract h₂, rendersTo_of_extract hextract,
    rendersTo_of_extract hextract, ← calls_joinBlocks]
  refine ⟨hextract, renders_joinBlocks, fun w result w' h => ?_, fun log w result log' w' => calls_begun⟩
  have : Nonempty σ := ⟨w⟩
  rw [← mayRender_joinBlocks]
  exact h.mayRender

theorem renders_in_turn_brace :
    extract "{{t.next}}, \x7b" true = .ok [nextBlock, .text ", \x7b"] ∧
      extract "\x7d, {{t.next}}{{t.next}}" true =
        .ok [.text "\x7d, ", nextBlock, nextBlock] ∧
      extract ("{{t.next}}, \x7b" ++ "\x7d, {{t.next}}{{t.next}}") true =
        .ok [nextBlock, .text ", {}, ", nextBlock, nextBlock] ∧
      RendersTo {} (fun f c s => .run (twice f c s)) twiceContext
        ("{{t.next}}, \x7b" ++ "\x7d, {{t.next}}{{t.next}}") 0
        (.error (.functionFailed "t.next" (.internal "third call"))) 3 := by
  have h₁ : extract "{{t.next}}, \x7b" true = .ok [nextBlock, .text ", \x7b"] := by
    have hpieces : Piece.ofTemplate "{{t.next}}, \x7b" =
        [.text [], .code "t.next".toList true, .text ", \x7b".toList] := rfl
    rw [extract, blocks?, hpieces, blocksOf?, blocksOf?_next]
    rfl
  have h₂ : extract "\x7d, {{t.next}}{{t.next}}" true =
      .ok [.text "\x7d, ", nextBlock, nextBlock] := by
    have hpieces : Piece.ofTemplate "\x7d, {{t.next}}{{t.next}}" =
        [.text "\x7d, ".toList, .code "t.next".toList true, .text [], .code "t.next".toList true,
          .text []] := rfl
    rw [extract, blocks?, hpieces, blocksOf?, blocksOf?_next, blocksOf?, blocksOf?_next]
    rfl
  obtain ⟨hextract, hturn, -⟩ := renders_in_turn h₁ h₂ (by decide) {}
    (fun f c s => .run (twice f c s)) twiceContext
  refine ⟨h₁, h₂, hextract, ?_⟩
  rw [hturn (.inr fun b _ => instant_task_run twice _), rendersTo_run, rendersTo_run, renderWithin_eq,
    renderWithin_eq]
  refine .inr ⟨"one, \x7b", 1, ?_, ?_⟩
  · rw [Ends, render_of_extract h₁]
    rfl
  · rw [Ends, render_of_extract h₂]
    rfl

theorem Rendering.exists_error_after_turn {t t' u : Coroutine σ TemplateError String}
    {s : Poll σ TemplateError String} {e : TemplateError} {w w₁ w₂ w₃ : σ}
    (ht : t.poll w = (.pending t', w₁)) (hu : u.poll w₁ = (s, w₂))
    (ht' : t'.poll w₂ = (.ready (.error e), w₃)) :
    ∃ r, Reaches 8 (ofTasks 8 [t, u], w) (r, w₃) ∧ r.outcome? = some (.error e) := by
  have h₁ : Next 8 (ofTasks 8 [t, u], w) (⟨[.pending t', .pending u], [], [1]⟩, w₁) := by
    have hstep : Next 8 (ofTasks 8 [t, u], w) _ := .advance _ _
    simpa [ofTasks, advance, front, pollNext, ht, List.range_succ] using hstep
  have h₂ : Next 8 (⟨[.pending t', .pending u], [], [1]⟩, w₁) (⟨[.pending t', s], [], []⟩, w₂) := by
    have hstep : Next 8 (⟨[.pending t', .pending u], [], [1]⟩, w₁) _ := .advance _ _
    simpa [advance, front, pollNext, hu] using hstep
  have h₃ : Next 8 (⟨[.pending t', s], [], []⟩, w₂) (⟨[.pending t', s], [], [0]⟩, w₂) :=
    .wake _ _ 0
  have h₄ : Next 8 (⟨[.pending t', s], [], [0]⟩, w₂) (⟨[.ready (.error e), s], [], []⟩, w₃) := by
    have hstep : Next 8 (⟨[.pending t', s], [], [0]⟩, w₂) _ := .advance _ _
    simpa [advance, front, pollNext, ht'] using hstep
  exact ⟨_, .head h₁ (.head h₂ (.head h₃ (.single h₄))), rfl⟩

def slow : Launch Unit (Function Unit) := fun _ _ _ => .suspended (.run (throw (.internal "refused")))

def nextCall : Function Unit × Context (Function Unit) × Settings :=
  (.ofText "t" "next" "" [] pure, twiceContext, {})

/-- While the first call is suspended, the second one is made, which is not so when the first template
is rendered alone. -/
theorem begun_before_failure :
    extract "{{t.next}}" true = .ok [nextBlock] ∧
      RendersTo {} (noted slow) twiceContext ("{{t.next}}" ++ "{{t.next}}") ([], ())
        (.error (.functionFailed "t.next" (.internal "refused"))) ([nextCall, nextCall], ()) ∧
      ¬ InTurn (RendersTo {} (noted slow) twiceContext "{{t.next}}")
        (RendersTo {} (noted slow) twiceContext "{{t.next}}") ([], ())
        (.error (.functionFailed "t.next" (.internal "refused"))) ([nextCall, nextCall], ()) := by
  have h : extract "{{t.next}}" true = .ok [nextBlock] := by
    have hpieces : Piece.ofTemplate "{{t.next}}" =
        [.text [], .code "t.next".toList true, .text []] := rfl
    rw [extract, blocks?, hpieces, blocksOf?, blocksOf?_next]
    rfl
  have htwo : extract ("{{t.next}}" ++ "{{t.next}}") true = .ok [nextBlock, nextBlock] :=
    extract_append h h (by decide)
  refine ⟨h, ?_, ?_⟩
  · rw [rendersTo_of_extract htwo]
    have hstart : start twiceContext nextBlock =
        .call ⟨some "t", "next"⟩ (.ofText "t" "next" "" [] pure) twiceContext := rfl
    rw [Renders, tasks, List.map_cons, List.map_singleton, hstart]
    exact exists_error_after_turn rfl rfl rfl
  · rw [rendersTo_of_extract h]
    rintro (hfirst | ⟨s, w₁, hfirst, -⟩)
    · obtain ⟨begun, rfl, hbegun, -⟩ := calls_begun hfirst
      exact absurd hbegun.length_le (by decide)
    · obtain ⟨_, _, _, ⟨w, w', hgiven⟩, -⟩ := hfirst.mayRender
      cases hgiven

end Template

end Orchestra
