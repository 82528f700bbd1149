import Mathlib.Logic.Relation
import Orchestra.Proofs.Coroutine
import Orchestra.Template.Engine

namespace Orchestra.Template

variable {σ F : Type} [Described F]

namespace Rendering

/-- The engine goes on by itself, and suspended blocks are woken in any order. -/
inductive Next (room : Nat) : Rendering σ × σ → Rendering σ × σ → Prop
  | advance (r : Rendering σ) (w : σ) : Next room (r, w) (r.advance room w)
  | wake (r : Rendering σ) (w : σ) (p : Nat) : Next room (r, w) (r.wake room p, w)

abbrev Reaches (room : Nat) : Rendering σ × σ → Rendering σ × σ → Prop :=
  Relation.ReflTransGen (Next room)

inductive Advanced (room : Nat) (r : Rendering σ) (w : σ) : Rendering σ × σ → Prop
  | ended {result : Except TemplateError String} (h : r.outcome? = some result) :
      Advanced room r w (r, w)
  | given {text : String} (h : r.slots[r.front]? = some (.ready (.ok text))) :
      Advanced room r w (r.give room text, w)
  | idle {t : Coroutine σ TemplateError String} (h : r.slots[r.front]? = some (.pending t))
      (hqueue : r.queue = []) : Advanced room r w (r, w)
  | turn {t u : Coroutine σ TemplateError String} {p : Nat} {queue : List Nat}
      (h : r.slots[r.front]? = some (.pending t)) (hqueue : r.queue = p :: queue)
      (hu : r.slots[p]? = some (.pending u)) :
      Advanced room r w (⟨r.slots.set p (u.poll w).1, r.texts, queue⟩, (u.poll w).2)
  | passed {t : Coroutine σ TemplateError String} {p : Nat} {queue : List Nat}
      (h : r.slots[r.front]? = some (.pending t)) (hqueue : r.queue = p :: queue)
      (hp : ∀ u, r.slots[p]? ≠ some (.pending u)) :
      Advanced room r w (⟨r.slots, r.texts, queue⟩, w)

theorem advanced (room : Nat) (r : Rendering σ) (w : σ) : Advanced room r w (r.advance room w) := by
  cases hfront : r.slots[r.front]? with
  | none =>
      rw [advance, hfront]
      exact .ended (by rw [outcome?, hfront])
  | some s =>
      cases s with
      | ready result =>
          rw [advance, hfront]
          cases result with
          | error e => exact .ended (by rw [outcome?, hfront])
          | ok text => exact .given hfront
      | pending t =>
          rw [advance, hfront]
          dsimp only
          cases hqueue : r.queue with
          | nil =>
              rw [pollNext, hqueue]
              exact .idle hfront hqueue
          | cons p queue =>
              rw [pollNext, hqueue]
              dsimp only
              split
              · rename_i u hu
                exact .turn hfront hqueue hu
              · rename_i hp
                exact .passed hfront hqueue hp

theorem outcome?_cases {r : Rendering σ} {result : Except TemplateError String}
    (h : r.outcome? = some result) :
    (r.slots[r.front]? = none ∧ result = .ok (String.join r.texts)) ∨
      ∃ e, r.slots[r.front]? = some (.ready (.error e)) ∧ result = .error e := by
  rw [outcome?] at h
  split at h
  · rename_i hnone
    exact .inl ⟨hnone, (Option.some.inj h).symm⟩
  · rename_i e he
    exact .inr ⟨e, he, (Option.some.inj h).symm⟩
  · cases h

theorem wake_cases (room : Nat) (r : Rendering σ) (p : Nat) :
    r.wake room p = r ∨
      ∃ t, r.slots[p]? = some (.pending t) ∧ r.front ≤ p ∧ p < r.front + room ∧ p ∉ r.queue ∧
        r.wake room p = ⟨r.slots, r.texts, r.queue ++ [p]⟩ := by
  rw [wake]
  split
  · rename_i t ht
    split
    · rename_i h
      exact .inr ⟨t, ht, h.1, h.2.1, h.2.2, rfl⟩
    · exact .inl rfl
  · exact .inl rfl

theorem front_give (room : Nat) (r : Rendering σ) (text : String) :
    (r.give room text).front = r.front + 1 :=
  List.length_append

theorem join_texts_give (room : Nat) (r : Rendering σ) (text : String) :
    String.join (r.give room text).texts = String.join r.texts ++ text := by
  simp [Rendering.give, String.join_append]

/-- The texts that are still missing, one after the other. -/
def remaining : List (Poll σ TemplateError String) → Run σ TemplateError String
  | [] => pure ""
  | s :: rest => do
      let text ← s.complete
      return text ++ (← remaining rest)

/-- What a rendering comes to if its blocks are finished one after the other from now on. -/
def prospect (r : Rendering σ) : Run σ TemplateError String := do
  return String.join r.texts ++ (← remaining (r.slots.drop r.front))

theorem prospect_of_front {r : Rendering σ} {s : Poll σ TemplateError String}
    (h : r.slots[r.front]? = some s) :
    r.prospect = do
      let text ← s.complete
      let rest ← remaining (r.slots.drop (r.front + 1))
      return String.join r.texts ++ (text ++ rest) := by
  obtain ⟨hlt, rfl⟩ := List.getElem?_eq_some_iff.1 h
  rw [prospect, List.drop_eq_getElem_cons hlt, remaining]
  simp only [bind_assoc, pure_bind]

theorem prospect_give {r : Rendering σ} {text : String}
    (h : r.slots[r.front]? = some (.ready (.ok text))) (room : Nat) :
    (r.give room text).prospect = r.prospect := by
  have hready : (Poll.ready (.ok text) : Poll σ TemplateError String).complete = pure text := rfl
  have hslots : (r.give room text).slots = r.slots := rfl
  rw [prospect_of_front h, hready, pure_bind, prospect, front_give, join_texts_give, hslots]
  simp only [String.append_assoc]

theorem exec_prospect_turn {r : Rendering σ} {u : Coroutine σ TemplateError String}
    (hu : r.slots[r.front]? = some (.pending u)) (queue : List Nat) (w : σ) :
    Run.exec (prospect ⟨r.slots.set r.front (u.poll w).1, r.texts, queue⟩) (u.poll w).2 =
      Run.exec r.prospect w := by
  have hlt : r.front < r.slots.length := (List.getElem?_eq_some_iff.1 hu).1
  have hset : (r.slots.set r.front (u.poll w).1)[r.texts.length]? = some (u.poll w).1 :=
    List.getElem?_set_self hlt
  have hdrop : (r.slots.set r.front (u.poll w).1).drop (r.front + 1) = r.slots.drop (r.front + 1) :=
    List.drop_set_of_lt (Nat.lt_succ_self _)
  have hafter : prospect ⟨r.slots.set r.front (u.poll w).1, r.texts, queue⟩ = do
      let text ← (u.poll w).1.complete
      let rest ← remaining (r.slots.drop (r.front + 1))
      return String.join r.texts ++ (text ++ rest) := by
    rw [prospect_of_front hset, ← hdrop]
    rfl
  rw [hafter, prospect_of_front hu, Run.exec_bind, Run.exec_bind, u.exec_complete_poll w]
  rfl

theorem exec_prospect_of_outcome? {r : Rendering σ} {result : Except TemplateError String}
    (h : r.outcome? = some result) (w : σ) : Run.exec r.prospect w = (result, w) := by
  rcases outcome?_cases h with ⟨hnone, rfl⟩ | ⟨e, he, rfl⟩
  · rw [prospect, List.drop_eq_nil_of_le (List.getElem?_eq_none_iff.1 hnone), remaining, pure_bind,
      String.append_empty]
    rfl
  · rw [prospect_of_front he]
    rfl

/-- There is room for one block alone. -/
structure Alone (r : Rendering σ) : Prop where
  queue : r.queue = [] ∨ r.queue = [r.front] ∧ ∃ t, r.slots[r.front]? = some (.pending t)
  rest : ∀ p, r.front < p → ∀ s, r.slots[p]? = some s → ∃ t, s = .pending t

theorem Alone.eq_front {r : Rendering σ} {p : Nat} {queue : List Nat} (h : Alone r)
    (hqueue : r.queue = p :: queue) : p = r.front ∧ queue = [] := by
  rcases h.queue with hnil | ⟨hfront, -⟩
  · rw [hnil] at hqueue
    cases hqueue
  · rw [hfront] at hqueue
    cases hqueue
    exact ⟨rfl, rfl⟩

theorem Alone.give {r : Rendering σ} {text : String} (h : Alone r)
    (ht : r.slots[r.front]? = some (.ready (.ok text))) : Alone (r.give 1 text) := by
  have hnil : r.queue = [] := by
    rcases h.queue with hnil | ⟨-, t, hpending⟩
    · exact hnil
    · rw [ht] at hpending
      cases hpending
  refine ⟨?_, fun p hp => h.rest p (by rw [front_give] at hp; omega)⟩
  by_cases hlt : r.front + 1 < r.slots.length
  · have hnext := List.getElem?_eq_getElem hlt
    obtain ⟨t, hpending⟩ := h.rest _ (Nat.lt_succ_self _) _ hnext
    refine .inr ⟨?_, t, ?_⟩
    · rw [front_give, Rendering.give, if_pos hlt, hnil]
      rfl
    · rw [front_give, ← hpending]
      exact hnext
  · refine .inl ?_
    rw [Rendering.give, if_neg hlt, hnil]
    rfl

theorem Alone.turn {r : Rendering σ} {queue : List Nat} (h : Alone r)
    (hqueue : r.queue = r.front :: queue) (s : Poll σ TemplateError String) :
    Alone ⟨r.slots.set r.front s, r.texts, queue⟩ where
  queue := .inl (h.eq_front hqueue).2
  rest p hp s' hs' := h.rest p hp s' ((List.getElem?_set_ne (Nat.ne_of_lt hp)).symm.trans hs')

theorem Alone.wake {r : Rendering σ} (h : Alone r) (p : Nat) : Alone (r.wake 1 p) := by
  rcases wake_cases 1 r p with hsame | ⟨t, ht, hle, hlt, hnew, hwake⟩
  · rwa [hsame]
  · obtain rfl : p = r.front := by omega
    rw [hwake]
    refine ⟨.inr ⟨?_, t, ht⟩, h.rest⟩
    rcases h.queue with hnil | ⟨hfront, -⟩
    · rw [hnil]
      rfl
    · rw [hfront] at hnew
      exact absurd (List.mem_singleton_self _) hnew

theorem Alone.next {s s' : Rendering σ × σ} (h : Alone s.1) (hnext : Next 1 s s') :
    Alone s'.1 ∧ Run.exec s'.1.prospect s'.2 = Run.exec s.1.prospect s.2 := by
  cases hnext with
  | wake r w p =>
      refine ⟨h.wake p, ?_⟩
      rcases wake_cases 1 r p with hsame | ⟨t, -, -, -, -, hwake⟩
      · rw [hsame]
      · rw [hwake]
        rfl
  | advance r w =>
      dsimp only at h
      have hstep := advanced 1 r w
      generalize r.advance 1 w = out at hstep
      cases hstep with
      | ended | idle => exact ⟨h, rfl⟩
      | given ht => exact ⟨h.give ht, by rw [prospect_give ht]⟩
      | turn ht hqueue hu =>
          obtain ⟨rfl, -⟩ := h.eq_front hqueue
          exact ⟨h.turn hqueue _, exec_prospect_turn hu _ w⟩
      | passed ht hqueue hp =>
          obtain ⟨rfl, -⟩ := h.eq_front hqueue
          exact absurd ht (hp _)

theorem Alone.exec_prospect {s s' : Rendering σ × σ} (h : Alone s.1) (hs : Reaches 1 s s') :
    Alone s'.1 ∧ Run.exec s'.1.prospect s'.2 = Run.exec s.1.prospect s.2 := by
  induction hs with
  | refl => exact ⟨h, rfl⟩
  | tail _ hnext ih =>
      obtain ⟨hnow, heq⟩ := ih.1.next hnext
      exact ⟨hnow, heq.trans ih.2⟩

theorem getElem?_ofTasks (room : Nat) (ts : List (Coroutine σ TemplateError String)) (p : Nat) :
    (ofTasks room ts).slots[p]? = ts[p]?.map .pending :=
  List.getElem?_map

theorem alone_ofTasks (ts : List (Coroutine σ TemplateError String)) : Alone (ofTasks 1 ts) where
  queue := by
    cases ts with
    | nil => exact .inl rfl
    | cons t ts =>
        refine .inr ⟨?_, t, rfl⟩
        rw [ofTasks, List.length_cons, Nat.min_eq_left (Nat.le_add_left 1 _)]
        rfl
  rest p _ s hs := by
    rw [getElem?_ofTasks, Option.map_eq_some_iff] at hs
    obtain ⟨t, -, rfl⟩ := hs
    exact ⟨t, rfl⟩

theorem drive_of_outcome? {room : Nat} {r : Rendering σ} {result : Except TemplateError String}
    (h : r.outcome? = some result) (n : Nat) (w : σ) : drive room n r w = (r, w) := by
  have hstay (w : σ) : r.advance room w = (r, w) := by
    rcases outcome?_cases h with ⟨hfront, -⟩ | ⟨e, hfront, -⟩ <;>
      rw [Rendering.advance, hfront]
  induction n with
  | zero => rfl
  | succ n ih => rw [drive, hstay, ih]

theorem reaches_drive (room n : Nat) (r : Rendering σ) (w : σ) :
    Reaches room (r, w) (drive room n r w) := by
  induction n generalizing r w with
  | zero => exact .refl
  | succ n ih => exact .head (.advance r w) (ih _ _)

theorem exists_turn (room : Nat) {queue : List Nat} {r : Rendering σ} {w : σ}
    {t : Coroutine σ TemplateError String} (hqueue : r.queue = queue)
    (hmem : r.front ∈ queue) (ht : r.slots[r.front]? = some (.pending t)) :
    ∃ r' w₁ w', Reaches room (r, w) (r', w') ∧ r'.texts = r.texts ∧
      r'.slots.length = r.slots.length ∧ r'.slots[r.front]? = some (t.poll w₁).1 := by
  induction queue generalizing r w with
  | nil => cases hmem
  | cons p queue ih =>
      have hstep := advanced room r w
      have hnext : Next room (r, w) _ := .advance r w
      generalize r.advance room w = out at hstep hnext
      cases hstep with
      | ended hended =>
          rw [outcome?, ht] at hended
          cases hended
      | given h =>
          rw [ht] at h
          cases h
      | idle h hnil =>
          rw [hqueue] at hnil
          cases hnil
      | @turn _ u _ _ h hcons hu =>
          obtain ⟨rfl, rfl⟩ := List.cons.inj (hqueue.symm.trans hcons)
          by_cases hp : p = r.front
          · subst hp
            cases ht.symm.trans hu
            exact ⟨_, w, _, .single hnext, rfl, List.length_set,
              List.getElem?_set_self (List.getElem?_eq_some_iff.1 ht).1⟩
          · obtain ⟨r', w₁, w', hreach, htexts, hlength, hfront⟩ := ih
              (r := ⟨r.slots.set p (u.poll w).1, r.texts, queue⟩) (w := (u.poll w).2) rfl
              (List.mem_of_ne_of_mem (Ne.symm hp) hmem) ((List.getElem?_set_ne hp).trans ht)
            exact ⟨r', w₁, w', .head hnext hreach, htexts, hlength.trans List.length_set, hfront⟩
      | passed h hcons hp =>
          obtain ⟨rfl, rfl⟩ := List.cons.inj (hqueue.symm.trans hcons)
          have hne : r.front ≠ p := fun heq => hp t (heq ▸ ht)
          obtain ⟨r', w₁, w', hreach, htexts, hlength, hfront⟩ := ih
            (r := ⟨r.slots, r.texts, queue⟩) (w := w) rfl (List.mem_of_ne_of_mem hne hmem) ht
          exact ⟨r', w₁, w', .head hnext hreach, htexts, hlength, hfront⟩

theorem exists_ready {room : Nat} (hroom : 0 < room) {t : Coroutine σ TemplateError String}
    {r : Rendering σ} {w w₀ : σ} (ht : r.slots[r.front]? = some (t.poll w₀).1) :
    ∃ r' w' result, Reaches room (r, w) (r', w') ∧ r'.texts = r.texts ∧
      r'.slots.length = r.slots.length ∧ r'.slots[r.front]? = some (.ready result) := by
  induction t generalizing r w w₀ with
  | run x => exact ⟨r, w, _, .refl, rfl, rfl, ht⟩
  | act effect rest ih => exact ih w₀ ht
  | suspended rest ih =>
      obtain ⟨r₁, hwoken, hmem, htexts, hslots⟩ : ∃ r₁, Reaches room (r, w) (r₁, w) ∧
          r.front ∈ r₁.queue ∧ r₁.texts = r.texts ∧ r₁.slots = r.slots := by
        by_cases hmem : r.front ∈ r.queue
        · exact ⟨r, .refl, hmem, rfl, rfl⟩
        · refine ⟨_, .single (.wake r w r.front), ?_⟩
          have hplace : r.front ≤ r.front ∧ r.front < r.front + room ∧ r.front ∉ r.queue :=
            ⟨Nat.le_refl _, Nat.lt_add_of_pos_right hroom, hmem⟩
          rw [wake, ht]
          dsimp only [Coroutine.poll]
          rw [if_pos hplace]
          exact ⟨List.mem_append_right _ (List.mem_singleton_self _), rfl, rfl⟩
      have hfront : r₁.front = r.front := congrArg List.length htexts
      obtain ⟨r₂, w₁, w₂, hturn, htexts₂, hlength₂, hrest⟩ := exists_turn room (w := w) rfl
        (hfront.symm ▸ hmem) (hfront.symm ▸ hslots.symm ▸ ht)
      have hfront₂ : r₂.front = r₁.front := congrArg List.length htexts₂
      rw [← hfront₂] at hrest
      obtain ⟨r₃, w₃, result, hreach, htexts₃, hlength₃, hready⟩ := ih (w := w₂) hrest
      refine ⟨r₃, w₃, result, (hwoken.trans hturn).trans hreach,
        htexts₃.trans (htexts₂.trans htexts), ?_, ?_⟩
      · rw [hlength₃, hlength₂, hslots]
      · rw [← hfront, ← hfront₂]
        exact hready

/-- Every rendering can come to an end. -/
theorem exists_outcome? {room : Nat} (hroom : 0 < room) (n : Nat) {r : Rendering σ}
    (hn : r.slots.length ≤ r.front + n) (w : σ) :
    ∃ r' w' result, Reaches room (r, w) (r', w') ∧ r'.outcome? = some result := by
  induction n generalizing r w with
  | zero =>
      have hall : r.slots.length ≤ r.front := hn
      exact ⟨r, w, .ok (String.join r.texts), .refl, by rw [outcome?, List.getElem?_eq_none hall]⟩
  | succ n ih =>
      cases hs : r.slots[r.front]? with
      | none => exact ⟨r, w, .ok (String.join r.texts), .refl, by rw [outcome?, hs]⟩
      | some s =>
          obtain ⟨r₁, w₁, result, hreach, htexts, hlength, hready⟩ : ∃ r₁ w₁ result,
              Reaches room (r, w) (r₁, w₁) ∧ r₁.texts = r.texts ∧
                r₁.slots.length = r.slots.length ∧ r₁.slots[r.front]? = some (.ready result) := by
            cases s with
            | ready result => exact ⟨r, w, result, .refl, rfl, rfl, hs⟩
            | pending t =>
                have hpoll : r.slots[r.front]? = some ((Coroutine.suspended t).poll w).1 := hs
                exact exists_ready hroom hpoll
          have hfront : r₁.front = r.front := congrArg List.length htexts
          rw [← hfront] at hready
          cases result with
          | error e => exact ⟨r₁, w₁, .error e, hreach, by rw [outcome?, hready]⟩
          | ok text =>
              have hgive : r₁.advance room w₁ = (r₁.give room text, w₁) := by rw [advance, hready]
              have hbound : (r₁.give room text).slots.length ≤ (r₁.give room text).front + n := by
                rw [front_give, hfront]
                change r₁.slots.length ≤ _
                omega
              obtain ⟨r', w', result, hrest, hout⟩ := ih hbound w₁
              exact ⟨r', w', result, hreach.trans (.head (hgive ▸ .advance r₁ w₁) hrest), hout⟩

theorem Alone.reaches_outcome?_iff {r : Rendering σ} (h : Alone r) (w w' : σ)
    (result : Except TemplateError String) :
    (∃ r', Reaches 1 (r, w) (r', w') ∧ r'.outcome? = some result) ↔
      Run.exec r.prospect w = (result, w') := by
  have hsound {r₁ : Rendering σ} {w₁ : σ} {out : Except TemplateError String}
      (hreach : Reaches 1 (r, w) (r₁, w₁)) (hout : r₁.outcome? = some out) :
      Run.exec r.prospect w = (out, w₁) :=
    (h.exec_prospect hreach).2.symm.trans (exec_prospect_of_outcome? hout w₁)
  constructor
  · rintro ⟨r', hreach, hout⟩
    exact hsound hreach hout
  · intro hexec
    obtain ⟨r₁, w₁, out, hreach, hout⟩ := exists_outcome? Nat.zero_lt_one r.slots.length
      (Nat.le_add_left _ r.front) w
    obtain ⟨rfl, rfl⟩ := Prod.mk.inj (hexec.symm.trans (hsound hreach hout))
    exact ⟨r₁, hreach, hout⟩

end Rendering

end Orchestra.Template
