import Mathlib.Data.List.Infix
import Orchestra.Proofs.Template.Renders

namespace Orchestra

namespace Coroutine

variable {σ π ε ε' α β : Type}

def beside : Coroutine σ ε α → Coroutine (π × σ) ε α
  | run x => run x.beside
  | act effect rest => act (fun h => (h.1, effect h.2)) fun h => (rest h.2).beside
  | suspended rest => suspended rest.beside

/-- What stands beside the world stays as it is. -/
def Quiet : Coroutine (π × σ) ε α → Prop
  | run x => ∀ h, (Run.exec x h).2.1 = h.1
  | act effect rest => ∀ h, (effect h).1 = h.1 ∧ (rest h).Quiet
  | suspended rest => rest.Quiet

theorem quiet_beside (t : Coroutine σ ε α) : (t.beside : Coroutine (π × σ) ε α).Quiet := by
  induction t with
  | run x => exact fun h => rfl
  | act effect rest ih => exact fun h => ⟨rfl, ih h.2⟩
  | suspended rest ih => exact ih

theorem Quiet.map {t : Coroutine (π × σ) ε α} (h : t.Quiet) (f : Except ε α → Except ε' β) :
    (t.map f).Quiet := by
  induction t with
  | run x => exact h
  | act effect rest ih => exact fun w => ⟨(h w).1, ih w (h w).2⟩
  | suspended rest ih => exact ih h

theorem Quiet.poll {t : Coroutine (π × σ) ε α} (h : t.Quiet) (w : π × σ) :
    (t.poll w).2.1 = w.1 ∧ ∀ u, (t.poll w).1 = .pending u → u.Quiet := by
  induction t generalizing w with
  | run x => exact ⟨h w, nofun⟩
  | act effect rest ih =>
      obtain ⟨hworld, hrest⟩ := ih w (h w).2 (effect w)
      exact ⟨hworld.trans (h w).1, hrest⟩
  | suspended rest ih =>
      refine ⟨rfl, ?_⟩
      rintro u ⟨⟩
      exact h

/-- At its first turn it leaves these marks, and none later. -/
def Begins (marks : List π) (t : Coroutine (List π × σ) ε α) : Prop :=
  ∀ w, (t.poll w).2.1 = w.1 ++ marks ∧ ∀ u, (t.poll w).1 = .pending u → u.Quiet

theorem Quiet.begins {t : Coroutine (List π × σ) ε α} (h : t.Quiet) : t.Begins [] :=
  fun w => ⟨(h.poll w).1.trans (List.append_nil _).symm, (h.poll w).2⟩

end Coroutine

namespace Template

variable {σ π F : Type} [Described F]

namespace Rendering

/-- The first `b` blocks have begun, in their order, and left their marks. -/
structure Begun (room : Nat) (marks : List (List π)) (log : List π) (b : Nat)
    (r : Rendering (List π × σ)) (w : List π × σ) : Prop where
  length : r.slots.length = marks.length
  log : w.1 = log ++ (marks.take b).flatten
  lower : r.front ≤ b
  upper : b ≤ r.front + room
  queue : r.queue.filter (b ≤ ·) = List.range' b (min (r.front + room) r.slots.length - b)
  begun : ∀ p < b, ∀ t, r.slots[p]? = some (.pending t) → t.Quiet
  rest : ∀ p, b ≤ p → ∀ s, r.slots[p]? = some s →
    ∃ t m, s = .pending t ∧ marks[p]? = some m ∧ t.Begins m

section

variable {room b : Nat} {marks : List (List π)} {log : List π} {r : Rendering (List π × σ)}
  {w : List π × σ}

theorem Begun.lt_of_ready (h : Begun room marks log b r w) {p : Nat}
    {result : Except TemplateError String} (hp : r.slots[p]? = some (.ready result)) : p < b := by
  refine Nat.lt_of_not_le fun hle => ?_
  obtain ⟨t, m, hpending, -⟩ := h.rest p hle _ hp
  cases hpending

theorem Begun.give (h : Begun room marks log b r w) {text : String}
    (ht : r.slots[r.front]? = some (.ready (.ok text))) :
    Begun room marks log b (r.give room text) w := by
  have hlt := h.lt_of_ready ht
  have hroom := h.upper
  refine ⟨h.length, h.log, ?_, ?_, ?_, h.begun, h.rest⟩
  · rw [front_give]
    exact hlt
  · rw [front_give]
    omega
  · have hnew : (if r.front + room < r.slots.length then [r.front + room] else []).filter (b ≤ ·) =
        if r.front + room < r.slots.length then [r.front + room] else [] := by
      split <;> simp [hroom]
    rw [front_give, Rendering.give, List.filter_append, h.queue, hnew]
    exact range'_give hroom

theorem Begun.wake (h : Begun room marks log b r w) (p : Nat) :
    Begun room marks log b (r.wake room p) w := by
  rcases wake_cases room r p with hsame | ⟨t, ht, -, hlt, hnew, hwake⟩
  · rwa [hsame]
  · -- A block that has not begun waits for its turn already.
    have hp : ¬ b ≤ p := by
      intro hle
      have hbound := (List.getElem?_eq_some_iff.1 ht).1
      have hwaits : p ∈ r.queue.filter (b ≤ ·) := by
        rw [h.queue, List.mem_range'_1]
        omega
      exact hnew ((List.mem_filter.1 hwaits).1)
    have hqueue : (r.queue ++ [p]).filter (b ≤ ·) = r.queue.filter (b ≤ ·) := by
      simp [hp]
    rw [hwake]
    exact ⟨h.length, h.log, h.lower, h.upper, hqueue.trans h.queue, h.begun, h.rest⟩

theorem quiet_set {p : Nat} {s : Poll (List π × σ) TemplateError String}
    (hs : ∀ u, s = .pending u → u.Quiet)
    (h : ∀ q < b, q ≠ p → ∀ t, r.slots[q]? = some (.pending t) → t.Quiet) :
    ∀ q < b, ∀ t, (r.slots.set p s)[q]? = some (.pending t) → t.Quiet := by
  intro q hq t ht
  by_cases hp : q = p
  · subst hp
    have hlt := List.length_set ▸ (List.getElem?_eq_some_iff.1 ht).1
    exact hs t (Option.some.inj ((List.getElem?_set_self hlt).symm.trans ht))
  · exact h q hq hp t ((List.getElem?_set_ne (Ne.symm hp)).symm.trans ht)

theorem Begun.again (h : Begun room marks log b r w) {u : Coroutine (List π × σ) TemplateError String}
    {p : Nat} {queue : List Nat} (hp : p < b) (hqueue : r.queue = p :: queue)
    (hu : r.slots[p]? = some (.pending u)) :
    Begun room marks log b ⟨r.slots.set p (u.poll w).1, r.texts, queue⟩ (u.poll w).2 := by
  obtain ⟨hworld, hquiet⟩ := (h.begun p hp u hu).poll w
  have hfilter : r.queue.filter (b ≤ ·) = queue.filter (b ≤ ·) := by
    rw [hqueue, List.filter_cons_of_neg (by simpa using hp)]
  refine ⟨List.length_set.trans h.length, hworld.trans h.log, h.lower, h.upper, ?_,
    quiet_set hquiet fun q hq _ => h.begun q hq, ?_⟩
  · rw [← hfilter, h.queue, List.length_set]
    rfl
  · intro q hq s hs
    exact h.rest q hq s ((List.getElem?_set_ne (by omega)).symm.trans hs)

theorem Begun.begin (h : Begun room marks log b r w) {u : Coroutine (List π × σ) TemplateError String}
    {p : Nat} {queue : List Nat} (hp : b ≤ p) (hqueue : r.queue = p :: queue)
    (hu : r.slots[p]? = some (.pending u)) :
    Begun room marks log (b + 1) ⟨r.slots.set p (u.poll w).1, r.texts, queue⟩ (u.poll w).2 := by
  have hfilter : p :: queue.filter (b ≤ ·) =
      List.range' b (min (r.front + room) r.slots.length - b) := by
    rw [← h.queue, hqueue, List.filter_cons_of_pos (by simpa using hp)]
  obtain ⟨rfl, hcount, htail⟩ := List.range'_eq_cons_iff.1 hfilter.symm
  obtain ⟨t, m, hpending, hm, hbegins⟩ := h.rest b (Nat.le_refl _) _ hu
  cases hpending
  obtain ⟨hworld, hquiet⟩ := hbegins w
  have hlater : queue.filter (b + 1 ≤ ·) =
      List.range' (b + 1) (min (r.front + room) r.slots.length - b - 1) := by
    have hagain : queue.filter (b + 1 ≤ ·) = (queue.filter (b ≤ ·)).filter (b + 1 ≤ ·) := by
      rw [List.filter_filter]
      refine List.filter_congr fun q _ => ?_
      rw [← Bool.decide_and]
      exact decide_eq_decide.2 (by omega)
    rw [hagain, htail, List.filter_eq_self]
    intro q hq
    exact decide_eq_true (List.mem_range'_1.1 hq).1
  refine ⟨List.length_set.trans h.length, ?_, Nat.le_succ_of_le h.lower, ?_, ?_,
    quiet_set hquiet fun q hq hne => h.begun q (by omega), ?_⟩
  · rw [hworld, h.log, List.take_add_one, hm]
    simp
  · change b + 1 ≤ r.front + room
    omega
  · rw [hlater, List.length_set]
    rfl
  · intro q hq s hs
    exact h.rest q (by omega) s ((List.getElem?_set_ne (by omega)).symm.trans hs)

theorem Begun.passed (h : Begun room marks log b r w) {p : Nat} {queue : List Nat}
    (hqueue : r.queue = p :: queue) (hp : ∀ u, r.slots[p]? ≠ some (.pending u)) :
    Begun room marks log b ⟨r.slots, r.texts, queue⟩ w := by
  have hlt : p < b := by
    refine Nat.lt_of_not_le fun hle => ?_
    have hwaits : p ∈ r.queue.filter (b ≤ ·) :=
      List.mem_filter.2 ⟨hqueue ▸ List.mem_cons_self, decide_eq_true hle⟩
    rw [h.queue, List.mem_range'_1] at hwaits
    have hbound : p < r.slots.length := by omega
    obtain ⟨t, m, hpending, -⟩ := h.rest p hle _ (List.getElem?_eq_getElem hbound)
    exact hp t ((List.getElem?_eq_getElem hbound).trans (congrArg some hpending))
  have hfilter : r.queue.filter (b ≤ ·) = queue.filter (b ≤ ·) := by
    rw [hqueue, List.filter_cons_of_neg (by simpa using hlt)]
  exact ⟨h.length, h.log, h.lower, h.upper, hfilter ▸ h.queue, h.begun, h.rest⟩

theorem Begun.next {s s' : Rendering (List π × σ) × (List π × σ)}
    (h : Begun room marks log b s.1 s.2) (hnext : Next room s s') :
    ∃ b', Begun room marks log b' s'.1 s'.2 := by
  cases hnext with
  | wake r w p => exact ⟨b, h.wake p⟩
  | advance r w =>
      dsimp only at h
      have hstep := advanced room r w
      generalize r.advance room w = out at hstep
      cases hstep with
      | ended | idle => exact ⟨b, h⟩
      | given ht => exact ⟨b, h.give ht⟩
      | @turn t u p queue ht hqueue hu =>
          by_cases hp : p < b
          · exact ⟨b, h.again hp hqueue hu⟩
          · exact ⟨b + 1, h.begin (Nat.le_of_not_lt hp) hqueue hu⟩
      | passed ht hqueue hp => exact ⟨b, h.passed hqueue hp⟩

theorem Begun.reaches {s s' : Rendering (List π × σ) × (List π × σ)}
    (h : Begun room marks log b s.1 s.2) (hs : Reaches room s s') :
    ∃ b', Begun room marks log b' s'.1 s'.2 := by
  induction hs with
  | refl => exact ⟨b, h⟩
  | tail _ hnext ih =>
      obtain ⟨b', hb'⟩ := ih
      exact hb'.next hnext

theorem Begun.all (h : Begun room marks log b r w) {text : String}
    (hout : r.outcome? = some (.ok text)) : marks.length ≤ b := by
  rcases outcome?_cases hout with ⟨hnone, -⟩ | ⟨_, -, ⟨⟩⟩
  exact h.length ▸ (List.getElem?_eq_none_iff.1 hnone).trans h.lower

end

end Rendering

open Rendering

def Start.calls : Start F → List (F × Context F × Settings)
  | .settled _ => []
  | .call _ f c => [(f, c, {})]

/-- The calls of blocks that all succeed, in the order of the blocks. -/
def calls (c : Context F) (bs : List Block) : List (F × Context F × Settings) :=
  bs.flatMap fun b => (start c b).calls

/-- Functions whose calls are noted when they begin. -/
def noted (launch : Launch σ F) : Launch (List (F × Context F × Settings) × σ) F :=
  fun f c s => .act (fun h => (h.1 ++ [(f, c, s)], h.2)) fun _ => (launch f c s).beside

theorem begins_task (launch : Launch σ F) (s : Start F) :
    (s.task (noted launch)).Begins s.calls := by
  cases s with
  | settled result =>
      have hquiet : (Coroutine.run (.ofExcept result) :
          Coroutine (List (F × Context F × Settings) × σ) TemplateError String).Quiet :=
        fun h => rfl
      exact hquiet.begins
  | call id f c =>
      exact fun h => ((launch f c {}).quiet_beside.map _).poll (h.1 ++ [(f, c, ({} : Settings))], h.2)

theorem begun_ofTasks (room : Nat) (launch : Launch σ F) (c : Context F) (bs : List Block)
    (h : List (F × Context F × Settings) × σ) :
    Begun room (bs.map fun b => (start c b).calls) h.1 0
      (ofTasks room (tasks (noted launch) c bs)) h where
  length := by simp [ofTasks, tasks]
  log := by simp
  lower := Nat.le_refl 0
  upper := Nat.zero_le _
  queue := by simp [ofTasks, front, List.range_eq_range']
  begun p hp := absurd hp (Nat.not_lt_zero p)
  rest p _ s hs := by
    rw [getElem?_ofTasks, tasks, List.getElem?_map, Option.map_map] at hs
    obtain ⟨b, hb, rfl⟩ := Option.map_eq_some_iff.1 hs
    refine ⟨_, (start c b).calls, rfl, ?_, begins_task launch _⟩
    rw [List.getElem?_map, hb]
    rfl

/-- Whatever the limit and the order in which blocks are woken, calls begin in the order of the
blocks, and a text comes of them only when all have begun. -/
theorem calls_begun {limits : Limits} {launch : Launch σ F} {c : Context F} {bs : List Block}
    {log log' : List (F × Context F × Settings)} {w w' : σ} {result : Except TemplateError String}
    (h : Renders limits (noted launch) c bs (log, w) result (log', w')) :
    ∃ begun, log' = log ++ begun ∧ begun <+: calls c bs ∧
      ∀ text, result = .ok text → begun = calls c bs := by
  obtain ⟨r, hreach, hout⟩ := h
  obtain ⟨b, hb⟩ := (begun_ofTasks limits.room launch c bs (log, w)).reaches hreach
  have hcalls : (bs.map fun b => (start c b).calls).flatten = calls c bs := rfl
  refine ⟨_, hb.log, ?_, ?_⟩
  · rw [← hcalls]
    exact (List.take_prefix b _).flatten
  · rintro text rfl
    rw [List.take_of_length_le (hb.all hout), hcalls]

end Template

end Orchestra
