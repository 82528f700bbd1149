import Orchestra.Proofs.Template.Engine

namespace Orchestra.Template

variable {σ F : Type} [Described F]

namespace Rendering

/-- The same rendering behind a block whose text is given back already. -/
def behind (text : String) (r : Rendering σ) : Rendering σ where
  slots := .ready (.ok text) :: r.slots
  texts := text :: r.texts
  queue := r.queue.map (· + 1)

theorem outcome?_behind (text : String) (r : Rendering σ) :
    (r.behind text).outcome? = r.outcome?.map (Except.map (text ++ ·)) := by
  have hslot : (r.behind text).slots[(r.behind text).front]? = r.slots[r.front]? := rfl
  rw [outcome?, outcome?, hslot]
  cases r.slots[r.front]? with
  | none => simp [behind, Except.map]
  | some s =>
      cases s with
      | ready result => cases result <;> rfl
      | pending t => rfl

theorem give_behind (room : Nat) (text t : String) (r : Rendering σ) :
    (r.behind text).give room t = (r.give room t).behind text := by
  have hplace : r.front + 1 + room < r.slots.length + 1 ↔ r.front + room < r.slots.length := by
    omega
  have hqueue : (r.behind text).queue ++
      (if r.front + 1 + room < r.slots.length + 1 then [r.front + 1 + room] else []) =
        (r.give room t).queue.map (· + 1) := by
    simp only [hplace, Rendering.give, List.map_append, behind]
    split
    · rw [List.map_singleton, Nat.add_right_comm]
    · rfl
  exact congrArg (Rendering.mk _ _) hqueue

theorem pollNext_behind (text : String) (r : Rendering σ) (w : σ) :
    (r.behind text).pollNext w = ((r.pollNext w).1.behind text, (r.pollNext w).2) := by
  obtain ⟨slots, texts, queue⟩ := r
  cases queue with
  | nil => rfl
  | cons p queue =>
      simp only [pollNext, behind, List.map_cons, List.getElem?_cons_succ]
      cases slots[p]? with
      | none => rfl
      | some s => cases s <;> rfl

theorem advance_behind (room : Nat) (text : String) (r : Rendering σ) (w : σ) :
    (r.behind text).advance room w =
      ((r.advance room w).1.behind text, (r.advance room w).2) := by
  have hslot : (r.behind text).slots[(r.behind text).front]? = r.slots[r.front]? := rfl
  rw [advance, advance, hslot]
  cases r.slots[r.front]? with
  | none => rfl
  | some s =>
      cases s with
      | pending t => exact pollNext_behind text r w
      | ready result =>
          cases result with
          | error e => rfl
          | ok t => exact congrArg (·, w) (give_behind room text t r)

theorem wake_behind (room : Nat) (text : String) (r : Rendering σ) (p : Nat) :
    (r.behind text).wake room (p + 1) = (r.wake room p).behind text := by
  have hslot : (r.behind text).slots[p + 1]? = r.slots[p]? := rfl
  have hplace : ((r.behind text).front ≤ p + 1 ∧ p + 1 < (r.behind text).front + room ∧
      p + 1 ∉ (r.behind text).queue) ↔ (r.front ≤ p ∧ p < r.front + room ∧ p ∉ r.queue) := by
    have hfront : (r.behind text).front = r.front + 1 := rfl
    have hqueue : p + 1 ∈ (r.behind text).queue ↔ p ∈ r.queue := by
      simp [behind]
    rw [hfront, hqueue]
    exact and_congr (by omega) (and_congr_left' (by omega))
  rw [wake, wake, hslot]
  cases r.slots[p]? with
  | none => rfl
  | some s =>
      cases s with
      | ready result => rfl
      | pending t =>
          simp only [hplace]
          split
          · simp [behind]
          · rfl

theorem reaches_behind_iff {room : Nat} {text : String} {r : Rendering σ} {w : σ}
    {s : Rendering σ × σ} :
    Reaches room (r.behind text, w) s ↔
      ∃ r', s.1 = r'.behind text ∧ Reaches room (r, w) (r', s.2) := by
  constructor
  · intro hs
    induction hs with
    | refl => exact ⟨r, rfl, .refl⟩
    | tail _ hnext ih =>
        obtain ⟨r', hr', hreach⟩ := ih
        cases hnext with
        | advance r₁ w₁ =>
            subst hr'
            rw [advance_behind]
            exact ⟨_, rfl, hreach.tail (.advance r' w₁)⟩
        | wake r₁ w₁ p =>
            subst hr'
            cases p with
            | zero => exact ⟨r', rfl, hreach⟩
            | succ p =>
                rw [wake_behind]
                exact ⟨_, rfl, hreach.tail (.wake r' w₁ p)⟩
  · obtain ⟨r₂, w₂⟩ := s
    rintro ⟨r', rfl, hreach⟩
    refine Relation.ReflTransGen.lift (fun s : Rendering σ × σ => (s.1.behind text, s.2)) ?_ _ _
      hreach
    intro s s' hnext
    cases hnext with
    | advance r₁ w₁ =>
        have hstep : Next room (r₁.behind text, w₁) _ := .advance _ _
        rwa [advance_behind] at hstep
    | wake r₁ w₁ p =>
        have hstep : Next room (r₁.behind text, w₁) _ := .wake _ _ (p + 1)
        rwa [wake_behind] at hstep

theorem range'_give {b front room length : Nat} (hb : b ≤ front + room) :
    List.range' b (min (front + room) length - b) ++
        (if front + room < length then [front + room] else []) =
      List.range' b (min (front + 1 + room) length - b) := by
  split
  · have hlast : min (front + 1 + room) length - b = min (front + room) length - b + 1 := by omega
    have hplace : b + (min (front + room) length - b) = front + room := by omega
    rw [hlast, List.range'_1_concat, hplace]
  · have hsame : min (front + 1 + room) length = min (front + room) length := by omega
    rw [hsame, List.append_nil]

/-- The front block has had its turn and is finished. The others have not begun. -/
def fronted (room : Nat) (result : Except TemplateError String)
    (ts : List (Coroutine σ TemplateError String)) : Rendering σ where
  slots := .ready result :: ts.map .pending
  texts := []
  queue := List.range' 1 (min room (ts.length + 1) - 1)

theorem wake_eq_self {room : Nat} {r : Rendering σ} {p : Nat}
    (h : ∀ t, r.slots[p]? = some (.pending t) → p < r.front + room → p ∈ r.queue) :
    r.wake room p = r := by
  rcases wake_cases room r p with hsame | ⟨t, ht, -, hlt, hnew, -⟩
  · exact hsame
  · exact absurd (h t ht hlt) hnew

theorem wake_ofTasks (room : Nat) (ts : List (Coroutine σ TemplateError String)) (p : Nat) :
    (ofTasks room ts).wake room p = ofTasks room ts := by
  refine wake_eq_self fun t ht hlt => ?_
  have hbound := (List.getElem?_eq_some_iff.1 ht).1
  simp only [ofTasks, List.length_map] at hbound
  simp only [ofTasks, front, List.length_nil, List.mem_range] at hlt ⊢
  omega

theorem advance_ofTasks_cons {room : Nat} (hroom : 0 < room)
    {t : Coroutine σ TemplateError String} {w w₁ : σ} {result : Except TemplateError String}
    (ht : t.poll w = (.ready result, w₁)) (ts : List (Coroutine σ TemplateError String)) :
    (ofTasks room (t :: ts)).advance room w = (fronted room result ts, w₁) := by
  have hcount : min room (ts.length + 1) = min room (ts.length + 1) - 1 + 1 := by omega
  have hqueue : List.range (min room (ts.length + 1)) =
      0 :: List.range' 1 (min room (ts.length + 1) - 1) := by
    rw [hcount, List.range_eq_range', List.range'_succ]
    rfl
  rw [ofTasks, List.length_cons, hqueue]
  simp [advance, front, pollNext, ht, fronted]

theorem wake_fronted (room : Nat) (result : Except TemplateError String)
    (ts : List (Coroutine σ TemplateError String)) (p : Nat) :
    (fronted room result ts).wake room p = fronted room result ts := by
  refine wake_eq_self fun t ht hlt => ?_
  have hbound := (List.getElem?_eq_some_iff.1 ht).1
  cases p with
  | zero => cases ht
  | succ p =>
      simp only [fronted, List.length_cons, List.length_map] at hbound
      simp only [fronted, front, List.length_nil, List.mem_range'_1] at hlt ⊢
      omega

theorem advance_fronted_ok {room : Nat} (hroom : 0 < room) (text : String)
    (ts : List (Coroutine σ TemplateError String)) (w : σ) :
    (fronted room (.ok text) ts).advance room w = ((ofTasks room ts).behind text, w) := by
  have hgive : (fronted room (.ok text) ts).queue ++
      (if 0 + room < (fronted room (.ok text) ts).slots.length then [0 + room] else []) =
        (ofTasks room ts).queue.map (· + 1) := by
    have hcount : min (0 + 1 + room) (ts.length + 1) - 1 = min room ts.length := by omega
    have hfrom : 1 ≤ 0 + room := by omega
    have hqueue := @range'_give 1 0 room (ts.length + 1) hfrom
    rw [hcount, Nat.zero_add] at hqueue
    simp only [fronted, ofTasks, List.length_cons, List.length_map, Nat.zero_add]
    rw [hqueue, List.range'_eq_map_range]
    exact List.map_congr_left fun p _ => Nat.add_comm 1 p
  exact congrArg (fun queue => (Rendering.mk _ _ queue, w)) hgive

/-- The front block is not suspended, so nothing else happens before its text is given back. -/
theorem reaches_ofTasks_cons_iff {room : Nat} (hroom : 0 < room)
    {t : Coroutine σ TemplateError String} {w w₁ : σ} {result : Except TemplateError String}
    (ht : t.poll w = (.ready result, w₁)) (ts : List (Coroutine σ TemplateError String))
    (s : Rendering σ × σ) :
    Reaches room (ofTasks room (t :: ts), w) s ↔
      s = (ofTasks room (t :: ts), w) ∨ s = (fronted room result ts, w₁) ∨
        ∃ text r, result = .ok text ∧ s.1 = r.behind text ∧
          Reaches room (ofTasks room ts, w₁) (r, s.2) := by
  have hbegin : Next room (ofTasks room (t :: ts), w) _ := .advance _ _
  rw [advance_ofTasks_cons hroom ht] at hbegin
  constructor
  · intro hs
    induction hs with
    | refl => exact .inl rfl
    | @tail s s' _ hnext ih =>
        rcases ih with rfl | rfl | ⟨text, r, rfl, hr, hreach⟩
        · cases hnext with
          | advance => exact .inr (.inl (advance_ofTasks_cons hroom ht ts))
          | wake _ _ p => exact .inl (by rw [wake_ofTasks])
        · cases hnext with
          | advance =>
              cases result with
              | error e => exact .inr (.inl rfl)
              | ok text =>
                  rw [advance_fronted_ok hroom]
                  exact .inr (.inr ⟨text, _, rfl, rfl, .refl⟩)
          | wake _ _ p => exact .inr (.inl (by rw [wake_fronted]))
        · have hbehind : Reaches room ((ofTasks room ts).behind text, w₁) s' :=
            .tail (reaches_behind_iff.2 ⟨r, hr, hreach⟩) hnext
          obtain ⟨r', hr', hreach'⟩ := reaches_behind_iff.1 hbehind
          exact .inr (.inr ⟨text, r', rfl, hr', hreach'⟩)
  · rintro (rfl | rfl | ⟨text, r, rfl, hr, hreach⟩)
    · exact .refl
    · exact .single hbegin
    · have hgive : Next room (fronted room (.ok text) ts, w₁) _ := .advance _ _
      rw [advance_fronted_ok hroom] at hgive
      exact .head hbegin (.head hgive (reaches_behind_iff.2 ⟨r, hr, hreach⟩))

theorem reaches_ofTasks_nil {room : Nat} {w : σ} {s : Rendering σ × σ}
    (hs : Reaches room (ofTasks room [], w) s) : s = (ofTasks room [], w) := by
  induction hs with
  | refl => rfl
  | tail _ hnext ih =>
      subst ih
      cases hnext with
      | advance => rfl
      | wake _ _ p => rw [wake_ofTasks]

theorem drive_behind (room n : Nat) (text : String) (r : Rendering σ) (w : σ) :
    drive room n (r.behind text) w =
      ((drive room n r w).1.behind text, (drive room n r w).2) := by
  induction n generalizing r w with
  | zero => rfl
  | succ n ih =>
      rw [drive, drive, advance_behind]
      exact ih _ _

theorem exists_outcome?_drive {room : Nat} (hroom : 0 < room)
    {ts : List (Coroutine σ TemplateError String)} (h : ∀ t ∈ ts, t.Instant) (w : σ) :
    ∃ result, (drive room (2 * ts.length) (ofTasks room ts) w).1.outcome? = some result := by
  induction ts generalizing w with
  | nil => exact ⟨_, rfl⟩
  | cons t ts ih =>
      obtain ⟨ht, hrest⟩ := List.forall_mem_cons.1 h
      obtain ⟨result, hresult⟩ := ht.poll w
      have hturn : t.poll w = (.ready result, (t.poll w).2) := Prod.ext hresult rfl
      rw [List.length_cons, Nat.mul_succ, drive, advance_ofTasks_cons hroom hturn]
      cases result with
      | error e =>
          have hout : (fronted room (.error e) ts).outcome? = some (.error e) := rfl
          exact ⟨.error e, by rw [drive_of_outcome? hout, hout]⟩
      | ok text =>
          obtain ⟨result, hout⟩ := ih hrest (t.poll w).2
          refine ⟨result.map (text ++ ·), ?_⟩
          rw [drive, advance_fronted_ok hroom, drive_behind, outcome?_behind, hout]
          rfl

end Rendering

open Rendering

/-- One thing after another: the error of the first, or what the second comes to behind the text of
the first. -/
def InTurn (first second : σ → Except TemplateError String → σ → Prop) (w : σ) :
    Except TemplateError String → σ → Prop
  | .error e, w' => first w (.error e) w' ∨ ∃ s w₁, first w (.ok s) w₁ ∧ second w₁ (.error e) w'
  | .ok text, w' => ∃ s t w₁, first w (.ok s) w₁ ∧ second w₁ (.ok t) w' ∧ text = s ++ t

theorem inTurn_iff {P Q : σ → Except TemplateError String → σ → Prop} {w w' : σ}
    {result : Except TemplateError String} :
    InTurn P Q w result w' ↔
      (∃ e, P w (.error e) w' ∧ result = .error e) ∨
        ∃ s w₁ rest, P w (.ok s) w₁ ∧ Q w₁ rest w' ∧ result = rest.map (s ++ ·) := by
  cases result with
  | error e =>
      constructor
      · rintro (h | ⟨s, w₁, h, h'⟩)
        · exact .inl ⟨e, h, rfl⟩
        · exact .inr ⟨s, w₁, .error e, h, h', rfl⟩
      · rintro (⟨_, h, ⟨⟩⟩ | ⟨s, w₁, rest, h, h', hrest⟩)
        · exact .inl h
        · cases rest with
          | error e' =>
              cases hrest
              exact .inr ⟨s, w₁, h, h'⟩
          | ok t => cases hrest
  | ok text =>
      constructor
      · rintro ⟨s, t, w₁, h, h', rfl⟩
        exact .inr ⟨s, w₁, .ok t, h, h', rfl⟩
      · rintro (⟨_, _, ⟨⟩⟩ | ⟨s, w₁, rest, h, h', hrest⟩)
        cases rest with
        | error e' => cases hrest
        | ok t =>
            cases hrest
            exact ⟨s, t, w₁, h, h', rfl⟩

theorem inTurn_mono {P P' Q Q' : σ → Except TemplateError String → σ → Prop} (hP : P ≤ P')
    (hQ : Q ≤ Q') : InTurn P Q ≤ InTurn P' Q' := by
  intro w result w' h
  rcases inTurn_iff.1 h with ⟨e, he, rfl⟩ | ⟨s, w₁, rest, hs, hrest, rfl⟩
  · exact inTurn_iff.2 (.inl ⟨e, hP _ _ _ he, rfl⟩)
  · exact inTurn_iff.2 (.inr ⟨s, w₁, rest, hP _ _ _ hs, hQ _ _ _ hrest, rfl⟩)

theorem inTurn_assoc (P Q R : σ → Except TemplateError String → σ → Prop) :
    InTurn (InTurn P Q) R = InTurn P (InTurn Q R) := by
  funext w result w'
  apply propext
  cases result with
  | error e =>
      constructor
      · rintro ((h | ⟨s, w₁, h, h'⟩) | ⟨_, w₂, ⟨s, t, w₁, h, h', rfl⟩, h''⟩)
        · exact .inl h
        · exact .inr ⟨s, w₁, h, .inl h'⟩
        · exact .inr ⟨s, w₁, h, .inr ⟨t, w₂, h', h''⟩⟩
      · rintro (h | ⟨s, w₁, h, h' | ⟨t, w₂, h', h''⟩⟩)
        · exact .inl (.inl h)
        · exact .inl (.inr ⟨s, w₁, h, h'⟩)
        · exact .inr ⟨s ++ t, w₂, ⟨s, t, w₁, h, h', rfl⟩, h''⟩
  | ok text =>
      constructor
      · rintro ⟨_, u, w₂, ⟨s, t, w₁, h, h', rfl⟩, h'', rfl⟩
        exact ⟨s, t ++ u, w₁, h, ⟨t, u, w₂, h', h'', rfl⟩, String.append_assoc⟩
      · rintro ⟨s, _, w₁, h, ⟨t, u, w₂, h', h'', rfl⟩, rfl⟩
        exact ⟨s ++ t, u, w₂, ⟨s, t, w₁, h, h', rfl⟩, h'', String.append_assoc.symm⟩

def Ends (x : Run σ TemplateError String) (w : σ) (result : Except TemplateError String) (w' : σ) :
    Prop :=
  Run.exec x w = (result, w')

theorem inTurn_ends (x y : Run σ TemplateError String) :
    InTurn (Ends x) (Ends y) = Ends (do let s ← x; return s ++ (← y)) := by
  funext w result w'
  apply propext
  cases result with
  | error e =>
      simp only [Ends, InTurn, Run.exec_bind_eq_error_iff]
      constructor
      · rintro (h | ⟨s, w₁, h, h'⟩)
        · exact .inl h
        · exact .inr ⟨s, w₁, h, .inl h'⟩
      · rintro (h | ⟨s, w₁, h, h' | ⟨t, w₂, -, h''⟩⟩)
        · exact .inl h
        · exact .inr ⟨s, w₁, h, h'⟩
        · cases h''
  | ok text =>
      simp only [Ends, InTurn, Run.exec_bind_eq_ok_iff]
      constructor
      · rintro ⟨s, t, w₁, h, h', rfl⟩
        exact ⟨s, w₁, h, t, w', h', rfl⟩
      · rintro ⟨s, w₁, h, t, w₂, h', h''⟩
        cases h''
        exact ⟨s, t, w₁, h, h', rfl⟩

theorem inTurn_texts (s t : String) :
    InTurn (Ends (pure s)) (Ends (pure t)) = (Ends (pure (s ++ t)) : σ → _) := by
  simp only [inTurn_ends, pure_bind]

theorem inTurn_pure (Q : σ → Except TemplateError String → σ → Prop) :
    InTurn (Ends (pure "")) Q = Q := by
  funext w result w'
  apply propext
  cases result with
  | error e =>
      constructor
      · rintro (h | ⟨_, _, ⟨⟩, h⟩)
        · cases h
        · exact h
      · exact fun h => .inr ⟨"", w, rfl, h⟩
  | ok text =>
      constructor
      · rintro ⟨_, t, _, ⟨⟩, h, rfl⟩
        rwa [String.empty_append]
      · exact fun h => ⟨"", text, w, rfl, h, String.empty_append.symm⟩

def completing (launch : Launch σ F) : Invoke σ F := fun f c s => (launch f c s).complete

theorem complete_task (launch : Launch σ F) (c : Context F) (b : Block) :
    ((start c b).task launch).complete = renderBlock (completing launch) c b := by
  rw [renderBlock]
  cases start c b with
  | settled result => rfl
  | call id f c' =>
      funext w
      change Run.exec ((launch f c' {}).map _).complete w =
        Run.exec (Context.result <$> ((launch f c' {}).complete).mapError _) w
      rw [Coroutine.exec_complete_map, Run.exec_map, Run.exec_mapError]

theorem remaining_tasks (launch : Launch σ F) (c : Context F) (bs : List Block) :
    remaining ((tasks launch c bs).map .pending) = renderBlocks (completing launch) c bs := by
  induction bs with
  | nil => rfl
  | cons b bs ih =>
      rw [renderBlocks, ← complete_task, ← ih]
      rfl

theorem prospect_ofTasks (room : Nat) (launch : Launch σ F) (c : Context F) (bs : List Block) :
    (ofTasks room (tasks launch c bs)).prospect = renderBlocks (completing launch) c bs := by
  rw [prospect, ← remaining_tasks]
  exact bind_pure _

/-- Rendering the blocks can end this way. -/
def Renders (limits : Limits) (launch : Launch σ F) (c : Context F) (bs : List Block) (w : σ)
    (result : Except TemplateError String) (w' : σ) : Prop :=
  ∃ r, Reaches limits.room (ofTasks limits.room (tasks launch c bs), w) (r, w') ∧
    r.outcome? = some result

theorem Limits.room_pos (limits : Limits) : 0 < limits.room :=
  Nat.lt_of_lt_of_le Nat.zero_lt_one (Nat.le_max_right _ _)

section Renders

variable {limits : Limits} {launch : Launch σ F} {c : Context F} {b : Block} {bs : List Block}

theorem renders_alone (h : limits.concurrentRenders ≤ 1) :
    Renders limits launch c bs = Ends (renderBlocks (completing launch) c bs) := by
  funext w result w'
  have hroom : limits.room = 1 := Nat.max_eq_right h
  rw [Renders, hroom, (alone_ofTasks _).reaches_outcome?_iff, prospect_ofTasks, Ends]

theorem renders_nil : Renders limits launch c [] = Ends (pure "") := by
  funext w result w'
  refine propext ⟨?_, ?_⟩
  · rintro ⟨r, hreach, hout⟩
    obtain ⟨rfl, rfl⟩ := Prod.mk.inj (reaches_ofTasks_nil hreach)
    cases hout
    rfl
  · rintro ⟨⟩
    exact ⟨_, .refl, rfl⟩

theorem renders_cons_of_instant (h : ((start c b).task launch).Instant) :
    Renders limits launch c (b :: bs) =
      InTurn (Ends (renderBlock (completing launch) c b)) (Renders limits launch c bs) := by
  funext w result w'
  obtain ⟨first, hfirst⟩ := h.poll w
  have hturn : ((start c b).task launch).poll w =
      (.ready first, (((start c b).task launch).poll w).2) := Prod.ext hfirst rfl
  generalize (((start c b).task launch).poll w).2 = w₁ at hturn
  have hexec : Run.exec (renderBlock (completing launch) c b) w = (first, w₁) := by
    rw [← complete_task, ← Coroutine.exec_complete_poll, hturn]
    rfl
  refine propext (Iff.trans ?_ inTurn_iff.symm)
  simp only [Ends, hexec, Prod.mk.injEq]
  constructor
  · rintro ⟨r, hreach, hout⟩
    rcases (reaches_ofTasks_cons_iff limits.room_pos hturn _ _).1 hreach with
      hr | hr | ⟨text, r', rfl, hr, hrest⟩
    · cases hr
      cases hout
    · cases hr
      cases first with
      | error e =>
          cases hout
          exact .inl ⟨e, ⟨rfl, rfl⟩, rfl⟩
      | ok text => cases hout
    · dsimp only at hr hrest
      rw [hr, outcome?_behind, Option.map_eq_some_iff] at hout
      obtain ⟨rest, hout, rfl⟩ := hout
      exact .inr ⟨text, w₁, rest, ⟨rfl, rfl⟩, ⟨r', hrest, hout⟩, rfl⟩
  · rintro (⟨e, ⟨rfl, rfl⟩, rfl⟩ | ⟨text, _, rest, ⟨rfl, rfl⟩, ⟨r, hreach, hout⟩, rfl⟩)
    · exact ⟨_, (reaches_ofTasks_cons_iff limits.room_pos hturn _ _).2 (.inr (.inl rfl)), rfl⟩
    · refine ⟨r.behind text, (reaches_ofTasks_cons_iff limits.room_pos hturn _ _).2
        (.inr (.inr ⟨text, r, rfl, rfl, hreach⟩)), ?_⟩
      rw [outcome?_behind, hout]
      rfl

/-- A block is rendered before those behind it begin when there is room for one alone, and also when
it is not suspended. -/
theorem renders_cons
    (h : limits.concurrentRenders ≤ 1 ∨ ((start c b).task launch).Instant) :
    Renders limits launch c (b :: bs) =
      InTurn (Ends (renderBlock (completing launch) c b)) (Renders limits launch c bs) := by
  rcases h with hone | hinstant
  · rw [renders_alone hone, renders_alone hone, inTurn_ends, renderBlocks]
  · exact renders_cons_of_instant hinstant

theorem renders_eq (h : limits.concurrentRenders ≤ 1 ∨ ∀ b ∈ bs, ((start c b).task launch).Instant) :
    Renders limits launch c bs = Ends (renderBlocks (completing launch) c bs) := by
  induction bs with
  | nil => rw [renders_nil, renderBlocks]
  | cons b bs ih =>
      rw [renders_cons (h.imp_right fun hall => hall b List.mem_cons_self),
        ih (h.imp_right fun hall b hb => hall b (List.mem_cons_of_mem _ hb)), inTurn_ends,
        renderBlocks]

end Renders

theorem instant_task_run (invoke : Invoke σ F) (s : Start F) :
    (s.task fun f c s => .run (invoke f c s)).Instant := by
  cases s with
  | settled result => trivial
  | call id f c => exact (Coroutine.instant_map_iff _ _).2 trivial

theorem renderBlocksWithin_eq (limits : Limits) (invoke : Invoke σ F) (c : Context F)
    (bs : List Block) : renderBlocksWithin limits invoke c bs = renderBlocks invoke c bs := by
  funext w
  let launch : Launch σ F := fun f c s => .run (invoke f c s)
  have hinstant (b : Block) : ((start c b).task launch).Instant := instant_task_run invoke (start c b)
  have htasks : ∀ t ∈ tasks launch c bs, t.Instant := List.forall_mem_map.2 fun b _ => hinstant b
  have hlength : (tasks launch c bs).length = bs.length := List.length_map _
  obtain ⟨result, hout⟩ := exists_outcome?_drive limits.room_pos htasks w
  rw [hlength] at hout
  have hends : Renders limits launch c bs w result _ :=
    ⟨_, reaches_drive limits.room (2 * bs.length) _ w, hout⟩
  rw [renders_eq (.inr fun b _ => hinstant b)] at hends
  have hresult (other : Except TemplateError String) :
      (drive limits.room (2 * bs.length) (ofTasks limits.room (tasks launch c bs)) w).1.outcome?.getD
        other = result := by
    rw [hout]
    rfl
  exact (Prod.ext (hresult _) rfl : Run.exec (renderBlocksWithin limits invoke c bs) w =
    (result, _)).trans hends.symm

theorem renderWithin_eq (limits : Limits) (invoke : Invoke σ F) (c : Context F) (template : String) :
    renderWithin limits invoke c template = render invoke c template := by
  rw [renderWithin, render]
  exact congrArg (_ >>= ·) (funext fun bs => renderBlocksWithin_eq limits invoke c bs)

end Orchestra.Template
