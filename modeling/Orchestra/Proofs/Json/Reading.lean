import Orchestra.Proofs.Json.Paths
import Orchestra.Proofs.Json.Tokens

namespace Orchestra.Json

mutual

def depth : Json → Nat
  | .array items => depthItems items + 1
  | .object members => depthMembers members + 1
  | _ => 0

def depthItems : List Json → Nat
  | [] => 0
  | item :: rest => max (depth item) (depthItems rest)

def depthMembers : List (String × Json) → Nat
  | [] => 0
  | (_, item) :: rest => max (depth item) (depthMembers rest)

end

theorem depthItems_le_iff {items : List Json} {n : Nat} :
    depthItems items ≤ n ↔ ∀ item ∈ items, item.depth ≤ n := by
  induction items with
  | nil => simp [depthItems]
  | cons item rest ih => rw [depthItems, Nat.max_le, ih, List.forall_mem_cons]

theorem depthMembers_le_iff {members : List (String × Json)} {n : Nat} :
    depthMembers members ≤ n ↔ ∀ m ∈ members, m.2.depth ≤ n := by
  induction members with
  | nil => simp [depthMembers]
  | cons m rest ih => rw [depthMembers, Nat.max_le, ih, List.forall_mem_cons]

theorem depth_le_succ_iff {j : Json} {n : Nat} :
    j.depth ≤ n + 1 ↔ ∀ c ∈ j.children, c.depth ≤ n := by
  cases j with
  | array items => rw [depth, Nat.add_le_add_iff_right, depthItems_le_iff, children]
  | object members =>
      rw [depth, Nat.add_le_add_iff_right, depthMembers_le_iff, children, List.forall_mem_map]
  | _ => simp [depth, children]

theorem step_first (done : List Json) (outer : List Frame) {t : Token} (h : t ≠ .closeArray) :
    State.step ⟨.items done :: outer, .valueOrClose⟩ t = State.step ⟨.items done :: outer, .value⟩ t := by
  cases t with
  | closeArray => exact absurd rfl h
  | _ => rfl

theorem tokens_head (j : Json) : ∃ t ts, tokens j = t :: ts ∧ t ≠ .closeArray := by
  cases j with
  | array items =>
      cases items with
      | nil => exact ⟨_, _, rfl, nofun⟩
      | cons => exact ⟨_, _, rfl, nofun⟩
  | object members =>
      cases members with
      | nil => exact ⟨_, _, rfl, nofun⟩
      | cons => exact ⟨_, _, rfl, nofun⟩
  | _ => exact ⟨_, _, rfl, nofun⟩

theorem foldlM_first (done : List Json) (outer : List Frame) (j : Json) :
    (tokens j).foldlM State.step ⟨.items done :: outer, .valueOrClose⟩ =
      (tokens j).foldlM State.step ⟨.items done :: outer, .value⟩ := by
  obtain ⟨t, ts, heq, ht⟩ := tokens_head j
  rw [heq, List.foldlM_cons, List.foldlM_cons, step_first done outer ht]

theorem memberNames?_some (members : List (String × Json)) :
    memberNames? (members.map fun m => (some m.1, m.2)) = some members := by
  induction members with
  | nil => rfl
  | cons m members ih =>
      rw [List.map_cons, memberNames?, ih]
      rfl

theorem closeArray_eq {outer : List Frame} (h : outer.length < depthLimit) (done : List Json) :
    closeArray outer done = .array done.reverse :=
  if_neg (by omega)

theorem closeObject_eq {outer : List Frame} (h : outer.length < depthLimit)
    (done : List (String × Json)) :
    closeObject outer (done.map fun m => (some m.1, m.2)) = .object done.reverse := by
  rw [closeObject, if_neg (by omega), ← List.map_reverse, memberNames?_some]

theorem foldlM_step {s s' : State} {t : Token} (h : s.step t = some s') (ts : List Token) :
    (t :: ts).foldlM State.step s = ts.foldlM State.step s' := by
  rw [List.foldlM_cons, h]
  rfl

theorem foldlM_close {s : State} {t : Token} {outer : List Frame} {j : Json}
    (h : s.step t = State.put outer j) : [t].foldlM State.step s = State.put outer j := by
  rw [List.foldlM_cons, h]
  exact bind_pure _

mutual

/-- The tokens of a document make up the document wherever a value may come. -/
theorem foldlM_tokens : ∀ (j : Json) (frames : List Frame), Plain j →
    frames.length + depth j ≤ depthLimit →
    (tokens j).foldlM State.step ⟨frames, .value⟩ = State.put frames j
  | .null, _, _, _ | .bool _, _, _, _ | .number _, _, _, _ | .string _, _, _, _ => foldlM_close rfl
  | .array [], frames, _, h => by
      simp only [depth] at h
      have hframes : frames.length < depthLimit := by omega
      rw [tokens, foldlM_step rfl]
      exact foldlM_close (congrArg (State.put frames) (closeArray_eq hframes []))
  | .array (item :: rest), frames, hp, h => by
      simp only [depth, depthItems] at h
      have hitem := foldlM_tokens item (.items [] :: frames) hp.1
        (by simp only [List.length_cons]; omega)
      have hrest := foldlM_tailTokens rest [item] frames hp.2 (by omega)
      rw [tokens, foldlM_step rfl, List.foldlM_append, foldlM_first, hitem]
      exact hrest
  | .object [], frames, _, h => by
      simp only [depth] at h
      have hframes : frames.length < depthLimit := by omega
      rw [tokens, foldlM_step rfl]
      exact foldlM_close (congrArg (State.put frames) (closeObject_eq hframes []))
  | .object ((name, item) :: rest), frames, hp, h => by
      simp only [depth, depthMembers] at h
      have hitem := foldlM_tokens item (.member [] (some name) :: frames) hp.1
        (by simp only [List.length_cons]; omega)
      have hrest := foldlM_memberTokens rest [(name, item)] frames hp.2 (by omega)
      rw [tokens, foldlM_step rfl, foldlM_step rfl, foldlM_step rfl, List.foldlM_append, hitem]
      exact hrest

theorem foldlM_tailTokens : ∀ (items done : List Json) (outer : List Frame), PlainItems items →
    outer.length + 1 + depthItems items ≤ depthLimit →
    (tailTokens items).foldlM State.step ⟨.items done :: outer, .commaOrClose⟩ =
      State.put outer (.array (done.reverse ++ items))
  | [], done, outer, _, h => by
      have houter : outer.length < depthLimit := by omega
      rw [List.append_nil]
      exact foldlM_close (congrArg (State.put outer) (closeArray_eq houter done))
  | item :: rest, done, outer, hp, h => by
      simp only [depthItems] at h
      have hitem := foldlM_tokens item (.items done :: outer) hp.1
        (by simp only [List.length_cons]; omega)
      have hrest := foldlM_tailTokens rest (item :: done) outer hp.2 (by omega)
      rw [List.reverse_cons, List.append_assoc] at hrest
      rw [tailTokens, foldlM_step rfl, List.foldlM_append, hitem]
      exact hrest

theorem foldlM_memberTokens : ∀ (members done : List (String × Json)) (outer : List Frame),
    PlainMembers members → outer.length + 1 + depthMembers members ≤ depthLimit →
    (memberTokens members).foldlM State.step
        ⟨.members (done.map fun m => (some m.1, m.2)) :: outer, .commaOrClose⟩ =
      State.put outer (.object (done.reverse ++ members))
  | [], done, outer, _, h => by
      have houter : outer.length < depthLimit := by omega
      rw [List.append_nil]
      exact foldlM_close (congrArg (State.put outer) (closeObject_eq houter done))
  | (name, item) :: rest, done, outer, hp, h => by
      simp only [depthMembers] at h
      have hitem := foldlM_tokens item
        (.member (done.map fun m => (some m.1, m.2)) (some name) :: outer) hp.1
        (by simp only [List.length_cons]; omega)
      have hrest := foldlM_memberTokens rest ((name, item) :: done) outer hp.2 (by omega)
      rw [List.reverse_cons, List.append_assoc] at hrest
      rw [memberTokens, foldlM_step rfl, foldlM_step rfl, foldlM_step rfl, List.foldlM_append, hitem]
      exact hrest

end

theorem parse?_of_tokens {text : String} {j : Json} (h : tokens? text.toList = some j.tokens)
    (hp : Plain j) (hd : depth j ≤ depthLimit) : parse? text = some j := by
  have hfold := foldlM_tokens j [] hp (by simpa using hd)
  rw [parse?, h]
  simp [ofTokens?, hfold, State.put]

theorem parse?_pretty {j : Json} (hp : Plain j) (hd : depth j ≤ depthLimit) :
    parse? j.pretty = some j :=
  parse?_of_tokens (tokens?_pretty hp) hp hd

theorem parse?_compact {j : Json} (hp : Plain j) (hd : depth j ≤ depthLimit) :
    parse? j.compact = some j :=
  parse?_of_tokens (tokens?_compact hp) hp hd

end Orchestra.Json
