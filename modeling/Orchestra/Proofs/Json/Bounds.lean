import Orchestra.Proofs.Json.Reading

namespace Orchestra.Json

theorem fits_of_number? {n : Numeral} {m : Int} (h : n.number? = some (.whole m)) :
    (Number.whole m).Fits := by
  obtain ⟨negative, whole, fraction, exponent⟩ := n
  simp only [Numeral.number?] at h
  by_cases hshort : fraction = [] ∧ exponent = none ∧
      (if negative then 0 < Decimal.value whole ∧ Decimal.value whole ≤ Numeral.wordLimit / 2
        else Decimal.value whole < Numeral.wordLimit)
  · rw [if_pos hshort, Option.some.injEq, Number.whole.injEq] at h
    obtain ⟨-, -, hlimit⟩ := hshort
    subst h
    cases negative with
    | true =>
      simp only [if_true] at hlimit ⊢
      constructor <;> omega
    | false =>
      simp only [Bool.false_eq_true, if_false] at hlimit ⊢
      constructor <;> omega
  · rw [if_neg hshort] at h
    obtain ⟨x, -, hx⟩ := Option.map_eq_some_iff.1 h
    cases hx

def Token.Fitting : Token → Prop
  | .number (some (.whole n)) => (Number.whole n).Fits
  | _ => True

theorem fitting_of_number? (n : Numeral) : Token.Fitting (.number n.number?) := by
  cases h : n.number? with
  | none => trivial
  | some m =>
      cases m with
      | whole m => exact fits_of_number? h
      | float x => trivial

theorem fitting_of_punctuation? {c : Char} {t : Token} (h : punctuation? c = some t) : t.Fitting := by
  unfold punctuation? at h
  repeat' split at h
  all_goals cases h
  all_goals trivial

theorem fitting_of_word? {cs : List Char} {t : Token} (h : word? cs = some t) : t.Fitting := by
  unfold word? at h
  repeat' split at h
  all_goals cases h
  all_goals trivial

theorem fitting_of_token? {c : Char} {cs r : List Char} {t : Token}
    (h : token? c cs = some (t, r)) : t.Fitting := by
  unfold token? at h
  split at h
  · rename_i hp
    cases h
    exact fitting_of_punctuation? hp
  · split at h
    · obtain ⟨⟨us, rest⟩, -, h⟩ := Option.bind_eq_some_iff.1 h
      cases h
      trivial
    · split at h
      · obtain ⟨n, -, h⟩ := Option.bind_eq_some_iff.1 h
        cases h
        exact fitting_of_number? n
      · obtain ⟨u, hu, h⟩ := Option.bind_eq_some_iff.1 h
        cases h
        exact fitting_of_word? hu

theorem fitting_of_tokens? {cs : List Char} {ts : List Token} (h : tokens? cs = some ts) :
    ∀ t ∈ ts, t.Fitting := by
  fun_induction tokens? cs generalizing ts with
  | case1 =>
      cases h
      exact List.forall_mem_nil _
  | case2 c rest hs ih => exact ih h
  | case3 => cases h
  | case4 c rest hs t rest' ht ih =>
      obtain ⟨us, hus, rfl⟩ := Option.map_eq_some_iff.1 h
      exact List.forall_mem_cons.2 ⟨fitting_of_token? ht, ih hus⟩

def Fitting : Json → Prop
  | .number (.whole n) => (Number.whole n).Fits
  | _ => True

/-- Whole numbers fit, and no more than so many arrays and objects lie inside one another. -/
structure Bounded (levels : Nat) (j : Json) : Prop where
  fitting : j.Everywhere Fitting
  depth_le : j.depth ≤ levels

theorem bounded_leaf {j : Json} (hj : j.Fitting) (h : j.children = []) (hd : j.depth = 0)
    (levels : Nat) : j.Bounded levels where
  fitting := everywhere_of_children hj (by simp [h])
  depth_le := by omega

theorem bounded_succ {j : Json} {levels : Nat} (hj : j.Fitting)
    (h : ∀ c ∈ j.children, c.Bounded levels) : j.Bounded (levels + 1) where
  fitting := everywhere_of_children hj fun c hc => (h c hc).fitting
  depth_le := depth_le_succ_iff.2 fun c hc => (h c hc).depth_le

def Frame.values : Frame → List Json
  | .items done => done
  | .members done | .member done _ => done.map Prod.snd

def FramesBounded : List Frame → Prop
  | [] => True
  | frame :: outer =>
      (∀ j ∈ frame.values, j.Bounded (depthLimit - (outer.length + 1))) ∧ FramesBounded outer

structure State.Bounded (s : State) : Prop where
  frames : FramesBounded s.frames
  result : ∀ j, s.turn = .finished j → j.Bounded depthLimit

theorem bounded_put {frames : List Frame} {j : Json} {s : State} (hf : FramesBounded frames)
    (hj : j.Bounded (depthLimit - frames.length)) (h : State.put frames j = some s) : s.Bounded := by
  cases frames with
  | nil =>
      cases h
      exact ⟨hf, fun k hk => by cases hk; exact hj⟩
  | cons frame outer =>
      obtain ⟨hdone, houter⟩ := hf
      cases frame with
      | members done => cases h
      | items done =>
          cases h
          exact ⟨⟨List.forall_mem_cons.2 ⟨hj, hdone⟩, houter⟩, nofun⟩
      | member done name =>
          cases h
          exact ⟨⟨List.forall_mem_cons.2 ⟨hj, hdone⟩, houter⟩, nofun⟩

theorem bounded_unreadable (levels : Nat) : Json.unreadable.Bounded levels :=
  bounded_leaf (j := .unreadable) trivial rfl rfl levels

theorem bounded_closeArray {done : List Json} {outer : List Frame}
    (h : ∀ j ∈ done, j.Bounded (depthLimit - (outer.length + 1))) :
    (closeArray outer done).Bounded (depthLimit - outer.length) := by
  unfold closeArray
  split
  · exact bounded_unreadable _
  · have hlevels : depthLimit - outer.length = depthLimit - (outer.length + 1) + 1 := by omega
    rw [hlevels]
    exact bounded_succ trivial fun c hc => h c (List.mem_reverse.1 hc)

theorem values_of_memberNames? {done : List (Option String × Json)} {members : List (String × Json)}
    (h : memberNames? done = some members) : members.map Prod.snd = done.map Prod.snd := by
  induction done generalizing members with
  | nil =>
      cases h
      rfl
  | cons m done ih =>
      obtain ⟨name, j⟩ := m
      cases name with
      | none => cases h
      | some name =>
          obtain ⟨rest, hrest, rfl⟩ := Option.map_eq_some_iff.1 h
          exact congrArg (j :: ·) (ih hrest)

theorem bounded_closeObject {done : List (Option String × Json)} {outer : List Frame}
    (h : ∀ j ∈ done.map Prod.snd, j.Bounded (depthLimit - (outer.length + 1))) :
    (closeObject outer done).Bounded (depthLimit - outer.length) := by
  unfold closeObject
  split
  · exact bounded_unreadable _
  · split
    · rename_i members hmembers
      have hlevels : depthLimit - outer.length = depthLimit - (outer.length + 1) + 1 := by omega
      rw [hlevels]
      refine bounded_succ trivial fun c hc => h c ?_
      rw [children, values_of_memberNames? hmembers, List.map_reverse] at hc
      exact List.mem_reverse.1 hc
    · exact bounded_unreadable _

theorem bounded_value? {frames : List Frame} {t : Token} {s : State} (hf : FramesBounded frames)
    (ht : t.Fitting) (h : State.value? frames t = some s) : s.Bounded := by
  unfold State.value? at h
  split at h
  · cases h
    exact ⟨⟨List.forall_mem_nil _, hf⟩, nofun⟩
  · cases h
    exact ⟨⟨List.forall_mem_nil _, hf⟩, nofun⟩
  · exact bounded_put hf (bounded_leaf (j := .null) trivial rfl rfl _) h
  · rename_i b
    exact bounded_put hf (bounded_leaf (j := .bool b) trivial rfl rfl _) h
  · rename_i n
    have hn : Fitting (.number n) := by
      cases n with
      | whole n => exact ht
      | float x => trivial
    exact bounded_put hf (bounded_leaf hn rfl rfl _) h
  · rename_i text
    exact bounded_put hf (bounded_leaf (j := .string text) trivial rfl rfl _) h
  · exact bounded_put hf (bounded_unreadable _) h
  · exact bounded_put hf (bounded_unreadable _) h
  · cases h

theorem bounded_name? {done : List (Option String × Json)} {outer : List Frame} {t : Token}
    {s : State} (hf : FramesBounded (.members done :: outer))
    (h : State.name? done outer t = some s) : s.Bounded := by
  cases t with
  | string name =>
      cases h
      exact ⟨hf, nofun⟩
  | _ => cases h

theorem State.Bounded.step {s s' : State} {t : Token} (hs : s.Bounded) (ht : t.Fitting)
    (h : s.step t = some s') : s'.Bounded := by
  obtain ⟨frames, turn⟩ := s
  have hf : FramesBounded frames := hs.frames
  cases turn with
  | value => exact bounded_value? hf ht h
  | valueOrClose =>
      rcases frames with - | ⟨done | done | ⟨done, name⟩, outer⟩
      · cases h
      · by_cases hclose : t = .closeArray
        · subst hclose
          exact bounded_put hf.2 (bounded_closeArray hf.1) h
        · rw [step_first done outer hclose] at h
          exact bounded_value? hf ht h
      · cases h
      · cases h
  | name =>
      rcases frames with - | ⟨done | done | ⟨done, name⟩, outer⟩
      · cases h
      · cases h
      · exact bounded_name? hf h
      · cases h
  | nameOrClose =>
      rcases frames with - | ⟨done | done | ⟨done, name⟩, outer⟩
      · cases h
      · cases h
      · cases t with
        | closeObject => exact bounded_put hf.2 (bounded_closeObject hf.1) h
        | string name => exact bounded_name? (t := .string name) hf h
        | _ => cases h
      · cases h
  | colon =>
      cases t with
      | colon =>
          cases h
          exact ⟨hf, nofun⟩
      | _ => cases h
  | commaOrClose =>
      rcases frames with - | ⟨done | done | ⟨done, name⟩, outer⟩
      · cases h
      · cases t with
        | comma =>
            cases h
            exact ⟨hf, nofun⟩
        | closeArray => exact bounded_put hf.2 (bounded_closeArray hf.1) h
        | _ => cases h
      · cases t with
        | comma =>
            cases h
            exact ⟨hf, nofun⟩
        | closeObject => exact bounded_put hf.2 (bounded_closeObject hf.1) h
        | _ => cases h
      · cases h
  | finished result => cases h

theorem State.Bounded.run {s s' : State} {ts : List Token} (hs : s.Bounded)
    (hts : ∀ t ∈ ts, t.Fitting) (h : ts.foldlM State.step s = some s') : s'.Bounded := by
  induction ts generalizing s with
  | nil =>
      cases h
      exact hs
  | cons t ts ih =>
      obtain ⟨ht, hts⟩ := List.forall_mem_cons.1 hts
      rw [List.foldlM_cons] at h
      obtain ⟨u, hu, h⟩ := Option.bind_eq_some_iff.1 h
      exact ih (hs.step ht hu) hts h

/-- What is read has only whole numbers that fit, and is no deeper than a text may be. -/
theorem bounded_of_parse? {text : String} {j : Json} (h : parse? text = some j) :
    j.Bounded depthLimit := by
  obtain ⟨ts, hts, h⟩ := Option.bind_eq_some_iff.1 h
  have hstart : State.Bounded ⟨[], .value⟩ := ⟨True.intro, nofun⟩
  unfold ofTokens? at h
  split at h
  · rename_i frames result hrun
    cases h
    exact (hstart.run (fitting_of_tokens? hts) hrun).result _ rfl
  · cases h

end Orchestra.Json
