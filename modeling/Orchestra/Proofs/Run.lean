import Orchestra.Context

namespace Orchestra.Run

variable {σ τ π ε ε' α β : Type}

def beside (x : Run σ ε α) : Run (π × σ) ε α :=
  ExceptT.mk fun h => ((exec x h.2).1, (h.1, (exec x h.2).2))

theorem exec_bind (x : Run σ ε α) (f : α → Run σ ε β) (w : σ) :
    exec (x >>= f) w =
      match exec x w with
      | (.ok a, w') => exec (f a) w'
      | (.error e, w') => (.error e, w') := by
  change StateT.run (ExceptT.run (x >>= f)) w = _
  simp only [ExceptT.run_bind, StateT.run_bind, exec]
  cases StateT.run (ExceptT.run x) w with
  | mk r w' =>
      cases r <;> rfl

theorem exec_bind_eq_ok_iff {x : Run σ ε α} {f : α → Run σ ε β} {w w' : σ} {b : β} :
    exec (x >>= f) w = (.ok b, w') ↔
      ∃ a w₁, exec x w = (.ok a, w₁) ∧ exec (f a) w₁ = (.ok b, w') := by
  rw [exec_bind]
  rcases exec x w with ⟨e | a, w₁⟩
  · constructor
    · rintro ⟨⟩
    · rintro ⟨_, _, h, -⟩
      cases h
  · constructor
    · exact fun h => ⟨a, w₁, rfl, h⟩
    · rintro ⟨_, _, ⟨⟩, h⟩
      exact h

theorem exec_bind_eq_error_iff {x : Run σ ε α} {f : α → Run σ ε β} {w w' : σ} {e : ε} :
    exec (x >>= f) w = (.error e, w') ↔
      exec x w = (.error e, w') ∨
        ∃ a w₁, exec x w = (.ok a, w₁) ∧ exec (f a) w₁ = (.error e, w') := by
  rw [exec_bind]
  rcases exec x w with ⟨e | a, w₁⟩
  · constructor
    · rintro ⟨⟩
      exact .inl rfl
    · rintro (⟨⟨⟩⟩ | ⟨_, _, h, -⟩)
      · rfl
      · cases h
  · constructor
    · exact fun h => .inr ⟨a, w₁, rfl, h⟩
    · rintro (h | ⟨_, _, ⟨⟩, h⟩)
      · cases h
      · exact h

theorem exec_map (f : α → β) (x : Run σ ε α) (w : σ) :
    exec (f <$> x) w = ((exec x w).1.map f, (exec x w).2) := by
  rw [← bind_pure_comp, exec_bind]
  rcases exec x w with ⟨_ | a, w'⟩ <;> rfl

theorem exec_mapError (g : ε → ε') (x : Run σ ε α) (w : σ) :
    exec (mapError g x) w = ((exec x w).1.mapError g, (exec x w).2) := by
  change StateT.run (Except.mapError g <$> ExceptT.run x) w = _
  rw [StateT.run_map]
  rfl

theorem exec_mapError_eq_ok_iff {g : ε → ε'} {x : Run σ ε α} {w w' : σ} {a : α} :
    exec (mapError g x) w = (.ok a, w') ↔ exec x w = (.ok a, w') := by
  rw [exec_mapError]
  rcases exec x w with ⟨e | b, w₁⟩
  · constructor
    · rintro ⟨⟩
    · rintro ⟨⟩
  · constructor
    · rintro ⟨⟩
      rfl
    · rintro ⟨⟩
      rfl

theorem exec_mapError_eq_error_iff {g : ε → ε'} {x : Run σ ε α} {w w' : σ} {e' : ε'} :
    exec (mapError g x) w = (.error e', w') ↔ ∃ e, exec x w = (.error e, w') ∧ g e = e' := by
  rw [exec_mapError]
  rcases exec x w with ⟨e | a, w₁⟩
  · constructor
    · rintro ⟨⟩
      exact ⟨e, rfl, rfl⟩
    · rintro ⟨_, ⟨⟩, rfl⟩
      rfl
  · constructor
    · rintro ⟨⟩
    · rintro ⟨_, h, -⟩
      cases h

theorem map_mapError (f : α → β) (g : ε → ε') (x : Run σ ε α) :
    f <$> mapError g x = mapError g (f <$> x) := by
  funext w
  change exec (f <$> mapError g x) w = exec (mapError g (f <$> x)) w
  rw [exec_map, exec_mapError, exec_mapError, exec_map]
  rcases exec x w with ⟨_ | a, w'⟩ <;> rfl

theorem exec_beside (x : Run σ ε α) (h : π × σ) :
    exec (beside x) h = ((exec x h.2).1, (h.1, (exec x h.2).2)) := rfl

theorem beside_bind (x : Run σ ε α) (f : α → Run σ ε β) :
    (beside (x >>= f) : Run (π × σ) ε β) = beside x >>= fun a => beside (f a) := by
  funext h
  change exec (beside (x >>= f)) h = exec (beside x >>= fun a => beside (f a)) h
  rw [exec_beside, exec_bind, exec_bind, exec_beside]
  rcases exec x h.2 with ⟨_ | a, w'⟩ <;> rfl

theorem beside_mapError (g : ε → ε') (x : Run σ ε α) :
    (beside (mapError g x) : Run (π × σ) ε' α) = mapError g (beside x) := by
  funext h
  change exec (beside (mapError g x)) h = exec (mapError g (beside x)) h
  rw [exec_beside, exec_mapError, exec_mapError, exec_beside]

theorem exec_ofExcept (x : Except ε α) (w : σ) : exec (.ofExcept x) w = (x, w) := rfl

/-- Whatever `x` gives in some world, `y` gives in every world. -/
def Reproduces (x : Run σ ε α) (y : Run τ ε α) : Prop :=
  ∀ w a w', exec x w = (.ok a, w') → ∀ v, ∃ v', exec y v = (.ok a, v')

theorem Reproduces.pure (a : α) : Reproduces (pure a : Run σ ε α) (pure a : Run τ ε α) := by
  rintro w b w' ⟨⟩ v
  exact ⟨v, rfl⟩

theorem Reproduces.bind {x : Run σ ε α} {y : Run τ ε α} {f : α → Run σ ε β} {g : α → Run τ ε β}
    (h : Reproduces x y) (k : ∀ a, Reproduces (f a) (g a)) : Reproduces (x >>= f) (y >>= g) := by
  intro w b w' hb v
  obtain ⟨a, w₁, hx, hf⟩ := exec_bind_eq_ok_iff.1 hb
  obtain ⟨v₁, hy⟩ := h w a w₁ hx v
  obtain ⟨v', hg⟩ := k a w₁ b w' hf v₁
  exact ⟨v', exec_bind_eq_ok_iff.2 ⟨a, v₁, hy, hg⟩⟩

theorem Reproduces.mapError {x : Run σ ε α} {y : Run τ ε α} (h : Reproduces x y) (g : ε → ε') :
    Reproduces (mapError g x) (mapError g y) := by
  intro w a w' ha v
  obtain ⟨v', hy⟩ := h w a w' (exec_mapError_eq_ok_iff.1 ha) v
  exact ⟨v', exec_mapError_eq_ok_iff.2 hy⟩

end Orchestra.Run
