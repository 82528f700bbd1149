import Orchestra.Coroutine
import Orchestra.Proofs.Run

namespace Orchestra

variable {σ ε ε' α β : Type}

namespace Coroutine

theorem exec_complete_poll (t : Coroutine σ ε α) (w : σ) :
    Run.exec (t.poll w).1.complete (t.poll w).2 = Run.exec t.complete w := by
  induction t generalizing w with
  | run x => rfl
  | act effect rest ih => exact ih w (effect w)
  | suspended rest ih => rfl

theorem Instant.poll {t : Coroutine σ ε α} (h : t.Instant) (w : σ) :
    ∃ result, (t.poll w).1 = .ready result := by
  induction t generalizing w with
  | run x => exact ⟨_, rfl⟩
  | act effect rest ih => exact ih w (h w) (effect w)
  | suspended rest ih => cases h

theorem exec_complete_map (f : Except ε α → Except ε' β) (t : Coroutine σ ε α) (w : σ) :
    Run.exec (t.map f).complete w = (f (Run.exec t.complete w).1, (Run.exec t.complete w).2) := by
  induction t generalizing w with
  | run x => rfl
  | act effect rest ih => exact ih w (effect w)
  | suspended rest ih => exact ih w

theorem instant_map_iff (f : Except ε α → Except ε' β) (t : Coroutine σ ε α) :
    (t.map f).Instant ↔ t.Instant := by
  induction t with
  | run x => rfl
  | act effect rest ih => exact forall_congr' ih
  | suspended rest ih => rfl

end Coroutine

end Orchestra
