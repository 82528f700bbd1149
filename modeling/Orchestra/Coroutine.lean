import Orchestra.Context

namespace Orchestra

/-- A computation over a world that may be suspended on its way. When it goes on, it finds the world
as others have left it. -/
inductive Coroutine (σ ε α : Type)
  | run (x : Run σ ε α)
  | act (effect : σ → σ) (rest : σ → Coroutine σ ε α)
  | suspended (rest : Coroutine σ ε α)

inductive Poll (σ ε α : Type)
  | ready (result : Except ε α)
  | pending (rest : Coroutine σ ε α)

namespace Coroutine

variable {σ ε ε' α β : Type}

def poll : Coroutine σ ε α → σ → Poll σ ε α × σ
  | run x, w =>
      let out := x.exec w
      (.ready out.1, out.2)
  | act effect rest, w => (rest w).poll (effect w)
  | suspended rest, w => (.pending rest, w)

/-- What a computation comes to when nothing happens while it is suspended. -/
def complete : Coroutine σ ε α → Run σ ε α
  | run x => x
  | act effect rest => ExceptT.mk fun w => (rest w).complete.exec (effect w)
  | suspended rest => rest.complete

def map (f : Except ε α → Except ε' β) : Coroutine σ ε α → Coroutine σ ε' β
  | run x => run (ExceptT.mk (f <$> ExceptT.run x))
  | act effect rest => act effect fun w => (rest w).map f
  | suspended rest => suspended (rest.map f)

def Instant : Coroutine σ ε α → Prop
  | run _ => True
  | act _ rest => ∀ w, (rest w).Instant
  | suspended _ => False

end Coroutine

def Poll.complete {σ ε α : Type} : Poll σ ε α → Run σ ε α
  | ready result => .ofExcept result
  | pending rest => rest.complete

end Orchestra
