import Orchestra.Coroutine
import Orchestra.Json.Reader
import Orchestra.Json.Record
import Orchestra.Template.Render

namespace Orchestra.Template

/-- How many blocks may be on their way at the same time. -/
structure Limits where
  concurrentRenders : Nat := 8
deriving DecidableEq

namespace Limits

def room (l : Limits) : Nat :=
  max l.concurrentRenders 1

def ofJson? (j : Json) : Option Limits := do
  let r ← j.record? ["max_concurrent_renders"]
  return { concurrentRenders := ← r.optional? "max_concurrent_renders" 8 (Json.natBelow? UInt64.size) }

def parse? (text : String) : Option Limits := do
  ofJson? (← Json.parse? text)

end Limits

variable {σ F : Type} [Described F]

/-- Functions that may be suspended. -/
abbrev Launch (σ F : Type) [Described F] :=
  F → Context F → Settings → Coroutine σ CallError (Context F)

def Start.task (launch : Launch σ F) : Start F → Coroutine σ TemplateError String
  | .settled result => .run (.ofExcept result)
  | .call id f c =>
      (launch f c {}).map fun r => (r.mapError (.functionFailed id.raw)).map Context.result

def tasks (launch : Launch σ F) (c : Context F) (bs : List Block) :
    List (Coroutine σ TemplateError String) :=
  bs.map fun b => (start c b).task launch

/-- Blocks on their way. Texts are given back in the order of the blocks, whichever is there first.
The queue holds the places of the blocks that can go on, in the order of their turns. -/
structure Rendering (σ : Type) where
  slots : List (Poll σ TemplateError String)
  texts : List String
  queue : List Nat

namespace Rendering

def ofTasks (room : Nat) (ts : List (Coroutine σ TemplateError String)) : Rendering σ where
  slots := ts.map .pending
  texts := []
  queue := List.range (min room ts.length)

def front (r : Rendering σ) : Nat :=
  r.texts.length

def outcome? (r : Rendering σ) : Option (Except TemplateError String) :=
  match r.slots[r.front]? with
  | none => some (.ok (String.join r.texts))
  | some (.ready (.error e)) => some (.error e)
  | some _ => none

/-- A block whose text is given back makes room for another one. -/
def give (room : Nat) (r : Rendering σ) (text : String) : Rendering σ where
  slots := r.slots
  texts := r.texts ++ [text]
  queue := r.queue ++ if r.front + room < r.slots.length then [r.front + room] else []

def pollNext (r : Rendering σ) (w : σ) : Rendering σ × σ :=
  match r.queue with
  | [] => (r, w)
  | p :: queue =>
      match r.slots[p]? with
      | some (.pending t) =>
          let out := t.poll w
          ({ r with slots := r.slots.set p out.1, queue }, out.2)
      | _ => ({ r with queue }, w)

/-- As long as the front block is not there, the blocks of the queue get their turns. -/
def advance (room : Nat) (r : Rendering σ) (w : σ) : Rendering σ × σ :=
  match r.slots[r.front]? with
  | some (.ready (.ok text)) => (r.give room text, w)
  | some (.pending _) => r.pollNext w
  | _ => (r, w)

/-- A suspended block is woken from outside. It waits for its turn. -/
def wake (room : Nat) (r : Rendering σ) (p : Nat) : Rendering σ :=
  match r.slots[p]? with
  | some (.pending _) =>
      if r.front ≤ p ∧ p < r.front + room ∧ p ∉ r.queue then { r with queue := r.queue ++ [p] }
      else r
  | _ => r

def drive (room : Nat) : Nat → Rendering σ → σ → Rendering σ × σ
  | 0, r, w => (r, w)
  | n + 1, r, w =>
      let out := r.advance room w
      drive room n out.1 out.2

end Rendering

/-- Functions that are not suspended need no waking. Each block takes two steps: it gets its turn, and
its text is given back. -/
def renderBlocksWithin (limits : Limits) (invoke : Invoke σ F) (c : Context F) (bs : List Block) :
    Run σ TemplateError String :=
  ExceptT.mk fun w =>
    let ts := tasks (fun f c s => .run (invoke f c s)) c bs
    let out := Rendering.drive limits.room (2 * bs.length) (.ofTasks limits.room ts) w
    (out.1.outcome?.getD (.ok (String.join out.1.texts)), out.2)

def renderWithin (limits : Limits) (invoke : Invoke σ F) (c : Context F) (template : String) :
    Run σ TemplateError String := do
  renderBlocksWithin limits invoke c (← .ofExcept (extract template true))

end Orchestra.Template
