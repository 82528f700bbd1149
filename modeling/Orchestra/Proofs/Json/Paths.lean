import Mathlib.Data.List.Basic
import Orchestra.Json.Record

namespace Orchestra.Json

def children : Json → List Json
  | .array items => items
  | .object members => members.map Prod.snd
  | _ => []

mutual

theorem inductionOn {motive : Json → Prop} (mk : ∀ j, (∀ c ∈ j.children, motive c) → motive j) :
    ∀ j : Json, motive j
  | .array items => mk _ (inductionOnItems mk items)
  | .object members => mk _ (inductionOnMembers mk members)
  | .null | .bool _ | .number _ | .string _ | .unreadable => mk _ (List.forall_mem_nil _)
termination_by structural j => j

theorem inductionOnItems {motive : Json → Prop}
    (mk : ∀ j, (∀ c ∈ j.children, motive c) → motive j) :
    ∀ items : List Json, ∀ item ∈ items, motive item
  | [] => List.forall_mem_nil _
  | item :: rest => List.forall_mem_cons.2 ⟨inductionOn mk item, inductionOnItems mk rest⟩
termination_by structural items => items

theorem inductionOnMembers {motive : Json → Prop}
    (mk : ∀ j, (∀ c ∈ j.children, motive c) → motive j) :
    ∀ members : List (String × Json), ∀ item ∈ members.map Prod.snd, motive item
  | [] => List.forall_mem_nil _
  | (_, item) :: rest => List.forall_mem_cons.2 ⟨inductionOn mk item, inductionOnMembers mk rest⟩
termination_by structural members => members

end

inductive Key
  | place (i : Nat)
  | name (s : String)

def child? : Json → Key → Option Json
  | .array items, .place i => items[i]?
  | .object members, .name s => members.reverse.lookup s
  | _, _ => none

def at? : Json → List Key → Option Json
  | j, [] => some j
  | j, key :: path => (j.child? key).bind fun c => at? c path

/-- What a value is, apart from what lies under it. -/
inductive Face
  | null
  | bool (b : Bool)
  | number (n : Number)
  | string (s : String)
  | array (size : Nat)
  | object
  | unreadable

def face : Json → Face
  | .null => .null
  | .bool b => .bool b
  | .number n => .number n
  | .string s => .string s
  | .array items => .array items.length
  | .object _ => .object
  | .unreadable => .unreadable

def Everywhere (P : Json → Prop) (j : Json) : Prop :=
  ∀ path c, j.at? path = some c → P c

theorem mem_of_lookup {members : List (String × Json)} {name : String} {c : Json}
    (h : members.lookup name = some c) : (name, c) ∈ members := by
  obtain ⟨before, after, rfl, -⟩ := List.lookup_eq_some_iff.1 h
  simp

theorem mem_children_of_child? {j c : Json} {key : Key} (h : j.child? key = some c) :
    c ∈ j.children := by
  cases j with
  | array items =>
      cases key with
      | place i => exact List.mem_of_getElem? h
      | name s => cases h
  | object members =>
      cases key with
      | place i => cases h
      | name s =>
          have hmem : (s, c) ∈ members.reverse := mem_of_lookup h
          exact List.mem_map.2 ⟨_, List.mem_reverse.1 hmem, rfl⟩
  | _ => cases h

variable {P : Json → Prop} {j c : Json}

theorem Everywhere.here (h : j.Everywhere P) : P j :=
  h [] j rfl

theorem Everywhere.child (h : j.Everywhere P) {key : Key} (hc : j.child? key = some c) :
    c.Everywhere P := by
  intro path d hd
  apply h (key :: path) d
  rw [at?, hc]
  exact hd

theorem everywhere_of_children (hj : P j) (h : ∀ c ∈ j.children, c.Everywhere P) :
    j.Everywhere P := by
  intro path d hd
  cases path with
  | nil =>
      cases hd
      exact hj
  | cons key path =>
      obtain ⟨c, hc, hd⟩ := Option.bind_eq_some_iff.1 hd
      exact h c (mem_children_of_child? hc) path d hd

end Orchestra.Json
