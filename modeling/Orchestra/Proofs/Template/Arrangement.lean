import Orchestra.Proofs.Template.Derivation

namespace Orchestra.Template

open Text Grammar

namespace Grammar

inductive Items : List Char → List Token → Prop
  | nil : Items [] []
  | last {w : List Char} {t : Token} (h : Item w t) : Items w [t]
  | cons {w ws cs : List Char} {t : Token} {ts : List Token} (h : Item w t) (hw : Blanks ws)
      (hr : Items cs ts) (hne : ts ≠ []) : Items (w ++ (ws ++ cs)) (t :: ts)

def Token.isArgument : Token → Bool
  | .argument .. => true
  | _ => false

/-- The order of the tokens of code. -/
def Arranged : List Token → Prop
  | [.operand _] | [.function ..] => True
  | .function .. :: a :: rest => a.isFunction = false ∧ ∀ t ∈ rest, t.isArgument = true
  | _ => False

theorem Function.exists_eq {cs : List Char} {t : Token} (h : Function cs t) :
    ∃ p n, t = .function p n := by
  cases h with
  | bare => exact ⟨_, _, rfl⟩
  | qualified => exact ⟨_, _, rfl⟩

theorem Named.exists_eq {cs : List Char} {t : Token} (h : Named cs t) :
    ∃ n o, t = .argument n o := by
  cases h
  exact ⟨_, _, rfl⟩

theorem Item.function_of {cs : List Char} {p : Option String} {n : String}
    (h : Item cs (.function p n)) : Function cs (.function p n) := by
  cases h with
  | function h => exact h
  | named h => obtain ⟨_, _, h⟩ := h.exists_eq; cases h

theorem Item.first_of {cs : List Char} {t : Token} (h : Item cs t) (ht : t.isFunction = false) :
    First cs t := by
  cases h with
  | operand h => exact .operand h
  | function h =>
      obtain ⟨_, _, rfl⟩ := h.exists_eq
      cases ht
  | named h => exact .named h

theorem Item.named_of {cs : List Char} {t : Token} (h : Item cs t) (ht : t.isArgument = true) :
    Named cs t := by
  cases h with
  | operand => cases ht
  | function h =>
      obtain ⟨_, _, rfl⟩ := h.exists_eq
      cases ht
  | named h => exact h

theorem Item.of_first {cs : List Char} {t : Token} (h : First cs t) :
    Item cs t ∧ t.isFunction = false := by
  cases h with
  | operand h => exact ⟨.operand h, rfl⟩
  | named h =>
      obtain ⟨_, _, rfl⟩ := h.exists_eq
      exact ⟨.named h, rfl⟩

theorem Items.of_tail {cs rest : List Char} {a : Token} {ts : List Token} (ha : Item cs a)
    (h : NamedTail rest ts) : Items (cs ++ rest) (a :: ts) ∧ ∀ t ∈ ts, t.isArgument = true := by
  induction h generalizing cs a with
  | nil => exact ⟨by simpa using .last ha, by simp⟩
  | cons hw hn hr ih =>
      obtain ⟨_, _, rfl⟩ := hn.exists_eq
      obtain ⟨hi, hall⟩ := ih (.named hn)
      exact ⟨.cons ha hw hi (by simp), by simpa [Token.isArgument] using hall⟩

theorem NamedTail.of_items {cs : List Char} {a : Token} {ts : List Token} (h : Items cs (a :: ts))
    (ht : ∀ t ∈ ts, t.isArgument = true) :
    ∃ w rest, cs = w ++ rest ∧ Item w a ∧ NamedTail rest ts := by
  induction ts generalizing cs a with
  | nil =>
      cases h with
      | last h => exact ⟨cs, [], by simp, h, .nil⟩
      | cons _ _ _ hne => exact absurd rfl hne
  | cons t ts ih =>
      cases h with
      | @cons w ws cs _ _ h hw hr hne =>
          obtain ⟨w', rest, rfl, hi, htail⟩ := ih hr (fun t ht' => ht t (by simp [ht']))
          exact ⟨w, ws ++ (w' ++ rest), rfl, h, .cons hw (hi.named_of (ht t (by simp))) htail⟩

theorem code_iff_items {cs : List Char} {ts : List Token} :
    Code cs ts ↔ Items cs ts ∧ Arranged ts := by
  constructor
  · intro h
    cases h with
    | operand h => exact ⟨.last (.operand h), trivial⟩
    | call h =>
        obtain ⟨_, _, rfl⟩ := h.exists_eq
        exact ⟨.last (.function h), trivial⟩
    | callWith hf hw ha hr =>
        obtain ⟨_, _, rfl⟩ := hf.exists_eq
        obtain ⟨hi, hnot⟩ := Item.of_first ha
        obtain ⟨hitems, hall⟩ := Items.of_tail hi hr
        exact ⟨.cons (.function hf) hw hitems (by simp), hnot, hall⟩
  · rintro ⟨h, harr⟩
    cases h with
    | nil => exact harr.elim
    | @last _ t h =>
        cases t with
        | operand o =>
            cases h with
            | operand h => exact .operand h
            | function h => obtain ⟨_, _, h⟩ := h.exists_eq; cases h
            | named h => obtain ⟨_, _, h⟩ := h.exists_eq; cases h
        | function p n => exact .call h.function_of
        | argument => exact harr.elim
    | @cons w ws cs t ts h hw hr hne =>
        obtain ⟨a, rest, rfl⟩ := List.exists_cons_of_ne_nil hne
        cases t with
        | operand => exact harr.elim
        | argument => exact harr.elim
        | function p n =>
            obtain ⟨hnot, hall⟩ := harr
            obtain ⟨w', rest', rfl, hi, htail⟩ := NamedTail.of_items hr hall
            exact .callWith h.function_of hw (hi.first_of hnot) htail

end Grammar

theorem Block.isFunction_of_token? {b : Block} {t : Token} (h : b.token? = some t) :
    b.isPositional = !t.isFunction := by
  cases b <;> cases h <;> rfl

theorem Block.isArgument_of_token? {b : Block} {t : Token} (h : b.token? = some t) :
    b.isArgument = t.isArgument := by
  cases b <;> cases h <;> rfl

theorem find?_unnamed {bs : List Block} {ts : List Token}
    (h : bs.map Block.token? = ts.map some) :
    (bs.find? fun b => !b.isArgument) = none ↔ ∀ t ∈ ts, t.isArgument = true := by
  induction bs generalizing ts with
  | nil => cases ts <;> simp_all
  | cons b bs ih =>
      cases ts with
      | nil => simp at h
      | cons t ts =>
          simp only [List.map_cons, List.cons.injEq] at h
          rw [List.find?_eq_none, List.forall_mem_cons, ← List.find?_eq_none, ih h.2,
            List.forall_mem_cons, Block.isArgument_of_token? h.1]
          simp

theorem shapeFault?_eq_none_iff {bs : List Block} {ts : List Token}
    (h : bs.map Block.token? = ts.map some) : shapeFault? bs = none ↔ Arranged ts := by
  rcases bs with _ | ⟨b, _ | ⟨second, rest⟩⟩ <;> rcases ts with _ | ⟨t, _ | ⟨a, ts⟩⟩ <;>
    simp only [List.map_cons, List.map_nil, List.cons.injEq, reduceCtorEq, and_true, and_false] at h
  · simp [shapeFault?, Arranged]
  · cases b <;> cases h <;> simp [shapeFault?, Arranged]
  · obtain ⟨hb, hs, hr⟩ := h
    cases b with
    | function f =>
        cases hb
        rw [shapeFault?, Arranged, ← find?_unnamed hr, Block.isFunction_of_token? hs]
        cases a.isFunction <;> simp
    | _ => cases hb <;> simp [shapeFault?, Arranged]

end Orchestra.Template
