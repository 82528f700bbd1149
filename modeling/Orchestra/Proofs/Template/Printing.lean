import Orchestra.Proofs.Template.Acceptance

namespace Orchestra.Template.Grammar

open Text

instance (c : Char) : Decidable (Escapable c) := by
  unfold Escapable Quote
  infer_instance

def escaped (v : List Char) : List Char :=
  v.flatMap fun c => if Escapable c then ['\\', c] else [c]

/-- The free choices in writing code: a quote character for each token, the blanks behind each
token but the last, and blanks or nothing inside the braces. -/
structure Style where
  quote : Nat → Char
  blanks : Nat → List Char
  lead : List Char
  trail : List Char
  isQuote_quote : ∀ i, Quote (quote i)
  blanks_blanks : ∀ i, Blanks (blanks i)
  blank_lead : ∀ c ∈ lead, BlankChar c
  blank_trail : ∀ c ∈ trail, BlankChar c

def Operand.write (q : Char) : Operand → List Char
  | .literal v => q :: (escaped v.toList ++ [q])
  | .reference n => '$' :: n.toList

def Token.write (q : Char) : Token → List Char
  | .operand o => o.write q
  | .function none n => n.toList
  | .function (some p) n => p.toList ++ '.' :: n.toList
  | .argument n o => n.toList ++ '=' :: o.write q

def Style.write (style : Style) (i : Nat) : List Token → List Char
  | [] => []
  | [t] => t.write (style.quote i)
  | t :: rest => t.write (style.quote i) ++ (style.blanks i ++ style.write (i + 1) rest)

/-- `literal | $name | function [positional] named*` -/
inductive Expression
  | operand (o : Operand)
  | call (plugin : Option String) (name : String) (positional : Option Operand)
      (named : List (String × Operand))

def Expression.tokens : Expression → List Token
  | .operand o => [.operand o]
  | .call p n positional named =>
      .function p n :: (positional.toList.map .operand ++ named.map fun a => .argument a.1 a.2)

/-- Literals hold any text, and all else is made of names. -/
def Operand.Proper : Operand → Prop
  | .literal _ => True
  | .reference n => Name n

def Expression.Proper : Expression → Prop
  | .operand o => o.Proper
  | .call p n positional named =>
      (∀ s ∈ p, Name s) ∧ Name n ∧ (∀ o ∈ positional, o.Proper) ∧
        ∀ a ∈ named, Name a.1 ∧ a.2.Proper

inductive Segment
  | text (s : String)
  | code (e : Expression) (style : Style)

def Segment.write : Segment → List Char
  | .text s => s.toList
  | .code e style =>
      '{' :: '{' :: (style.lead ++ (style.write 0 e.tokens ++ style.trail)) ++ ['}', '}']

/-- Text is not empty, opens no code, stands beside no other text, and does not end in a brace
where code follows. -/
def Separate : List Segment → Prop
  | [] => True
  | .text _ :: .text _ :: _ => False
  | .text s :: .code e style :: rest =>
      s ≠ "" ∧ ¬ ['{', '{'] <:+: s.toList ∧ s.toList.getLast? ≠ some '{' ∧
        Separate (.code e style :: rest)
  | [.text s] => s ≠ "" ∧ ¬ ['{', '{'] <:+: s.toList
  | .code e _ :: rest => e.Proper ∧ Separate rest

/-- The block a part is read as: the same text, or code without faults that has the tokens of the
expression. -/
def Segment.ReadAs : Segment → Block → Prop
  | .text s, b => b = .text s
  | .code e style, b =>
      ∃ bs, b = .code (String.ofList (style.write 0 e.tokens)) bs true ∧ b.fault? = none ∧
        bs.map Block.token? = e.tokens.map some

theorem Quote.escapable {q : Char} (h : Quote q) : Escapable q := .inl h

theorem body_escaped {q : Char} (hq : Quote q) (v : List Char) : Body q (escaped v) v := by
  induction v with
  | nil => exact .nil
  | cons c v ih =>
      by_cases hc : Escapable c
      · simpa [escaped, hc] using .escape hc ih
      · have h1 : c ≠ q := fun h => hc (h ▸ hq.escapable)
        have h2 : c ≠ '\\' := fun h => hc (.inr h)
        simpa [escaped, hc] using .plain h1 h2 ih

theorem Operand.term_write {q : Char} (hq : Quote q) {o : Operand} (h : o.Proper) :
    Term (o.write q) o := by
  cases o with
  | literal v => exact .literal hq (body_escaped hq v.toList)
  | reference n => exact .reference h

def Token.Proper : Token → Prop
  | .operand o => o.Proper
  | .function p n => (∀ s ∈ p, Name s) ∧ Name n
  | .argument n o => Name n ∧ o.Proper

theorem Token.item_write {q : Char} (hq : Quote q) {t : Token} (h : t.Proper) :
    Item (t.write q) t := by
  cases t with
  | operand o => exact .operand (o.term_write hq h)
  | function p n =>
      cases p with
      | none => exact .function (.bare h.2)
      | some p => exact .function (.qualified (h.1 p rfl) h.2)
  | argument n o => exact .named (.mk h.1 (o.term_write hq h.2))

theorem Style.items_write (style : Style) {ts : List Token} (h : ∀ t ∈ ts, t.Proper) (i : Nat) :
    Items (style.write i ts) ts := by
  induction ts generalizing i with
  | nil => exact .nil
  | cons t ts ih =>
      obtain ⟨ht, hts⟩ := List.forall_mem_cons.1 h
      have hitem := t.item_write (style.isQuote_quote i) ht
      cases ts with
      | nil => exact .last hitem
      | cons => exact .cons hitem (style.blanks_blanks i) (ih hts (i + 1)) (by simp)

theorem Expression.proper_tokens {e : Expression} (h : e.Proper) : ∀ t ∈ e.tokens, t.Proper := by
  cases e with
  | operand o =>
      intro t ht
      obtain rfl := List.mem_singleton.1 ht
      exact h
  | call p n positional named =>
      obtain ⟨hp, hn, hpos, hnamed⟩ := h
      intro t ht
      simp only [tokens, List.mem_cons, List.mem_append, List.mem_map] at ht
      rcases ht with rfl | ⟨o, ho, rfl⟩ | ⟨a, ha, rfl⟩
      · exact ⟨hp, hn⟩
      · exact hpos o (by simpa using ho)
      · exact hnamed a ha

theorem Expression.arranged_tokens (e : Expression) : Arranged e.tokens := by
  cases e with
  | operand => trivial
  | call p n positional named =>
      have hall (as : List (String × Operand)) :
          ∀ t ∈ as.map fun a => Token.argument a.1 a.2, t.isArgument = true := by
        intro t ht
        obtain ⟨a, -, rfl⟩ := List.mem_map.1 ht
        rfl
      cases positional with
      | none =>
          cases named with
          | nil => trivial
          | cons a named => exact ⟨rfl, hall named⟩
      | some o => exact ⟨rfl, hall named⟩

theorem Expression.code_write {e : Expression} (h : e.Proper) (style : Style) :
    Code (style.write 0 e.tokens) e.tokens :=
  code_iff_items.2 ⟨style.items_write (proper_tokens h) 0, e.arranged_tokens⟩

end Orchestra.Template.Grammar
