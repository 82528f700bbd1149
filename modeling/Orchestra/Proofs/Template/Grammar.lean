import Mathlib.Tactic.Tauto
import Orchestra.Template.Fault

namespace Orchestra.Template

namespace Grammar

/-- The characters of names: ASCII letters, digits and the underscore. -/
def NameChar (c : Char) : Prop :=
  ('a' ≤ c ∧ c ≤ 'z') ∨ ('A' ≤ c ∧ c ≤ 'Z') ∨ ('0' ≤ c ∧ c ≤ '9') ∨ c = '_'

def Name (s : String) : Prop :=
  s ≠ "" ∧ ∀ c ∈ s.toList, NameChar c

def Quote (c : Char) : Prop :=
  c = '\x22' ∨ c = '\x27'

def Escapable (c : Char) : Prop :=
  Quote c ∨ c = '\\'

def BlankChar (c : Char) : Prop :=
  c = ' ' ∨ c = '\t' ∨ c = '\r' ∨ c = '\n'

/-- What stands between two tokens. -/
def Blanks (cs : List Char) : Prop :=
  cs ≠ [] ∧ ∀ c ∈ cs, BlankChar c

inductive Operand
  | literal (value : String)
  | reference (name : String)
deriving DecidableEq

inductive Token
  | operand (o : Operand)
  | function (plugin : Option String) (name : String)
  | argument (name : String) (value : Operand)
deriving DecidableEq

/-- What is written between two quotes `q`, and the text it stands for. A backslash gives way to a
quote or backslash behind it and stands for itself before anything else. -/
inductive Body (q : Char) : List Char → List Char → Prop
  | nil : Body q [] []
  | escape {e : Char} {cs v : List Char} (he : Escapable e) (h : Body q cs v) :
      Body q ('\\' :: e :: cs) (e :: v)
  | backslash {c : Char} {cs v : List Char} (hc : ¬ Escapable c) (h : Body q (c :: cs) v) :
      Body q ('\\' :: c :: cs) ('\\' :: v)
  | plain {c : Char} {cs v : List Char} (hq : c ≠ q) (hc : c ≠ '\\') (h : Body q cs v) :
      Body q (c :: cs) (c :: v)

/-- `literal | $name` -/
inductive Term : List Char → Operand → Prop
  | literal {q : Char} {cs : List Char} {v : String} (hq : Quote q) (h : Body q cs v.toList) :
      Term (q :: (cs ++ [q])) (.literal v)
  | reference {n : String} (hn : Name n) : Term ('$' :: n.toList) (.reference n)

/-- `name | name.name` -/
inductive Function : List Char → Token → Prop
  | bare {n : String} (hn : Name n) : Function n.toList (.function none n)
  | qualified {p n : String} (hp : Name p) (hn : Name n) :
      Function (p.toList ++ '.' :: n.toList) (.function (some p) n)

/-- `name=literal | name=$name` -/
inductive Named : List Char → Token → Prop
  | mk {n : String} {cs : List Char} {o : Operand} (hn : Name n) (h : Term cs o) :
      Named (n.toList ++ '=' :: cs) (.argument n o)

/-- `literal | $name | named` -/
inductive First : List Char → Token → Prop
  | operand {cs : List Char} {o : Operand} (h : Term cs o) : First cs (.operand o)
  | named {cs : List Char} {t : Token} (h : Named cs t) : First cs t

/-- `(blanks named)*` -/
inductive NamedTail : List Char → List Token → Prop
  | nil : NamedTail [] []
  | cons {ws cs rest : List Char} {t : Token} {ts : List Token} (hw : Blanks ws)
      (h : Named cs t) (hr : NamedTail rest ts) : NamedTail (ws ++ (cs ++ rest)) (t :: ts)

/-- `literal | $name | function (blanks first (blanks named)*)?` -/
inductive Code : List Char → List Token → Prop
  | operand {cs : List Char} {o : Operand} (h : Term cs o) : Code cs [.operand o]
  | call {cs : List Char} {t : Token} (h : Function cs t) : Code cs [t]
  | callWith {fs ws cs rest : List Char} {f a : Token} {ts : List Token} (hf : Function fs f)
      (hw : Blanks ws) (ha : First cs a) (hr : NamedTail rest ts) :
      Code (fs ++ (ws ++ (cs ++ rest))) (f :: a :: ts)

end Grammar

def ArgumentValue.operand : ArgumentValue → Grammar.Operand
  | .literal l => .literal l.value
  | .variable v => .reference v.name

def Block.token? : Block → Option Grammar.Token
  | .literal l => some (.operand (.literal l.value))
  | .variable v => some (.operand (.reference v.name))
  | .function f => some (.function f.plugin f.name)
  | .argument a => some (.argument a.name a.value.operand)
  | .text _ | .code .. => none

def Block.Denotes (b : Block) (t : Grammar.Token) : Prop :=
  b.token? = some t ∧ b.fault? = none

namespace Grammar

theorem quote_iff (c : Char) : isQuote c = true ↔ Quote c := by
  simp [isQuote, Quote]

theorem escapable_iff (c : Char) : isEscapable c = true ↔ Escapable c := by
  simp [isEscapable, Escapable, quote_iff]

theorem blankChar_iff (c : Char) : isBlank c = true ↔ BlankChar c := by
  simp [isBlank, BlankChar, or_assoc]

theorem nameChar_iff (c : Char) : isNameChar c = true ↔ NameChar c := by
  change (((decide ('A'.val ≤ c.val ∧ c.val ≤ 'Z'.val) || ('a'.val ≤ c.val && c.val ≤ 'z'.val)) ||
    ('0'.val ≤ c.val && c.val ≤ '9'.val)) || c == '_') = true ↔ NameChar c
  simp only [Bool.or_eq_true, Bool.and_eq_true, decide_eq_true_eq, beq_iff_eq, NameChar, Char.le_def]
  tauto

theorem name_iff (s : String) : isName s = true ↔ Name s := by
  simp [isName, Name, nameChar_iff]

theorem NameChar.toNat {c : Char} (h : NameChar c) :
    (97 ≤ c.toNat ∧ c.toNat ≤ 122) ∨ (65 ≤ c.toNat ∧ c.toNat ≤ 90) ∨
      (48 ≤ c.toNat ∧ c.toNat ≤ 57) ∨ c.toNat = 95 := by
  rcases h with ⟨h, k⟩ | ⟨h, k⟩ | ⟨h, k⟩ | rfl
  · exact .inl ⟨h, k⟩
  · exact .inr (.inl ⟨h, k⟩)
  · exact .inr (.inr (.inl ⟨h, k⟩))
  · exact .inr (.inr (.inr rfl))

end Grammar

end Orchestra.Template
