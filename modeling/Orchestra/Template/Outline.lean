import Orchestra.Template.Symbols

namespace Orchestra.Template

inductive Mark
  | opening
  | closing
deriving DecidableEq

def Mark.chars : Mark → List Char
  | .opening => ['{', '{']
  | .closing => ['}', '}']

inductive Place
  | text
  | code
  | quoted (q : Char)
deriving DecidableEq

/-- The characters before the first mark, then each mark with the characters behind it. -/
structure Outline where
  before : List Char
  after : List (Mark × List Char)
deriving DecidableEq

namespace Outline

def push (c : Char) (o : Outline) : Outline :=
  ⟨c :: o.before, o.after⟩

def mark (m : Mark) (o : Outline) : Outline :=
  ⟨[], (m, o.before) :: o.after⟩

/-- Braces count as marks outside quotes, the closing ones only inside code. There are quotes
inside code alone, and a backslash protects the quote or backslash behind it. -/
def scan (p : Place) : List Char → Outline
  | [] => ⟨[], []⟩
  | c :: rest =>
      match p, rest with
      | .quoted q, e :: after =>
          if c = '\\' ∧ isEscapable e then push c (push e (scan (.quoted q) after))
          else push c (scan (if c = q then .code else .quoted q) (e :: after))
      | .quoted q, [] => push c (scan (if c = q then .code else .quoted q) [])
      | .text, d :: after =>
          if c = '{' ∧ d = '{' then mark .opening (scan .code after)
          else push c (scan .text (d :: after))
      | .text, [] => push c (scan .text [])
      | .code, d :: after =>
          if c = '{' ∧ d = '{' then mark .opening (scan .code after)
          else if c = '}' ∧ d = '}' then mark .closing (scan .text after)
          else push c (scan (if isQuote c then .quoted c else .code) (d :: after))
      | .code, [] => push c (scan (if isQuote c then .quoted c else .code) [])

def chars (o : Outline) : List Char :=
  o.before ++ o.after.flatMap fun m => Mark.chars m.1 ++ m.2

@[simp] theorem chars_push (c : Char) (o : Outline) : (push c o).chars = c :: o.chars := rfl

@[simp] theorem chars_mark (m : Mark) (o : Outline) :
    (mark m o).chars = Mark.chars m ++ o.chars := by
  simp [mark, chars]

@[simp] theorem chars_scan (p : Place) (cs : List Char) : (scan p cs).chars = cs := by
  fun_induction scan p cs with
  | case1 => rfl
  | case2 | case3 | case4 | case5 | case6 | case7 | case8 | case9 | case10 | case11 =>
      simp_all [Mark.chars]

end Outline

end Orchestra.Template
