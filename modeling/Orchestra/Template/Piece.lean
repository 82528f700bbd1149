import Orchestra.Template.Code
import Orchestra.Template.Outline

namespace Orchestra.Template

open Text

/-- Text as it stands, or what was written between braces. Only the last piece of a template can
lack its closing braces. -/
inductive Piece
  | text (cs : List Char)
  | code (inner : List Char) (closed : Bool)
deriving DecidableEq

namespace Piece

def ofMarks (before : List Char) : List (Mark × List Char) → List Piece
  | [] => [.text before]
  | [(.opening, inner)] => [.text before, .code inner false]
  | (.opening, inner) :: (.closing, run) :: rest =>
      .text before :: .code inner true :: ofMarks run rest
  | (.opening, inner) :: (.opening, run) :: rest =>
      ofMarks (before ++ '{' :: '{' :: inner) ((.opening, run) :: rest)
  | (.closing, run) :: rest => ofMarks (before ++ '}' :: '}' :: run) rest

def chars : Piece → List Char
  | .text cs => cs
  | .code inner true => '{' :: '{' :: inner ++ ['}', '}']
  | .code inner false => '{' :: '{' :: inner

def ofTemplate (template : String) : List Piece :=
  let o := Outline.scan .text template.toList
  ofMarks o.before o.after

theorem chars_ofMarks (before : List Char) (ms : List (Mark × List Char)) :
    (ofMarks before ms).flatMap chars = (Outline.mk before ms).chars := by
  fun_induction ofMarks before ms <;>
    simp_all [chars, Outline.chars, Mark.chars]

theorem chars_ofTemplate (template : String) :
    (ofTemplate template).flatMap chars = template.toList := by
  rw [ofTemplate, chars_ofMarks]
  exact Outline.chars_scan ..

end Piece

def pushText (cs : List Char) (blocks : List Block) : List Block :=
  if cs = [] then blocks
  else match blocks with
    | .text s :: rest => .text (String.ofList cs ++ s) :: rest
    | blocks => .text (String.ofList cs) :: blocks

/-- Closed braces with nothing but white space between them are text. -/
def blocksOf? : List Piece → Except Malformed (List Block)
  | [] => .ok []
  | .text cs :: rest => (blocksOf? rest).map (pushText cs)
  | .code inner closed :: rest =>
      if closed ∧ trimList inner = [] then
        (blocksOf? rest).map (pushText (Piece.chars (.code inner closed)))
      else do
        let b ← Block.codeOfText? (String.ofList inner) closed
        return b :: (← blocksOf? rest)

def blocks? (template : String) : Except Malformed (List Block) :=
  blocksOf? (Piece.ofTemplate template)

end Orchestra.Template
