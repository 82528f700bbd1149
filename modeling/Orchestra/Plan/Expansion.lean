import Orchestra.Text.Word
import Orchestra.Variables

namespace Orchestra.Plan

open Text

def references : List Char → List (List Char)
  | [] => []
  | c :: rest =>
      if c = '$' ∧ rest.takeWhile isWord ≠ [] then rest.takeWhile isWord :: references rest
      else references rest

def longestPrefix? (names : List (List Char)) (cs : List Char) : Option (List Char) :=
  names.foldl
    (fun best name =>
      if name.isPrefixOf cs && best.all (·.length < name.length) then some name else best)
    none

/-- Replaces a dollar sign together with the longest of the names behind it. The count says how
many characters still belong to a name that was replaced. -/
def substitute (names : List (List Char)) (value : List Char → List Char) :
    Nat → List Char → List Char
  | _, [] => []
  | skip + 1, _ :: rest => substitute names value skip rest
  | 0, c :: rest =>
      if c = '$' then
        match longestPrefix? names rest with
        | some name => value name ++ substitute names value name.length rest
        | none => c :: substitute names value 0 rest
      else c :: substitute names value 0 rest

def lookup? (primary fallback : Variables) (name : String) : Option String :=
  (primary.get? name).or (fallback.get? name)

/-- The text with references replaced by values, all at once. The names taken into account are
those that are referred to somewhere in the text and have a value. -/
def expand (text : String) (primary fallback : Variables) : String :=
  let find (name : List Char) := lookup? primary fallback (String.ofList name)
  let names := (references text.toList).filter fun name => (find name).isSome
  String.ofList (substitute names (fun name => ((find name).getD "").toList) 0 text.toList)

end Orchestra.Plan
