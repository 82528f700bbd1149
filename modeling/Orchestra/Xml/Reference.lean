import Orchestra.Text.Radix
import Orchestra.Xml.Characters

namespace Orchestra.Xml

def code? (base : Nat) (cs : List Char) : Option Nat := do
  if cs = [] then none
  let n ← Text.number? base cs
  if n < UInt32.size then some n else none

/-- A number that is no character at all stands for the replacement character. -/
def ofCode? (n : Nat) : Option Char :=
  let c := if n.isValidChar then Char.ofNat n else '\uFFFD'
  if isChar c then some c else none

def entity? : List Char → Option Char
  | '#' :: 'x' :: ds => do ofCode? (← code? 16 ds)
  | '#' :: ds => do ofCode? (← code? 10 ds)
  | ['l', 't'] => some '<'
  | ['g', 't'] => some '>'
  | ['a', 'm', 'p'] => some '&'
  | ['q', 'u', 'o', 't'] => some '\x22'
  | ['a', 'p', 'o', 's'] => some '\x27'
  | _ => none

/-- Replaces references by their characters, and puts every other character through `plain`. -/
def decode? (plain : Char → Char) (cs : List Char) : Option (List Char) :=
  match cs with
  | [] => some []
  | c :: rest =>
      if c = '&' then
        match _h : rest.dropWhile (· ≠ ';') with
        | [] => none
        | _ :: after => do
            let e ← entity? (rest.takeWhile (· ≠ ';'))
            return e :: (← decode? plain after)
      else do return plain c :: (← decode? plain rest)
termination_by cs.length
decreasing_by
  · have h := (List.dropWhile_sublist (· ≠ ';') (l := rest)).length_le
    rw [_h] at h
    simp only [List.length_cons] at *
    omega
  · simp

def joinNewlines : List Char → List Char
  | [] => []
  | '\r' :: '\n' :: rest => '\n' :: joinNewlines rest
  | c :: rest => c :: joinNewlines rest

/-- White space written as such in an attribute becomes a blank, while references keep it. -/
def attributeValue? (cs : List Char) : Option String :=
  (decode? (fun c => if isSpace c then ' ' else c) (joinNewlines cs)).map String.ofList

end Orchestra.Xml
