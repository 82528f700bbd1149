import Orchestra.Decimal.Digits
import Orchestra.Text.Radix
import Orchestra.Toml.Value

namespace Orchestra.Toml

open Decimal Text

def splitAt (separator : Char) (cs : List Char) : List (List Char) :=
  match cs with
  | [] => [[]]
  | c :: rest =>
      match splitAt separator rest with
      | part :: parts => if c = separator then [] :: part :: parts else (c :: part) :: parts
      | [] => [[c]]

def grouped? (base : Nat) (cs : List Char) : Option (List Char) :=
  let parts := splitAt '_' cs
  if parts.all fun p => p ≠ [] ∧ p.all (isDigitOf base) then some parts.flatten else none

def decimal? (cs : List Char) : Option (List Char) := do
  let ds ← grouped? 10 cs
  if cs.head? = some '0' ∧ cs ≠ ['0'] then none else some ds

def sign (cs : List Char) : Bool × List Char :=
  match cs with
  | '-' :: rest => (true, rest)
  | '+' :: rest => (false, rest)
  | rest => (false, rest)

def integerLimit : Nat := UInt64.size / 2

def based? (base : Nat) (cs : List Char) : Option Int := do
  let n ← number? base (← grouped? base cs)
  if n < integerLimit then some n else none

def integer? (cs : List Char) : Option Int :=
  match cs with
  | '0' :: 'x' :: ds => based? 16 ds
  | '0' :: 'o' :: ds => based? 8 ds
  | '0' :: 'b' :: ds => based? 2 ds
  | cs => do
      let (minus, ds) := sign cs
      let n := value (← decimal? ds)
      if minus then (if n ≤ integerLimit then some (-n) else none)
      else if n < integerLimit then some n else none

def overflows (digits : List Char) (exponent : Int) : Bool :=
  let significant := digits.dropWhile (· = '0')
  let places := significant.length + exponent
  if significant = [] ∨ places ≤ 300 then false
  else if 320 < places then true
  else
    let m := value significant
    let x :=
      if 0 ≤ exponent then Float.ofScientific m false exponent.toNat
      else Float.ofScientific m true exponent.natAbs
    x.isInf

def isFloat (cs : List Char) : Bool :=
  let (minus, body) := sign cs
  if body = ['i', 'n', 'f'] ∨ body = ['n', 'a', 'n'] then true
  else
    let front := body.takeWhile fun c => c ≠ 'e' ∧ c ≠ 'E'
    let exponent : Option (Option Int) := match body.dropWhile fun c => c ≠ 'e' ∧ c ≠ 'E' with
      | [] => some none
      | _ :: rest =>
          let (down, ds) := sign rest
          (grouped? 10 ds).map fun ds =>
            some (if down then -(value ds : Int) else value ds)
    let parts : Option (List Char × Option (List Char)) := match splitAt '.' front with
      | [whole] => (decimal? whole).map fun w => (w, none)
      | [whole, fraction] => do
          return (← decimal? whole, some (← grouped? 10 fraction))
      | _ => none
    match parts, exponent with
    | some (_, none), some none => false
    | some (whole, fraction), some e =>
        let fraction := fraction.getD []
        minus || !overflows (whole ++ fraction) (e.getD 0 - fraction.length)
    | _, _ => false

def fixed? (count : Nat) (cs : List Char) : Option (Nat × List Char) :=
  let ds := cs.take count
  if ds.length = count ∧ ds.all isDigit then some (value ds, cs.drop count) else none

def daysIn (year month : Nat) : Nat :=
  if month = 2 then (if year % 4 = 0 ∧ (year % 100 ≠ 0 ∨ year % 400 = 0) then 29 else 28)
  else if month = 4 ∨ month = 6 ∨ month = 9 ∨ month = 11 then 30
  else 31

def date? (cs : List Char) : Option (List Char) := do
  let (year, cs) ← fixed? 4 cs
  let '-' :: cs := cs | none
  let (month, cs) ← fixed? 2 cs
  let '-' :: cs := cs | none
  let (day, cs) ← fixed? 2 cs
  if 1 ≤ month ∧ month ≤ 12 ∧ 1 ≤ day ∧ day ≤ daysIn year month then some cs else none

def time? (cs : List Char) : Option (List Char) := do
  let (hour, cs) ← fixed? 2 cs
  let ':' :: cs := cs | none
  let (minute, cs) ← fixed? 2 cs
  let ':' :: cs := cs | none
  let (second, cs) ← fixed? 2 cs
  if hour < 24 ∧ minute < 60 ∧ second ≤ 60 then
    match cs with
    | '.' :: rest =>
        if rest.head?.any isDigit then some (rest.dropWhile isDigit) else none
    | cs => some cs
  else none

def isOffset (cs : List Char) : Bool :=
  match cs with
  | ['Z'] | ['z'] => true
  | c :: rest =>
      (c == '+' || c == '-') &&
        match fixed? 2 rest with
        | some (hour, ':' :: rest) =>
            match fixed? 2 rest with
            | some (minute, []) => hour < 24 && minute < 60
            | _ => false
        | _ => false
  | [] => false

def isClock (cs : List Char) : Bool :=
  match time? cs with
  | some rest => rest.isEmpty || isOffset rest
  | none => false

def isDatetime (cs : List Char) : Bool :=
  match date? cs with
  | some [] => true
  | some (c :: rest) => (c == 'T' || c == 't' || c == ' ') && isClock rest
  | none => time? cs == some []

def isScalarChar (c : Char) : Bool :=
  c.isAlphanum || c == '_' || c == '+' || c == '-' || c == '.' || c == ':'

def scalarOf? (cs : List Char) : Option Value :=
  if cs = ['t', 'r', 'u', 'e'] then some (.boolean true)
  else if cs = ['f', 'a', 'l', 's', 'e'] then some (.boolean false)
  else if isDatetime cs then some (.datetime (String.ofList cs))
  else if isFloat cs then some (.float (String.ofList cs))
  else (integer? cs).map .integer

/-- The scalar a text starts with. A blank between a date and a time belongs to it. -/
def scalar? (cs : List Char) : Option (Value × List Char) :=
  let run := cs.takeWhile isScalarChar
  let rest := cs.dropWhile isScalarChar
  let joined := match rest with
    | ' ' :: c :: _ => date? run == some [] && c.isDigit
    | _ => false
  if joined then
    let more := rest.drop 1
    (scalarOf? (run ++ ' ' :: more.takeWhile isScalarChar)).map fun v =>
      (v, more.dropWhile isScalarChar)
  else (scalarOf? run).map fun v => (v, rest)

end Orchestra.Toml
