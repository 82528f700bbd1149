import Orchestra.Decimal.Digits
import Orchestra.Json.Basic

namespace Orchestra.Json

open Decimal

structure Numeral where
  negative : Bool
  whole : List Char
  fraction : List Char
  exponent : Option (Bool × List Char)

namespace Numeral

def exponent? : List Char → Option (Option (Bool × List Char))
  | [] => some none
  | c :: rest =>
      if c = 'e' ∨ c = 'E' then
        let (minus, ds) := match rest with
          | '-' :: ds => (true, ds)
          | '+' :: ds => (false, ds)
          | ds => (false, ds)
        if ds ≠ [] ∧ ds.all isDigit then some (some (minus, ds)) else none
      else none

def fraction? : List Char → Option (List Char × List Char)
  | '.' :: rest =>
      if rest.takeWhile isDigit = [] then none
      else some (rest.takeWhile isDigit, rest.dropWhile isDigit)
  | rest => some ([], rest)

def unsigned? (negative : Bool) (cs : List Char) : Option Numeral := do
  let whole := cs.takeWhile isDigit
  if whole = [] ∨ (1 < whole.length ∧ whole.head? = some '0') then none
  let (fraction, rest) ← fraction? (cs.dropWhile isDigit)
  return { negative, whole, fraction, exponent := ← exponent? rest }

def ofChars? : List Char → Option Numeral
  | '-' :: cs => unsigned? true cs
  | cs => unsigned? false cs

def wordLimit : Nat := UInt64.size

/-- The leading digits that fit into a word, and the power of ten they are to be multiplied by.
Digits of the whole part that no longer fit still count as places. -/
def wholeDigits : Nat → Int → Bool → List Char → Nat × Int
  | s, e, _, [] => (s, e)
  | s, e, full, c :: rest =>
      if full || wordLimit ≤ 10 * s + digitValue c then wholeDigits s (e + 1) true rest
      else wholeDigits (10 * s + digitValue c) e false rest

def fractionDigits : Nat → Int → List Char → Nat × Int
  | s, e, [] => (s, e)
  | s, e, c :: rest =>
      if wordLimit ≤ 10 * s + digitValue c then (s, e)
      else fractionDigits (10 * s + digitValue c) (e - 1) rest

/-- Multiplies or divides by a power of ten with one rounding, in steps no wider than the widest
power that is finite. Overflow has no value. -/
def scale : Nat → Float → Int → Option Float
  | 0, x, _ => some x
  | steps + 1, x, e =>
      if e.natAbs ≤ 308 then
        if 0 ≤ e then
          let y := x * Float.ofScientific 1 false e.natAbs
          if y.isInf then none else some y
        else some (x / Float.ofScientific 1 false e.natAbs)
      else if x == 0 then some x
      else if 0 ≤ e then none
      else scale steps (x / 1e308) (e + 308)

def exponentLimit : Nat := UInt32.size / 2

def float? (n : Numeral) : Option Float := do
  let (s, e) := wholeDigits 0 0 false n.whole
  let (s, e) := fractionDigits s e n.fraction
  let x ← match n.exponent with
    | none => scale 4 (Float.ofNat s) e
    | some (minus, ds) =>
        if exponentLimit ≤ value ds then (if s ≠ 0 ∧ !minus then none else some 0)
        else scale 4 (Float.ofNat s) (if minus then e - value ds else e + value ds)
  return if n.negative then -x else x

def number? (n : Numeral) : Option Number :=
  let v := value n.whole
  if n.fraction = [] ∧ n.exponent = none ∧ (if n.negative then 0 < v ∧ v ≤ wordLimit / 2 else v < wordLimit)
  then some (.whole (if n.negative then -v else v))
  else n.float?.map .float

end Numeral

end Orchestra.Json
