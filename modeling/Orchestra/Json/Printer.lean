import Orchestra.Decimal.Shortest
import Orchestra.Json.Basic

namespace Orchestra.Json

open Decimal

/-- Floats stand without an exponent as long as the point falls among sixteen digits or behind at
most four leading zeros. -/
def floatLayout : Layout := ⟨-5, 16⟩

def Number.text : Number → List Char
  | .whole n => signed n
  | .float x => floatLayout.writeFloat x

def hexDigit (n : Nat) : Char :=
  if n < 10 then Char.ofNat (48 + n) else Char.ofNat (87 + n)

def escape (c : Char) : List Char :=
  if c = '\x22' then ['\\', '\x22']
  else if c = '\\' then ['\\', '\\']
  else if c = '\x08' then ['\\', 'b']
  else if c = '\t' then ['\\', 't']
  else if c = '\n' then ['\\', 'n']
  else if c = '\x0c' then ['\\', 'f']
  else if c = '\r' then ['\\', 'r']
  else if c.toNat < 0x20 then
    ['\\', 'u', '0', '0', hexDigit (c.toNat / 16), hexDigit (c.toNat % 16)]
  else [c]

def quote (s : String) : List Char :=
  '\x22' :: s.toList.flatMap escape ++ ['\x22']

def joinWith (separator : List Char) : List (List Char) → List Char
  | [] => []
  | [x] => x
  | x :: rest => x ++ separator ++ joinWith separator rest

mutual

def compactChars : Json → List Char
  | .null | .unreadable => ['n', 'u', 'l', 'l']
  | .bool true => ['t', 'r', 'u', 'e']
  | .bool false => ['f', 'a', 'l', 's', 'e']
  | .number n => n.text
  | .string s => quote s
  | .array items => '[' :: joinWith [','] (compactItems items) ++ [']']
  | .object members => '{' :: joinWith [','] (compactMembers members) ++ ['}']

def compactItems : List Json → List (List Char)
  | [] => []
  | item :: rest => compactChars item :: compactItems rest

def compactMembers : List (String × Json) → List (List Char)
  | [] => []
  | (name, item) :: rest => (quote name ++ ':' :: compactChars item) :: compactMembers rest

end

def newline (indent : Nat) : List Char :=
  '\n' :: List.replicate indent ' '

mutual

def prettyChars (indent : Nat) : Json → List Char
  | .null | .unreadable => ['n', 'u', 'l', 'l']
  | .bool true => ['t', 'r', 'u', 'e']
  | .bool false => ['f', 'a', 'l', 's', 'e']
  | .number n => n.text
  | .string s => quote s
  | .array [] => ['[', ']']
  | .array (item :: rest) =>
      '[' :: newline (indent + 2) ++
        joinWith (',' :: newline (indent + 2))
          (prettyChars (indent + 2) item :: prettyItems (indent + 2) rest) ++
        newline indent ++ [']']
  | .object [] => ['{', '}']
  | .object (member :: rest) =>
      '{' :: newline (indent + 2) ++
        joinWith (',' :: newline (indent + 2))
          (prettyMember (indent + 2) member :: prettyMembers (indent + 2) rest) ++
        newline indent ++ ['}']

def prettyItems (indent : Nat) : List Json → List (List Char)
  | [] => []
  | item :: rest => prettyChars indent item :: prettyItems indent rest

def prettyMember (indent : Nat) : String × Json → List Char
  | (name, item) => quote name ++ ':' :: ' ' :: prettyChars indent item

def prettyMembers (indent : Nat) : List (String × Json) → List (List Char)
  | [] => []
  | member :: rest => prettyMember indent member :: prettyMembers indent rest

end

def compact (j : Json) : String :=
  String.ofList (compactChars j)

def pretty (j : Json) : String :=
  String.ofList (prettyChars 0 j)

end Orchestra.Json
