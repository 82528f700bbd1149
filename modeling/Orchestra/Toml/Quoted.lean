import Orchestra.Toml.Scalar

namespace Orchestra.Toml

def escaped? (c : Char) : Option Char :=
  if c = 'b' then some '\x08'
  else if c = 't' then some '\t'
  else if c = 'n' then some '\n'
  else if c = 'f' then some '\x0c'
  else if c = 'r' then some '\r'
  else if c = '\x22' ∨ c = '\\' then some c
  else none

def codePoint? (count : Nat) (cs : List Char) : Option Char := do
  let ds := cs.take count
  let n ← Text.number? 16 ds
  if ds.length = count ∧ n.isValidChar then some (Char.ofNat n) else none

def escape? : List Char → Option (Char × Nat)
  | 'u' :: rest => (codePoint? 4 rest).map fun c => (c, 5)
  | 'U' :: rest => (codePoint? 8 rest).map fun c => (c, 9)
  | c :: _ => (escaped? c).map fun c => (c, 1)
  | [] => none

/-- A string between double quotes, from behind the first. The count says how many characters
belong to an escape that was read. -/
def basic? : Nat → List Char → Option (List Char × List Char)
  | _, [] => none
  | skip + 1, _ :: rest => basic? skip rest
  | 0, c :: rest =>
      if c = '\x22' then some ([], rest)
      else if c = '\\' then do
        let (e, length) ← escape? rest
        let (s, rest) ← basic? length rest
        return (e :: s, rest)
      else if isPlain c then do
        let (s, rest) ← basic? 0 rest
        return (c :: s, rest)
      else none

def literal? (cs : List Char) : Option (List Char × List Char) :=
  let inside (c : Char) : Bool := isPlain c && c != '\x27'
  match cs.dropWhile inside with
  | '\x27' :: rest => some (cs.takeWhile inside, rest)
  | _ => none

def dropSpace : List Char → List Char
  | '\r' :: '\n' :: rest => dropSpace rest
  | c :: rest => if isBlank c ∨ c = '\n' then dropSpace rest else c :: rest
  | [] => []

/-- A backslash at the end of a line takes the line break and all space behind it away. The count
is the length of what goes. -/
def lineEscape? (cs : List Char) : Option Nat :=
  (newline? (cs.dropWhile isBlank)).map fun rest => cs.length - (dropSpace rest).length

def leadingQuotes (q : Char) (cs : List Char) : Nat :=
  (cs.takeWhile (· = q)).length

def multiline? (q : Char) : Nat → List Char → Option (List Char × List Char)
  | _, [] => none
  | skip + 1, _ :: rest => multiline? q skip rest
  | 0, c :: rest =>
      if c = q then
        let n := leadingQuotes q (c :: rest)
        if 5 < n then none
        else if 3 ≤ n then some (List.replicate (n - 3) q, (c :: rest).drop n)
        else do
          let (s, rest) ← multiline? q 0 rest
          return (c :: s, rest)
      else if c = '\\' ∧ q = '\x22' then
        match lineEscape? rest with
        | some length => multiline? q length rest
        | none => do
            let (e, length) ← escape? rest
            let (s, rest) ← multiline? q length rest
            return (e :: s, rest)
      else if c = '\n' ∨ (c = '\r' ∧ rest.head? = some '\n') then do
        let (s, rest) ← multiline? q (if c = '\r' then 1 else 0) rest
        return ('\n' :: s, rest)
      else if isPlain c then do
        let (s, rest) ← multiline? q 0 rest
        return (c :: s, rest)
      else none

def quoted? : List Char → Option (List Char × List Char)
  | q :: rest =>
      if q ≠ '\x22' ∧ q ≠ '\x27' then none
      else if [q, q].isPrefixOf rest then
        let body := rest.drop 2
        multiline? q 0 ((newline? body).getD body)
      else if q = '\x22' then basic? 0 rest
      else literal? rest
  | [] => none

end Orchestra.Toml
