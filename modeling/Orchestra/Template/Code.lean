import Orchestra.Template.Block

namespace Orchestra.Template

open Text

def push (c : Char) (r : List Char × α) : List Char × α :=
  (c :: r.1, r.2)

/-- Reads up to the closing quote. A backslash before a quote or a backslash gives way to it. There
is no rest when the quote does not close. -/
def quoted (q : Char) : List Char → List Char × Option (List Char)
  | [] => ([], none)
  | c :: rest =>
      if c = q then ([], some rest)
      else if c = '\\' then
        match rest with
        | [] => (['\\'], none)
        | e :: after =>
            if isEscapable e then push e (quoted q after) else push '\\' (quoted q (e :: after))
      else push c (quoted q rest)

theorem quoted_length {q : Char} {cs after : List Char} (h : (quoted q cs).2 = some after) :
    after.length < cs.length := by
  fun_induction quoted q cs with
  | case1 => cases h
  | case2 => cases h; simp
  | case3 => cases h
  | case4 _ _ _ _ ih | case5 _ _ _ _ ih | case6 _ _ _ _ ih =>
      have := ih h
      simp only [List.length_cons] at *
      omega

def isLabelChar (c : Char) : Bool :=
  !isBlank c && c ≠ '='

/-- The first token of code that starts with no blank, and what follows it. A word is the function
when it comes first, and an argument otherwise; with a sign of equality it is an argument anyway. -/
def token? (whole : String) (first : Bool) (c : Char) (rest : List Char) :
    Except Malformed (Block × List Char) :=
  if isQuote c then
    match quoted c rest with
    | (body, some after) => .ok (.literal ⟨String.ofList (c :: body ++ [c])⟩, after)
    | (body, none) => .error ⟨.unclosedQuote (String.ofList (c :: body)), whole⟩
  else if c = '$' then do
    let v ← Variable.ofText? (String.ofList (c :: rest.takeWhile (!isBlank ·)))
    return (.variable v, rest.dropWhile (!isBlank ·))
  else
    let word := c :: rest.takeWhile isLabelChar
    match rest.dropWhile isLabelChar with
    | '=' :: p :: more =>
        if isQuote p then
          match quoted p more with
          | (body, some after) => do
              let a ← Argument.ofText? (String.ofList (word ++ '=' :: p :: body ++ [p]))
              return (.argument a, after)
          | (body, none) =>
              .error ⟨.unclosedQuote (String.ofList (word ++ '=' :: p :: body)), whole⟩
        else if p = '$' then do
          let value := more.takeWhile (!isBlank ·)
          let a ← Argument.ofText? (String.ofList (word ++ '=' :: p :: value))
          return (.argument a, more.dropWhile (!isBlank ·))
        else .error ⟨.argumentStart, whole⟩
    | ['='] => .error ⟨.argumentStart, whole⟩
    | after =>
        if first then do
          let f ← FunctionId.ofText? (String.ofList word)
          return (.function f, after)
        else do
          let a ← Argument.ofText? (String.ofList word)
          return (.argument a, after)

theorem token?_length {whole : String} {first : Bool} {c : Char} {rest after : List Char}
    {b : Block} (h : token? whole first c rest = .ok (b, after)) : after.length ≤ rest.length := by
  unfold token? at h
  split at h
  · split at h
    · rename_i hq
      cases h
      exact Nat.le_of_lt (quoted_length (congrArg Prod.snd hq))
    · cases h
  · split at h
    · simp only [bind, Except.bind] at h
      split at h
      · cases h
      · cases h
        exact (List.dropWhile_sublist _).length_le
    · have hw := (List.dropWhile_sublist isLabelChar (l := rest)).length_le
      split at h
      · rename_i p more hd
        rw [hd] at hw
        simp only [List.length_cons] at hw
        split at h
        · split at h
          · rename_i hq
            simp only [bind, Except.bind] at h
            split at h
            · cases h
            · cases h
              have := quoted_length (congrArg Prod.snd hq)
              omega
          · cases h
        · split at h
          · simp only [bind, Except.bind] at h
            split at h
            · cases h
            · cases h
              have := (List.dropWhile_sublist (!isBlank ·) (l := more)).length_le
              omega
          · cases h
      · cases h
      · simp only [bind, Except.bind] at h
        split at h <;> split at h <;> first | cases h; exact hw | cases h

def tokensFrom (whole : String) (first : Bool) (cs : List Char) : Except Malformed (List Block) :=
  match _hc : cs.dropWhile isBlank with
  | [] => .ok []
  | c :: rest =>
      match _ht : token? whole first c rest with
      | .error e => .error e
      | .ok (b, []) => .ok [b]
      | .ok (b, d :: after) =>
          if isBlank d then (tokensFrom whole false after).map (b :: ·)
          else .error ⟨.unseparated, whole⟩
termination_by cs.length
decreasing_by
  have h1 := token?_length _ht
  have h2 := (List.dropWhile_sublist isBlank (l := cs)).length_le
  simp only [_hc, List.length_cons] at h1 h2
  omega

def tokens? (text : String) : Except Malformed (List Block) :=
  let cs := trimList text.toList
  let whole := String.ofList cs
  match cs with
  | [c] => if isQuote c then .ok [.literal ⟨whole⟩] else tokensFrom whole true cs
  | cs => tokensFrom whole true cs

def Block.codeOfText? (text : String) (closed : Bool) : Except Malformed Block :=
  (tokens? text).map fun ts => .code (trim text) ts closed

end Orchestra.Template
