import Orchestra.Xml.Reference

namespace Orchestra.Xml

structure Name where
  space : String
  base : String
deriving DecidableEq

/-- Comments and processing instructions are passed over. Text matters only by being there. -/
inductive Token
  | start (name : Name) (attributes : List (Name × String)) (empty : Bool)
  | stop (name : Name)
  | text (blank : Bool)
  | aside
deriving DecidableEq

def startsName (cs : List Char) : Bool :=
  cs.head?.any isNameStart

def Name.ofChars? (cs : List Char) : Option Name :=
  let front := cs.takeWhile (· ≠ ':')
  match cs.dropWhile (· ≠ ':') with
  | [] => if startsName cs then some ⟨"", String.ofList cs⟩ else none
  | _ :: back =>
      if ':' ∉ back ∧ startsName back ∧ (front = [] ∨ startsName front) then
        some ⟨String.ofList front, String.ofList back⟩
      else none

def name? (cs : List Char) : Option (Name × List Char) := do
  return (← Name.ofChars? (cs.takeWhile isNameChar), cs.dropWhile isNameChar)

def skipSpace (cs : List Char) : List Char :=
  cs.dropWhile isSpace

def quoted? : List Char → Option (List Char × List Char)
  | [] => none
  | q :: rest =>
      if q ≠ '\x22' ∧ q ≠ '\x27' then none
      else
        match rest.dropWhile fun c => c ≠ q ∧ c ≠ '<' with
        | [] => none
        | c :: after =>
            if c = q then some (rest.takeWhile fun c => c ≠ q ∧ c ≠ '<', after) else none

def attribute? (cs : List Char) : Option ((Name × String) × List Char) :=
  match name? cs with
  | none => none
  | some (name, rest) =>
      match skipSpace rest with
      | [] => none
      | c :: rest =>
          if c ≠ '=' then none
          else
            match quoted? (skipSpace rest) with
            | none => none
            | some (value, after) =>
                if value.all isChar then (attributeValue? value).map fun v => ((name, v), after)
                else none

def upTo? (stop : List Char) : List Char → Option (List Char × List Char)
  | [] => if stop = [] then some ([], []) else none
  | c :: rest =>
      if stop.isPrefixOf (c :: rest) then some ([], (c :: rest).drop stop.length)
      else (upTo? stop rest).map fun r => (c :: r.1, r.2)

def contains (part : List Char) (cs : List Char) : Bool :=
  (upTo? part cs).isSome

theorem Name.ofChars?_ne_nil {cs : List Char} {n : Name} (h : Name.ofChars? cs = some n) :
    cs ≠ [] := by
  rintro rfl
  simp [Name.ofChars?, startsName] at h

theorem name?_length {cs rest : List Char} {n : Name} (h : name? cs = some (n, rest)) :
    rest.length < cs.length := by
  simp only [name?, bind, Option.bind_eq_some_iff, pure, Option.some.injEq, Prod.mk.injEq] at h
  obtain ⟨m, hm, _, rfl⟩ := h
  have hne := Name.ofChars?_ne_nil hm
  have hlen := congrArg List.length (List.takeWhile_append_dropWhile (p := isNameChar) (l := cs))
  have := List.length_pos_iff.2 hne
  simp only [List.length_append] at hlen
  omega

theorem skipSpace_length (cs : List Char) : (skipSpace cs).length ≤ cs.length :=
  (List.dropWhile_sublist _).length_le

theorem quoted?_length {cs value after : List Char} (h : quoted? cs = some (value, after)) :
    after.length < cs.length := by
  unfold quoted? at h
  split at h
  · cases h
  · rename_i q rest
    split at h
    · cases h
    · split at h
      · cases h
      · rename_i c back hd
        have := (List.dropWhile_sublist (fun c => c ≠ q ∧ c ≠ '<') (l := rest)).length_le
        simp only [hd, List.length_cons] at this
        split at h
        · cases h
          simp only [List.length_cons]
          omega
        · cases h

theorem attribute?_length {cs after : List Char} {a : Name × String}
    (h : attribute? cs = some (a, after)) : after.length < cs.length := by
  unfold attribute? at h
  split at h
  · cases h
  · rename_i name rest hn
    have h1 := name?_length hn
    have h2 := skipSpace_length rest
    split at h
    · cases h
    · rename_i c more hs
      have h3 := skipSpace_length more
      simp only [hs, List.length_cons] at h2
      split at h
      · cases h
      · split at h
        · cases h
        · rename_i value back hq
          have h4 := quoted?_length hq
          split at h
          · simp only [Option.map_eq_some_iff, Prod.mk.injEq] at h
            obtain ⟨_, _, _, rfl⟩ := h
            omega
          · cases h

/-- The attributes of a start tag, whether the tag is an empty element, and what follows it. Each
attribute has space before it. -/
def attributes? (cs : List Char) : Option (List (Name × String) × Bool × List Char) :=
  match _hs : skipSpace cs with
  | '/' :: '>' :: rest => some ([], true, rest)
  | '>' :: rest => some ([], false, rest)
  | _ =>
      if cs.head?.any isSpace then
        match _ha : attribute? (skipSpace cs) with
        | none => none
        | some (a, rest) => (attributes? rest).map fun r => (a :: r.1, r.2)
      else none
termination_by cs.length
decreasing_by
  have h1 := attribute?_length _ha
  have h2 := skipSpace_length cs
  omega

theorem attributes?_length {cs after : List Char} {as : List (Name × String)} {empty : Bool}
    (h : attributes? cs = some (as, empty, after)) : after.length < cs.length := by
  fun_induction attributes? cs generalizing as empty after with
  | case1 cs rest hs =>
      have := skipSpace_length cs
      simp only [hs, List.length_cons] at this
      cases h
      omega
  | case2 cs rest hs =>
      have := skipSpace_length cs
      simp only [hs, List.length_cons] at this
      cases h
      omega
  | case3 => cases h
  | case4 cs =>
      rename_i a rest ha _ _ ih
      have h1 := attribute?_length ha
      have h2 := skipSpace_length cs
      simp only [Option.map_eq_some_iff, Prod.mk.injEq] at h
      obtain ⟨⟨as', empty', after'⟩, hr, _, rfl, rfl⟩ := h
      have := ih hr
      omega
  | case5 => cases h

theorem upTo?_length {stop cs front back : List Char} (h : upTo? stop cs = some (front, back)) :
    back.length ≤ cs.length := by
  fun_induction upTo? stop cs generalizing front back with
  | case1 => cases h; simp
  | case2 => cases h
  | case3 => cases h; simp only [List.length_drop]; omega
  | case4 c rest _ ih =>
      simp only [Option.map_eq_some_iff, Prod.mk.injEq] at h
      obtain ⟨⟨f, b⟩, hr, _, rfl⟩ := h
      have := ih hr
      simp only [List.length_cons]
      omega

/-- A comment from behind its opening. Two hyphens in a row can only end it. -/
def comment? (cs : List Char) : Option (Token × List Char) :=
  match upTo? ['-', '-', '>'] cs with
  | none => none
  | some (body, after) =>
      if body.all isChar ∧ ¬ contains ['-', '-'] (body ++ ['-']) then some (.aside, after) else none

def section? (cs : List Char) : Option (Token × List Char) :=
  match upTo? [']', ']', '>'] cs with
  | none => none
  | some (body, after) => if body.all isChar then some (.text false, after) else none

def instruction? (cs : List Char) : Option (Token × List Char) :=
  if ['x', 'm', 'l', ' '].isPrefixOf cs then none
  else if ¬ startsName cs then none
  else
    match upTo? ['?', '>'] (skipSpace (cs.dropWhile isNameChar)) with
    | none => none
    | some (body, after) => if body.all isChar then some (.aside, after) else none

def stop? (cs : List Char) : Option (Token × List Char) :=
  match name? cs with
  | none => none
  | some (name, rest) =>
      match skipSpace rest with
      | '>' :: after => some (.stop name, after)
      | _ => none

def start? (cs : List Char) : Option (Token × List Char) :=
  match name? cs with
  | none => none
  | some (name, rest) => (attributes? rest).map fun r => (.start name r.1 r.2.1, r.2.2)

def text? (cs : List Char) : Option (Token × List Char) :=
  let body := cs.takeWhile (· ≠ '<')
  if body.all isChar ∧ ¬ contains [']', ']', '>'] body ∧ (decode? id body).isSome then
    some (.text (body.all isSpace), cs.dropWhile (· ≠ '<'))
  else none

def token? : List Char → Option (Token × List Char)
  | '<' :: '!' :: '-' :: '-' :: rest => comment? rest
  | '<' :: '!' :: '[' :: 'C' :: 'D' :: 'A' :: 'T' :: 'A' :: '[' :: rest => section? rest
  | '<' :: '!' :: _ => none
  | '<' :: '?' :: rest => instruction? rest
  | '<' :: '/' :: rest => stop? rest
  | '<' :: rest => start? rest
  | rest => text? rest

theorem comment?_length {cs after : List Char} {t : Token} (h : comment? cs = some (t, after)) :
    after.length ≤ cs.length := by
  unfold comment? at h
  split at h
  · cases h
  · rename_i hu
    split at h <;> cases h
    exact upTo?_length hu

theorem section?_length {cs after : List Char} {t : Token} (h : section? cs = some (t, after)) :
    after.length ≤ cs.length := by
  unfold section? at h
  split at h
  · cases h
  · rename_i hu
    split at h <;> cases h
    exact upTo?_length hu

theorem instruction?_length {cs after : List Char} {t : Token}
    (h : instruction? cs = some (t, after)) : after.length ≤ cs.length := by
  unfold instruction? at h
  split at h
  · cases h
  · split at h
    · cases h
    · split at h
      · cases h
      · rename_i hu
        have h1 := upTo?_length hu
        have h2 := skipSpace_length (cs.dropWhile isNameChar)
        have h3 := (List.dropWhile_sublist isNameChar (l := cs)).length_le
        split at h <;> cases h
        omega

theorem stop?_length {cs after : List Char} {t : Token} (h : stop? cs = some (t, after)) :
    after.length ≤ cs.length := by
  unfold stop? at h
  split at h
  · cases h
  · rename_i name rest hn
    have h1 := name?_length hn
    have h2 := skipSpace_length rest
    split at h
    · rename_i hs
      simp only [hs, List.length_cons] at h2
      cases h
      omega
    · cases h

theorem start?_length {cs after : List Char} {t : Token} (h : start? cs = some (t, after)) :
    after.length ≤ cs.length := by
  unfold start? at h
  split at h
  · cases h
  · rename_i name rest hn
    have h1 := name?_length hn
    simp only [Option.map_eq_some_iff, Prod.mk.injEq] at h
    obtain ⟨⟨as, empty, back⟩, hr, _, rfl⟩ := h
    have := attributes?_length hr
    simp only
    omega

theorem token?_length {cs after : List Char} {t : Token} (hne : cs ≠ [])
    (h : token? cs = some (t, after)) : after.length < cs.length := by
  unfold token? at h
  split at h
  · have := comment?_length h
    simp only [List.length_cons]
    omega
  · have := section?_length h
    simp only [List.length_cons]
    omega
  · cases h
  · have := instruction?_length h
    simp only [List.length_cons]
    omega
  · have := stop?_length h
    simp only [List.length_cons]
    omega
  · have := start?_length h
    simp only [List.length_cons]
    omega
  · rename_i hlt
    unfold text? at h
    dsimp only at h
    split at h
    · cases h
      cases cs with
      | nil => exact absurd rfl hne
      | cons c rest =>
          have hc : c ≠ '<' := fun e => hlt rest (e ▸ rfl)
          have := (List.dropWhile_sublist (· ≠ '<') (l := rest)).length_le
          simp only [List.dropWhile_cons, hc, ne_eq, not_false_eq_true, decide_true, if_true,
            List.length_cons] at this ⊢
          omega
    · cases h

def tokens? (cs : List Char) : Option (List Token) :=
  if _h : cs = [] then some []
  else
    match _ht : token? cs with
    | none => none
    | some (t, after) => (tokens? after).map (t :: ·)
termination_by cs.length
decreasing_by exact token?_length _h _ht

end Orchestra.Xml
