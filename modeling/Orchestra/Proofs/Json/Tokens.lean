import Orchestra.Proofs.Json.Lexing

namespace Orchestra.Json

mutual

/-- Everything in the document can be printed and read: no floats, and nothing unreadable. -/
def Plain : Json → Prop
  | .null | .bool _ | .string _ => True
  | .number n => n.Fits
  | .array items => PlainItems items
  | .object members => PlainMembers members
  | .unreadable => False

def PlainItems : List Json → Prop
  | [] => True
  | item :: rest => Plain item ∧ PlainItems rest

def PlainMembers : List (String × Json) → Prop
  | [] => True
  | (_, item) :: rest => Plain item ∧ PlainMembers rest

end

theorem plainItems_iff {items : List Json} : PlainItems items ↔ ∀ item ∈ items, Plain item := by
  induction items with
  | nil => simp [PlainItems]
  | cons item rest ih => rw [PlainItems, ih, List.forall_mem_cons]

theorem plainMembers_iff {members : List (String × Json)} :
    PlainMembers members ↔ ∀ m ∈ members, Plain m.2 := by
  induction members with
  | nil => simp [PlainMembers]
  | cons m rest ih => rw [PlainMembers, ih, List.forall_mem_cons]

theorem plain_strings (xs : List String) : Plain (.strings xs) :=
  plainItems_iff.2 (List.forall_mem_map.2 fun _ _ => trivial)

mutual

def tokens : Json → List Token
  | .null | .unreadable => [.null]
  | .bool b => [.bool b]
  | .number n => [.number (some n)]
  | .string s => [.string (some s)]
  | .array [] => [.openArray, .closeArray]
  | .array (item :: rest) => .openArray :: (tokens item ++ tailTokens rest)
  | .object [] => [.openObject, .closeObject]
  | .object ((name, item) :: rest) =>
      .openObject :: .string (some name) :: .colon :: (tokens item ++ memberTokens rest)

def tailTokens : List Json → List Token
  | [] => [.closeArray]
  | item :: rest => .comma :: (tokens item ++ tailTokens rest)

def memberTokens : List (String × Json) → List Token
  | [] => [.closeObject]
  | (name, item) :: rest =>
      .comma :: .string (some name) :: .colon :: (tokens item ++ memberTokens rest)

end

theorem joinWith_cons (separator x : List Char) (xs : List (List Char)) :
    joinWith separator (x :: xs) = x ++ xs.flatMap (separator ++ ·) := by
  induction xs generalizing x with
  | nil => simp [joinWith]
  | cons y ys ih => simp [joinWith, ih]

/-- The texts behind the first, each behind a comma and a gap, up to the end of an array or object. -/
def tailChars (close : Char) (gap ending : List Char) (xs : List (List Char)) : List Char :=
  xs.flatMap ((',' :: gap) ++ ·) ++ (ending ++ [close])

theorem Lexes.newline {a : List Char} {ts : List Token} (indent : Nat) (ha : Lexes a ts) :
    Lexes (newline indent ++ a) ts := by
  apply Lexes.spaces _ ha
  intro c hc
  rcases List.mem_cons.1 hc with rfl | hc
  · rfl
  · rw [List.eq_of_mem_replicate hc]
    rfl

theorem Lexes.member (name : String) {a : List Char} {ts : List Token} (ha : Lexes a ts) :
    Lexes (Json.quote name ++ ':' :: ([' '] ++ a)) (.string (some name) :: .colon :: ts) := by
  have hspace : Lexes ([' '] ++ a) ts := ha.spaces (List.forall_mem_singleton.2 rfl)
  exact (hspace.mark rfl rfl).quote name

theorem stop_cons {c : Char} (h : isNumeralChar c = false ∧ c.isAlpha = false) (r : List Char) :
    Stop (c :: r) := by
  rintro d ⟨⟩
  exact h

theorem stop_tailChars {close : Char} {ending : List Char} (h : ∀ r, Stop (ending ++ close :: r))
    (gap : List Char) (xs : List (List Char)) (r : List Char) :
    Stop (tailChars close gap ending xs ++ r) := by
  cases xs with
  | nil => simpa [tailChars] using h r
  | cons x xs => exact stop_cons (by decide) _

theorem tailChars_cons (close : Char) (gap ending x : List Char) (xs : List (List Char)) :
    tailChars close gap ending (x :: xs) = ',' :: (gap ++ (x ++ tailChars close gap ending xs)) := by
  simp [tailChars]

mutual

theorem lexes_compact : ∀ j : Json, Plain j → Lexes (compactChars j) (tokens j)
  | .null, _ => lexes_null
  | .bool true, _ => lexes_true
  | .bool false, _ => lexes_false
  | .number n, h => lexes_number h
  | .string s, _ => by
      rw [compactChars, tokens, ← List.append_nil (quote s)]
      exact lexes_nil.quote s
  | .array [], _ => (lexes_nil.mark rfl rfl).mark rfl rfl
  | .array (item :: rest), h => by
      have hrest := (lexes_compact item h.1).append (lexes_compactItems rest h.2)
        (stop_tailChars (fun _ => stop_cons (by decide) _) _ _)
      have hchars : compactChars (.array (item :: rest)) =
          '[' :: (compactChars item ++ tailChars ']' [] [] (compactItems rest)) := by
        simp [compactChars, compactItems, joinWith_cons, tailChars]
      rw [hchars, tokens]
      exact hrest.mark rfl rfl
  | .object [], _ => (lexes_nil.mark rfl rfl).mark rfl rfl
  | .object ((name, item) :: rest), h => by
      have hrest := (lexes_compact item h.1).append (lexes_compactMembers rest h.2)
        (stop_tailChars (fun _ => stop_cons (by decide) _) _ _)
      have hchars : compactChars (.object ((name, item) :: rest)) =
          '{' :: (quote name ++ ':' ::
            (compactChars item ++ tailChars '}' [] [] (compactMembers rest))) := by
        simp [compactChars, compactMembers, joinWith_cons, tailChars]
      rw [hchars, tokens]
      exact ((hrest.mark rfl rfl).quote name).mark rfl rfl

theorem lexes_compactItems : ∀ items : List Json, PlainItems items →
    Lexes (tailChars ']' [] [] (compactItems items)) (tailTokens items)
  | [], _ => lexes_nil.mark rfl rfl
  | item :: rest, h => by
      have hrest := (lexes_compact item h.1).append (lexes_compactItems rest h.2)
        (stop_tailChars (fun _ => stop_cons (by decide) _) _ _)
      rw [compactItems, tailChars_cons, tailTokens]
      exact hrest.mark rfl rfl

theorem lexes_compactMembers : ∀ members : List (String × Json), PlainMembers members →
    Lexes (tailChars '}' [] [] (compactMembers members)) (memberTokens members)
  | [], _ => lexes_nil.mark rfl rfl
  | (name, item) :: rest, h => by
      have hrest := (lexes_compact item h.1).append (lexes_compactMembers rest h.2)
        (stop_tailChars (fun _ => stop_cons (by decide) _) _ _)
      have hchars : tailChars '}' [] [] (compactMembers ((name, item) :: rest)) =
          ',' :: (quote name ++ ':' ::
            (compactChars item ++ tailChars '}' [] [] (compactMembers rest))) := by
        simp [compactMembers, tailChars]
      rw [hchars, memberTokens]
      exact ((hrest.mark rfl rfl).quote name).mark rfl rfl

end

theorem tokens?_compact {j : Json} (h : Plain j) : tokens? j.compact.toList = some j.tokens := by
  have hlexes := lexes_compact j h [] (by rintro c ⟨⟩)
  simpa [compact, tokens?] using hlexes

theorem stop_newline (indent : Nat) (close : Char) (r : List Char) :
    Stop (newline indent ++ close :: r) :=
  stop_cons (by decide) _

mutual

theorem lexes_pretty : ∀ (j : Json) (indent : Nat), Plain j →
    Lexes (prettyChars indent j) (tokens j)
  | .null, _, _ => lexes_null
  | .bool true, _, _ => lexes_true
  | .bool false, _, _ => lexes_false
  | .number n, _, h => lexes_number h
  | .string s, _, _ => by
      rw [prettyChars, tokens, ← List.append_nil (quote s)]
      exact lexes_nil.quote s
  | .array [], _, _ => (lexes_nil.mark rfl rfl).mark rfl rfl
  | .array (item :: rest), indent, h => by
      have hrest := (lexes_pretty item (indent + 2) h.1).append
        (lexes_prettyItems rest (indent + 2) indent h.2) (stop_tailChars (stop_newline _ _) _ _)
      have hchars : prettyChars indent (.array (item :: rest)) =
          '[' :: (newline (indent + 2) ++ (prettyChars (indent + 2) item ++
            tailChars ']' (newline (indent + 2)) (newline indent)
              (prettyItems (indent + 2) rest))) := by
        simp [prettyChars, joinWith_cons, tailChars]
      rw [hchars, tokens]
      exact (hrest.newline _).mark rfl rfl
  | .object [], _, _ => (lexes_nil.mark rfl rfl).mark rfl rfl
  | .object ((name, item) :: rest), indent, h => by
      have hrest := (lexes_pretty item (indent + 2) h.1).append
        (lexes_prettyMembers rest (indent + 2) indent h.2) (stop_tailChars (stop_newline _ _) _ _)
      have hchars : prettyChars indent (.object ((name, item) :: rest)) =
          '{' :: (newline (indent + 2) ++ (quote name ++ ':' :: ([' '] ++
            (prettyChars (indent + 2) item ++
              tailChars '}' (newline (indent + 2)) (newline indent)
                (prettyMembers (indent + 2) rest))))) := by
        simp [prettyChars, prettyMember, joinWith_cons, tailChars]
      rw [hchars, tokens]
      exact ((hrest.member name).newline _).mark rfl rfl

theorem lexes_prettyItems : ∀ (items : List Json) (indent outer : Nat), PlainItems items →
    Lexes (tailChars ']' (newline indent) (newline outer) (prettyItems indent items))
      (tailTokens items)
  | [], _, outer, _ => (lexes_nil.mark rfl rfl).newline outer
  | item :: rest, indent, outer, h => by
      have hrest := (lexes_pretty item indent h.1).append
        (lexes_prettyItems rest indent outer h.2) (stop_tailChars (stop_newline _ _) _ _)
      rw [prettyItems, tailChars_cons, tailTokens]
      exact (hrest.newline _).mark rfl rfl

theorem lexes_prettyMembers : ∀ (members : List (String × Json)) (indent outer : Nat),
    PlainMembers members →
    Lexes (tailChars '}' (newline indent) (newline outer) (prettyMembers indent members))
      (memberTokens members)
  | [], _, outer, _ => (lexes_nil.mark rfl rfl).newline outer
  | (name, item) :: rest, indent, outer, h => by
      have hrest := (lexes_pretty item indent h.1).append
        (lexes_prettyMembers rest indent outer h.2) (stop_tailChars (stop_newline _ _) _ _)
      have hchars : tailChars '}' (newline indent) (newline outer)
          (prettyMembers indent ((name, item) :: rest)) =
          ',' :: (newline indent ++ (quote name ++ ':' :: ([' '] ++ (prettyChars indent item ++
            tailChars '}' (newline indent) (newline outer) (prettyMembers indent rest))))) := by
        simp [prettyMembers, prettyMember, tailChars]
      rw [hchars, memberTokens]
      exact ((hrest.member name).newline _).mark rfl rfl

end

theorem tokens?_pretty {j : Json} (h : Plain j) : tokens? j.pretty.toList = some j.tokens := by
  have hlexes := lexes_pretty j 0 h [] (by rintro c ⟨⟩)
  simpa [pretty, tokens?] using hlexes

end Orchestra.Json
