import Orchestra.Proofs.Xml.Lexing

namespace Orchestra.Xml

open Text

theorem AtMarkup.append {cs ds : List Char} (hcs : AtMarkup cs) (hds : AtMarkup ds) :
    AtMarkup (cs ++ ds) := by
  cases cs with
  | nil => exact hds
  | cons c cs => exact hcs

/-- A text that is read to its end is read the same way in front of markup. -/
theorem tokens?_append {cs ds : List Char} {ts : List Token} (h : tokens? cs = some ts)
    (hds : AtMarkup ds) : tokens? (cs ++ ds) = (tokens? ds).map (ts ++ ·) := by
  induction ts generalizing cs with
  | nil =>
      rw [eq_nil_of_tokens? h, List.nil_append]
      cases tokens? ds <;> rfl
  | cons t ts ih =>
      obtain ⟨part, after, hlexeme, rfl, hafter⟩ := exists_lexeme_of_tokens? h
      have hread : Lexeme (after ++ ds) part t := hlexeme.change fun ha => ha.append hds
      rw [List.append_assoc, tokens?_of_lexeme hread, ih hafter, Option.map_map]
      rfl

theorem Lexeme.atMarkup_append {part after : List Char} {n : Name}
    (h : Lexeme after part (.stop n)) {cs : List Char} : AtMarkup (part ++ cs) := by
  cases h with
  | stop => exact atMarkup_cons _

theorem tokens?_plain {cs : List Char} (hplain : '<' ∉ cs) :
    (∃ ts, (∀ t ∈ ts, ∃ blank, t = .text blank) ∧
      ∀ ds, AtMarkup ds → tokens? (cs ++ ds) = (tokens? ds).map (ts ++ ·)) ∨
    ∀ ds, AtMarkup ds → tokens? (cs ++ ds) = none := by
  rcases cs with _ | ⟨c, cs⟩
  · refine .inl ⟨[], nofun, fun ds _ => ?_⟩
    rw [List.nil_append]
    cases tokens? ds <;> rfl
  · by_cases hbody : (c :: cs).all isChar = true ∧ ¬ contains [']', ']', '>'] (c :: cs) = true ∧
        (decode? id (c :: cs)).isSome = true
    · refine .inl ⟨[.text ((c :: cs).all isSpace)],
        fun t ht => ⟨_, List.mem_singleton.1 ht⟩, fun ds hds => ?_⟩
      exact tokens?_of_lexeme (.text (List.cons_ne_nil c cs) hplain hds hbody)
    · refine .inr fun ds hds => ?_
      obtain ⟨htake, hdrop⟩ := span_append (p := (· ≠ '<')) (all_ne_of_not_mem hplain)
        (r := ds) fun d hd => by simpa using hds d hd
      have hne : c ≠ '<' := fun h => hplain (h ▸ List.mem_cons_self ..)
      have hnone : token? (c :: cs ++ ds) = none := by
        rw [List.cons_append, token?_plain hne, ← List.cons_append, text?]
        simp only [htake]
        exact if_neg hbody
      rw [tokens?_eq_bind (List.append_ne_nil_of_left_ne_nil (List.cons_ne_nil c cs) ds), hnone,
        Option.bind_none]

theorem NameText.not_mem {cs : List Char} {n : Name} (h : NameText cs n) : '<' ∉ cs :=
  fun hmem => absurd (h.chars _ hmem) (by decide)

theorem Spaces.not_mem {cs : List Char} (h : Spaces cs) : '<' ∉ cs :=
  fun hmem => absurd (h _ hmem) (by decide)

theorem AttributeText.not_mem {cs : List Char} {a : Name × String} (h : AttributeText cs a) :
    '<' ∉ cs := by
  obtain ⟨hname, hsp, hsp', hq, hvalue⟩ := h
  have hquote : ∀ q, QuoteMark q → '<' ≠ q := by
    rintro q (rfl | rfl) <;> decide
  have hopen : ¬ '<' ∈ _ := fun hmem => (hvalue '<' hmem).2 rfl
  simp [hname.not_mem, hsp.not_mem, hsp'.not_mem, hquote _ hq, hopen]

theorem AttributesText.not_mem {cs : List Char} {as : List (Name × String)} {empty : Bool}
    (h : AttributesText cs as empty) : '<' ∉ cs := by
  induction h with
  | close hsp | closeEmpty hsp => simp [hsp.not_mem]
  | cons hsp hne ha h ih => simp [hsp.not_mem, ha.not_mem, ih]

theorem AttributesText.close_mem {cs : List Char} {as : List (Name × String)} {empty : Bool}
    (h : AttributesText cs as empty) : '>' ∈ cs := by
  induction h with
  | close | closeEmpty => simp
  | cons hsp hne ha h ih => simp [ih]

theorem Lexeme.cases_end {part after : List Char} {t : Token} (h : Lexeme after part t) :
    (∃ c rest, part = c :: rest ∧ '<' ∉ rest) ∨
      ∃ body c, part = body ++ [c, '>'] ∧ c ∈ ['-', ']', '?'] := by
  cases h with
  | @comment body => exact .inr ⟨'<' :: '!' :: '-' :: '-' :: (body ++ ['-']), '-', by simp, by simp⟩
  | @cdata body =>
      exact .inr ⟨'<' :: '!' :: '[' :: 'C' :: 'D' :: 'A' :: 'T' :: 'A' :: '[' :: (body ++ [']']),
        ']', by simp, by simp⟩
  | @instruction target sp body =>
      exact .inr ⟨'<' :: '?' :: (target ++ (sp ++ body)), '?', by simp, by simp⟩
  | stop hname hsp =>
      refine .inl ⟨_, _, rfl, ?_⟩
      simp [hname.not_mem, hsp.not_mem]
  | start hname hrest =>
      refine .inl ⟨_, _, rfl, ?_⟩
      simp [hname.not_mem, hrest.not_mem]
  | text hne hopen =>
      obtain ⟨c, rest, rfl⟩ := List.exists_cons_of_ne_nil hne
      exact .inl ⟨c, rest, rfl, fun hmem => hopen (List.mem_cons_of_mem c hmem)⟩

/-- What reaches into a closing tag and ends with its last character contains all of it. -/
theorem eq_of_overlap {inner : List Char} {last : Char} (hfree : '>' ∉ inner ++ [last])
    {front seam after body : List Char} {d : Char}
    (hstop : inner ++ [last, '>'] = seam ++ after)
    (hpart : front ++ '<' :: seam = body ++ [d, '>']) : d = last := by
  rcases List.eq_nil_or_concat seam with rfl | ⟨seam, e, rfl⟩
  · cases List.append_inj_right' (hpart.trans (List.append_cons ..)) rfl
  · have hends : (front ++ '<' :: seam) ++ [e] = (body ++ [d]) ++ ['>'] := by simpa using hpart
    obtain ⟨hfront, he⟩ := List.append_inj' hends rfl
    cases he
    have hcut : (inner ++ [last]) ++ '>' :: [] = seam ++ '>' :: after := by simpa using hstop
    obtain ⟨rfl, -, -⟩ := (List.append_cons_inj_of_notMem hfree List.not_mem_nil).1 hcut
    have hlast : (front ++ '<' :: inner) ++ [last] = body ++ [d] := by simpa using hfront
    cases List.append_inj_right' hlast rfl
    rfl

section Cutting

variable {inner : List Char} {last : Char} (hinner : '>' ∉ inner)
  (hlast : last ∉ ['-', ']', '?', '>'])

include hinner hlast

theorem Lexeme.ends_before {cs part after : List Char} {t : Token} (h : Lexeme after part t)
    (hne : cs ≠ []) (he : cs ++ '<' :: (inner ++ [last, '>']) = part ++ after) :
    ∃ rest, cs = part ++ rest ∧ after = rest ++ '<' :: (inner ++ [last, '>']) := by
  rcases List.append_eq_append_iff.1 he with ⟨seam, rfl, hstop⟩ | ⟨rest, rfl, hafter⟩
  · rcases seam with _ | ⟨c, seam⟩
    · exact ⟨[], by simp, by simpa using hstop.symm⟩
    · exfalso
      obtain ⟨rfl, htail⟩ := List.cons.inj hstop
      -- The token would either hold the `<` of the tag, or end as the tag does.
      rcases h.cases_end with ⟨d, part, hpart, hopen⟩ | ⟨body, d, hpart, hd⟩
      · obtain ⟨c, cs, rfl⟩ := List.exists_cons_of_ne_nil hne
        obtain ⟨-, rfl⟩ := List.cons.inj hpart
        simp at hopen
      · have hfree : '>' ∉ inner ++ [last] := by
          rw [List.mem_append, List.mem_singleton]
          rintro (hmem | rfl)
          · exact hinner hmem
          · exact hlast (by decide)
        obtain rfl := eq_of_overlap hfree htail hpart
        exact hlast (List.mem_append_left ['>'] hd)
  · exact ⟨rest, rfl, hafter⟩

/-- A text that ends with a closing tag can be read without it. -/
theorem tokens?_cut {t : Token}
    (hstop : tokens? ('<' :: (inner ++ [last, '>'])) = some [t]) {cs : List Char} {ts : List Token}
    (h : tokens? (cs ++ '<' :: (inner ++ [last, '>'])) = some ts) :
    ∃ ts', tokens? cs = some ts' ∧ ts = ts' ++ [t] := by
  induction ts generalizing cs with
  | nil => simpa using eq_nil_of_tokens? h
  | cons t' ts ih =>
      by_cases hne : cs = []
      · subst cs
        exact ⟨[], tokens?_nil, Option.some.inj (h.symm.trans hstop)⟩
      · obtain ⟨part, after, hlexeme, he, hafter⟩ := exists_lexeme_of_tokens? h
        obtain ⟨rest, rfl, rfl⟩ := hlexeme.ends_before hinner hlast hne he
        obtain ⟨ts', hrest, rfl⟩ := ih hafter
        have hread : Lexeme rest part t' := hlexeme.change fun ha => by
          cases rest with
          | nil => exact nofun
          | cons c rest => exact ha
        exact ⟨t' :: ts', by rw [tokens?_of_lexeme hread, hrest]; rfl, rfl⟩

end Cutting

end Orchestra.Xml
