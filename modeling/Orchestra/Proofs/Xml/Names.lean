import Orchestra.Proofs.Xml.Nesting

namespace Orchestra.Xml

open Text

/-- Characters of names, none of them a colon. -/
def Local (s : String) : Prop :=
  ∀ c ∈ s.toList, isNameChar c = true ∧ c ≠ ':'

theorem NameText.local {cs : List Char} {n : Name} (h : NameText cs n) : Local n.base := by
  have hread := h.read
  unfold Name.ofChars? at hread
  dsimp only at hread
  split at hread
  · rename_i hdrop
    split at hread
    · cases hread
      intro c hc
      rw [String.toList_ofList] at hc
      have hcolon := List.dropWhile_eq_nil_iff.1 hdrop c hc
      exact ⟨h.chars c hc, by simpa using hcolon⟩
    · cases hread
  · rename_i d back hdrop
    split at hread
    · rename_i hback
      cases hread
      intro c hc
      rw [String.toList_ofList] at hc
      have hmem : c ∈ cs := mem_of_dropWhile hdrop c (List.mem_cons_of_mem d hc)
      exact ⟨h.chars c hmem, fun he => hback.1 (he ▸ hc)⟩
    · cases hread

def Token.Local : Token → Prop
  | .start n .. => Xml.Local n.base
  | .stop _ | .text _ | .aside => True

theorem Lexeme.local {part after : List Char} {t : Token} (h : Lexeme after part t) : t.Local := by
  cases h with
  | start hname => exact hname.local
  | comment | cdata | instruction | stop | text => trivial

theorem local_of_tokens? {cs : List Char} {ts : List Token} (h : tokens? cs = some ts) :
    ∀ t ∈ ts, t.Local := by
  induction ts generalizing cs with
  | nil => exact List.forall_mem_nil _
  | cons t ts ih =>
      obtain ⟨part, after, hlexeme, -, hafter⟩ := exists_lexeme_of_tokens? h
      exact List.forall_mem_cons.2 ⟨hlexeme.local, ih hafter⟩

theorem mem_preorderAll {x : Element} {es : List Element} :
    x ∈ preorderAll es ↔ ∃ e ∈ es, x ∈ e.preorder := by
  induction es with
  | nil => simp [preorderAll]
  | cons e es ih => simp [preorderAll, ih]

theorem mem_preorder {x e : Element} :
    x ∈ e.preorder ↔ x = e ∨ ∃ child ∈ e.children, x ∈ child.preorder := by
  obtain ⟨name, attributes, children⟩ := e
  rw [Element.preorder, List.mem_cons, mem_preorderAll]

mutual

theorem Element.child_mem_preorder {x child : Element} (hchild : child ∈ x.children) :
    ∀ e : Element, x ∈ e.preorder → child ∈ e.preorder
  | ⟨name, attributes, children⟩, h => by
      rcases mem_preorder.1 h with rfl | ⟨e, he, hx⟩
      · exact mem_preorder.2 (.inr ⟨child, hchild, mem_preorder.2 (.inl rfl)⟩)
      · have hbelow := child_mem_preorderAll hchild children (mem_preorderAll.2 ⟨e, he, hx⟩)
        exact List.mem_cons_of_mem _ hbelow
termination_by structural e => e

theorem child_mem_preorderAll {x child : Element} (hchild : child ∈ x.children) :
    ∀ es : List Element, x ∈ preorderAll es → child ∈ preorderAll es
  | [], h => nomatch h
  | e :: rest, h =>
      (List.mem_append.1 h).elim
        (fun h => List.mem_append_left _ (Element.child_mem_preorder hchild e h))
        (fun h => List.mem_append_right _ (child_mem_preorderAll hchild rest h))
termination_by structural es => es

end

def Element.Local (e : Element) : Prop :=
  ∀ x ∈ e.preorder, Xml.Local x.name

theorem Element.local_iff {e : Element} :
    e.Local ↔ Xml.Local e.name ∧ ∀ child ∈ e.children, child.Local := by
  unfold Element.Local
  constructor
  · intro h
    refine ⟨h e (mem_preorder.2 (.inl rfl)), fun child hchild x hx => ?_⟩
    exact h x (mem_preorder.2 (.inr ⟨child, hchild, hx⟩))
  · rintro ⟨he, hchildren⟩ x hx
    rcases mem_preorder.1 hx with rfl | ⟨child, hchild, hx⟩
    · exact he
    · exact hchildren child hchild x hx

namespace Builder

/-- Whatever is open or complete has local names. -/
structure Named (b : Builder) : Prop where
  tags : ∀ f ∈ b.frames, Local f.tag.base
  children : ∀ f ∈ b.frames, ∀ e ∈ f.children, e.Local
  root : ∀ e ∈ b.root, e.Local

theorem named_start : Named ⟨[], none⟩ :=
  ⟨nofun, nofun, nofun⟩

theorem named_add {e : Element} {frames : List Frame} (he : e.Local)
    (htags : ∀ f ∈ frames, Local f.tag.base) (hchildren : ∀ f ∈ frames, ∀ e ∈ f.children, e.Local) :
    (add e frames).Named := by
  cases frames with
  | nil =>
      refine ⟨nofun, nofun, ?_⟩
      rintro _ ⟨⟩
      exact he
  | cons f frames =>
      obtain ⟨hf, hframes⟩ := List.forall_mem_cons.1 hchildren
      exact ⟨List.forall_mem_cons.2 (List.forall_mem_cons.1 htags),
        List.forall_mem_cons.2 ⟨List.forall_mem_cons.2 ⟨he, hf⟩, hframes⟩, nofun⟩

theorem children_of_ofTag? {outer : List (String × String)} {tag : Name}
    {as : List (Name × String)} {f : Frame} (h : Frame.ofTag? outer tag as = some f) :
    f.children = [] := by
  simp only [Frame.ofTag?, bind, Option.bind_eq_some_iff] at h
  obtain ⟨found, -, h⟩ := h
  split at h
  · cases h
  · obtain ⟨plain, -, he⟩ := Option.bind_eq_some_iff.1 h
    cases he
    rfl

theorem Steps.named {b b' : Builder} {t : Token} (h : Steps b t b') (ht : t.Local)
    (hb : b.Named) : b'.Named := by
  cases h with
  | aside | text => exact hb
  | @opens frames tag as f hf =>
      have htag : Local f.tag.base := Frame.tag_of_ofTag? hf ▸ ht
      have hchildren : ∀ e ∈ f.children, e.Local := by
        rw [children_of_ofTag? hf]
        exact List.forall_mem_nil _
      exact ⟨List.forall_mem_cons.2 ⟨htag, hb.tags⟩,
        List.forall_mem_cons.2 ⟨hchildren, hb.children⟩, nofun⟩
  | @empty frames tag as f hf =>
      have htag : Local f.tag.base := Frame.tag_of_ofTag? hf ▸ ht
      have helement : f.element.Local := by
        refine Element.local_iff.2 ⟨htag, ?_⟩
        rw [Frame.element, children_of_ofTag? hf]
        exact List.forall_mem_nil _
      exact named_add helement hb.tags hb.children
  | closes f frames root =>
      obtain ⟨htag, htags⟩ := List.forall_mem_cons.1 hb.tags
      obtain ⟨hf, hframes⟩ := List.forall_mem_cons.1 hb.children
      have helement : f.element.Local :=
        Element.local_iff.2 ⟨htag, fun e he => hf e (List.mem_reverse.1 he)⟩
      exact named_add helement htags hframes

end Builder

theorem local_of_parse? {text : String} {root : Element} (h : parse? text = some root) :
    root.Local := by
  rw [parse?_eq, root?] at h
  obtain ⟨ts, hts, h⟩ := Option.bind_eq_some_iff.1 h
  obtain ⟨b, hrun, hroot⟩ := Option.bind_eq_some_iff.1 h
  exact (Builder.invariant_run_of Builder.Steps.named (local_of_tokens? hts) Builder.named_start
    hrun).root root hroot

end Orchestra.Xml
