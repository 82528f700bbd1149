import Mathlib.Data.List.Lex
import Orchestra.Proofs.Xml.Elements

namespace Orchestra.Xml

/-- Which child is taken on each level on the way to an element. Places in their lexicographic order
are places in the order of the start tags. -/
abbrev Place := List Nat

def Element.at? : Element → Place → Option Element
  | e, [] => some e
  | e, i :: rest => (e.children[i]?).bind fun child => child.at? rest

theorem at?_concat (e : Element) (parent : Place) (i : Nat) :
    e.at? (parent ++ [i]) = (e.at? parent).bind fun x => x.children[i]? := by
  induction parent generalizing e with
  | nil =>
      rw [List.nil_append, Element.at?, Element.at?, Option.bind_some]
      cases e.children[i]? <;> rfl
  | cons j rest ih =>
      rw [List.cons_append, Element.at?, Element.at?, Option.bind_assoc]
      exact congrArg _ (funext fun child => ih child)

def below (i : Nat) (x : Place × Element) : Place × Element :=
  (i :: x.1, x.2)

mutual

def Element.placed : Element → List (Place × Element)
  | ⟨name, attributes, children⟩ => ([], ⟨name, attributes, children⟩) :: placedFrom 0 children
termination_by structural e => e

def placedFrom : Nat → List Element → List (Place × Element)
  | _, [] => []
  | i, e :: rest => e.placed.map (below i) ++ placedFrom (i + 1) rest
termination_by structural _ es => es

end

theorem placedFrom_eq (i : Nat) (es : List Element) :
    placedFrom i es = (es.zipIdx i).flatMap fun c => c.1.placed.map (below c.2) := by
  induction es generalizing i with
  | nil => rfl
  | cons e es ih => rw [placedFrom, ih, List.zipIdx_cons, List.flatMap_cons]

theorem placed_mk (name : String) (attributes : List (String × String)) (children : List Element) :
    Element.placed ⟨name, attributes, children⟩ =
      ([], ⟨name, attributes, children⟩) ::
        children.zipIdx.flatMap fun c => c.1.placed.map (below c.2) := by
  rw [Element.placed, placedFrom_eq]

theorem map_snd_placed (e : Element) : e.placed.map Prod.snd = e.preorder := by
  induction e using Element.inductionOn with
  | mk name attributes children ih =>
      have hbelow : ∀ c ∈ children.zipIdx,
          (c.1.placed.map (below c.2)).map Prod.snd = c.1.preorder := by
        intro c hc
        rw [List.map_map, ← ih c.1 (List.fst_mem_of_mem_zipIdx hc)]
        rfl
      have hindexed : (children.zipIdx.flatMap fun c => c.1.preorder) =
          children.flatMap Element.preorder := by
        conv_rhs => rw [← List.zipIdx_map_fst 0 children, List.flatMap_map]
      rw [placed_mk, List.map_cons, List.map_flatMap, List.flatMap_congr hbelow, hindexed,
        Element.preorder, preorderAll_eq_flatMap]

theorem mem_placed {e x : Element} {place : Place} :
    (place, x) ∈ e.placed ↔ e.at? place = some x := by
  induction e using Element.inductionOn generalizing place with
  | mk name attributes children ih =>
      rw [placed_mk, List.mem_cons, List.mem_flatMap]
      cases place with
      | nil =>
          simp only [below, List.mem_map, Prod.mk.injEq, reduceCtorEq, false_and, and_false,
            exists_false, or_false, true_and, Element.at?, Option.some.injEq, eq_comm]
      | cons i rest =>
          simp only [Prod.mk.injEq, reduceCtorEq, false_and, false_or, List.mem_map, below,
            List.cons.injEq, Element.at?, Option.bind_eq_some_iff]
          constructor
          · rintro ⟨c, hc, y, hy, ⟨rfl, rfl⟩, rfl⟩
            have hchild := List.mem_zipIdx_iff_getElem?.1 hc
            exact ⟨c.1, hchild, (ih c.1 (List.mem_of_getElem? hchild)).1 hy⟩
          · rintro ⟨child, hchild, hx⟩
            exact ⟨(child, i), List.mem_zipIdx_iff_getElem?.2 hchild, (rest, x),
              (ih child (List.mem_of_getElem? hchild)).2 hx, ⟨rfl, rfl⟩, rfl⟩

theorem pairwise_zipIdx {α : Type} (as : List α) : as.zipIdx.Pairwise fun a b => a.2 < b.2 := by
  have hsorted : (as.zipIdx.map Prod.snd).Pairwise (· < ·) := by
    rw [List.zipIdx_map_snd]
    exact List.pairwise_lt_range'
  exact List.pairwise_map.1 hsorted

theorem pairwise_placed (e : Element) : e.placed.Pairwise fun x y => x.1 < y.1 := by
  induction e using Element.inductionOn with
  | mk name attributes children ih =>
      rw [placed_mk, List.pairwise_cons, List.pairwise_flatMap]
      refine ⟨fun x hx => ?_, fun c hc => ?_, (pairwise_zipIdx children).imp fun hlt => ?_⟩
      · obtain ⟨c, -, hx⟩ := List.mem_flatMap.1 hx
        obtain ⟨y, -, rfl⟩ := List.mem_map.1 hx
        exact List.nil_lt_cons _ _
      · refine List.pairwise_map.2 ((ih c.1 (List.fst_mem_of_mem_zipIdx hc)).imp fun hlt => ?_)
        exact List.cons_lt_cons_iff.2 (.inr ⟨rfl, hlt⟩)
      · intro x hx y hy
        obtain ⟨x, -, rfl⟩ := List.mem_map.1 hx
        obtain ⟨y, -, rfl⟩ := List.mem_map.1 hy
        exact List.cons_lt_cons_iff.2 (.inl hlt)

abbrev Tag := String × List (String × String)

def Element.tag (e : Element) : Tag :=
  (e.name, e.attributes)

def Token.tag? : Token → Option Tag
  | .start name attributes _ =>
      some (name.base, (attributes.filter fun a => !a.1.declares).map fun a => (a.1.base, a.2))
  | .stop _ | .text _ | .aside => none

def startTags? (text : String) : Option (List Tag) :=
  (tokens? text.toList).map fun ts => ts.filterMap Token.tag?

def Frame.tags (f : Frame) : List Tag :=
  (f.tag.base, f.attributes) :: (preorderAll f.children.reverse).map Element.tag

theorem tags_eq (f : Frame) : f.tags = f.element.preorder.map Element.tag := by
  rw [Frame.element, Element.preorder, List.map_cons]
  rfl

theorem tags_of_ofTag? {outer : List (String × String)} {name : Name}
    {as : List (Name × String)} {f : Frame} (h : Frame.ofTag? outer name as = some f)
    (empty : Bool) : f.tags = (Token.tag? (.start name as empty)).toList := by
  have htag := Frame.tag_of_ofTag? h
  have hchildren := Builder.children_of_ofTag? h
  have hattributes : f.attributes =
      (as.filter fun a => !a.1.declares).map fun a => (a.1.base, a.2) := by
    simp only [Frame.ofTag?, bind, Option.bind_eq_some_iff] at h
    obtain ⟨found, -, h⟩ := h
    split at h
    · cases h
    · obtain ⟨plain, hplain, he⟩ := Option.bind_eq_some_iff.1 h
      cases he
      simp only [expanded?, bind, Option.bind_eq_some_iff] at hplain
      obtain ⟨spaces, -, hplain⟩ := hplain
      split at hplain
      · cases hplain
        rfl
      · cases hplain
  rw [Frame.tags, htag, hchildren, hattributes]
  rfl

namespace Builder

def tags (b : Builder) : List Tag :=
  b.frames.reverse.flatMap Frame.tags ++
    (b.root.toList.flatMap Element.preorder).map Element.tag

theorem tags_add (e : Element) (frames : List Frame) :
    (add e frames).tags = frames.reverse.flatMap Frame.tags ++ e.preorder.map Element.tag := by
  cases frames with
  | nil => simp [add, tags]
  | cons f frames =>
      simp [add, tags, Frame.tags, preorderAll_eq_flatMap]

theorem Steps.tags_eq {b b' : Builder} {t : Token} (h : Steps b t b') (hb : b.Settled) :
    b'.tags = b.tags ++ t.tag?.toList := by
  cases h with
  | aside | text => exact (List.append_nil _).symm
  | @opens frames name as f hf =>
      simp [tags, ← tags_of_ofTag? hf false]
  | @empty frames name as f hf =>
      rw [tags_add, ← Xml.tags_eq, tags_of_ofTag? hf true]
      simp [tags]
  | closes f frames root =>
      obtain rfl : root = none := hb.resolve_left (List.cons_ne_nil f frames)
      rw [tags_add, ← Xml.tags_eq]
      simp [tags, Token.tag?]

theorem tags_run {b b' : Builder} {ts : List Token} (hb : b.Settled) (h : b.run ts = some b') :
    b'.tags = b.tags ++ ts.filterMap Token.tag? := by
  induction ts generalizing b with
  | nil =>
      cases h
      exact (List.append_nil _).symm
  | cons t ts ih =>
      obtain ⟨b₁, hstep, hrun⟩ := exists_step_of_run h
      rw [ih (hstep.settled hb) hrun, hstep.tags_eq hb, List.append_assoc, List.filterMap_cons]
      cases t.tag? <;> rfl

end Builder

/-- The start tags of a text are those of the elements in preorder. -/
theorem startTags?_of_parse? {text : String} {root : Element} (h : parse? text = some root) :
    startTags? text = some (root.preorder.map Element.tag) := by
  rw [parse?_eq, root?] at h
  obtain ⟨ts, hts, h⟩ := Option.bind_eq_some_iff.1 h
  obtain ⟨b, hrun, hroot⟩ := Option.bind_eq_some_iff.1 h
  have hsettled : b.Settled := Builder.invariant_run Builder.Steps.settled (.inl rfl) hrun
  have hframes : b.frames = [] := hsettled.resolve_right (Option.ne_none_iff_exists'.2 ⟨root, hroot⟩)
  have htags := Builder.tags_run (.inl rfl) hrun
  rw [Builder.tags, hframes, hroot] at htags
  rw [startTags?, hts, Option.map_some, Option.some_inj]
  simpa [Builder.tags] using htags.symm

end Orchestra.Xml
