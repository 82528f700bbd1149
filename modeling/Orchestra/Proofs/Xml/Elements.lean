import Orchestra.Proofs.Xml.Names

namespace Orchestra.Xml

mutual

theorem Element.inductionOn {motive : Element → Prop}
    (mk : ∀ name attributes children, (∀ child ∈ children, motive child) →
      motive ⟨name, attributes, children⟩) : ∀ e : Element, motive e
  | ⟨name, attributes, children⟩ => mk name attributes children (Element.inductionOnAll mk children)
termination_by structural e => e

theorem Element.inductionOnAll {motive : Element → Prop}
    (mk : ∀ name attributes children, (∀ child ∈ children, motive child) →
      motive ⟨name, attributes, children⟩) : ∀ es : List Element, ∀ e ∈ es, motive e
  | [] => List.forall_mem_nil _
  | e :: rest =>
      List.forall_mem_cons.2 ⟨Element.inductionOn mk e, Element.inductionOnAll mk rest⟩
termination_by structural es => es

end

theorem preorderAll_eq_flatMap (es : List Element) :
    preorderAll es = es.flatMap Element.preorder := by
  induction es with
  | nil => rfl
  | cons e es ih => rw [preorderAll, ih, List.flatMap_cons]

theorem preorder_subset {x e : Element} (h : x ∈ e.preorder) : x.preorder ⊆ e.preorder := by
  induction e using Element.inductionOn with
  | mk name attributes children ih =>
      rcases mem_preorder.1 h with rfl | ⟨child, hchild, hx⟩
      · exact List.Subset.refl _
      · intro y hy
        exact mem_preorder.2 (.inr ⟨child, hchild, ih child hchild hx hy⟩)

mutual

/-- The element without those below it that `gone` picks, each taken out with all that it holds. -/
def Element.without (gone : Element → Bool) : Element → Element
  | ⟨name, attributes, children⟩ => ⟨name, attributes, withoutAll gone children⟩
termination_by structural e => e

def withoutAll (gone : Element → Bool) : List Element → List Element
  | [] => []
  | e :: rest => if gone e then withoutAll gone rest else e.without gone :: withoutAll gone rest
termination_by structural es => es

end

@[simp] theorem name_without (gone : Element → Bool) (e : Element) :
    (e.without gone).name = e.name := by
  cases e
  rfl

@[simp] theorem attributes_without (gone : Element → Bool) (e : Element) :
    (e.without gone).attributes = e.attributes := by
  cases e
  rfl

theorem withoutAll_eq (gone : Element → Bool) (es : List Element) :
    withoutAll gone es = (es.filter fun e => !gone e).map (Element.without gone) := by
  induction es with
  | nil => rfl
  | cons e es ih =>
      rw [withoutAll, List.filter_cons, ih]
      by_cases he : gone e = true <;> simp [he]

theorem mem_withoutAll {gone : Element → Bool} {x : Element} {es : List Element} :
    x ∈ withoutAll gone es ↔ ∃ e ∈ es, gone e = false ∧ e.without gone = x := by
  simp only [withoutAll_eq, List.mem_map, List.mem_filter, Bool.not_eq_true', and_assoc]

end Orchestra.Xml
