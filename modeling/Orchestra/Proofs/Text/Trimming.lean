import Mathlib.Data.List.Basic
import Mathlib.Data.List.TakeWhile
import Orchestra.Text.Blank

namespace Orchestra.Text

theorem span_append {p : Char → Bool} {w r : List Char} (hw : ∀ c ∈ w, p c = true)
    (hr : ∀ c ∈ r.head?, p c = false) :
    (w ++ r).takeWhile p = w ∧ (w ++ r).dropWhile p = r := by
  rw [List.takeWhile_append_of_pos hw, List.dropWhile_append_of_pos hw]
  cases r with
  | nil => simp
  | cons c r => simp [hr c rfl]

theorem all_ne_of_not_mem {d : Char} {cs : List Char} (h : d ∉ cs) :
    ∀ c ∈ cs, decide (c ≠ d) = true := by
  intro c hc
  apply decide_eq_true
  rintro rfl
  exact h hc

theorem not_of_head?_dropWhile {p : Char → Bool} {cs : List Char} {c : Char}
    (h : (cs.dropWhile p).head? = some c) : p c = false := by
  have hn := List.head?_dropWhile_not p cs
  rw [h] at hn
  exact hn

theorem not_of_dropWhile {p : Char → Bool} {cs r : List Char} {c : Char}
    (h : cs.dropWhile p = c :: r) : p c = false :=
  not_of_head?_dropWhile (congrArg List.head? h)

theorem exists_span (p : Char → Bool) (cs : List Char) :
    ∃ w r, cs = w ++ r ∧ (∀ c ∈ w, p c = true) ∧ ∀ c ∈ r.head?, p c = false := by
  refine ⟨cs.takeWhile p, cs.dropWhile p, List.takeWhile_append_dropWhile.symm, ?_, ?_⟩
  · intro c hc
    exact List.mem_takeWhile_imp hc
  · intro c hc
    exact not_of_head?_dropWhile hc

theorem mem_of_dropWhile {p : Char → Bool} {cs r : List Char} (h : cs.dropWhile p = r) :
    ∀ c ∈ r, c ∈ cs := by
  subst r
  exact fun c hc => (List.dropWhile_sublist p).subset hc

theorem getLast?_dropWhile {p : Char → Bool} {cs w r : List Char} (h : cs.dropWhile p = w ++ r)
    (hr : r ≠ []) : cs.getLast? = r.getLast? := by
  rw [← List.takeWhile_append_dropWhile (p := p) (l := cs), h,
    List.getLast?_append_of_ne_nil _ (List.append_ne_nil_of_right_ne_nil w hr),
    List.getLast?_append_of_ne_nil _ hr]

theorem dropWhile_ne_nil {p : Char → Bool} {c : Char} {cs : List Char} (hc : p c = true)
    (hl : ∀ d ∈ (c :: cs).getLast?, p d = false) : cs.dropWhile p ≠ [] := by
  intro h
  have hall : ∀ d ∈ c :: cs, p d = true :=
    List.forall_mem_cons.2 ⟨hc, List.dropWhile_eq_nil_iff.1 h⟩
  have hlast := hl _ (List.getLast?_eq_some_getLast (List.cons_ne_nil c cs))
  rw [hall _ (List.getLast_mem _)] at hlast
  cases hlast

theorem trimList_of_not_white {cs : List Char} (h : ∀ c ∈ cs, isWhite c = false) :
    trimList cs = cs := by
  apply trimList_eq_self
  · exact fun c hc => h c (List.mem_of_mem_head? hc)
  · exact fun c hc => h c (List.mem_of_getLast? hc)

theorem trimList_cons {c : Char} (hc : isWhite c = false) (cs : List Char) :
    ∃ r, trimList (c :: cs) = c :: r := by
  rw [trimList, List.dropWhile_cons_of_neg (by simp [hc]), trimEnd, List.reverse_cons,
    List.dropWhile_append]
  split
  · exact ⟨[], by simp [hc]⟩
  · exact ⟨(cs.reverse.dropWhile isWhite).reverse, by simp⟩

theorem trimList_within (cs : List Char) : trimList cs <:+: cs := by
  have hend : trimList cs <+: cs.dropWhile isWhite := by
    have hsuffix := List.dropWhile_suffix isWhite (l := (cs.dropWhile isWhite).reverse)
    rw [← List.reverse_prefix, List.reverse_reverse] at hsuffix
    exact hsuffix
  exact hend.isInfix.trans (List.dropWhile_suffix isWhite).isInfix

theorem trimList_subset (cs : List Char) : trimList cs ⊆ cs :=
  (trimList_within cs).subset

theorem not_white_getLast?_trimList (cs : List Char) :
    ∀ c ∈ (trimList cs).getLast?, isWhite c = false := by
  intro c hc
  rw [trimList, trimEnd, List.getLast?_reverse] at hc
  exact not_of_head?_dropWhile hc

theorem not_white_head?_trimList (cs : List Char) :
    ∀ c ∈ (trimList cs).head?, isWhite c = false := by
  intro c hc
  cases hd : cs.dropWhile isWhite with
  | nil => simp [trimList, hd, trimEnd] at hc
  | cons d r =>
      have hn := not_of_dropWhile hd
      obtain ⟨r', hr⟩ := trimList_cons hn r
      rw [trimList, List.dropWhile_cons_of_neg (by simp [hn])] at hr
      rw [trimList, hd, hr] at hc
      cases hc
      exact hn

def Solid (cs : List Char) : Prop :=
  ∃ c d, cs.head? = some c ∧ cs.getLast? = some d ∧ isWhite c = false ∧ isWhite d = false

theorem Solid.between {cs ds : List Char} (h : Solid cs) (k : Solid ds) (ms : List Char) :
    Solid (cs ++ (ms ++ ds)) := by
  obtain ⟨c, -, hc, -, hcw, -⟩ := h
  obtain ⟨-, d, -, hd, -, hdw⟩ := k
  exact ⟨c, d, by simp [hc], by simp [hd], hcw, hdw⟩

theorem Solid.ne_nil {cs : List Char} (h : Solid cs) : cs ≠ [] := by
  rintro rfl
  obtain ⟨c, -, hc, -⟩ := h
  cases hc

theorem solid_of_not_white {cs : List Char} (hne : cs ≠ []) (h : ∀ c ∈ cs, isWhite c = false) :
    Solid cs := by
  refine ⟨_, _, List.head?_eq_some_head hne, List.getLast?_eq_some_getLast hne, ?_, ?_⟩
  · exact h _ (List.head_mem hne)
  · exact h _ (List.getLast_mem hne)

theorem trimList_pad {lead cs trail : List Char} (hl : ∀ c ∈ lead, isWhite c = true)
    (ht : ∀ c ∈ trail, isWhite c = true) (h : Solid cs) : trimList (lead ++ (cs ++ trail)) = cs := by
  obtain ⟨c, d, hc, hd, hcw, hdw⟩ := h
  have hfront : (lead ++ (cs ++ trail)).dropWhile isWhite = cs ++ trail := by
    rw [List.dropWhile_append_of_pos hl]
    cases cs with
    | nil => cases hc
    | cons x cs =>
        cases hc
        exact List.dropWhile_cons_of_neg (by simp [hcw])
  have hback : (cs ++ trail).reverse.dropWhile isWhite = cs.reverse := by
    rw [List.reverse_append, List.dropWhile_append_of_pos fun x hx => ht x (List.mem_reverse.1 hx)]
    rw [← List.head?_reverse] at hd
    cases hr : cs.reverse with
    | nil => rw [hr] at hd; cases hd
    | cons x xs =>
        rw [hr] at hd
        cases hd
        exact List.dropWhile_cons_of_neg (by simp [hdw])
  rw [trimList, trimEnd, hfront, hback, List.reverse_reverse]

end Orchestra.Text
