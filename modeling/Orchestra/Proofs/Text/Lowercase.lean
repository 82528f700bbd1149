import Orchestra.Text.Case

namespace Orchestra.Text

theorem lowerAfter_eq_flatMap {cs : List Char} (h : 'Σ' ∉ cs) (before : List Char) :
    lowerAfter before cs = cs.flatMap lower := by
  induction cs generalizing before with
  | nil => rfl
  | cons c cs ih =>
      obtain ⟨hc, hcs⟩ := not_or.1 (mt List.mem_cons.2 h)
      rw [lowerAfter, if_neg (Ne.symm hc), ih hcs, List.flatMap_cons]

theorem exists_of_sigma_mem {cs : List Char} (h : 'Σ' ∈ cs) (before : List Char) :
    ∃ c ∈ lowerAfter before cs, ¬ c.toNat < 0x80 := by
  induction cs generalizing before with
  | nil => cases h
  | cons c cs ih =>
      rw [lowerAfter]
      by_cases hc : c = 'Σ'
      · rw [if_pos hc]
        split
        · exact ⟨'ς', by simp, by decide⟩
        · exact ⟨'σ', by simp, by decide⟩
      · have hcs : 'Σ' ∈ cs := by simpa [Ne.symm hc] using h
        obtain ⟨d, hd, hhigh⟩ := ih hcs (c :: before)
        exact ⟨d, List.mem_append_right _ hd, hhigh⟩

theorem toNat_toLower_ascii : ∀ n < 0x80, (Char.ofNat n).toLower.toNat < 0x80 := by
  decide

theorem toNat_lt_of_mem_fold {s : String} (h : ∀ c ∈ s.toList, c.toNat < 0x80) :
    ∀ c ∈ fold s, c.toNat < 0x80 := by
  intro c hc
  obtain ⟨d, hd, hlower⟩ := List.mem_flatMap.1 hc
  rw [lower, if_pos (h d hd)] at hlower
  obtain rfl := List.mem_singleton.1 hlower
  have hascii := toNat_toLower_ascii d.toNat (h d hd)
  rwa [Char.ofNat_toNat] at hascii

theorem lowercase_of_ascii {s : String} (h : ∀ c ∈ s.toList, c.toNat < 0x80) :
    (lowercase s).toList = fold s := by
  have hsigma : 'Σ' ∉ s.toList := fun hm => absurd (h 'Σ' hm) (by decide)
  rw [lowercase, String.toList_ofList, lowerAfter_eq_flatMap hsigma, fold]

/-- What has the lowercase of an ASCII name names the same variable, whatever it is written with. -/
theorem sameName_of_lowercase_eq {a b : String} (hb : ∀ c ∈ b.toList, c.toNat < 0x80)
    (h : lowercase a = lowercase b) : SameName a b := by
  have hchars := congrArg String.toList h
  rw [lowercase_of_ascii hb, lowercase, String.toList_ofList] at hchars
  have hsigma : 'Σ' ∉ a.toList := by
    intro hm
    obtain ⟨c, hc, hhigh⟩ := exists_of_sigma_mem hm []
    rw [hchars] at hc
    exact hhigh (toNat_lt_of_mem_fold hb c hc)
  rw [lowerAfter_eq_flatMap hsigma] at hchars
  exact hchars

theorem lower_ne_nil (c : Char) : lower c ≠ [] := by
  rw [lower]
  split
  · exact List.cons_ne_nil _ _
  · split
    · exact List.cons_ne_nil _ _
    · split <;> exact List.cons_ne_nil _ _

theorem length_lowerAfter (before cs : List Char) :
    (lowerAfter before cs).length = (cs.flatMap lower).length := by
  induction cs generalizing before with
  | nil => rfl
  | cons c cs ih =>
      rw [lowerAfter, List.flatMap_cons, List.length_append, List.length_append, ih]
      by_cases hc : c = 'Σ'
      · have hsigma : (lower 'Σ').length = 1 := by decide +kernel
        rw [if_pos hc, hc, hsigma]
        split <;> rfl
      · rw [if_neg hc]

theorem lowercase_append_ne {front back : String} (h : front ≠ "") :
    lowercase (front ++ back) ≠ lowercase back := by
  intro he
  have hlength := congrArg (fun s => s.toList.length) he
  simp only [lowercase, String.toList_ofList, length_lowerAfter, String.toList_append,
    List.flatMap_append, List.length_append] at hlength
  have hfront : front.toList ≠ [] := mt String.toList_eq_nil_iff.1 h
  obtain ⟨c, cs, hcs⟩ := List.exists_cons_of_ne_nil hfront
  have hpos : 0 < (front.toList.flatMap lower).length := by
    rw [hcs, List.flatMap_cons, List.length_append]
    exact Nat.add_pos_left (List.length_pos_iff.2 (lower_ne_nil c)) _
  omega

/-- A character that nothing but an ASCII letter has as its lowercase. -/
def Unshared (d : Char) : Prop :=
  d.toNat < 0x80 ∧ d ≠ 'k' ∧ d ≠ '\x00'

instance : DecidablePred Unshared := fun d =>
  inferInstanceAs (Decidable (d.toNat < 0x80 ∧ d ≠ 'k' ∧ d ≠ '\x00'))

theorem lowercaseRuns_high : ∀ run ∈ lowercaseRuns, (0x80 : Int) ≤ run.first + run.shift ∨
    run.first = 0x212A ∧ run.last = 0x212A ∧ run.shift = -8383 := by
  decide +kernel

theorem toNat_ofNat_or (n : Nat) : (Char.ofNat n).toNat = n ∨ Char.ofNat n = '\x00' := by
  by_cases h : n.isValidChar
  · exact .inl (by rw [Char.ofNat, dif_pos h]; rfl)
  · exact .inr (by rw [Char.ofNat, dif_neg h]; rfl)

theorem lower_of_unshared {c : Char} (h : ∀ d ∈ lower c, Unshared d) : lower c = [c.toLower] := by
  by_cases hc : c.toNat < 0x80
  · rw [lower, if_pos hc]
  · rw [lower, if_neg hc] at h
    split at h
    · exact absurd (h '\u0307' (by simp)).1 (by decide)
    · split at h
      · rename_i run hrun
        obtain ⟨hascii, hk, hnul⟩ := h _ (List.mem_singleton_self _)
        have hcovers := List.find?_some hrun
        simp only [CaseRun.covers, Bool.and_eq_true, decide_eq_true_eq] at hcovers
        rcases lowercaseRuns_high run (List.mem_of_find?_eq_some hrun) with
          hhigh | ⟨hfirst, hlast, hshift⟩
        · rcases toNat_ofNat_or (c.toNat + run.shift).toNat with hnat | heq
          · omega
          · exact absurd heq hnul
        · have hkelvin : (c.toNat + run.shift).toNat = 107 := by omega
          rw [hkelvin] at hk
          exact absurd rfl hk
      · exact absurd (h c (List.mem_singleton_self c)).1 hc

theorem fold_of_unshared {s : String} (h : ∀ d ∈ fold s, Unshared d) :
    fold s = s.toList.map Char.toLower := by
  have hlower : ∀ c ∈ s.toList, lower c = [c.toLower] := fun c hc =>
    lower_of_unshared fun d hd => h d (List.mem_flatMap.2 ⟨c, hc, hd⟩)
  rw [fold, List.flatMap_def, List.map_congr_left hlower, ← List.flatMap_def,
    ← List.map_eq_flatMap]

theorem sameAscii_of_sameName {a b : String} (hb : ∀ d ∈ fold b, Unshared d) (h : SameName a b) :
    sameAscii a b = true := by
  have ha : ∀ d ∈ fold a, Unshared d := h ▸ hb
  rw [sameAscii, ← fold_of_unshared ha, ← fold_of_unshared hb, h]
  exact BEq.rfl

end Orchestra.Text
