namespace Orchestra.Decimal

def isDigit (c : Char) : Bool :=
  '0' ≤ c && c ≤ '9'

def digitChar (n : Nat) : Char :=
  Char.ofNat (48 + n % 10)

def digitValue (c : Char) : Nat :=
  c.toNat - 48

def digits (n : Nat) : List Char :=
  if n < 10 then [digitChar n] else digits (n / 10) ++ [digitChar n]

def value (cs : List Char) : Nat :=
  cs.foldl (fun n c => 10 * n + digitValue c) 0

theorem digitValue_digitChar (n : Nat) : digitValue (digitChar n) = n % 10 := by
  have h : ∀ d, d < 10 → digitValue (Char.ofNat (48 + d)) = d := by decide
  exact h (n % 10) (Nat.mod_lt _ (by decide))

theorem isDigit_digitChar (n : Nat) : isDigit (digitChar n) = true := by
  have h : ∀ d, d < 10 → isDigit (Char.ofNat (48 + d)) = true := by decide
  exact h (n % 10) (Nat.mod_lt _ (by decide))

theorem value_concat (cs : List Char) (c : Char) :
    value (cs ++ [c]) = 10 * value cs + digitValue c := by
  simp [value]

@[simp] theorem value_digits (n : Nat) : value (digits n) = n := by
  fun_induction digits n with
  | case1 n h =>
      have := digitValue_digitChar n
      simp only [value, List.foldl_cons, List.foldl_nil]
      omega
  | case2 n h ih =>
      rw [value_concat, ih, digitValue_digitChar]
      omega

theorem isDigit_of_mem_digits {n : Nat} {c : Char} (h : c ∈ digits n) : isDigit c = true := by
  fun_induction digits n with
  | case1 n => exact (List.mem_singleton.1 h) ▸ isDigit_digitChar n
  | case2 n _ ih =>
      rcases List.mem_append.1 h with h | h
      · exact ih h
      · exact (List.mem_singleton.1 h) ▸ isDigit_digitChar n

theorem digits_ne_nil (n : Nat) : digits n ≠ [] := by
  rw [digits]
  split <;> simp

theorem head_digits {n : Nat} (h : 0 < n) : (digits n).head? ≠ some '0' := by
  fun_induction digits n with
  | case1 n hn =>
      have key : ∀ d, d < 10 → 0 < d → some (Char.ofNat (48 + d)) ≠ some '0' := by decide
      simpa [digitChar, Nat.mod_eq_of_lt hn] using key n hn h
  | case2 n hn ih =>
      have ih := ih (by omega)
      have hne := digits_ne_nil (n / 10)
      cases hd : digits (n / 10) with
      | nil => exact absurd hd hne
      | cons d ds => simpa [hd] using ih

end Orchestra.Decimal
