/-!
# Decimal digits of natural numbers

## Main definitions

* `Decimal.digitChar`, `Decimal.digitValue`: a digit as a character and back
* `Decimal.digits`: the digits of a number, most significant first
* `Decimal.value`: the number that digits spell

## Main results

* `Decimal.value_digits`: reading the digits of a number gives the number
* `Decimal.head?_digits_ne`: no number but zero starts with a zero
-/

namespace GoOutline.Decimal

/-- The character of a digit. -/
def digitChar (d : Nat) : Char := Char.ofNat (48 + d)

/-- The digit that a character stands for. -/
def digitValue (c : Char) : Nat := c.toNat - 48

/-- The character is a decimal digit. -/
def isDigit (c : Char) : Bool := '0' ≤ c && c ≤ '9'

/-- The decimal digits of a number, most significant first. -/
def digits (n : Nat) : List Char :=
  if n < 10 then [digitChar n] else digits (n / 10) ++ [digitChar (n % 10)]

/-- The number of decimal digits. -/
def length (n : Nat) : Nat := (digits n).length

/-- The number that some digits spell. -/
def value (cs : List Char) : Nat := cs.foldl (fun n c => 10 * n + digitValue c) 0

theorem digitValue_digitChar {d : Nat} (h : d < 10) : digitValue (digitChar d) = d := by
  have table : ∀ d, d < 10 → digitValue (digitChar d) = d := by decide
  exact table d h

theorem value_append (s t : List Char) :
    value (s ++ t) = t.foldl (fun n c => 10 * n + digitValue c) (value s) := by
  simp [value, List.foldl_append]

theorem value_digits (n : Nat) : value (digits n) = n := by
  induction n using Nat.strongRecOn with
  | _ n ih =>
    rw [digits]
    split
    · rename_i h
      simp [value, digitValue_digitChar h]
    · rename_i h
      rw [value_append, ih (n / 10) (by omega)]
      simp only [List.foldl_cons, List.foldl_nil, digitValue_digitChar (Nat.mod_lt n (by omega))]
      omega

theorem isDigit_digitChar {d : Nat} (h : d < 10) : isDigit (digitChar d) := by
  have table : ∀ d, d < 10 → isDigit (digitChar d) := by decide
  exact table d h

theorem digits_ne_nil (n : Nat) : digits n ≠ [] := by
  rw [digits]
  split
  · exact List.cons_ne_nil _ _
  · simp

theorem isDigit_of_mem_digits (n : Nat) : ∀ c ∈ digits n, isDigit c := by
  induction n using Nat.strongRecOn with
  | _ n ih =>
    rw [digits]
    split
    · next h =>
      intro c hc
      rw [List.mem_singleton.1 hc]
      exact isDigit_digitChar h
    · next h =>
      intro c hc
      rcases List.mem_append.1 hc with hc | hc
      · exact ih (n / 10) (by omega) c hc
      · rw [List.mem_singleton.1 hc]
        exact isDigit_digitChar (Nat.mod_lt n (by omega))

/-- No number but zero starts with a zero. -/
theorem head?_digits_ne {n : Nat} (h : 0 < n) : (digits n).head? ≠ some '0' := by
  induction n using Nat.strongRecOn with
  | _ n ih =>
    rw [digits]
    split
    · next hn =>
      have table : ∀ d, d < 10 → 0 < d → digitChar d ≠ '0' := by decide
      simpa using table n hn h
    · next hn =>
      have hhead := ih (n / 10) (by omega) (by omega)
      obtain ⟨c, cs, hcs⟩ := List.exists_cons_of_ne_nil (digits_ne_nil (n / 10))
      rwa [hcs] at hhead ⊢

end GoOutline.Decimal
