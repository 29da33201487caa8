namespace Abacus.Numeral

def maxDigits : Nat := 4300

def value (digits : List Char) : Nat :=
  Nat.ofDigitChars 10 digits 0

def Readable (digits : List Char) : Prop :=
  0 < digits.length ∧ digits.length ≤ maxDigits

instance (digits : List Char) : Decidable (Readable digits) :=
  inferInstanceAs (Decidable (_ ∧ _))

def decimal : Int → String
  | .ofNat n => n.repr
  | .negSucc n => "-" ++ (n + 1).repr

def Writable (v : Int) : Prop :=
  v.natAbs < Nat.pow 10 maxDigits

instance (v : Int) : Decidable (Writable v) :=
  inferInstanceAs (Decidable (_ < _))

def text? (v : Int) : Option String :=
  if Writable v then some (decimal v) else none

theorem text?_eq {v : Int} (h : Writable v) : text? v = some (decimal v) :=
  if_pos h

theorem writable_iff_length (n : Nat) :
    Writable n ↔ (decimal n).toList.length ≤ maxDigits := by
  have h : (decimal n).toList = Nat.toDigits 10 n := Nat.toList_repr
  rw [h, Nat.length_toDigits_le_iff (by omega) (by decide), Writable, Int.natAbs_natCast, Nat.pow_eq]

theorem value_lt {digits : List Char} (h : ∀ x ∈ digits, x.isDigit) :
    value digits < Nat.pow 10 digits.length := by
  induction digits
  case nil => exact Nat.zero_lt_one
  case cons x tl hi =>
    have hx : x.toNat - '0'.toNat ≤ 9 := by
      have := h x (by simp)
      simp [Char.isDigit, UInt32.le_iff_toNat_le] at this
      simp
      omega
    have ht : Nat.ofDigitChars 10 tl 0 < Nat.pow 10 tl.length := hi fun y hy => h y (by simp [hy])
    have hp : Nat.pow 10 (tl.length + 1) = Nat.pow 10 tl.length * 10 := rfl
    have hm := Nat.mul_le_mul_left (Nat.pow 10 tl.length) hx
    rw [value, Nat.ofDigitChars_cons, Nat.ofDigitChars_eq_ofDigitChars_zero, List.length_cons, hp]
    simp only [Nat.pow_eq, Nat.mul_zero, Nat.zero_add] at ht hm ⊢
    omega

theorem writable_value {digits : List Char} (hd : ∀ x ∈ digits, x.isDigit) (hr : Readable digits) :
    Writable (value digits) := by
  have hp (m k : Nat) (h : m ≤ k) : Nat.pow 10 m ≤ Nat.pow 10 k :=
    Nat.pow_le_pow_right (by omega) h
  rw [Writable, Int.natAbs_natCast]
  exact Nat.lt_of_lt_of_le (value_lt hd) (hp _ _ hr.2)

theorem value_decimal (n : Nat) : value (decimal n).toList = n := by
  have h : (decimal n).toList = Nat.toDigits 10 n := Nat.toList_repr
  rw [h, value, Nat.ofDigitChars_toDigits (by omega) (by omega)]

theorem isDigit_of_mem_decimal {n : Nat} (h : x ∈ (decimal n).toList) : x.isDigit := by
  have hn : (decimal n).toList = Nat.toDigits 10 n := Nat.toList_repr
  exact Nat.isDigit_of_mem_toDigits (by omega) (by omega) (hn ▸ h)

theorem exists_cons_decimal (v : Int) :
    ∃ x tl, (decimal v).toList = x :: tl ∧ (x = '-' ∨ x.isDigit) := by
  cases v
  case ofNat n =>
    have hn : (decimal n).toList ≠ [] := by
      have h : (decimal n).toList = Nat.toDigits 10 n := Nat.toList_repr
      exact h ▸ Nat.toDigits_ne_nil
    have ⟨x, tl, ht⟩ := List.exists_cons_of_ne_nil hn
    exact ⟨x, tl, ht, .inr <| isDigit_of_mem_decimal (n := n) (by simp [ht])⟩
  case negSucc n => exact ⟨'-', (n + 1).repr.toList, by simp [decimal], .inl rfl⟩

theorem readable_decimal {n : Nat} (h : Writable n) : Readable (decimal n).toList := by
  have hn : (decimal n).toList = Nat.toDigits 10 n := Nat.toList_repr
  exact ⟨hn ▸ Nat.length_toDigits_pos, writable_iff_length n |>.mp h⟩

end Abacus.Numeral
