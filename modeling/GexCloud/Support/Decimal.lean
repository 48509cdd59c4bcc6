import GexCloud.Support.Texts
import Mathlib.Logic.Function.Defs

/-! # Numbers as decimal texts

* **`decimal`** — the digits of a natural number; **`signed`** — those of an integer, with its sign.
* **`decimal_injective`**, **`signed_injective`** — different numbers have different texts. -/

namespace Texts

/-- The decimal text of a natural number. -/
def decimal (n : Nat) : Text := Nat.toDigits 10 n

/-- The decimal text of an integer, with a minus sign in front of a negative one. -/
def signed : Int → Text
  | .ofNat n => decimal n
  | .negSucc n => '-' :: decimal (n + 1)

@[simp] theorem signed_natCast (n : Nat) : signed (n : Int) = decimal n := rfl

/-- Every number has a digit. -/
@[simp] theorem decimal_ne_nil (n : Nat) : decimal n ≠ [] := Nat.toDigits_ne_nil

/-- A decimal text has only digits. -/
theorem isDigit_of_mem_decimal {n : Nat} {c : Char} (h : c ∈ decimal n) : c.isDigit = true :=
  Nat.isDigit_of_mem_toDigits (by omega) (by omega) h

/-- The codes of the digits start at 48. -/
theorem le_toNat_of_isDigit {c : Char} (h : c.isDigit = true) : 48 ≤ c.toNat := by
  simp only [Char.isDigit, Bool.and_eq_true, decide_eq_true_eq] at h
  exact UInt32.le_iff_toNat_le.mp h.1

/-- What is no digit is not in a decimal text. -/
theorem not_mem_decimal {n : Nat} {c : Char} (h : c.isDigit = false) : c ∉ decimal n := by
  intro hmem
  rw [isDigit_of_mem_decimal hmem] at h
  cases h

/-- Reading a printed number gives it back. -/
@[simp] theorem ofDigitChars_decimal (n : Nat) : Nat.ofDigitChars 10 (decimal n) 0 = n :=
  Nat.ofDigitChars_ten_toDigits

/-- **Different numbers have different texts.** -/
theorem decimal_injective : Function.Injective decimal := by
  intro m n h
  rw [← ofDigitChars_decimal m, h, ofDigitChars_decimal]

/-- A decimal text starts with a digit, and so with no sign. -/
theorem decimal_ne_cons {n : Nat} {c : Char} (h : c.isDigit = false) (t : Text) :
    decimal n ≠ c :: t := by
  intro heq
  exact not_mem_decimal h (n := n) (by rw [heq]; exact List.mem_cons_self)

/-- An integer is written with digits and perhaps a sign. -/
theorem isDigit_of_mem_signed {n : Int} {c : Char} (h : c ∈ signed n) :
    c.isDigit = true ∨ c = '-' := by
  cases n with
  | ofNat n => exact .inl (isDigit_of_mem_decimal h)
  | negSucc n =>
    rcases List.mem_cons.mp h with h | h
    · exact .inr h
    · exact .inl (isDigit_of_mem_decimal h)

/-- An integer has a text. -/
theorem signed_ne_nil (n : Int) : signed n ≠ [] := by
  cases n with
  | ofNat n => exact decimal_ne_nil n
  | negSucc n => exact List.cons_ne_nil _ _

/-- **Different integers have different texts.** -/
theorem signed_injective : Function.Injective signed := by
  intro m n h
  cases m with
  | ofNat m =>
    cases n with
    | ofNat n => rw [decimal_injective h]
    | negSucc n => exact absurd h (decimal_ne_cons (by decide) _)
  | negSucc m =>
    cases n with
    | ofNat n => exact absurd h.symm (decimal_ne_cons (by decide) _)
    | negSucc n =>
      have hmn : m + 1 = n + 1 := decimal_injective (List.tail_eq_of_cons_eq h)
      rw [Nat.succ.inj hmn]

end Texts
