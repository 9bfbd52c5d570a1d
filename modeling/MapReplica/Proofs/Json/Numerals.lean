import Mathlib.Data.List.Basic
import Mathlib.Data.List.TakeWhile
import MapReplica.Json.Token
import MapReplica.Proofs.Number.Numeral

/-!
# Whole numbers in JSON

The numeral of a whole number is read as this number, unless it takes more than 64 bits.
-/

namespace MapReplica

namespace Number

/-- Only the numeral of zero begins with a zero. -/
theorem eq_zero_of_head?_digits {n : Nat} (zero : (digits n).head? = some '0') : n = 0 := by
  induction n using digits_induction with
  | single d small =>
      rw [digits_eq, if_pos small] at zero
      revert d
      decide
  | longer m large ih =>
      rw [digits_eq, if_neg (by omega), List.head?_append_of_ne_nil _ (digits_ne_nil _)] at zero
      have front := ih zero
      omega

end Number

namespace Json

variable {n : Nat} {c : Char} {run : List Char}

theorem isDigit_of_mem_digits (member : c ∈ Number.digits n) : isDigit c = true := by
  have ascii : c.isDigit = true := Nat.isDigit_of_mem_toDigits (by decide) (by decide) member
  simp [isDigit, Number.digit?_eq, ascii]

theorem digitsValue_eq (run : List Char) : digitsValue run = Nat.ofDigitChars 10 run 0 := by
  simp only [digitsValue, Nat.ofDigitChars, Nat.mul_comm 10]

theorem digitsValue_digits (n : Nat) : digitsValue (Number.digits n) = n := by
  rw [digitsValue_eq]
  exact Nat.ofDigitChars_toDigits (by decide) (by decide)

/-- The longest numeral at the beginning of a numeral is all of it. -/
theorem takeWhile_digits : (Number.digits n).takeWhile isDigit = Number.digits n :=
  List.takeWhile_eq_self_iff.mpr fun _ member => isDigit_of_mem_digits member

theorem dropWhile_digits : (Number.digits n).dropWhile isDigit = [] :=
  List.dropWhile_eq_nil_iff.mpr fun _ member => isDigit_of_mem_digits member

/-- A numeral is not refused for a zero in front of it. -/
theorem noLeadingZero :
    ((Number.digits n).isEmpty ||
      (decide ((Number.digits n).length > 1) && (Number.digits n).head? == some '0')) = false := by
  by_cases zero : (Number.digits n).head? = some '0'
  · rw [Number.eq_zero_of_head?_digits zero]
    decide
  · simp [Number.digits_ne_nil n, zero]

theorem number?_digits (fits : n ≤ Number.max64) :
    number? (Number.digits n) = some (.integer n) := by
  have noSign : ∀ rest, Number.digits n = '-' :: rest → False := by
    intro rest first
    have digit : isDigit '-' = true := isDigit_of_mem_digits (first ▸ List.mem_cons_self)
    cases digit
  simp [number?, takeWhile_digits, dropWhile_digits, noLeadingZero, digitsValue_digits,
    fractionAndPower?, fits]

theorem number?_negative (positive : 0 < n) (fits : n ≤ Number.maxSigned64 + 1) :
    number? ('-' :: Number.digits n) = some (.integer (-(n : Int))) := by
  simp [number?, takeWhile_digits, dropWhile_digits, noLeadingZero, digitsValue_digits,
    fractionAndPower?, fits, positive]

end Json

end MapReplica
