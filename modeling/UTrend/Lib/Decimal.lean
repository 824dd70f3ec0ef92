/-
Decimal text of integers, written and read back.

`parse` reads an optional sign and then one or more ASCII digits, and nothing
else.  `parse_text` is the round trip, which the digit lemmas of the core library
reduce to a case split on the sign.
-/
import Mathlib.Data.Int.Notation

namespace Decimal

/-- The number that a non-empty row of digits stands for. -/
def digits (cs : List Char) : Option Nat :=
  if cs ≠ [] ∧ cs.all Char.isDigit = true then some (Nat.ofDigitChars 10 cs 0) else none

/-- An optional sign and then digits. -/
def parse (s : String) : Option Int :=
  match s.toList with
  | '-' :: cs => (digits cs).map fun n => -(n : Int)
  | '+' :: cs => (digits cs).map Int.ofNat
  | cs => (digits cs).map Int.ofNat

/-- The decimal text of an integer. -/
def text (n : Int) : String := Int.repr n

theorem digits_toDigits (n : Nat) : digits (Nat.toDigits 10 n) = some n := by
  have hne : Nat.toDigits 10 n ≠ [] := Nat.toDigits_ne_nil
  have hall : (Nat.toDigits 10 n).all Char.isDigit = true :=
    List.all_eq_true.mpr fun c hc => Nat.isDigit_of_mem_toDigits (by decide) (by decide) hc
  rw [digits, if_pos ⟨hne, hall⟩, Nat.ofDigitChars_toDigits (by decide) (by decide)]

theorem toList_repr (n : Nat) : (Nat.repr n).toList = Nat.toDigits 10 n :=
  String.toList_ofList

/-- Digits alone carry no sign. -/
theorem parse_repr (n : Nat) : parse (Nat.repr n) = some (n : Int) := by
  have hdigit : ∀ c ∈ Nat.toDigits 10 n, c.isDigit = true :=
    fun c hc => Nat.isDigit_of_mem_toDigits (by decide) (by decide) hc
  have hdigits := digits_toDigits n
  rw [parse, toList_repr]
  split
  · rename_i cs h
    exact absurd (hdigit '-' (by simp [h])) (by decide)
  · rename_i cs h
    exact absurd (hdigit '+' (by simp [h])) (by decide)
  · rw [hdigits]
    rfl

/-- **Reading the decimal text of an integer gives the integer back.** -/
theorem parse_text (n : Int) : parse (text n) = some n := by
  cases n with
  | ofNat m => exact parse_repr m
  | negSucc m =>
      have hlist : (text (Int.negSucc m)).toList = '-' :: Nat.toDigits 10 (m + 1) := by
        rw [← toList_repr]
        exact String.toList_append
      rw [parse, hlist]
      simp only [digits_toDigits]
      rfl

end Decimal
