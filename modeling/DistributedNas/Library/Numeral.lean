import Mathlib.Data.Nat.Digits.Lemmas
import Mathlib.Tactic

/-
This file reads and writes natural numbers as texts of digits in a base up to 36.
-/

namespace DistributedNas.Library

/-- Letters of both cases are the digits from ten on, and other characters are no digits. -/
def digitOf (char : Char) : Nat :=
  if '0' ≤ char ∧ char ≤ '9' then char.toNat - 48
  else if 'a' ≤ char ∧ char ≤ 'z' then char.toNat - 87
  else if 'A' ≤ char ∧ char ≤ 'Z' then char.toNat - 55
  else 36

/-- A base has the digits below it. -/
def isDigitIn (base : Nat) (char : Char) : Bool := decide (digitOf char < base)

/-- The first digit of a text is the most significant one. -/
def valueOf (base : Nat) (digits : List Char) : Nat := digits.foldl (fun total digit => total * base + digitOf digit) 0

/-- This is the decimal text of a number without leading zeros. -/
def decimal (number : Nat) : List Char :=
  if number = 0 then ['0'] else (Nat.digits 10 number).reverse.map Nat.digitChar

/-- The leading items of a list end where an item of another kind follows. -/
theorem takeWhile_append_stop {A : Type*} {kind : A → Bool} {first rest : List A}
    (inside : ∀ item ∈ first, kind item) (outside : ∀ item ∈ rest.head?, kind item = false) :
    (first ++ rest).takeWhile kind = first ∧ (first ++ rest).dropWhile kind = rest := by
  rw [List.takeWhile_append_of_pos inside, List.dropWhile_append_of_pos inside]
  cases rest with
  | nil => simp
  | cons item later =>
      have stops : ¬ kind item = true := by
        rw [outside item rfl]
        exact Bool.false_ne_true
      rw [List.takeWhile_cons_of_neg stops, List.dropWhile_cons_of_neg stops, List.append_nil]
      exact ⟨rfl, rfl⟩

theorem digitOf_digitChar : ∀ {digit : Nat}, digit < 10 → digitOf (Nat.digitChar digit) = digit := by
  decide

theorem valueOf_append (base : Nat) (digits : List Char) (last : Char) :
    valueOf base (digits ++ [last]) = valueOf base digits * base + digitOf last := by
  rw [valueOf, List.foldl_append]
  rfl

/-- The digits of a number in the order of the text have its value. -/
theorem valueOf_digits {digits : List Nat} (small : ∀ digit ∈ digits, digit < 10) :
    valueOf 10 (digits.reverse.map Nat.digitChar) = Nat.ofDigits 10 digits := by
  induction digits with
  | nil => rfl
  | cons digit rest ih =>
      have later := ih fun other member => small other (List.mem_cons_of_mem digit member)
      rw [List.reverse_cons, List.map_append, List.map_singleton, valueOf_append, later,
        digitOf_digitChar (small digit List.mem_cons_self), Nat.ofDigits_cons]
      ring

/-- The decimal text of a number reads back as this number. -/
theorem valueOf_decimal (number : Nat) : valueOf 10 (decimal number) = number := by
  unfold decimal
  split
  · next zero =>
      rw [zero]
      rfl
  · rw [valueOf_digits fun digit member => Nat.digits_lt_base (by decide) member, Nat.ofDigits_digits]

/-- A decimal text consists of decimal digits. -/
theorem isDigitIn_of_mem_decimal {number : Nat} {char : Char} (member : char ∈ decimal number) :
    isDigitIn 10 char := by
  unfold decimal at member
  split at member
  · rw [List.mem_singleton.mp member]
    decide
  · obtain ⟨digit, inside, rfl⟩ := List.mem_map.mp member
    have small : digit < 10 := Nat.digits_lt_base (by decide) (List.mem_reverse.mp inside)
    rw [isDigitIn, digitOf_digitChar small]
    exact decide_eq_true small

theorem decimal_ne_nil (number : Nat) : decimal number ≠ [] := by
  unfold decimal
  split
  · exact List.cons_ne_nil _ _
  · next positive =>
      intro empty
      rw [List.map_eq_nil_iff, List.reverse_eq_nil_iff, Nat.digits_eq_nil_iff_eq_zero] at empty
      exact positive empty

/-- The text of a positive number does not begin with a zero. -/
theorem head_decimal {number : Nat} (positive : number ≠ 0) : (decimal number).head? ≠ some '0' := by
  have filled : Nat.digits 10 number ≠ [] := Nat.digits_ne_nil_iff_ne_zero.mpr positive
  rw [decimal, if_neg positive, List.head?_map, List.head?_reverse, List.getLast?_eq_some_getLast filled]
  intro zero
  have last : Nat.digitChar ((Nat.digits 10 number).getLast filled) = '0' := Option.some.inj zero
  have small := Nat.digits_lt_base (by decide : 1 < 10) (List.getLast_mem filled)
  have value := digitOf_digitChar small
  rw [last] at value
  exact Nat.getLast_digit_ne_zero 10 positive value.symm

end DistributedNas.Library
