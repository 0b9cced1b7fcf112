namespace FlowPlan

/-!
Positional notation with a fixed number of digits, most significant first.

Writing keeps the low digits of a value that does not fit, so reading what was
written gives the value modulo the power of the base that the width spans.
-/

namespace Digits

/-- The lowest `width` digits of a value. -/
def fixed (base : Nat) : Nat -> Nat -> List Nat
  | 0, _ => []
  | width + 1, value => fixed base width (value / base) ++ [value % base]

/-- The value a list of digits stands for. -/
def value (base : Nat) (digits : List Nat) : Nat :=
  digits.foldl (fun total digit => total * base + digit) 0

theorem value_append_singleton (base : Nat) (digits : List Nat) (digit : Nat) :
    value base (digits ++ [digit]) = value base digits * base + digit := by
  simp only [value, List.foldl_append, List.foldl_cons, List.foldl_nil]

theorem length_fixed (base width number : Nat) : (fixed base width number).length = width := by
  induction width generalizing number with
  | zero => rfl
  | succ width ih => rw [fixed, List.length_append, ih, List.length_singleton]

theorem lt_of_mem_fixed {base width number digit : Nat} (positive : 0 < base)
    (member : digit ∈ fixed base width number) : digit < base := by
  induction width generalizing number with
  | zero => simp [fixed] at member
  | succ width ih =>
      rcases List.mem_append.mp member with high | low
      · exact ih high
      · rw [List.mem_singleton.mp low]
        exact Nat.mod_lt _ positive

theorem value_fixed (base width number : Nat) :
    value base (fixed base width number) = number % Nat.pow base width := by
  induction width generalizing number with
  | zero => exact (Nat.mod_one number).symm
  | succ width ih =>
      rw [fixed, value_append_singleton, ih]
      change _ = number % (Nat.pow base width * base)
      rw [Nat.mul_comm (Nat.pow base width) base, Nat.mod_mul, Nat.mul_comm, Nat.add_comm]

/-- A value written in decimal at a fixed width, with leading zeros. -/
def decimal (width number : Nat) : List Char := (fixed 10 width number).map Nat.digitChar

/-- Read a decimal number of at least one and at most `most` digits off the
front of a text. -/
def readDecimal? (most : Nat) (text : List Char) : Option (Nat × List Char) :=
  match (text.take most).takeWhile Char.isDigit with
  | [] => none
  | digit :: digits =>
      some (Nat.ofDigitChars 10 (digit :: digits) 0, text.drop (digits.length + 1))

end Digits

end FlowPlan
