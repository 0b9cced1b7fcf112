namespace FlowPlan

/-! The range of 64-bit integers. -/

namespace Word

/-- The number of unsigned values: 0 up to one less than this. -/
def unsignedCount : Nat := 18446744073709551616

/-- The number of negative values, and of values that are not negative, of a
signed integer. -/
def signedCount : Nat := 9223372036854775808

example : unsignedCount = Nat.pow 2 64 := rfl

example : signedCount = Nat.pow 2 63 := rfl

end Word

end FlowPlan
