namespace FlowPlan

/-!
Dates of the proleptic Gregorian calendar, with a year zero.
-/

namespace Calendar

def isLeapYear (year : Int) : Bool :=
  year % 4 == 0 && (year % 100 != 0 || year % 400 == 0)

def daysInMonth (year : Int) (month : Nat) : Nat :=
  if month = 2 then (if isLeapYear year then 29 else 28)
  else if month = 4 ∨ month = 6 ∨ month = 9 ∨ month = 11 then 30
  else 31

theorem daysInMonth_pos (year : Int) (month : Nat) : 1 ≤ daysInMonth year month := by
  simp only [daysInMonth]
  split
  · split <;> decide
  · split <;> decide

theorem january_valid : 1 ≤ 1 ∧ 1 ≤ 12 := by decide

theorem december_valid : 1 ≤ 12 ∧ 12 ≤ 12 := by decide

end Calendar

structure Date where
  year : Int
  month : Nat
  day : Nat
  month_valid : 1 ≤ month ∧ month ≤ 12
  day_valid : 1 ≤ day ∧ day ≤ Calendar.daysInMonth year month
  deriving DecidableEq, Repr

namespace Date

def ofParts? (year : Int) (month day : Nat) : Option Date :=
  if valid : (1 ≤ month ∧ month ≤ 12) ∧ 1 ≤ day ∧ day ≤ Calendar.daysInMonth year month then
    some ⟨year, month, day, valid.1, valid.2⟩
  else none

def firstOf (year : Int) (month : Nat) (valid : 1 ≤ month ∧ month ≤ 12) : Date :=
  ⟨year, month, 1, valid, Nat.le_refl 1, Calendar.daysInMonth_pos year month⟩

def lastOf (year : Int) (month : Nat) (valid : 1 ≤ month ∧ month ≤ 12) : Date :=
  ⟨year, month, Calendar.daysInMonth year month, valid,
    Calendar.daysInMonth_pos year month, Nat.le_refl _⟩

/-- The day after. -/
def next (date : Date) : Date :=
  if within : date.day + 1 ≤ Calendar.daysInMonth date.year date.month then
    ⟨date.year, date.month, date.day + 1, date.month_valid, Nat.le_add_left 1 _, within⟩
  else if sameYear : date.month + 1 ≤ 12 then
    firstOf date.year (date.month + 1) ⟨Nat.le_add_left 1 _, sameYear⟩
  else firstOf (date.year + 1) 1 Calendar.january_valid

/-- The day before. -/
def previous (date : Date) : Date :=
  if within : 1 ≤ date.day - 1 then
    ⟨date.year, date.month, date.day - 1, date.month_valid, within,
      Nat.le_trans (Nat.sub_le _ _) date.day_valid.2⟩
  else if sameYear : 1 ≤ date.month - 1 then
    lastOf date.year (date.month - 1)
      ⟨sameYear, Nat.le_trans (Nat.sub_le _ _) date.month_valid.2⟩
  else lastOf (date.year - 1) 12 Calendar.december_valid

end Date

end FlowPlan
