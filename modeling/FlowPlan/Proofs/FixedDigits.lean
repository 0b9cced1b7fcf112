import FlowPlan.Proofs.Wire
import FlowPlan.Timestamp
import FlowPlan.WorkflowId
import Mathlib.Data.List.TakeWhile

namespace FlowPlan

/-!
Texts of a fixed number of digits.

Identifiers are written in base 32 and timestamps in decimal, each part at its
own width.  Both come back from their texts: an identifier always, a timestamp
where its year has at most four digits and no sign.
-/

/-! ## Identifiers -/

namespace WorkflowId

theorem digitOf?_digitChar {digit : Nat} (digit_lt : digit < 32) :
    digitOf? (digitChar digit) = some digit := by
  have each : forall digit : Fin 32, digitOf? (digitChar digit) = some digit.val := by decide
  exact each ⟨digit, digit_lt⟩

theorem digitChar_mem_alphabet {digit : Nat} (digit_lt : digit < 32) :
    digitChar digit ∈ alphabet := by
  have each : forall digit : Fin 32, digitChar digit ∈ alphabet := by decide
  exact each ⟨digit, digit_lt⟩

theorem utf8Size_of_mem_alphabet {char : Char} (member : char ∈ alphabet) : char.utf8Size = 1 := by
  have each : alphabet.all (fun char => char.utf8Size == 1) = true := by decide
  exact beq_iff_eq.mp (List.all_eq_true.mp each char member)

theorem mem_alphabet_of_mem_text (id : WorkflowId) {char : Char} (member : char ∈ id.text.toList) :
    char ∈ alphabet := by
  rw [text, String.toList_ofList] at member
  rcases List.mem_map.mp member with ⟨digit, written, rfl⟩
  exact digitChar_mem_alphabet (Digits.lt_of_mem_fixed (by decide) written)

theorem length_text (id : WorkflowId) : id.text.toList.length = width := by
  rw [text, String.toList_ofList, List.length_map, Digits.length_fixed]

theorem utf8ByteSize_ofList {chars : List Char}
    (narrow : forall char, char ∈ chars -> char.utf8Size = 1) :
    (String.ofList chars).utf8ByteSize = chars.length := by
  induction chars with
  | nil => rfl
  | cons char chars ih =>
      rw [String.ofList_cons, String.utf8ByteSize_append, String.utf8ByteSize_singleton,
        narrow char List.mem_cons_self,
        ih (fun other member => narrow other (List.mem_cons_of_mem _ member)), List.length_cons,
        Nat.add_comm]

theorem utf8ByteSize_text (id : WorkflowId) : id.text.utf8ByteSize = width := by
  have narrow : forall char, char ∈ id.text.toList -> char.utf8Size = 1 :=
    fun char member => utf8Size_of_mem_alphabet (id.mem_alphabet_of_mem_text member)
  have size := utf8ByteSize_ofList narrow
  rwa [String.ofList_toList, id.length_text] at size

theorem digits_text (id : WorkflowId) :
    id.text.toList.mapM digitOf? = some (Digits.fixed 32 width id.value.toNat) := by
  rw [text, String.toList_ofList]
  exact mapM_map_eq_some (fun digit written =>
    digitOf?_digitChar (Digits.lt_of_mem_fixed (by decide) written))

/-- An identifier comes back from its digits: 26 of them span all 128 bits. -/
theorem ofText_text (id : WorkflowId) : ofText id.text = .ok id := by
  have spanned : id.value.toNat < Nat.pow 32 width :=
    Nat.lt_of_lt_of_le id.value.isLt (by decide)
  rw [ofText, if_neg (not_not.mpr id.utf8ByteSize_text), digits_text]
  simp only [Digits.value_fixed, Nat.mod_eq_of_lt spanned, BitVec.ofNat_toNat]
  rw [BitVec.setWidth_eq]

end WorkflowId

/-! ## Decimal numbers -/

namespace Digits

theorem ofDigitChars_map_digitChar {digits : List Nat}
    (decimal : forall digit, digit ∈ digits -> digit < 10) (leading : Nat) :
    Nat.ofDigitChars 10 (digits.map Nat.digitChar) leading
      = digits.foldl (fun total digit => total * 10 + digit) leading := by
  induction digits generalizing leading with
  | nil => rfl
  | cons digit digits ih =>
      have leadingDigit := decimal digit List.mem_cons_self
      rw [List.map_cons, Nat.ofDigitChars_cons_digitChar_of_lt_ten leadingDigit,
        ih (fun other member => decimal other (List.mem_cons_of_mem _ member)), List.foldl_cons,
        Nat.mul_comm]

theorem ofDigitChars_decimal {width number : Nat} (fits : number < Nat.pow 10 width) :
    Nat.ofDigitChars 10 (decimal width number) 0 = number := by
  rw [decimal, ofDigitChars_map_digitChar (fun digit member => lt_of_mem_fixed (by decide) member)]
  exact (value_fixed 10 width number).trans (Nat.mod_eq_of_lt fits)

theorem length_decimal (width number : Nat) : (decimal width number).length = width := by
  rw [decimal, List.length_map, length_fixed]

theorem isDigit_of_mem_decimal {width number : Nat} {char : Char}
    (member : char ∈ decimal width number) : char.isDigit = true := by
  rcases List.mem_map.mp member with ⟨digit, written, rfl⟩
  rw [Nat.isDigit_digitChar, decide_eq_true (lt_of_mem_fixed (by decide) written)]

/-- A number is read back where the reader stops at its end: for having read
as many digits as it may, or for want of a digit. -/
theorem readDecimal?_decimal {most width number : Nat} {rest : List Char}
    (fits : number < Nat.pow 10 (width + 1)) (within : width + 1 ≤ most)
    (ends : (rest.take (most - (width + 1))).takeWhile Char.isDigit = []) :
    readDecimal? most (decimal (width + 1) number ++ rest) = some (number, rest) := by
  have taken : ((decimal (width + 1) number ++ rest).take most).takeWhile Char.isDigit
      = decimal (width + 1) number := by
    have short : (decimal (width + 1) number).length ≤ most := by rwa [length_decimal]
    rw [List.take_append, length_decimal, List.take_of_length_le short,
      List.takeWhile_append_of_pos (fun _ member => isDigit_of_mem_decimal member), ends,
      List.append_nil]
  have length := length_decimal (width + 1) number
  have value := ofDigitChars_decimal fits
  rw [readDecimal?, taken]
  generalize decimal (width + 1) number = written at length value
  cases written with
  | nil => simp at length
  | cons digit digits =>
      simp only [value]
      rw [List.drop_left' (by simp)]

end Digits

/-! ## Timestamps -/

theorem isBlank_eq_false_of_isDigit {char : Char} (digit : char.isDigit = true) :
    isBlank char = false := by
  have code : 48 ≤ char.toNat ∧ char.toNat ≤ 57 := by
    simpa [Char.isDigit, UInt32.le_iff_toNat_le] using digit
  simp [isBlank]
  omega

theorem Calendar.daysInMonth_le (year : Int) (month : Nat) : daysInMonth year month ≤ 31 := by
  simp only [daysInMonth]
  split
  · split <;> decide
  · split <;> decide

theorem Date.ofParts?_parts (date : Date) :
    ofParts? date.year date.month date.day = some date := by
  rw [ofParts?, dif_pos ⟨date.month_valid, date.day_valid⟩]

namespace Timestamp

/-- The year of the timestamp has at most four digits and no sign. -/
def IsDated (time : Timestamp) : Prop := 0 ≤ time.date.year ∧ time.date.year ≤ 9999

section Readers

variable {number : Nat}

/-- Neither a blank nor a sign stands before a number. -/
theorem exists_digit_decimal (width number : Nat) :
    ∃ digit digits, Digits.decimal (width + 1) number = digit :: digits ∧ digit.isDigit = true := by
  have length := Digits.length_decimal (width + 1) number
  cases written : Digits.decimal (width + 1) number with
  | nil => simp [written] at length
  | cons digit digits =>
      exact ⟨digit, digits, rfl, Digits.isDigit_of_mem_decimal (written ▸ List.mem_cons_self)⟩

theorem dropBlanks_decimal (width number : Nat) (rest : List Char) :
    dropBlanks (Digits.decimal (width + 1) number ++ rest)
      = Digits.decimal (width + 1) number ++ rest := by
  rcases exists_digit_decimal width number with ⟨digit, digits, written, isDigit⟩
  rw [written, List.cons_append, dropBlanks, List.dropWhile_cons,
    isBlank_eq_false_of_isDigit isDigit]
  rfl

theorem readField?_decimal (fits : number < 100) (rest : List Char) :
    readField? (Digits.decimal 2 number ++ rest) = some (number, rest) := by
  rw [readField?, dropBlanks_decimal]
  exact Digits.readDecimal?_decimal fits (Nat.le_refl 2) rfl

theorem readYear?_decimal (fits : number < 10000) (rest : List Char) :
    readYear? (Digits.decimal 4 number ++ rest) = some ((number : Int), rest) := by
  have read : Digits.readDecimal? 4 (Digits.decimal 4 number ++ rest) = some (number, rest) :=
    Digits.readDecimal?_decimal fits (Nat.le_refl 4) rfl
  rcases exists_digit_decimal 3 number with ⟨digit, digits, written, isDigit⟩
  rw [written, List.cons_append] at read ⊢
  unfold readYear?
  split
  · exact absurd isDigit (by rename_i sign; cases sign; decide)
  · exact absurd isDigit (by rename_i sign; cases sign; decide)
  · rw [read]
    rfl

theorem readSeparator?_self (char : Char) (solid : isBlank char = false) (rest : List Char) :
    readSeparator? char (char :: rest) = some rest := by
  rw [readSeparator?, dropBlanks, List.dropWhile_cons, solid]
  simp [readChar?]

end Readers

theorem readFraction?_decimal {width number nanosecond : Nat} (within : width + 1 ≤ 9)
    (exact : nanosecond = number * Nat.pow 10 (9 - (width + 1))) (fits : nanosecond < 1000000000) :
    readFraction? ('.' :: Digits.decimal (width + 1) number ++ ['Z'])
      = some (nanosecond, ['Z']) := by
  -- The digits that are not written are the factor that the reader puts back.
  have span : Nat.pow 10 (width + 1) * Nat.pow 10 (9 - (width + 1)) = 1000000000 := by
    rw [Nat.pow_eq, Nat.pow_eq, ← Nat.pow_add, Nat.add_sub_cancel' within]
  have narrow : number < Nat.pow 10 (width + 1) := by
    rw [exact, ← span] at fits
    exact Nat.lt_of_mul_lt_mul_right fits
  have ends : (['Z'].take (9 - (width + 1))).takeWhile Char.isDigit = [] := by
    cases 9 - (width + 1) <;> rfl
  have length := Digits.length_decimal (width + 1) number
  simp [readFraction?, Digits.readDecimal?_decimal narrow within ends, length, exact]

theorem readFraction?_fractionText {nanosecond : Nat} (fits : nanosecond < 1000000000) :
    readFraction? (fractionText nanosecond ++ ['Z']) = some (nanosecond, ['Z']) := by
  unfold fractionText
  split
  · rename_i zero
    rw [zero]
    rfl
  · split
    · rename_i millis
      exact readFraction?_decimal (by decide)
        (Nat.div_mul_cancel (Nat.dvd_of_mod_eq_zero millis)).symm fits
    · split
      · rename_i micros
        exact readFraction?_decimal (by decide)
          (Nat.div_mul_cancel (Nat.dvd_of_mod_eq_zero micros)).symm fits
      · exact readFraction?_decimal (by decide) (Nat.mul_one nanosecond).symm fits

theorem isYearInRange_of_le {year : Int} (dated : 0 ≤ year ∧ year ≤ 9999) :
    isYearInRange year = true := by
  simp [isYearInRange]
  omega

theorem readDate?_text {date : Date} (dated : 0 ≤ date.year ∧ date.year ≤ 9999)
    (rest : List Char) :
    readDate? (yearText date.year ++ '-' :: (Digits.decimal 2 date.month
        ++ '-' :: (Digits.decimal 2 date.day ++ rest)))
      = some (date, rest) := by
  have year : date.year.toNat < 10000 := by omega
  have month : date.month < 100 := Nat.lt_of_le_of_lt date.month_valid.2 (by decide)
  have day : date.day < 100 := Nat.lt_of_le_of_lt
    (Nat.le_trans date.day_valid.2 (Calendar.daysInMonth_le _ _)) (by decide)
  rw [readDate?, yearText, if_pos dated, dropBlanks_decimal, readYear?_decimal year]
  simp [readSeparator?_self '-' (by decide), readField?_decimal month, readField?_decimal day,
    Int.toNat_of_nonneg dated.1, Date.ofParts?_parts, isYearInRange_of_le dated]

theorem ofLocal?_self {time : Timestamp} (dated : time.IsDated) :
    ofLocal? time.date time.hour time.minute time.second time.nanosecond 0 = some time := by
  have hour := time.hour_valid
  have minute := time.minute_valid
  have inRange := isYearInRange_of_le dated
  rw [ofLocal?, dif_pos ⟨hour, minute, time.second_valid, time.nanosecond_valid⟩]
  have later : ¬ 60 * (time.hour : Int) + time.minute - 0 < 0 := by omega
  have earlier : 60 * (time.hour : Int) + time.minute - 0 < 1440 := by omega
  have ofDay : ((60 * (time.hour : Int) + time.minute - 0) % 1440).toNat
      = 60 * time.hour + time.minute := by omega
  have hours : (60 * time.hour + time.minute) / 60 % 24 = time.hour := by omega
  have minutes : (60 * time.hour + time.minute) % 60 = time.minute := by omega
  simp only [if_neg later, if_pos earlier, ofDay, hours, minutes, inRange, if_true]

/-- A timestamp of a four-digit year comes back from its text. -/
theorem ofText?_text {time : Timestamp} (dated : time.IsDated) : ofText? time.text = some time := by
  have hour : time.hour < 100 := Nat.lt_trans time.hour_valid (by decide)
  have minute : time.minute < 100 := Nat.lt_trans time.minute_valid (by decide)
  have second : time.second < 100 := Nat.lt_of_le_of_lt time.second_valid (by decide)
  have zone : readOffset? (dropBlanks ['Z']) = some (0, []) := rfl
  have ended : dropBlanks [] = [] := rfl
  rw [ofText?, text, String.toList_ofList, chars, ofChars?]
  simp only [List.append_assoc, List.cons_append, readDate?_text dated]
  simp [readDivider?, readSeparator?_self ':' (by decide), readField?_decimal hour,
    readField?_decimal minute, readField?_decimal second,
    readFraction?_fractionText time.nanosecond_valid, zone, ended, ofLocal?_self dated]

end Timestamp

end FlowPlan
