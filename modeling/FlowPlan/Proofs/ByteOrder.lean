namespace FlowPlan

/-!
The order of texts and the order of their bytes.

Texts are ordered by their characters.  In UTF-8 a longer character begins with
a larger byte, and among characters of one length the first byte that differs
decides as their numbers do.  So ordering texts by their bytes comes to the
same.
-/

/-- The bytes of a text in UTF-8. -/
def utf8Bytes (text : String) : List UInt8 := text.toUTF8.data.toList

theorem utf8Bytes_eq (text : String) :
    utf8Bytes text = text.toList.flatMap String.utf8EncodeChar := by
  rw [utf8Bytes, String.toUTF8, ← String.utf8Encode_toList, List.utf8Encode,
    List.toList_data_toByteArray]

section Bytes

variable {low high : Nat} {rest further : List UInt8}

theorem byte_cons_lt (less : low < high) (byte : high < 256) :
    UInt8.ofNat low :: rest < UInt8.ofNat high :: further := by
  apply List.cons_lt_cons_iff.mpr
  exact Or.inl ((UInt8.ofNat_lt_iff_lt (Nat.lt_trans less byte) byte).mpr less)

/-- Where the first byte is no larger, the others have to decide only if it is
the same. -/
theorem byte_cons_lt_of_le (le : low ≤ high) (byte : high < 256)
    (later : low = high -> rest < further) :
    UInt8.ofNat low :: rest < UInt8.ofNat high :: further := by
  rcases Nat.lt_or_eq_of_le le with less | same
  · exact byte_cons_lt less byte
  · apply List.cons_lt_cons_iff.mpr
    exact Or.inr ⟨congrArg UInt8.ofNat same, later same⟩

end Bytes

/-- Of two characters the smaller one has the smaller bytes, whatever follows. -/
theorem utf8EncodeChar_append_lt {first second : Char} (below : first < second)
    (rest further : List UInt8) :
    String.utf8EncodeChar first ++ rest < String.utf8EncodeChar second ++ further := by
  have less : first.val.toNat < second.val.toNat := below
  have bound : second.val.toNat < 0x110000 := by
    rcases second.valid with small | large
    · exact Nat.lt_trans small (by decide)
    · exact large.2
  simp only [String.utf8EncodeChar]
  generalize first.val.toNat = low at less
  generalize second.val.toNat = high at less bound
  by_cases oneHigh : high ≤ 127
  · have oneLow : low ≤ 127 := by omega
    rw [if_pos oneLow, if_pos oneHigh]
    exact byte_cons_lt less (by omega)
  rw [if_neg oneHigh]
  by_cases oneLow : low ≤ 127
  · -- Only a character of one byte begins with a byte below 192.
    rw [if_pos oneLow]
    split
    · exact byte_cons_lt (by omega) (by omega)
    · split <;> exact byte_cons_lt (by omega) (by omega)
  rw [if_neg oneLow]
  by_cases twoHigh : high ≤ 2047
  · have twoLow : low ≤ 2047 := by omega
    rw [if_pos twoLow, if_pos twoHigh]
    refine byte_cons_lt_of_le (by omega) (by omega) (fun same => ?_)
    exact byte_cons_lt (by omega) (by omega)
  rw [if_neg twoHigh]
  by_cases twoLow : low ≤ 2047
  · rw [if_pos twoLow]
    split <;> exact byte_cons_lt (by omega) (by omega)
  rw [if_neg twoLow]
  by_cases threeHigh : high ≤ 65535
  · have threeLow : low ≤ 65535 := by omega
    rw [if_pos threeLow, if_pos threeHigh]
    refine byte_cons_lt_of_le (by omega) (by omega) (fun first => ?_)
    refine byte_cons_lt_of_le (by omega) (by omega) (fun second => ?_)
    exact byte_cons_lt (by omega) (by omega)
  rw [if_neg threeHigh]
  by_cases threeLow : low ≤ 65535
  · rw [if_pos threeLow]
    exact byte_cons_lt (by omega) (by omega)
  rw [if_neg threeLow]
  refine byte_cons_lt_of_le (by omega) (by omega) (fun first => ?_)
  refine byte_cons_lt_of_le (by omega) (by omega) (fun second => ?_)
  refine byte_cons_lt_of_le (by omega) (by omega) (fun third => ?_)
  exact byte_cons_lt (by omega) (by omega)

theorem flatMap_utf8EncodeChar_lt {chars others : List Char} (below : chars < others) :
    chars.flatMap String.utf8EncodeChar < others.flatMap String.utf8EncodeChar := by
  induction below with
  | nil =>
      rcases List.exists_cons_of_ne_nil String.utf8EncodeChar_ne_nil with ⟨byte, bytes, encoded⟩
      rw [List.flatMap_cons, encoded]
      exact List.nil_lt_cons byte _
  | rel less =>
      rw [List.flatMap_cons, List.flatMap_cons]
      exact utf8EncodeChar_append_lt less _ _
  | cons _ ih =>
      rw [List.flatMap_cons, List.flatMap_cons]
      exact List.append_left_lt ih

theorem utf8Bytes_lt {first second : String} (below : first < second) :
    utf8Bytes first < utf8Bytes second := by
  rw [utf8Bytes_eq, utf8Bytes_eq]
  exact flatMap_utf8EncodeChar_lt (String.lt_iff.mp below)

/-- By units of sixteen bits these two would stand the other way round. -/
example : utf8Bytes "\uFF5E" = [0xEF, 0xBD, 0x9E] ∧ utf8Bytes "𐀀" = [0xF0, 0x90, 0x80, 0x80] := by
  decide

end FlowPlan
