import FlowPlan.Proofs.FixedDigits
import Mathlib.Data.List.GetD
import Mathlib.Data.List.Induction

namespace FlowPlan

/-!
Identifiers of workflows as texts.

Twenty-six digits of base 32 span 130 bits, and an identifier has 128.  Reading
drops the two highest bits, which are those of the first digit.  Thus a text
that is read and written again comes back in capitals with its first digit
modulo 8, and two texts denote one identifier exactly when they come back the
same.
-/

/-! ## Positional notation -/

namespace Digits

variable {base : Nat}

theorem value_cons (base digit : Nat) (digits : List Nat) :
    value base (digit :: digits)
      = digit * Nat.pow base digits.length + value base digits := by
  induction digits using List.reverseRecOn with
  | nil => simp [value]
  | append_singleton digits last ih =>
      rw [← List.cons_append, value_append_singleton, ih, value_append_singleton,
        List.length_append, List.length_singleton]
      change _ = digit * (Nat.pow base digits.length * base) + _
      rw [Nat.add_mul, Nat.mul_assoc, Nat.add_assoc]

theorem value_lt {digits : List Nat} (within : forall digit, digit ∈ digits -> digit < base) :
    value base digits < Nat.pow base digits.length := by
  induction digits using List.reverseRecOn with
  | nil => exact Nat.one_pos
  | append_singleton digits last ih =>
      have below := ih (fun digit member => within digit (List.mem_append_left _ member))
      have lastBelow := within last (List.mem_append_right _ (List.mem_singleton_self _))
      rw [value_append_singleton, List.length_append, List.length_singleton]
      calc value base digits * base + last
          < value base digits * base + base := Nat.add_lt_add_left lastBelow _
        _ = (value base digits + 1) * base := (Nat.succ_mul _ _).symm
        _ ≤ Nat.pow base digits.length * base := Nat.mul_le_mul_right base below

/-- The digits of a value are those it was read from. -/
theorem fixed_value {digits : List Nat} (within : forall digit, digit ∈ digits -> digit < base) :
    fixed base digits.length (value base digits) = digits := by
  induction digits using List.reverseRecOn with
  | nil => rfl
  | append_singleton digits last ih =>
      have lastBelow := within last (List.mem_append_right _ (List.mem_singleton_self _))
      have positive : 0 < base := Nat.zero_lt_of_lt lastBelow
      have high : (value base digits * base + last) / base = value base digits := by
        rw [Nat.mul_comm, Nat.mul_add_div positive, Nat.div_eq_of_lt lastBelow, Nat.add_zero]
      have low : (value base digits * base + last) % base = last := by
        rw [Nat.mul_comm, Nat.mul_add_mod, Nat.mod_eq_of_lt lastBelow]
      rw [value_append_singleton, List.length_append, List.length_singleton, fixed, high, low,
        ih (fun digit member => within digit (List.mem_append_left _ member))]

/-- A modulus that ends inside the first digit leaves the others. -/
theorem value_cons_mod (first modulus : Nat) {rest : List Nat}
    (within : forall digit, digit ∈ rest -> digit < base) :
    value base (first :: rest) % (Nat.pow base rest.length * modulus)
      = value base (first % modulus :: rest) := by
  have below := value_lt within
  have positive := Nat.zero_lt_of_lt below
  have high : (first * Nat.pow base rest.length + value base rest) / Nat.pow base rest.length
      = first := by
    rw [Nat.mul_comm, Nat.mul_add_div positive, Nat.div_eq_of_lt below, Nat.add_zero]
  have low : (first * Nat.pow base rest.length + value base rest) % Nat.pow base rest.length
      = value base rest := by
    rw [Nat.mul_comm, Nat.mul_add_mod, Nat.mod_eq_of_lt below]
  rw [value_cons, value_cons, Nat.mod_mul, high, low, Nat.mul_comm, Nat.add_comm]

theorem fixed_value_cons_mod (first : Nat) {modulus : Nat} {rest : List Nat}
    (positive : 0 < modulus) (inside : modulus ≤ base)
    (within : forall digit, digit ∈ rest -> digit < base) :
    fixed base (rest.length + 1)
        (value base (first :: rest) % (Nat.pow base rest.length * modulus))
      = first % modulus :: rest := by
  have reduced : first % modulus < base := Nat.lt_of_lt_of_le (Nat.mod_lt _ positive) inside
  rw [value_cons_mod first modulus within]
  exact fixed_value (List.forall_mem_cons.mpr ⟨reduced, within⟩)

end Digits

namespace WorkflowId

/-! ## Marks -/

/-- A text without its mark: one leading mark is taken off, and a text that
begins with none is as it stands. -/
inductive Bare : String -> String -> Prop
  | marked (digits : String) : Bare ("wf_" ++ digits) digits
  | unmarked {text : String} (begins : forall rest, text ≠ "wf_" ++ rest) : Bare text text

theorem unmarked_append (digits : String) : unmarked ("wf_" ++ digits) = digits := by
  have chars : ("wf_" ++ digits).toList = 'w' :: 'f' :: '_' :: digits.toList := by
    rw [String.toList_append]
    rfl
  rw [unmarked, chars]
  exact String.ofList_toList

theorem unmarked_of_forall_ne {text : String} (begins : forall rest, text ≠ "wf_" ++ rest) :
    unmarked text = text := by
  unfold unmarked
  split
  · rename_i rest chars
    have marked : text = "wf_" ++ String.ofList rest := by
      rw [← String.toList_inj, chars, String.toList_append, String.toList_ofList,
        String.toList_ofList]
      rfl
    exact absurd marked (begins (String.ofList rest))
  · rfl

theorem Bare.unmarked_eq {text digits : String} (bare : Bare text digits) :
    WorkflowId.unmarked text = digits := by
  cases bare with
  | marked => exact unmarked_append digits
  | unmarked begins => exact unmarked_of_forall_ne begins

theorem exists_bare (text : String) : ∃ digits, Bare text digits := by
  by_cases begins : ∃ rest, text = "wf_" ++ rest
  · rcases begins with ⟨rest, rfl⟩
    exact ⟨rest, .marked rest⟩
  · exact ⟨text, .unmarked (fun rest same => begins ⟨rest, same⟩)⟩

/-! ## Letters in either case -/

/-- The place in the alphabet of a digit in either case. -/
def place (char : Char) : Nat := alphabet.idxOf char.toUpper

def places (digits : String) : List Nat := digits.toList.map place

theorem toUpper_toLower_of_mem_alphabet {capital : Char} (member : capital ∈ alphabet) :
    capital.toUpper = capital ∧ capital.toLower.toUpper = capital := by
  have each : alphabet.all (fun capital =>
      capital.toUpper == capital && capital.toLower.toUpper == capital) = true := by decide
  have here := List.all_eq_true.mp each capital member
  rw [Bool.and_eq_true, beq_iff_eq, beq_iff_eq] at here
  exact here

theorem eq_or_toLower_toUpper (char : Char) :
    char.toUpper = char ∨ char.toUpper.toLower = char := by
  by_cases small : 97 ≤ char.toNat ∧ char.toNat ≤ 122
  · have each : forall letter : Fin 26,
        (Char.ofNat (97 + letter)).toUpper.toLower = Char.ofNat (97 + letter) := by decide
    have here := each ⟨char.toNat - 97, by omega⟩
    rw [show 97 + (char.toNat - 97) = char.toNat by omega, Char.ofNat_toNat] at here
    exact Or.inr here
  · exact Or.inl (dif_neg small)

/-- A digit in either case is one whose capital stands in the alphabet. -/
theorem toUpper_mem_alphabet_iff (char : Char) :
    char.toUpper ∈ alphabet ↔
      char ∈ alphabet ∨ ∃ capital, capital ∈ alphabet ∧ char = capital.toLower := by
  constructor
  · intro member
    rcases eq_or_toLower_toUpper char with same | lower
    · exact Or.inl (same ▸ member)
    · exact Or.inr ⟨char.toUpper, member, lower.symm⟩
  · rintro (member | ⟨capital, member, rfl⟩)
    · rwa [(toUpper_toLower_of_mem_alphabet member).1]
    · rwa [(toUpper_toLower_of_mem_alphabet member).2]

theorem place_lt {char : Char} (member : char.toUpper ∈ alphabet) : place char < 32 :=
  List.idxOf_lt_length_iff.mpr member

theorem digitChar_place {char : Char} (member : char.toUpper ∈ alphabet) :
    digitChar (place char) = char.toUpper := by
  have within : alphabet.idxOf char.toUpper < alphabet.length :=
    List.idxOf_lt_length_iff.mpr member
  rw [digitChar, place, List.getD_eq_getElem _ _ within, List.getElem_idxOf within]

theorem map_digitChar_place {chars : List Char}
    (capitals : forall char, char ∈ chars -> char.toUpper ∈ alphabet) :
    (chars.map place).map digitChar = chars.map Char.toUpper := by
  rw [List.map_map]
  exact List.map_congr_left (fun char member => digitChar_place (capitals char member))

theorem lt_of_mem_map_place {chars : List Char}
    (capitals : forall char, char ∈ chars -> char.toUpper ∈ alphabet) :
    forall digit, digit ∈ chars.map place -> digit < 32 := by
  intro digit member
  rcases List.mem_map.mp member with ⟨char, among, rfl⟩
  exact place_lt (capitals char among)

theorem digitOf?_eq (char : Char) :
    digitOf? char = if char.toUpper ∈ alphabet then some (place char) else none := by
  split
  · rename_i member
    exact List.findIdx?_eq_some_iff_findIdx_eq.mpr ⟨List.idxOf_lt_length_iff.mpr member, rfl⟩
  · rename_i absent
    exact List.idxOf?_eq_none_iff.mpr absent

theorem mapM_digitOf?_eq_some_iff {chars : List Char} {digits : List Nat} :
    chars.mapM digitOf? = some digits ↔
      (forall char, char ∈ chars -> char.toUpper ∈ alphabet) ∧ digits = chars.map place := by
  induction chars generalizing digits with
  | nil => simp [eq_comm]
  | cons char chars ih =>
      rw [List.mapM_cons, digitOf?_eq, List.forall_mem_cons, List.map_cons]
      by_cases member : char.toUpper ∈ alphabet
      · rw [if_pos member]
        change (chars.mapM digitOf?).bind (fun later => some (place char :: later)) = _ ↔ _
        constructor
        · intro read
          rcases Option.bind_eq_some_iff.mp read with ⟨later, readLater, shape⟩
          cases shape
          rcases ih.mp readLater with ⟨members, rfl⟩
          exact ⟨⟨member, members⟩, rfl⟩
        · rintro ⟨⟨_, members⟩, rfl⟩
          exact Option.bind_eq_some_iff.mpr ⟨_, ih.mpr ⟨members, rfl⟩, rfl⟩
      · rw [if_neg member]
        constructor
        · intro read
          cases read
        · exact fun all => absurd all.1.1 member

/-! ## Reading and writing again -/

/-- Twenty-six bytes, all of them digits in either case. -/
structure Readable (digits : String) : Prop where
  bytes : digits.utf8ByteSize = 26
  letters : forall char, char ∈ digits.toList ->
    char ∈ alphabet ∨ ∃ capital, capital ∈ alphabet ∧ char = capital.toLower

/-- The digits in capitals, the first of them modulo 8. -/
def canonical (digits : String) : String :=
  match digits.toList with
  | [] => ""
  | first :: rest => String.ofList (digitChar (place first % 8) :: rest.map Char.toUpper)

/-- The identifier that digits stand for. -/
def ofPlaces (digits : List Nat) : WorkflowId := ⟨BitVec.ofNat 128 (Digits.value 32 digits)⟩

section Readable

variable {digits : String}

theorem Readable.toUpper_mem (readable : Readable digits) :
    forall char, char ∈ digits.toList -> char.toUpper ∈ alphabet :=
  fun char member => (toUpper_mem_alphabet_iff char).mpr (readable.letters char member)

theorem utf8Size_of_toUpper_mem {char : Char} (member : char.toUpper ∈ alphabet) :
    char.utf8Size = 1 := by
  rcases (toUpper_mem_alphabet_iff char).mp member with capital | ⟨capital, among, rfl⟩
  · exact utf8Size_of_mem_alphabet capital
  · have each : alphabet.all (fun capital => capital.toLower.utf8Size == 1) = true := by decide
    exact beq_iff_eq.mp (List.all_eq_true.mp each capital among)

/-- No digit takes more than a byte. -/
theorem Readable.length_eq (readable : Readable digits) : digits.toList.length = 26 := by
  have size := utf8ByteSize_ofList
    (fun char member => utf8Size_of_toUpper_mem (readable.toUpper_mem char member))
  rw [String.ofList_toList, readable.bytes] at size
  exact size.symm

theorem ofText_eq_ok_iff {id : WorkflowId} :
    ofText digits = .ok id ↔ Readable digits ∧ id = ofPlaces (places digits) := by
  rw [ofText]
  constructor
  · intro accepted
    split at accepted
    · cases accepted
    · rename_i bytes
      split at accepted
      · cases accepted
      · rename_i read
        rcases mapM_digitOf?_eq_some_iff.mp read with ⟨letters, rfl⟩
        cases accepted
        exact ⟨⟨not_not.mp bytes,
          fun char member => (toUpper_mem_alphabet_iff char).mp (letters char member)⟩, rfl⟩
  · rintro ⟨readable, rfl⟩
    have bytes : digits.utf8ByteSize = width := readable.bytes
    rw [if_neg (not_not.mpr bytes), mapM_digitOf?_eq_some_iff.mpr ⟨readable.toUpper_mem, rfl⟩]
    rfl

theorem toNat_ofPlaces (digits : List Nat) :
    (ofPlaces digits).value.toNat = Digits.value 32 digits % Nat.pow 2 128 :=
  BitVec.toNat_ofNat _ _

/-- Of the digits only the first is written differently, by the bits that do
not fit. -/
theorem text_ofPlaces (readable : Readable digits) :
    (ofPlaces (places digits)).text = canonical digits := by
  have length := readable.length_eq
  have capitals := readable.toUpper_mem
  unfold canonical places
  generalize digits.toList = chars at length capitals
  cases chars with
  | nil => cases length
  | cons first rest =>
      have restLength : (rest.map place).length = 25 := by
        rw [List.length_map]
        exact Nat.succ.inj length
      have restCapitals := (List.forall_mem_cons.mp capitals).2
      have written := Digits.fixed_value_cons_mod (place first) (by decide : 0 < 8) (by decide)
        (lt_of_mem_map_place restCapitals)
      have span : Nat.pow 32 (rest.map place).length * 8 = Nat.pow 2 128 := by rw [restLength]
      have digitCount : (rest.map place).length + 1 = width := by rw [restLength, width]
      rw [span, digitCount] at written
      rw [text, toNat_ofPlaces, List.map_cons, written, List.map_cons,
        map_digitChar_place restCapitals]

end Readable

/-! ## The codec -/

/-- The text of an identifier, and that it is read back with its mark or
without. -/
structure Written (id : WorkflowId) : Prop where
  length : id.text.toList.length = 26
  capitals : forall char, char ∈ id.text.toList -> char ∈ alphabet
  display : id.display = "wf_" ++ id.text
  parsed : parse id.display = .ok id
  parsedBare : parse id.text = .ok id

/-- What reading makes of a text that has these digits behind its mark. -/
structure Parsed (text digits : String) : Prop where
  accepted : (∃ id, parse text = .ok id) ↔ Readable digits
  value : forall id, parse text = .ok id ->
    id.value.toNat = Digits.value 32 (places digits) % Nat.pow 2 128
  display : forall id, parse text = .ok id -> id.display = "wf_" ++ canonical digits

theorem bare_text (id : WorkflowId) : Bare id.text id.text := by
  apply Bare.unmarked
  intro rest marked
  have begins : 'w' ∈ id.text.toList := by
    rw [marked, String.toList_append, String.toList_ofList]
    exact List.mem_append_left _ List.mem_cons_self
  exact absurd (id.mem_alphabet_of_mem_text begins) (by decide)

theorem parse_eq_ok_iff {text digits : String} {id : WorkflowId} (bare : Bare text digits) :
    parse text = .ok id ↔ Readable digits ∧ id = ofPlaces (places digits) := by
  rw [parse, bare.unmarked_eq, ofText_eq_ok_iff]

theorem written (id : WorkflowId) : Written id where
  length := id.length_text
  capitals := fun _ member => id.mem_alphabet_of_mem_text member
  display := rfl
  parsed := by rw [parse, display, unmarked_append, ofText_text]
  parsedBare := by rw [parse, (bare_text id).unmarked_eq, ofText_text]

theorem text_of_parse {text digits : String} {id : WorkflowId} (bare : Bare text digits)
    (accepted : parse text = .ok id) : id.text = canonical digits := by
  rcases (parse_eq_ok_iff bare).mp accepted with ⟨readable, rfl⟩
  exact text_ofPlaces readable

theorem Bare.parsed {text digits : String} (bare : Bare text digits) : Parsed text digits := by
  constructor
  case accepted =>
    constructor
    · rintro ⟨id, accepted⟩
      exact ((parse_eq_ok_iff bare).mp accepted).1
    · exact fun readable => ⟨_, (parse_eq_ok_iff bare).mpr ⟨readable, rfl⟩⟩
  case value =>
    intro id accepted
    rcases (parse_eq_ok_iff bare).mp accepted with ⟨_, rfl⟩
    exact toNat_ofPlaces _
  case display =>
    intro id accepted
    rw [WorkflowId.display, text_of_parse bare accepted]

theorem eq_of_text_eq {id other : WorkflowId} (same : id.text = other.text) : id = other := by
  have read := id.ofText_text
  rw [same, other.ofText_text] at read
  cases read
  rfl

/-- Every identifier comes back from its text.  A text is read exactly when it
has 26 digits in either case behind at most one mark; it is written again in
capitals with its first digit modulo 8, and texts that agree in this are the
texts of one identifier. -/
theorem text_codec :
    (forall id, Written id) ∧
      (forall text, ∃ digits, Bare text digits) ∧
      (forall text digits, Bare text digits -> Parsed text digits) ∧
      forall first second digits others, Bare first digits -> Bare second others ->
        forall id other, parse first = .ok id -> parse second = .ok other ->
          (id = other ↔ canonical digits = canonical others) := by
  refine ⟨written, exists_bare, fun _ _ bare => bare.parsed, ?_⟩
  intro first second digits others firstBare secondBare id other read readToo
  rw [← text_of_parse firstBare read, ← text_of_parse secondBare readToo]
  constructor
  · exact congrArg text
  · exact eq_of_text_eq

/-- The highest identifier, also read from small letters with two bits too many. -/
theorem text_codec_highest :
    ∃ id : WorkflowId, id.value = BitVec.allOnes 128 ∧
      parse "wf_zzzzzzzzzzzzzzzzzzzzzzzzzz" = .ok id ∧
      parse "7ZZZZZZZZZZZZZZZZZZZZZZZZZ" = .ok id ∧
      id.display = "wf_7ZZZZZZZZZZZZZZZZZZZZZZZZZ" := by
  have small : parse ("wf_" ++ "zzzzzzzzzzzzzzzzzzzzzzzzzz") = .ok ⟨BitVec.allOnes 128⟩ := by rfl
  have capital : parse "7ZZZZZZZZZZZZZZZZZZZZZZZZZ" = .ok ⟨BitVec.allOnes 128⟩ := by rfl
  have shown := (text_codec.2.2.1 _ _ (.marked "zzzzzzzzzzzzzzzzzzzzzzzzzz")).display _ small
  exact ⟨⟨BitVec.allOnes 128⟩, rfl, small, capital, shown⟩

end WorkflowId

end FlowPlan
