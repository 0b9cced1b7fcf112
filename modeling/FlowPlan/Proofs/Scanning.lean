import FlowPlan.Json.Token
import FlowPlan.Json.Write
import Mathlib.Data.List.Basic
import Mathlib.Data.List.TakeWhile

namespace FlowPlan

/-!
Scanning what was written.

A value is written as the texts of its tokens with layout between them, and
the scanner finds these tokens again whatever the layout.  Texts come back
through their escapes, and integers come back where they fit 64 bits.  Doubles
are left out: a decimal is read by an arithmetic of its own, which need not
find the double that was written.
-/

/-! ## Integers -/

namespace JsonNumber

/-- The integers that a number in a text stands for exactly. -/
def isWord (value : Int) : Bool :=
  -(Word.signedCount : Int) ≤ value && value < (Word.unsignedCount : Int)

theorem head?_toDigits_ne_zero {value : Nat} (positive : 0 < value) :
    (Nat.toDigits 10 value).head? ≠ some '0' := by
  induction value using Nat.strongRecOn with
  | ind value ih =>
      rw [Nat.toDigits_eq_if (by decide)]
      split
      · simp [Nat.digitChar_eq_zero]
        omega
      · rw [List.head?_append_of_ne_nil _ Nat.toDigits_ne_nil]
        exact ih (value / 10) (by omega) (by omega)

namespace Parts

theorem isWhole_toDigits (value : Nat) : isWhole (Nat.toDigits 10 value) = true := by
  rcases Nat.eq_zero_or_pos value with rfl | positive
  · rfl
  · have leading := head?_toDigits_ne_zero positive
    unfold isWhole
    split
    · rfl
    · rename_i zero
      rw [zero] at leading
      exact absurd rfl leading
    · rfl

theorem readUnsigned?_toDigits (negative : Bool) (value : Nat) :
    readUnsigned? negative (Nat.toDigits 10 value)
      = some ⟨negative, Nat.toDigits 10 value, [], none⟩ := by
  have digits : forall char, char ∈ Nat.toDigits 10 value -> char.isDigit = true :=
    fun char member => Nat.isDigit_of_mem_toDigits (by decide) (by decide) member
  have split : splitDigits? (Nat.toDigits 10 value) = some (Nat.toDigits 10 value, []) := by
    unfold splitDigits?
    rw [List.takeWhile_eq_self_iff.mpr digits, List.dropWhile_eq_nil_iff.mpr digits]
    split
    · rename_i none
      exact absurd none Nat.toDigits_ne_nil
    · rfl
  simp [readUnsigned?, split, isWhole_toDigits, readExponent?]

theorem ofChars?_toDigits (value : Nat) :
    ofChars? (Nat.toDigits 10 value) = some ⟨false, Nat.toDigits 10 value, [], none⟩ := by
  unfold ofChars?
  split
  · rename_i rest signed
    have digit : '-'.isDigit = true := Nat.isDigit_of_mem_toDigits (b := 10) (n := value)
      (by decide) (by decide) (signed ▸ List.mem_cons_self)
    exact absurd digit (by decide)
  · exact readUnsigned?_toDigits false value

end Parts

theorem ofChars?_integerChars {value : Int} (word : isWord value = true) :
    ofChars? (integerChars value) = some (.integer value) := by
  simp only [isWord, Bool.and_eq_true, decide_eq_true_eq] at word
  unfold integerChars ofChars?
  split
  · rename_i negative
    have parts : Parts.ofChars? ('-' :: Nat.toDigits 10 value.natAbs)
        = some ⟨true, Nat.toDigits 10 value.natAbs, [], none⟩ :=
      Parts.readUnsigned?_toDigits true value.natAbs
    have inRange : 0 < value.natAbs ∧ value.natAbs ≤ Word.signedCount := by omega
    have same : -(value.natAbs : Int) = value := by omega
    rw [parts, Option.map_some, ofParts]
    simp only [Nat.ofDigitChars_ten_toDigits, inRange, and_self, if_true, same]
  · have inRange : value.natAbs < Word.unsignedCount := by omega
    have same : (value.natAbs : Int) = value := by omega
    simp [Parts.ofChars?_toDigits, ofParts, Nat.ofDigitChars_ten_toDigits, inRange, same]

theorem integerChars_ne_nil (value : Int) : integerChars value ≠ [] := by
  unfold integerChars
  split
  · exact List.cons_ne_nil _ _
  · exact Nat.toDigits_ne_nil

end JsonNumber

namespace JsonToken

/-! ## Words -/

/-- No word goes on here. -/
def Stops (text : List Char) : Prop :=
  forall char rest, text = char :: rest -> isWordChar char = false

theorem stops_nil : Stops [] := by
  intro char rest impossible
  cases impossible

theorem stops_cons {char : Char} (stops : isWordChar char = false) (rest : List Char) :
    Stops (char :: rest) := by
  rintro _ _ ⟨⟩
  exact stops

/-- A character that completes no token. -/
theorem scan_of_step {state next : Scan} {char : Char}
    (stepped : step? state char = some ([], next)) (rest : List Char) :
    scan state (char :: rest) = scan next rest := by
  simp [scan, stepped]

/-- A character that completes one token. -/
theorem scan_of_step_token {state next : Scan} {char : Char} {token : JsonToken}
    (stepped : step? state char = some ([token], next)) (rest : List Char) :
    scan state (char :: rest) = (scan next rest).map (token :: ·) := by
  rw [scan, stepped, Option.map_eq_bind]
  rfl

theorem begin?_of_isWordChar {char : Char} (word : isWordChar char = true) :
    begin? char = some ([], .word [char]) := by
  have space : isSpace char = false := by
    apply eq_false_of_ne_true
    intro space
    simp only [isSpace, Bool.or_eq_true, beq_iff_eq] at space
    rcases space with ((rfl | rfl) | rfl) | rfl <;> exact absurd word (by decide)
  have quote : char ≠ '"' := by
    rintro rfl
    exact absurd word (by decide)
  simp [begin?, space, quote, word]

/-- A word is gathered to where it stops, and read whole. -/
theorem scan_gathering {gathered word rest : List Char} {token : JsonToken}
    (chars : forall char, char ∈ word -> isWordChar char = true)
    (read : ofWord? (gathered.reverse ++ word) = some token) (stops : Stops rest) :
    scan (.word gathered) (word ++ rest) = (scan .between rest).map (token :: ·) := by
  induction word generalizing gathered with
  | nil =>
      rw [List.append_nil] at read
      cases rest with
      | nil => simp [scan, read]
      | cons char later =>
          have stop := stops char later rfl
          simp only [List.nil_append, scan, step?, stop, read]
          cases begin? char with
          | none => rfl
          | some begun => cases following : scan begun.2 later <;> simp [following]
  | cons char word ih =>
      have going : step? (.word gathered) char = some ([], .word (char :: gathered)) := by
        simp [step?, chars char List.mem_cons_self]
      rw [List.cons_append, scan_of_step going]
      apply ih (fun other member => chars other (List.mem_cons_of_mem _ member))
      simpa using read

theorem scan_word {word rest : List Char} {token : JsonToken} (nonempty : word ≠ [])
    (chars : forall char, char ∈ word -> isWordChar char = true)
    (read : ofWord? word = some token) (stops : Stops rest) :
    scan .between (word ++ rest) = (scan .between rest).map (token :: ·) := by
  cases word with
  | nil => exact absurd rfl nonempty
  | cons char word =>
      have begun : step? .between char = some ([], .word [char]) :=
        begin?_of_isWordChar (chars char List.mem_cons_self)
      rw [List.cons_append, scan_of_step begun]
      exact scan_gathering (fun other member => chars other (List.mem_cons_of_mem _ member))
        (by simpa using read) stops

theorem isWordChar_of_mem_integerChars {value : Int} {char : Char}
    (member : char ∈ JsonNumber.integerChars value) : isWordChar char = true := by
  have ofDigit : char ∈ Nat.toDigits 10 value.natAbs -> isWordChar char = true := by
    intro digit
    have isDigit := Nat.isDigit_of_mem_toDigits (by decide) (by decide) digit
    simp [isWordChar, Char.isAlphanum, isDigit]
  unfold JsonNumber.integerChars at member
  split at member
  · rcases List.mem_cons.mp member with rfl | digit
    · rfl
    · exact ofDigit digit
  · exact ofDigit member

theorem ofWord?_of_number {word : List Char} {number : JsonNumber}
    (read : JsonNumber.ofChars? word = some number) : ofWord? word = some (.number number) := by
  unfold ofWord?
  split
  · rename_i same
    rw [same] at read
    cases read
  · split
    · rename_i same
      rw [same] at read
      cases read
    · split
      · rename_i same
        rw [same] at read
        cases read
      · rw [read]
        rfl

theorem scan_integerChars {value : Int} (word : JsonNumber.isWord value = true)
    {rest : List Char} (stops : Stops rest) :
    scan .between (JsonNumber.integerChars value ++ rest)
      = (scan .between rest).map (.number (.integer value) :: ·) :=
  scan_word (JsonNumber.integerChars_ne_nil value) (fun _ => isWordChar_of_mem_integerChars)
    (ofWord?_of_number (JsonNumber.ofChars?_integerChars word)) stops

/-! ## Strings -/

theorem hexDigit?_digitChar :
    forall digit, digit < 16 -> hexDigit? (Nat.digitChar digit) = some digit := by
  decide

/-- No character is half of a surrogate pair. -/
theorem half_toNat (char : Char) :
    isHighHalf char.toNat = false ∧ isLowHalf char.toNat = false := by
  have valid : char.toNat < 0xD800 ∨ (0xDFFF < char.toNat ∧ char.toNat < 0x110000) := char.valid
  simp only [isHighHalf, isLowHalf, Bool.and_eq_false_iff, decide_eq_false_iff_not]
  omega

theorem charsOfUnits?_map_toNat (chars : List Char) :
    charsOfUnits? (chars.map Char.toNat) = some chars := by
  induction chars with
  | nil => rfl
  | cons char chars ih =>
      have halves := half_toNat char
      rw [List.map_cons, charsOfUnits?.eq_def]
      simp [halves, ih]

/-- A character is escaped by a letter or by its code point, or stands for
itself. -/
theorem escapeChar_cases (char : Char) :
    (∃ letter, Json.escapeChar char = ['\\', letter] ∧ letter ≠ 'u' ∧
      escaped? letter = some char) ∨
    (char.toNat < 0x20 ∧ Json.escapeChar char = ['\\', 'u', '0', '0',
      Nat.digitChar (char.toNat / 16), Nat.digitChar (char.toNat % 16)]) ∨
    (Json.escapeChar char = [char] ∧ char ≠ '"' ∧ char ≠ '\\' ∧ ¬ char.toNat < 0x20) := by
  by_cases named : char ∈ ['"', '\\', '\x08', '\x0c', '\n', '\r', '\t']
  · simp only [List.mem_cons, List.not_mem_nil, or_false] at named
    rcases named with rfl | rfl | rfl | rfl | rfl | rfl | rfl <;>
      exact Or.inl ⟨_, rfl, by decide, rfl⟩
  · simp only [List.mem_cons, List.not_mem_nil, or_false, not_or] at named
    by_cases control : char.toNat < 0x20
    · exact Or.inr (Or.inl ⟨control, by simp [Json.escapeChar, named, control]⟩)
    · exact Or.inr (Or.inr ⟨by simp [Json.escapeChar, named, control], named.1, named.2.1, control⟩)

/-- The escape of a character is gathered as its code point. -/
theorem scan_escapeChar (gathered : List Nat) (char : Char) (rest : List Char) :
    scan (.string gathered) (Json.escapeChar char ++ rest)
      = scan (.string (char.toNat :: gathered)) rest := by
  have backslash : step? (.string gathered) '\\' = some ([], .escape gathered) := rfl
  rcases escapeChar_cases char with
    ⟨letter, escaped, other, plain⟩ | ⟨control, escaped⟩ | ⟨itself, quote, slash, visible⟩
  · have named : step? (.escape gathered) letter = some ([], .string (char.toNat :: gathered)) := by
      simp [step?, other, plain]
    rw [escaped, List.cons_append, List.cons_append, List.nil_append, scan_of_step backslash,
      scan_of_step named]
  · have high : step? (.unicode gathered 2 0) (Nat.digitChar (char.toNat / 16))
        = some ([], .unicode gathered 1 (char.toNat / 16)) := by
      simp [step?, hexDigit?_digitChar (char.toNat / 16) (by omega)]
    have low : step? (.unicode gathered 1 (char.toNat / 16)) (Nat.digitChar (char.toNat % 16))
        = some ([], .string (char.toNat :: gathered)) := by
      have value : 16 * (char.toNat / 16) + char.toNat % 16 = char.toNat := by omega
      simp [step?, hexDigit?_digitChar (char.toNat % 16) (by omega), value]
    have mark : step? (.escape gathered) 'u' = some ([], .unicode gathered 4 0) := rfl
    have first : step? (.unicode gathered 4 0) '0' = some ([], .unicode gathered 3 0) := rfl
    have second : step? (.unicode gathered 3 0) '0' = some ([], .unicode gathered 2 0) := rfl
    rw [escaped]
    simp only [List.cons_append, List.nil_append]
    rw [scan_of_step backslash, scan_of_step mark, scan_of_step first, scan_of_step second,
      scan_of_step high, scan_of_step low]
  · have kept : step? (.string gathered) char = some ([], .string (char.toNat :: gathered)) := by
      simp [step?, quote, slash, visible]
    rw [itself, List.cons_append, List.nil_append, scan_of_step kept]

theorem scan_content (gathered : List Nat) (content rest : List Char) :
    scan (.string gathered) (content.flatMap Json.escapeChar ++ rest)
      = scan (.string ((content.map Char.toNat).reverse ++ gathered)) rest := by
  induction content generalizing gathered with
  | nil => rfl
  | cons char content ih =>
      rw [List.flatMap_cons, List.append_assoc, scan_escapeChar, ih]
      simp

theorem scan_stringChars (content : String) (rest : List Char) :
    scan .between (Json.stringChars (some content) ++ rest)
      = (scan .between rest).map (.string (some content) :: ·) := by
  have opening : step? .between '"' = some ([], .string []) := rfl
  have closing : step? (.string (content.toList.map Char.toNat).reverse) '"'
      = some ([.string (some content)], .between) := by
    simp [step?, charsOfUnits?_map_toNat]
  simp only [Json.stringChars, List.cons_append, List.append_assoc, List.nil_append]
  rw [scan_of_step opening, scan_content, List.append_nil, scan_of_step_token closing]

end JsonToken

/-! ## Values -/

namespace Json

mutual

/-- Every string stands for a text and every number is an integer of 64 bits. -/
def isExact : Json -> Bool
  | .null => true
  | .bool _ => true
  | .number (.integer value) => JsonNumber.isWord value
  | .number (.float _) => false
  | .string content => content.isSome
  | .array items => areExact items
  | .object members => areExactMembers members

def areExact : List Json -> Bool
  | [] => true
  | item :: items => isExact item && areExact items

def areExactMembers : List (Option String × Json) -> Bool
  | [] => true
  | (name, value) :: members => name.isSome && isExact value && areExactMembers members

end

mutual

/-- The tokens of a value. -/
def tokens : Json -> List JsonToken
  | .null => [.null]
  | .bool value => [.bool value]
  | .number value => [.number value]
  | .string content => [.string content]
  | .array [] => [.openArray, .closeArray]
  | .array (item :: items) => .openArray :: tokens item ++ itemTokens items ++ [.closeArray]
  | .object [] => [.openObject, .closeObject]
  | .object ((name, value) :: members) =>
      .openObject :: .string name :: .colon :: tokens value ++ memberTokens members
        ++ [.closeObject]

/-- The tokens of further items of an array. -/
def itemTokens : List Json -> List JsonToken
  | [] => []
  | item :: items => .comma :: tokens item ++ itemTokens items

/-- The tokens of further members of an object. -/
def memberTokens : List (Option String × Json) -> List JsonToken
  | [] => []
  | (name, value) :: members =>
      .comma :: .string name :: .colon :: tokens value ++ memberTokens members

end

section Layout

variable (layout : Layout) (level : Nat)

open JsonToken

theorem scan_blanks (count : Nat) (rest : List Char) :
    scan .between (List.replicate count ' ' ++ rest) = scan .between rest := by
  have blank : JsonToken.step? .between ' ' = some ([], .between) := rfl
  induction count with
  | zero => rfl
  | succ count ih => rw [List.replicate_succ, List.cons_append, scan_of_step blank, ih]

theorem scan_lineBreak (rest : List Char) :
    scan .between (layout.lineBreak level ++ rest) = scan .between rest := by
  cases layout with
  | compact => rfl
  | pretty =>
      have newline : JsonToken.step? .between '\n' = some ([], .between) := rfl
      rw [Layout.lineBreak, List.cons_append, scan_of_step newline, scan_blanks]

theorem scan_separator (rest : List Char) :
    scan .between (layout.separator ++ rest) = (scan .between rest).map (.colon :: ·) := by
  have colon : JsonToken.step? .between ':' = some ([.colon], .between) := rfl
  cases layout with
  | compact => exact scan_of_step_token colon rest
  | pretty =>
      have blank : JsonToken.step? .between ' ' = some ([], .between) := rfl
      exact (scan_of_step_token colon (' ' :: rest)).trans (by rw [scan_of_step blank])

theorem stops_lineBreak {rest : List Char} (stops : Stops rest) :
    Stops (layout.lineBreak level ++ rest) := by
  cases layout with
  | compact => exact stops
  | pretty => exact stops_cons rfl _

theorem stops_writeItems (items : List Json) {rest : List Char} (stops : Stops rest) :
    Stops (writeItems layout level items ++ rest) := by
  cases items with
  | nil => simpa [writeItems] using stops
  | cons item items =>
      rw [writeItems, List.append_assoc, List.append_assoc, List.cons_append]
      exact stops_cons rfl _

theorem stops_writeMembers (members : List (Option String × Json)) {rest : List Char}
    (stops : Stops rest) : Stops (writeMembers layout level members ++ rest) := by
  cases members with
  | nil => simpa [writeMembers] using stops
  | cons member members =>
      rw [writeMembers, List.append_assoc, List.append_assoc, List.cons_append]
      exact stops_cons rfl _

end Layout

section Values

open JsonToken

mutual

/-- The scanner finds the tokens of a written value, wherever the value stands. -/
theorem scan_write (layout : Layout) (level : Nat) {rest : List Char} (stops : Stops rest) :
    forall value : Json, value.isExact = true ->
      scan .between (write layout level value ++ rest)
        = (scan .between rest).map (tokens value ++ ·)
  | .null, _ => by
      rw [write]
      exact scan_word (by decide) (List.all_eq_true.mp rfl) rfl stops
  | .bool true, _ => by
      rw [write]
      exact scan_word (by decide) (List.all_eq_true.mp rfl) rfl stops
  | .bool false, _ => by
      rw [write]
      exact scan_word (by decide) (List.all_eq_true.mp rfl) rfl stops
  | .number (.integer value), carried => by
      rw [isExact] at carried
      exact scan_integerChars carried stops
  | .string (some content), _ => by
      exact scan_stringChars content rest
  | .array [], _ => by
      have opening : JsonToken.step? .between '[' = some ([.openArray], .between) := rfl
      have closing : JsonToken.step? .between ']' = some ([.closeArray], .between) := rfl
      simp only [write, List.cons_append, List.nil_append]
      rw [scan_of_step_token opening, scan_of_step_token closing, Option.map_map]
      rfl
  | .array (item :: items), carried => by
      have opening : JsonToken.step? .between '[' = some ([.openArray], .between) := rfl
      have closing : JsonToken.step? .between ']' = some ([.closeArray], .between) := rfl
      have ends : Stops (layout.lineBreak level ++ ']' :: rest) :=
        stops_lineBreak layout level (stops_cons rfl rest)
      rw [isExact, areExact, Bool.and_eq_true] at carried
      simp only [write, List.cons_append, List.append_assoc, List.nil_append]
      rw [scan_of_step_token opening, scan_lineBreak,
        scan_write layout (level + 1) (stops_writeItems layout (level + 1) items ends) item
          carried.1,
        scan_writeItems layout (level + 1) ends items carried.2, scan_lineBreak,
        scan_of_step_token closing]
      simp [tokens, Option.map_map, Function.comp_def]
  | .object [], _ => by
      have opening : JsonToken.step? .between '\x7b' = some ([.openObject], .between) := rfl
      have closing : JsonToken.step? .between '\x7d' = some ([.closeObject], .between) := rfl
      simp only [write, List.cons_append, List.nil_append]
      rw [scan_of_step_token opening, scan_of_step_token closing, Option.map_map]
      rfl
  | .object ((name, value) :: members), carried => by
      have opening : JsonToken.step? .between '\x7b' = some ([.openObject], .between) := rfl
      have closing : JsonToken.step? .between '\x7d' = some ([.closeObject], .between) := rfl
      have ends : Stops (layout.lineBreak level ++ '\x7d' :: rest) :=
        stops_lineBreak layout level (stops_cons rfl rest)
      rw [isExact, areExactMembers, Bool.and_eq_true, Bool.and_eq_true] at carried
      rcases Option.isSome_iff_exists.mp carried.1.1 with ⟨content, rfl⟩
      simp only [write, writeMember, List.cons_append, List.append_assoc, List.nil_append]
      rw [scan_of_step_token opening, scan_lineBreak, scan_stringChars, scan_separator,
        scan_write layout (level + 1) (stops_writeMembers layout (level + 1) members ends) value
          carried.1.2,
        scan_writeMembers layout (level + 1) ends members carried.2, scan_lineBreak,
        scan_of_step_token closing]
      simp [tokens, Option.map_map, Function.comp_def]

theorem scan_writeItems (layout : Layout) (level : Nat) {rest : List Char} (stops : Stops rest) :
    forall items : List Json, areExact items = true ->
      scan .between (writeItems layout level items ++ rest)
        = (scan .between rest).map (itemTokens items ++ ·)
  | [], _ => by simp [writeItems, itemTokens]
  | item :: items, carried => by
      have comma : JsonToken.step? .between ',' = some ([.comma], .between) := rfl
      rw [areExact, Bool.and_eq_true] at carried
      simp only [writeItems, List.cons_append, List.append_assoc]
      rw [scan_of_step_token comma, scan_lineBreak,
        scan_write layout level (stops_writeItems layout level items stops) item carried.1,
        scan_writeItems layout level stops items carried.2]
      simp [itemTokens, Option.map_map, Function.comp_def]

theorem scan_writeMembers (layout : Layout) (level : Nat) {rest : List Char}
    (stops : Stops rest) :
    forall members : List (Option String × Json), areExactMembers members = true ->
      scan .between (writeMembers layout level members ++ rest)
        = (scan .between rest).map (memberTokens members ++ ·)
  | [], _ => by simp [writeMembers, memberTokens]
  | (name, value) :: members, carried => by
      have comma : JsonToken.step? .between ',' = some ([.comma], .between) := rfl
      rw [areExactMembers, Bool.and_eq_true, Bool.and_eq_true] at carried
      rcases Option.isSome_iff_exists.mp carried.1.1 with ⟨content, rfl⟩
      simp only [writeMembers, writeMember, List.cons_append, List.append_assoc]
      rw [scan_of_step_token comma, scan_lineBreak, scan_stringChars, scan_separator,
        scan_write layout level (stops_writeMembers layout level members stops) value carried.1.2,
        scan_writeMembers layout level stops members carried.2]
      simp [memberTokens, Option.map_map, Function.comp_def]

end

/-- All that is scanned in the text of a value are its tokens. -/
theorem ofChars?_write (layout : Layout) {value : Json} (carried : value.isExact = true) :
    JsonToken.ofChars? (write layout 0 value) = some (tokens value) := by
  have found := scan_write layout 0 stops_nil value carried
  simpa [JsonToken.ofChars?, scan] using found

end Values

end Json

end FlowPlan
