import FlowPlan.Json.Read
import FlowPlan.Proofs.Scanning

namespace FlowPlan

/-!
Reading what was written.

The tokens of a value are read back as that value, inside whatever arrays and
objects are open.  With the scanner this makes reading undo writing, compact
or laid out, for every value that a text can carry exactly.
-/

namespace Json

/-- A token after which the reader is at a certain place. -/
theorem read_of_step {stack next : List Frame} {expectation expected : Expectation}
    {token : JsonToken} (stepped : step? stack expectation token = some (next, expected))
    (rest : List JsonToken) :
    read stack expectation (token :: rest) = read next expected rest := by
  simp [read, stepped]

/-- Where an item or the end of an array may stand, a value is the first item. -/
theorem read_itemOrEnd (stack : List Frame) (value : Json) (rest : List JsonToken) :
    read stack .itemOrEnd (tokens value ++ rest) = read stack .value (tokens value ++ rest) := by
  cases value with
  | null => rfl
  | bool value => rfl
  | number value => rfl
  | string content => rfl
  | array items => cases items <;> rfl
  | object members => cases members <;> rfl

mutual

/-- The tokens of a value are read as that value. -/
theorem read_tokens (stack : List Frame) (rest : List JsonToken) :
    forall value : Json, read stack .value (tokens value ++ rest) = read stack (.after value) rest
  | .null => by rfl
  | .bool _ => by rfl
  | .number _ => by rfl
  | .string _ => by rfl
  | .array [] => by rfl
  | .array (item :: items) => by
      have opened : step? stack .value .openArray = some (.array [] :: stack, .itemOrEnd) := rfl
      simp only [tokens, List.cons_append, List.append_assoc, List.nil_append]
      rw [read_of_step opened, read_itemOrEnd, read_tokens _ _ item, read_itemTokens]
      rfl
  | .object [] => by rfl
  | .object ((name, value) :: members) => by
      have opened : step? stack .value .openObject = some (stack, .nameOrEnd) := rfl
      have named : step? stack .nameOrEnd (.string name) = some (stack, .colon [] name) := rfl
      have parted : step? stack (.colon [] name) .colon
          = some (.object [] name :: stack, .value) := rfl
      simp only [tokens, List.cons_append, List.append_assoc, List.nil_append]
      rw [read_of_step opened, read_of_step named, read_of_step parted, read_tokens _ _ value,
        read_memberTokens]
      rfl

theorem read_itemTokens (stack : List Frame) (earlier : List Json) (item : Json)
    (rest : List JsonToken) :
    forall items : List Json,
      read (.array earlier :: stack) (.after item) (itemTokens items ++ .closeArray :: rest)
        = read stack (.after (.array (earlier.reverse ++ item :: items))) rest
  | [] => by
      have closed : step? (.array earlier :: stack) (.after item) .closeArray
          = some (stack, .after (.array (item :: earlier).reverse)) := rfl
      rw [itemTokens, List.nil_append, read_of_step closed, List.reverse_cons]
  | next :: items => by
      have parted : step? (.array earlier :: stack) (.after item) .comma
          = some (.array (item :: earlier) :: stack, .value) := rfl
      simp only [itemTokens, List.cons_append, List.append_assoc]
      rw [read_of_step parted, read_tokens _ _ next, read_itemTokens, List.reverse_cons,
        List.append_assoc, List.singleton_append]

theorem read_memberTokens (stack : List Frame) (earlier : List (Option String × Json))
    (name : Option String) (value : Json) (rest : List JsonToken) :
    forall members : List (Option String × Json),
      read (.object earlier name :: stack) (.after value)
          (memberTokens members ++ .closeObject :: rest)
        = read stack (.after (.object (earlier.reverse ++ (name, value) :: members))) rest
  | [] => by
      have closed : step? (.object earlier name :: stack) (.after value) .closeObject
          = some (stack, .after (.object ((name, value) :: earlier).reverse)) := rfl
      rw [memberTokens, List.nil_append, read_of_step closed, List.reverse_cons]
  | (nextName, next) :: members => by
      have parted : step? (.object earlier name :: stack) (.after value) .comma
          = some (stack, .name ((name, value) :: earlier)) := rfl
      have named : step? stack (.name ((name, value) :: earlier)) (.string nextName)
          = some (stack, .colon ((name, value) :: earlier) nextName) := rfl
      have valued : step? stack (.colon ((name, value) :: earlier) nextName) .colon
          = some (.object ((name, value) :: earlier) nextName :: stack, .value) := rfl
      simp only [memberTokens, List.cons_append, List.append_assoc]
      rw [read_of_step parted, read_of_step named, read_of_step valued, read_tokens _ _ next,
        read_memberTokens, List.reverse_cons, List.append_assoc, List.singleton_append]

end

theorem ofTokens?_tokens (value : Json) : ofTokens? (tokens value) = some value := by
  have found := read_tokens [] [] value
  rw [List.append_nil] at found
  exact found

/-- Reading undoes writing, in either layout. -/
theorem parse?_render (layout : Layout) {value : Json} (carried : value.isExact = true) :
    parse? (value.render layout) = some value := by
  simp [parse?, render, ofChars?, ofChars?_write layout carried, ofTokens?_tokens]

end Json

end FlowPlan
