import FlowPlan.Json.Token

namespace FlowPlan

/-!
Reading JSON text strictly: one value, with nothing but space around it.

The reader takes one token at a time and keeps the open arrays and objects on
a stack, so nesting has no limit.
-/

namespace Json

/-- An open array or object, with what it holds so far, latest first.  An
object also keeps the name of the member that is being read. -/
inductive Frame where
  | array (items : List Json)
  | object (members : List (Option String × Json)) (name : Option String)

/-- What may stand next. -/
inductive Expectation where
  | value
  /-- The first item of an array, or its end. -/
  | itemOrEnd
  /-- The first name in an object, or its end. -/
  | nameOrEnd
  /-- A further name in an object. -/
  | name (members : List (Option String × Json))
  /-- The colon after a name. -/
  | colon (members : List (Option String × Json)) (name : Option String)
  /-- A comma or the end of what is open, now that this value is read. -/
  | after (value : Json)

/-- A token that is a value by itself. -/
def ofToken? : JsonToken -> Option Json
  | .null => some .null
  | .bool value => some (.bool value)
  | .number value => some (.number value)
  | .string content => some (.string content)
  | _ => none

/-- Begin a value with a token. -/
def beginValue? (stack : List Frame) : JsonToken -> Option (List Frame × Expectation)
  | .openArray => some (.array [] :: stack, .itemOrEnd)
  | .openObject => some (stack, .nameOrEnd)
  | token => (ofToken? token).map (fun value => (stack, .after value))

/-- Read one token. -/
def step? (stack : List Frame) (expectation : Expectation) (token : JsonToken) :
    Option (List Frame × Expectation) :=
  match expectation, token, stack with
  | .value, token, stack => beginValue? stack token
  | .itemOrEnd, .closeArray, .array _ :: stack => some (stack, .after (.array []))
  | .itemOrEnd, token, stack => beginValue? stack token
  | .nameOrEnd, .closeObject, stack => some (stack, .after (.object []))
  | .nameOrEnd, .string name, stack => some (stack, .colon [] name)
  | .name members, .string name, stack => some (stack, .colon members name)
  | .colon members name, .colon, stack => some (.object members name :: stack, .value)
  | .after value, .comma, .array items :: stack => some (.array (value :: items) :: stack, .value)
  | .after value, .closeArray, .array items :: stack =>
      some (stack, .after (.array (value :: items).reverse))
  | .after value, .comma, .object members name :: stack =>
      some (stack, .name ((name, value) :: members))
  | .after value, .closeObject, .object members name :: stack =>
      some (stack, .after (.object ((name, value) :: members).reverse))
  | _, _, _ => none

/-- Read the tokens that remain. -/
def read (stack : List Frame) (expectation : Expectation) : List JsonToken -> Option Json
  | [] =>
      match stack, expectation with
      | [], .after value => some value
      | _, _ => none
  | token :: rest => do
      let (stack, expectation) <- step? stack expectation token
      read stack expectation rest

def ofTokens? (tokens : List JsonToken) : Option Json := read [] .value tokens

def ofChars? (text : List Char) : Option Json := do
  let tokens <- JsonToken.ofChars? text
  ofTokens? tokens

def parse? (text : String) : Option Json := ofChars? text.toList

end Json

end FlowPlan
