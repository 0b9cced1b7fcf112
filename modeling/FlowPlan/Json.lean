namespace FlowPlan

/-!
JSON values as a reader finds them.

Members of an object keep their order and may repeat a name, since what a
repeated name means depends on what is read.  A string that spells half of a
surrogate pair stands for no text and is kept as `none`.  So is a number
beyond the range of a double: it is an infinite float.
-/

inductive JsonNumber where
  /-- An integer written without fraction and exponent. -/
  | integer (value : Int)
  | float (value : Float)

inductive Json where
  | null
  | bool (value : Bool)
  | number (value : JsonNumber)
  | string (content : Option String)
  | array (items : List Json)
  | object (members : List (Option String × Json))

namespace Json

def text (content : String) : Json := .string (some content)

def natural (value : Nat) : Json := .number (.integer value)

def float (value : Float) : Json := .number (.float value)

/-- An object whose member names are plain texts. -/
def record (members : List (String × Json)) : Json :=
  .object (members.map (fun member => (some member.1, member.2)))

/-- The member of a name, if there is a value for it. -/
def optionalMember (name : String) : Option Json -> List (String × Json)
  | none => []
  | some value => [(name, value)]

end Json

end FlowPlan
