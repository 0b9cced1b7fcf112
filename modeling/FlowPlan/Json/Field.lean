import FlowPlan.Json
import FlowPlan.Word

namespace FlowPlan

/-!
Taking JSON values apart.

A record is an object with its fields by name, or an array of its fields in
order.  Unknown names are skipped, a known name must not repeat, and an array
may stop early.  A field may be required, may have a default when it is
missing, or may be absent, which `null` says too.
-/

namespace Json

def text? : Json -> Option String
  | .string content => content
  | _ => none

def bool? : Json -> Option Bool
  | .bool value => some value
  | _ => none

/-- An unsigned 64-bit integer. -/
def natural? : Json -> Option Nat
  | .number (.integer value) =>
      if 0 ≤ value ∧ value.toNat < Word.unsignedCount then some value.toNat else none
  | _ => none

def integerToFloat (value : Int) : Float :=
  if value < 0 then -(UInt64.ofNat value.natAbs).toFloat else (UInt64.ofNat value.natAbs).toFloat

/-- Any number within the range of a double. -/
def float? : Json -> Option Float
  | .number (.integer value) => some (integerToFloat value)
  | .number (.float value) => if value.isFinite then some value else none
  | _ => none

def list? {Value : Type} (decode : Json -> Option Value) : Json -> Option (List Value)
  | .array items => items.mapM decode
  | _ => none

/-- A member of an enumeration: its name, or an object with `null` under its
name alone. -/
def named? {Value : Type} (ofName? : String -> Option Value) : Json -> Option Value
  | .string (some name) => ofName? name
  | .object [(some name, .null)] => ofName? name
  | _ => none

/-! ## Records -/

/-- The fields of a record, by name. -/
abbrev Fields := String -> Option Json

/-- A known name stands at most once. -/
def isUnrepeated (members : List (Option String × Json)) (name : String) : Bool :=
  (members.filter (fun member => member.1 == some name)).length ≤ 1

def fields? (names : List String) : Json -> Option Fields
  | .object members =>
      if members.all (fun member => member.1.isSome) && names.all (isUnrepeated members) then
        some (fun name => (members.find? (fun member => member.1 == some name)).map Prod.snd)
      else none
  | .array items =>
      if items.length ≤ names.length then
        some (fun name =>
          ((names.zip items).find? (fun member => member.1 == name)).map Prod.snd)
      else none
  | _ => none

namespace Fields

variable {Value : Type}

def required? (fields : Fields) (name : String) (decode : Json -> Option Value) :
    Option Value :=
  (fields name).bind decode

def defaulted? (fields : Fields) (name : String) (absent : Value)
    (decode : Json -> Option Value) : Option Value :=
  match fields name with
  | none => some absent
  | some value => decode value

def optional? (fields : Fields) (name : String) (decode : Json -> Option Value) :
    Option (Option Value) :=
  match fields name with
  | none => some none
  | some .null => some none
  | some value => (decode value).map some

end Fields

/-! ## Values that are read whole

Where the kind of a record is only known from one of its fields, the other
fields are read as plain values first.  Then each of their strings must stand
for a text and each number for a double, and nesting has a limit. -/

mutual

def isSound : Json -> Bool
  | .null => true
  | .bool _ => true
  | .number (.integer _) => true
  | .number (.float value) => value.isFinite
  | .string content => content.isSome
  | .array items => areSound items
  | .object members => areSoundMembers members

def areSound : List Json -> Bool
  | [] => true
  | item :: items => isSound item && areSound items

def areSoundMembers : List (Option String × Json) -> Bool
  | [] => true
  | (name, value) :: members => name.isSome && isSound value && areSoundMembers members

end

mutual

/-- How many arrays and objects stand inside each other at most. -/
def depth : Json -> Nat
  | .array items => depthOfItems items + 1
  | .object members => depthOfMembers members + 1
  | _ => 0

def depthOfItems : List Json -> Nat
  | [] => 0
  | item :: items => max (depth item) (depthOfItems items)

def depthOfMembers : List (Option String × Json) -> Nat
  | [] => 0
  | (_, value) :: members => max (depth value) (depthOfMembers members)

end

/-- The deepest nesting, counted from the root of a text. -/
def deepest : Nat := 127

end Json

end FlowPlan
