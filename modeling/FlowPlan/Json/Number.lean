import FlowPlan.Decimal.Shortest
import FlowPlan.Json
import FlowPlan.Word

namespace FlowPlan

/-!
Numbers in JSON text.

An integer is exact when it fits 64 bits, as an unsigned or as a negative
signed number.  Anything else is a double: its leading digits are taken as a
64-bit integer, as many as fit, and that is multiplied or divided by the power
of ten, each time rounding to nearest.  A double is written with the fewest
digits that name it, and always with a fraction or an exponent.
-/

namespace JsonNumber

/-! ## Reading -/

/-- The parts of a number as written; an absent fraction has no digits. -/
structure Parts where
  negative : Bool
  whole : List Char
  fraction : List Char
  exponent : Option (Bool × List Char)

namespace Parts

/-- Digits up to the first character that is none, at least one. -/
def splitDigits? (text : List Char) : Option (List Char × List Char) :=
  match text.takeWhile Char.isDigit with
  | [] => none
  | digits => some (digits, text.dropWhile Char.isDigit)

/-- No digit may follow a leading zero. -/
def isWhole : List Char -> Bool
  | ['0'] => true
  | '0' :: _ => false
  | _ => true

def readExponent? (text : List Char) : Option (Option (Bool × List Char)) :=
  let digitsOnly := fun (negative : Bool) (rest : List Char) =>
    match splitDigits? rest with
    | some (digits, []) => some (some (negative, digits))
    | _ => none
  match text with
  | [] => some none
  | mark :: rest =>
      if mark = 'e' ∨ mark = 'E' then
        match rest with
        | '+' :: digits => digitsOnly false digits
        | '-' :: digits => digitsOnly true digits
        | digits => digitsOnly false digits
      else none

def readUnsigned? (negative : Bool) (text : List Char) : Option Parts := do
  let (whole, rest) <- splitDigits? text
  if isWhole whole then
    match rest with
    | '.' :: rest => do
        let (fraction, rest) <- splitDigits? rest
        let exponent <- readExponent? rest
        some ⟨negative, whole, fraction, exponent⟩
    | rest => do
        let exponent <- readExponent? rest
        some ⟨negative, whole, [], exponent⟩
  else none

def ofChars? (text : List Char) : Option Parts :=
  match text with
  | '-' :: rest => readUnsigned? true rest
  | text => readUnsigned? false text

end Parts

/-- Append digits to a value while it fits 64 bits; the digits left over. -/
def takeDigits (value : Nat) : List Char -> Nat × List Char
  | [] => (value, [])
  | char :: rest =>
      let longer := 10 * value + (char.toNat - '0'.toNat)
      if longer < Word.unsignedCount then takeDigits longer rest else (value, char :: rest)

def wordToFloat (value : Nat) : Float := (UInt64.ofNat value).toFloat

def powerOfTen (exponent : Nat) : Float := Float.ofScientific 1 false exponent

/-- The largest power of ten that is a double. -/
def largestPower : Nat := 308

def scaleUp (value : Float) (exponent : Nat) : Float :=
  if exponent ≤ largestPower then value * powerOfTen exponent
  else if value == 0.0 then value
  else 1.0 / 0.0

/-- Divide by a power of ten, in steps that are doubles. -/
def scaleDown (value : Float) (exponent : Nat) : Float :=
  if exponent ≤ largestPower then value / powerOfTen exponent
  else if value == 0.0 then value
  else scaleDown (value / powerOfTen largestPower) (exponent - largestPower)
termination_by exponent
decreasing_by simp only [largestPower] at *; omega

/-- The magnitude of a number that is not exact. -/
def magnitude (parts : Parts) : Float :=
  let (leading, unread) := takeDigits 0 parts.whole
  let (significand, dropped) := takeDigits leading parts.fraction
  let shift : Int := unread.length - (parts.fraction.length - dropped.length : Nat)
  let exponent : Int :=
    match parts.exponent with
    | none => shift
    | some (negative, digits) =>
        let stated : Int := Nat.ofDigitChars 10 digits 0
        if negative then shift - stated else shift + stated
  if 0 ≤ exponent then scaleUp (wordToFloat significand) exponent.toNat
  else scaleDown (wordToFloat significand) (-exponent).toNat

def ofParts (parts : Parts) : JsonNumber :=
  let inexact := .float (if parts.negative then -magnitude parts else magnitude parts)
  match parts.fraction, parts.exponent with
  | [], none =>
      let value := Nat.ofDigitChars 10 parts.whole 0
      if parts.negative then
        if 0 < value ∧ value ≤ Word.signedCount then .integer (-value) else inexact
      else if value < Word.unsignedCount then .integer value
      else inexact
  | _, _ => inexact

def ofChars? (text : List Char) : Option JsonNumber := (Parts.ofChars? text).map ofParts

/-! ## Writing -/

def integerChars (value : Int) : List Char :=
  if value < 0 then '-' :: Nat.toDigits 10 value.natAbs else Nat.toDigits 10 value.natAbs

/-- Positional notation ends at this number of digits before the point. -/
def mostWholeDigits : Int := 16

/-- Positional notation has fewer zeros than this after the point. -/
def mostLeadingZeros : Int := 5

/-- Write a decimal with a point among its digits where its leading digit is
near the units, and with an exponent elsewhere. -/
def decimalChars (decimal : Decimal) : List Char :=
  let digits := Nat.toDigits 10 decimal.digits
  let point : Int := digits.length + decimal.exponent
  if 0 ≤ decimal.exponent ∧ point ≤ mostWholeDigits then
    digits ++ List.replicate decimal.exponent.toNat '0' ++ ['.', '0']
  else if 0 < point ∧ point ≤ mostWholeDigits then
    digits.take point.toNat ++ '.' :: digits.drop point.toNat
  else if -mostLeadingZeros < point ∧ point ≤ 0 then
    '0' :: '.' :: List.replicate (-point).toNat '0' ++ digits
  else
    let exponent := point - 1
    let sign := if exponent < 0 then '-' else '+'
    digits.take 1 ++ (if digits.length = 1 then [] else '.' :: digits.drop 1)
      ++ 'e' :: sign :: Nat.toDigits 10 exponent.natAbs

/-- A double; one that is no number is written as `null`. -/
def floatChars (value : Float) : List Char :=
  if value.isFinite then
    (if isSigned value then ['-'] else []) ++ decimalChars (shortestDecimal value)
  else ['n', 'u', 'l', 'l']

def chars : JsonNumber -> List Char
  | .integer value => integerChars value
  | .float value => floatChars value

end JsonNumber

end FlowPlan
