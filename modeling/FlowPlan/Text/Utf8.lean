namespace FlowPlan

/-!
Decoding UTF-8 with replacement.

Where bytes are no UTF-8, the longest start of a character among them, or else
one byte, is replaced by U+FFFD.
-/

namespace Utf8

/-- How a character goes on after its first byte: the bits the first byte
gives, the bytes the second may be, and the number of bytes that follow. -/
structure Lead where
  bits : Nat
  low : Nat
  high : Nat
  following : Nat

/-- The second byte excludes overlong forms, surrogates and code points beyond
U+10FFFF. -/
def lead? (byte : Nat) : Option Lead :=
  if 0xC2 ≤ byte ∧ byte < 0xE0 then some ⟨byte - 0xC0, 0x80, 0xBF, 1⟩
  else if byte = 0xE0 then some ⟨0, 0xA0, 0xBF, 2⟩
  else if byte = 0xED then some ⟨0xD, 0x80, 0x9F, 2⟩
  else if 0xE1 ≤ byte ∧ byte < 0xF0 then some ⟨byte - 0xE0, 0x80, 0xBF, 2⟩
  else if byte = 0xF0 then some ⟨0, 0x90, 0xBF, 3⟩
  else if 0xF1 ≤ byte ∧ byte < 0xF4 then some ⟨byte - 0xF0, 0x80, 0xBF, 3⟩
  else if byte = 0xF4 then some ⟨4, 0x80, 0x8F, 3⟩
  else none

/-- What the decoder is in the middle of. -/
inductive State where
  | between
  /-- Inside a character: what its next byte must be. -/
  | inside (expected : Lead)

def replacement : Char := '\uFFFD'

/-- Begin a character; the characters its first byte completes. -/
def begin (byte : Nat) : List Char × State :=
  if byte < 0x80 then ([Char.ofNat byte], .between)
  else
    match lead? byte with
    | some expected => ([], .inside expected)
    | none => ([replacement], .between)

def step : State -> Nat -> List Char × State
  | .between, byte => begin byte
  | .inside expected, byte =>
      if expected.low ≤ byte ∧ byte ≤ expected.high then
        let bits := expected.bits * 0x40 + byte % 0x40
        if expected.following ≤ 1 then ([Char.ofNat bits], .between)
        else ([], .inside ⟨bits, 0x80, 0xBF, expected.following - 1⟩)
      else
        let (chars, next) := begin byte
        (replacement :: chars, next)

/-- Decode the bytes that remain. -/
def decodeFrom (state : State) : List UInt8 -> List Char
  | [] =>
      match state with
      | .between => []
      | .inside _ => [replacement]
  | byte :: rest =>
      let (chars, next) := step state byte.toNat
      chars ++ decodeFrom next rest

def decodeLossy (bytes : List UInt8) : String := String.ofList (decodeFrom .between bytes)

end Utf8

end FlowPlan
