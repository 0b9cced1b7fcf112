import FlowPlan.Text.Digits

namespace FlowPlan

/-!
Workflow identifiers: 128-bit values written as 26 digits of base 32.

The digits are those of Crockford's alphabet, which leaves out I, L, O and U.
Letters are read in either case and written as capitals.  Twenty-six digits
span 130 bits, and reading drops the two highest.
-/

structure WorkflowId where
  value : BitVec 128
  deriving DecidableEq, Repr

namespace WorkflowId

def alphabet : List Char :=
  ['0', '1', '2', '3', '4', '5', '6', '7', '8', '9', 'A', 'B', 'C', 'D', 'E', 'F',
    'G', 'H', 'J', 'K', 'M', 'N', 'P', 'Q', 'R', 'S', 'T', 'V', 'W', 'X', 'Y', 'Z']

def digitChar (digit : Nat) : Char := alphabet.getD digit '0'

def digitOf? (char : Char) : Option Nat := alphabet.idxOf? char.toUpper

def width : Nat := 26

/-- The 26 digits alone, as they stand in a document. -/
def text (id : WorkflowId) : String :=
  String.ofList ((Digits.fixed 32 width id.value.toNat).map digitChar)

/-- The digits behind the mark of a workflow, as messages show them. -/
def display (id : WorkflowId) : String := "wf_" ++ id.text

inductive ParseFault where
  | invalidLength
  | invalidCharacter
  deriving DecidableEq, Repr

namespace ParseFault

def reason : ParseFault -> String
  | .invalidLength => "invalid length"
  | .invalidCharacter => "invalid character"

/-- The kind of identifier that was expected. -/
def expected : String := "WorkflowId"

def message (fault : ParseFault) : String :=
  "failed to parse " ++ expected ++ ": " ++ fault.reason

end ParseFault

/-- Read bare digits.  The length that counts is that of the UTF-8 form. -/
def ofText (text : String) : Except ParseFault WorkflowId :=
  if text.utf8ByteSize ≠ width then .error .invalidLength
  else
    match text.toList.mapM digitOf? with
    | none => .error .invalidCharacter
    | some digits => .ok ⟨BitVec.ofNat 128 (Digits.value 32 digits)⟩

/-- Drop one leading mark, if there is one. -/
def unmarked (text : String) : String :=
  match text.toList with
  | 'w' :: 'f' :: '_' :: rest => String.ofList rest
  | _ => text

/-- Read digits with or without their mark. -/
def parse (text : String) : Except ParseFault WorkflowId := ofText (unmarked text)

end WorkflowId

end FlowPlan
