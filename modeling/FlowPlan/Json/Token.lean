import FlowPlan.Json.Number

namespace FlowPlan

/-!
The tokens of JSON text.

The scanner goes through the text once.  Runs of letters, digits, points and
signs are gathered whole and then read as a name or a number, so `nullx` and
`1-2` are no tokens.  A string is gathered as a list of code units: an escape
gives one UTF-16 unit, any other character its code point.  Two halves of a
surrogate pair in a row make one character; a half alone makes the string
stand for no text.
-/

inductive JsonToken where
  | openArray
  | closeArray
  | openObject
  | closeObject
  | comma
  | colon
  | null
  | bool (value : Bool)
  | number (value : JsonNumber)
  | string (content : Option String)

namespace JsonToken

def isSpace (char : Char) : Bool :=
  char == ' ' || char == '\n' || char == '\t' || char == '\r'

/-- Characters that names and numbers are made of. -/
def isWordChar (char : Char) : Bool :=
  char.isAlphanum || char == '.' || char == '-' || char == '+'

def punctuation? (char : Char) : Option JsonToken :=
  if char = '[' then some .openArray
  else if char = ']' then some .closeArray
  else if char = '\x7b' then some .openObject
  else if char = '\x7d' then some .closeObject
  else if char = ',' then some .comma
  else if char = ':' then some .colon
  else none

def ofWord? (word : List Char) : Option JsonToken :=
  if word = ['n', 'u', 'l', 'l'] then some .null
  else if word = ['t', 'r', 'u', 'e'] then some (.bool true)
  else if word = ['f', 'a', 'l', 's', 'e'] then some (.bool false)
  else (JsonNumber.ofChars? word).map .number

/-! ## Strings -/

def isHighHalf (unit : Nat) : Bool := 0xD800 ≤ unit && unit < 0xDC00

def isLowHalf (unit : Nat) : Bool := 0xDC00 ≤ unit && unit < 0xE000

/-- Join halves of surrogate pairs. -/
def charsOfUnits? : List Nat -> Option (List Char)
  | [] => some []
  | unit :: rest =>
      if isHighHalf unit then
        match rest with
        | [] => none
        | low :: rest =>
            if isLowHalf low then
              (charsOfUnits? rest).map
                (Char.ofNat (0x10000 + (unit - 0xD800) * 0x400 + (low - 0xDC00)) :: ·)
            else none
      else if isLowHalf unit then none
      else (charsOfUnits? rest).map (Char.ofNat unit :: ·)

def hexDigit? (char : Char) : Option Nat :=
  if '0' ≤ char ∧ char ≤ '9' then some (char.toNat - '0'.toNat)
  else if 'a' ≤ char ∧ char ≤ 'f' then some (char.toNat - 'a'.toNat + 10)
  else if 'A' ≤ char ∧ char ≤ 'F' then some (char.toNat - 'A'.toNat + 10)
  else none

def escaped? (char : Char) : Option Char :=
  if char = '"' then some '"'
  else if char = '\\' then some '\\'
  else if char = '/' then some '/'
  else if char = 'b' then some '\x08'
  else if char = 'f' then some '\x0c'
  else if char = 'n' then some '\n'
  else if char = 'r' then some '\r'
  else if char = 't' then some '\t'
  else none

/-! ## Scanning -/

/-- What the scanner is in the middle of, with what it has gathered so far,
latest first. -/
inductive Scan where
  | between
  | word (gathered : List Char)
  | string (gathered : List Nat)
  /-- A backslash has been read. -/
  | escape (gathered : List Nat)
  /-- So many hexadecimal digits of an escape are missing. -/
  | unicode (gathered : List Nat) (missing : Nat) (unit : Nat)

/-- Begin a token with a character. -/
def begin? (char : Char) : Option (List JsonToken × Scan) :=
  if isSpace char then some ([], .between)
  else if char = '"' then some ([], .string [])
  else if isWordChar char then some ([], .word [char])
  else (punctuation? char).map (fun token => ([token], .between))

/-- The tokens one character completes, and what the scanner does next. -/
def step? : Scan -> Char -> Option (List JsonToken × Scan)
  | .between, char => begin? char
  | .word gathered, char =>
      if isWordChar char then some ([], .word (char :: gathered))
      else do
        let token <- ofWord? gathered.reverse
        let (tokens, next) <- begin? char
        some (token :: tokens, next)
  | .string gathered, char =>
      if char = '"' then
        some ([.string ((charsOfUnits? gathered.reverse).map String.ofList)], .between)
      else if char = '\\' then some ([], .escape gathered)
      else if char.toNat < 0x20 then none
      else some ([], .string (char.toNat :: gathered))
  | .escape gathered, char =>
      if char = 'u' then some ([], .unicode gathered 4 0)
      else (escaped? char).map (fun plain => ([], .string (plain.toNat :: gathered)))
  | .unicode gathered missing unit, char =>
      (hexDigit? char).map (fun digit =>
        let unit := 16 * unit + digit
        if missing ≤ 1 then ([], .string (unit :: gathered))
        else ([], .unicode gathered (missing - 1) unit))

/-- The tokens of the text that remains. -/
def scan (state : Scan) : List Char -> Option (List JsonToken)
  | [] =>
      match state with
      | .between => some []
      | .word gathered => (ofWord? gathered.reverse).map (fun token => [token])
      | _ => none
  | char :: rest => do
      let (tokens, next) <- step? state char
      let more <- scan next rest
      some (tokens ++ more)

def ofChars? (text : List Char) : Option (List JsonToken) := scan .between text

end JsonToken

end FlowPlan
