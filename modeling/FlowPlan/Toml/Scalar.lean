import FlowPlan.Calendar
import FlowPlan.Text.Digits
import FlowPlan.Toml
import FlowPlan.Word

namespace FlowPlan

/-!
Strings, numbers and dates of TOML.

Each reader takes what it reads off the front of a text and hands on the rest.
Dates and times are kept as texts, in one spelling for each.
-/

namespace Toml

def isSpace (char : Char) : Bool := char == ' ' || char == '\t'

def dropSpaces (text : List Char) : List Char := text.dropWhile isSpace

/-- Characters that may stand in a string or comment as they are. -/
def isPlain (char : Char) : Bool :=
  char == '\t' || (0x20 ≤ char.toNat && char.toNat ≠ 0x7F)

/-- A line end at the front of a text. -/
def readLineEnd? : List Char -> Option (List Char)
  | '\n' :: rest => some rest
  | '\x0d' :: '\n' :: rest => some rest
  | _ => none

/-! ## Strings -/

def hexValue? (digits : List Char) : Option Nat :=
  digits.foldlM (fun (value : Nat) char =>
    let lower := char.toLower
    if char.isDigit then some (16 * value + (char.toNat - '0'.toNat))
    else if 'a' ≤ lower ∧ lower ≤ 'f' then some (16 * value + (lower.toNat - 'a'.toNat + 10))
    else none) 0

/-- The character of a code point, surrogates excepted. -/
def scalar? (digits : List Char) : Option Char :=
  (hexValue? digits).bind (fun code =>
    if code < 0xD800 ∨ (0xE000 ≤ code ∧ code < 0x110000) then some (Char.ofNat code) else none)

def shortEscape? (char : Char) : Option Char :=
  if char = 'b' then some '\x08'
  else if char = 'e' then some '\x1b'
  else if char = 't' then some '\t'
  else if char = 'n' then some '\n'
  else if char = 'f' then some '\x0c'
  else if char = 'r' then some '\r'
  else if char = '"' then some '"'
  else if char = '\\' then some '\\'
  else none

/-- A character by exactly this many hexadecimal digits of its code point. -/
def readCode? (width : Nat) (text : List Char) : Option (Char × List Char) :=
  if width ≤ text.length then
    (scalar? (text.take width)).map (fun char => (char, text.drop width))
  else none

/-- One escape after its backslash. -/
def readEscape? (text : List Char) : Option (Char × List Char) :=
  match text with
  | [] => none
  | 'x' :: rest => readCode? 2 rest
  | 'u' :: rest => readCode? 4 rest
  | 'U' :: rest => readCode? 8 rest
  | char :: rest => (shortEscape? char).map (fun plain => (plain, rest))

/-- The rest of a basic string on one line.  Each step reads at least one
character, so the length of the text bounds the steps. -/
def readBasic? : Nat -> List Char -> List Char -> Option (String × List Char)
  | 0, _, _ => none
  | steps + 1, gathered, text =>
      match text with
      | '"' :: rest => some (String.ofList gathered.reverse, rest)
      | '\\' :: rest => do
          let (char, rest) <- readEscape? rest
          readBasic? steps (char :: gathered) rest
      | char :: rest => if isPlain char then readBasic? steps (char :: gathered) rest else none
      | [] => none

/-- Drop spaces and line ends. -/
def dropSpacesAndLines : List Char -> List Char
  | [] => []
  | '\x0d' :: '\n' :: rest => dropSpacesAndLines rest
  | char :: rest => if isSpace char || char == '\n' then dropSpacesAndLines rest else char :: rest

/-- A backslash at the end of a line takes away the line end and the blanks
after it. -/
def readContinuation? (text : List Char) : Option (List Char) :=
  (readLineEnd? (dropSpaces text)).map dropSpacesAndLines

/-- End a string over several lines after its three closing quotes.  Up to two
quotes that follow are counted among its own last characters. -/
def closeLines (quote : Char) (gathered rest : List Char) : String × List Char :=
  let further := (rest.take 2).takeWhile (fun char => char == quote)
  (String.ofList (gathered.reverse ++ further), rest.drop further.length)

/-- The rest of a basic string over several lines. -/
def readBasicLines? : Nat -> List Char -> List Char -> Option (String × List Char)
  | 0, _, _ => none
  | steps + 1, gathered, text =>
      match text with
      | '"' :: '"' :: '"' :: rest => some (closeLines '"' gathered rest)
      | '\\' :: rest =>
          match readContinuation? rest with
          | some rest => readBasicLines? steps gathered rest
          | none => do
              let (char, rest) <- readEscape? rest
              readBasicLines? steps (char :: gathered) rest
      | '\x0d' :: '\n' :: rest => readBasicLines? steps ('\n' :: '\x0d' :: gathered) rest
      | char :: rest =>
          if isPlain char || char == '\n' then readBasicLines? steps (char :: gathered) rest
          else none
      | [] => none

/-- The rest of a literal string on one line. -/
def readLiteral? (text : List Char) : Option (String × List Char) :=
  match text.dropWhile (fun char => isPlain char && char != '\'') with
  | '\'' :: rest =>
      some (String.ofList (text.takeWhile (fun char => isPlain char && char != '\'')), rest)
  | _ => none

/-- The rest of a literal string over several lines. -/
def readLiteralLines? : Nat -> List Char -> List Char -> Option (String × List Char)
  | 0, _, _ => none
  | steps + 1, gathered, text =>
      match text with
      | '\'' :: '\'' :: '\'' :: rest => some (closeLines '\'' gathered rest)
      | '\x0d' :: '\n' :: rest => readLiteralLines? steps ('\n' :: '\x0d' :: gathered) rest
      | char :: rest =>
          if isPlain char || char == '\n' then readLiteralLines? steps (char :: gathered) rest
          else none
      | [] => none

/-- A line end right after the opening quotes is no part of the string. -/
def dropFirstLineEnd (text : List Char) : List Char := (readLineEnd? text).getD text

/-- A string that begins with a quote of either kind. -/
def readString? (text : List Char) : Option (String × List Char) :=
  match text with
  | '"' :: '"' :: '"' :: rest =>
      readBasicLines? (rest.length + 1) [] (dropFirstLineEnd rest)
  | '"' :: rest => readBasic? (rest.length + 1) [] rest
  | '\'' :: '\'' :: '\'' :: rest =>
      readLiteralLines? (rest.length + 1) [] (dropFirstLineEnd rest)
  | '\'' :: rest => readLiteral? rest
  | _ => none

/-! ## Numbers -/

def digitValue? (base : Nat) (char : Char) : Option Nat :=
  let value :=
    if char.isDigit then some (char.toNat - '0'.toNat)
    else if 'a' ≤ char.toLower ∧ char.toLower ≤ 'z' then
      some (char.toLower.toNat - 'a'.toNat + 10)
    else none
  value.filter (fun digit => digit < base)

/-- The digits of a number; an underscore may stand between two of them. -/
def digits? (base : Nat) : List Char -> Option (List Nat)
  | [] => none
  | [char] => (digitValue? base char).map (fun digit => [digit])
  | char :: '_' :: rest => do
      let digit <- digitValue? base char
      let more <- digits? base rest
      some (digit :: more)
  | char :: rest => do
      let digit <- digitValue? base char
      let more <- digits? base rest
      some (digit :: more)

def ofDigits (base : Nat) (digits : List Nat) : Nat :=
  digits.foldl (fun value digit => base * value + digit) 0

/-- Digits without a needless leading zero. -/
def decimal? (text : List Char) : Option Nat := do
  let digits <- digits? 10 text
  match digits with
  | 0 :: _ :: _ => none
  | digits => some (ofDigits 10 digits)

def splitSign (text : List Char) : Bool × List Char :=
  match text with
  | '-' :: rest => (true, rest)
  | '+' :: rest => (false, rest)
  | text => (false, text)

/-- An integer of 64 bits. -/
def integer? (text : List Char) : Option Int :=
  let magnitude :=
    match text with
    | '0' :: 'x' :: rest => ((digits? 16 rest).map (ofDigits 16)).map (fun value => (false, value))
    | '0' :: 'o' :: rest => ((digits? 8 rest).map (ofDigits 8)).map (fun value => (false, value))
    | '0' :: 'b' :: rest => ((digits? 2 rest).map (ofDigits 2)).map (fun value => (false, value))
    | text => (decimal? (splitSign text).2).map (fun value => ((splitSign text).1, value))
  match magnitude with
  | some (true, value) => if value ≤ Word.signedCount then some (-(value : Int)) else none
  | some (false, value) => if value < Word.signedCount then some value else none
  | none => none

def scientific (digits : Nat) (exponent : Int) : Float :=
  if exponent < 0 then Float.ofScientific digits true exponent.natAbs
  else Float.ofScientific digits false exponent.natAbs

def exponent? (text : List Char) : Option Int :=
  let (negative, digits) := splitSign text
  (digits? 10 digits).map (fun digits =>
    if negative then -(ofDigits 10 digits : Int) else (ofDigits 10 digits : Int))

/-- A number without its sign that has a fraction or an exponent, within the
range of a double. -/
def unsignedFloat? (text : List Char) : Option Float :=
  if text = ['i', 'n', 'f'] then some (1.0 / 0.0)
  else if text = ['n', 'a', 'n'] then some (0.0 / 0.0)
  else do
    let isMark := fun char : Char => char == 'e' || char == 'E'
    let mantissa := text.takeWhile (fun char => !isMark char)
    let exponent <-
      match text.dropWhile (fun char => !isMark char) with
      | [] => some none
      | _ :: rest => (exponent? rest).map some
    let whole := mantissa.takeWhile (fun char => char != '.')
    let wholeValue <- decimal? whole
    match mantissa.dropWhile (fun char => char != '.'), exponent with
    | [], none => none
    | [], some exponent => (some (scientific wholeValue exponent)).filter Float.isFinite
    | _ :: fraction, exponent => do
        let digits <- digits? 10 fraction
        let value :=
          scientific (wholeValue * Nat.pow 10 digits.length + ofDigits 10 digits)
            (exponent.getD 0 - digits.length)
        if value.isFinite then some value else none

def float? (text : List Char) : Option Float :=
  let (negative, rest) := splitSign text
  (unsignedFloat? rest).map (fun value => if negative then -value else value)

/-! ## Dates and times -/

/-- A number of exactly this many digits. -/
def fixed? (width : Nat) (text : List Char) : Option (Nat × List Char) :=
  let digits := text.take width
  if digits.length = width ∧ digits.all Char.isDigit then
    some (Nat.ofDigitChars 10 digits 0, text.drop width)
  else none

def char? (char : Char) : List Char -> Option (List Char)
  | [] => none
  | first :: rest => if first = char then some rest else none

/-- A date, as it is written. -/
def date? (text : List Char) : Option (List Char × List Char) := do
  let (year, rest) <- fixed? 4 text
  let rest <- char? '-' rest
  let (month, rest) <- fixed? 2 rest
  let rest <- char? '-' rest
  let (day, rest) <- fixed? 2 rest
  let _ <- Date.ofParts? year month day
  some (text.take 10, rest)

/-- The digits of a fraction that count: at most nine, and no zeros at their
end but a lone one. -/
def fractionText (digits : List Char) : List Char :=
  match ((digits.take 9).reverse.dropWhile (fun char => char == '0')).reverse with
  | [] => ['0']
  | kept => kept

/-- Seconds with an optional fraction. -/
def seconds? (text : List Char) : Option (List Char × List Char) := do
  let (second, rest) <- fixed? 2 text
  if second ≤ 60 then
    match rest with
    | '.' :: rest =>
        match rest.takeWhile Char.isDigit with
        | [] => none
        | digits =>
            some (Digits.decimal 2 second ++ '.' :: fractionText digits,
              rest.dropWhile Char.isDigit)
    | rest => some (Digits.decimal 2 second, rest)
  else none

/-- Hours and minutes, which may be written without seconds. -/
def time? (text : List Char) : Option (List Char × List Char) := do
  let (hour, rest) <- fixed? 2 text
  let rest <- char? ':' rest
  let (minute, rest) <- fixed? 2 rest
  if hour < 24 ∧ minute < 60 then
    let clock := Digits.decimal 2 hour ++ ':' :: Digits.decimal 2 minute
    match rest with
    | ':' :: rest => (seconds? rest).map (fun read => (clock ++ ':' :: read.1, read.2))
    | rest => some (clock, rest)
  else none

/-- An offset, which may be left out.  An offset of nothing has a plus. -/
def offset? (text : List Char) : Option (List Char × List Char) :=
  match text with
  | 'Z' :: rest => some (['Z'], rest)
  | 'z' :: rest => some (['Z'], rest)
  | sign :: rest =>
      if sign = '+' ∨ sign = '-' then do
        let (hour, rest) <- fixed? 2 rest
        let rest <- char? ':' rest
        let (minute, rest) <- fixed? 2 rest
        if hour < 24 ∧ minute < 60 then
          let sign := if hour = 0 ∧ minute = 0 then '+' else sign
          some (sign :: Digits.decimal 2 hour ++ ':' :: Digits.decimal 2 minute, rest)
        else none
      else some ([], text)
  | [] => some ([], [])

/-- A time of day with an optional offset, after the mark that divides it from
its date. -/
def timeOfDate? : List Char -> Option (List Char × List Char)
  | [] => none
  | mark :: rest =>
      if mark = 'T' ∨ mark = 't' ∨ mark = ' ' then do
        let (clock, rest) <- time? rest
        let (offset, rest) <- offset? rest
        some ('T' :: clock ++ offset, rest)
      else none

/-- A date, a time of day, or both with an optional offset. -/
def readDateTime? (text : List Char) : Option (String × List Char) :=
  match date? text with
  | some (date, rest) =>
      match timeOfDate? rest with
      | some (time, rest) => some (String.ofList (date ++ time), rest)
      | none => some (String.ofList date, rest)
  | none => (time? text).map (fun read => (String.ofList read.1, read.2))

/-! ## Scalars -/

/-- Characters of numbers and names. -/
def isWordChar (char : Char) : Bool :=
  char.isAlphanum || char == '_' || char == '-' || char == '+' || char == '.'

def ofWord? (word : List Char) : Option TomlItem :=
  if word = ['t', 'r', 'u', 'e'] then some (.bool true)
  else if word = ['f', 'a', 'l', 's', 'e'] then some (.bool false)
  else
    match integer? word with
    | some value => some (.integer value)
    | none => (float? word).map .float

/-- A value that is neither an array nor a table. -/
def readScalar? (text : List Char) : Option (TomlItem × List Char) :=
  match text with
  | [] => none
  | first :: _ =>
      if first = '"' ∨ first = '\'' then
        (readString? text).map (fun read => (.text read.1, read.2))
      else
        match readDateTime? text with
        | some (stamp, rest) => some (.text stamp, rest)
        | none =>
            (ofWord? (text.takeWhile isWordChar)).map
              (fun item => (item, text.dropWhile isWordChar))

end Toml

end FlowPlan
