import FlowPlan.Calendar
import FlowPlan.Text.Blank
import FlowPlan.Text.Digits

namespace FlowPlan

/-!
Instants of universal time, to the nanosecond, and their text.

The text follows RFC 3339.  It is written in universal time, with the fewest
of 0, 3, 6 or 9 fraction digits that lose nothing.  It is read with any
offset from universal time.  Reading is lenient about spaces, about leading zeros and
about the colon of the offset; fraction digits beyond the ninth are dropped.
Second 60, a leap second, is kept as it is written.
-/

structure Timestamp where
  date : Date
  hour : Nat
  minute : Nat
  second : Nat
  nanosecond : Nat
  hour_valid : hour < 24
  minute_valid : minute < 60
  second_valid : second ≤ 60
  nanosecond_valid : nanosecond < 1000000000
  deriving DecidableEq, Repr

namespace Timestamp

/-- The start of 1970. -/
def epoch : Timestamp where
  date := Date.firstOf 1970 1 Calendar.january_valid
  hour := 0
  minute := 0
  second := 0
  nanosecond := 0
  hour_valid := Nat.succ_pos 23
  minute_valid := Nat.succ_pos 59
  second_valid := Nat.zero_le 60
  nanosecond_valid := Nat.succ_pos 999999999

/-! ## Writing -/

def yearText (year : Int) : List Char :=
  if 0 ≤ year ∧ year ≤ 9999 then Digits.decimal 4 year.toNat
  else
    (if year < 0 then '-' else '+') ::
      (if year.natAbs < 10000 then Digits.decimal 4 year.natAbs
        else Nat.toDigits 10 year.natAbs)

def fractionText (nanosecond : Nat) : List Char :=
  if nanosecond = 0 then []
  else if nanosecond % 1000000 = 0 then '.' :: Digits.decimal 3 (nanosecond / 1000000)
  else if nanosecond % 1000 = 0 then '.' :: Digits.decimal 6 (nanosecond / 1000)
  else '.' :: Digits.decimal 9 nanosecond

def chars (time : Timestamp) : List Char :=
  yearText time.date.year ++ '-' :: Digits.decimal 2 time.date.month
    ++ '-' :: Digits.decimal 2 time.date.day
    ++ 'T' :: Digits.decimal 2 time.hour
    ++ ':' :: Digits.decimal 2 time.minute
    ++ ':' :: Digits.decimal 2 time.second
    ++ fractionText time.nanosecond ++ ['Z']

def text (time : Timestamp) : String := String.ofList time.chars

/-! ## Reading

Each reader takes what it reads off the front of a text and hands on the rest.
-/

/-- Take one given character. -/
def readChar? (char : Char) : List Char -> Option (List Char)
  | [] => none
  | first :: rest => if first = char then some rest else none

/-- A year has up to four digits, or a sign and any number of them. -/
def readYear? (text : List Char) : Option (Int × List Char) :=
  match text with
  | '-' :: rest =>
      (Digits.readDecimal? rest.length rest).map (fun read => (-(read.1 : Int), read.2))
  | '+' :: rest => (Digits.readDecimal? rest.length rest).map (fun read => ((read.1 : Int), read.2))
  | _ => (Digits.readDecimal? 4 text).map (fun read => ((read.1 : Int), read.2))

/-- A field of one or two digits, after any blanks. -/
def readField? (text : List Char) : Option (Nat × List Char) :=
  Digits.readDecimal? 2 (dropBlanks text)

/-- A separator, after any blanks. -/
def readSeparator? (char : Char) (text : List Char) : Option (List Char) :=
  readChar? char (dropBlanks text)

/-- Nanoseconds from a fraction of a second, if there is one. -/
def readFraction? (text : List Char) : Option (Nat × List Char) :=
  match text with
  | '.' :: rest =>
      (Digits.readDecimal? 9 rest).map (fun read =>
        (read.1 * Nat.pow 10 (9 - (rest.length - read.2.length)), read.2.dropWhile Char.isDigit))
  | _ => some (0, text)

def readDigit? : List Char -> Option (Nat × List Char)
  | [] => none
  | char :: rest => if char.isDigit then some (char.toNat - '0'.toNat, rest) else none

/-- Exactly two digits. -/
def readPair? (text : List Char) : Option (Nat × List Char) := do
  let (high, rest) <- readDigit? text
  let (low, rest) <- readDigit? rest
  some (10 * high + low, rest)

/-- An offset in minutes after its sign: hours and minutes, with any colons and
blanks between them. -/
def readOffsetMinutes? (text : List Char) : Option (Nat × List Char) := do
  let (hours, rest) <- readPair? text
  let (minutes, rest) <- readPair? (rest.dropWhile (fun char => char == ':' || isBlank char))
  if minutes < 60 then some (60 * hours + minutes, rest) else none

/-- An offset is `Z`, `UTC`, or hours and minutes with a sign. -/
def readOffset? (text : List Char) : Option (Int × List Char) :=
  match text with
  | 'Z' :: rest => some (0, rest)
  | 'z' :: rest => some (0, rest)
  | '+' :: rest => (readOffsetMinutes? rest).map (fun read => ((read.1 : Int), read.2))
  | '-' :: rest => (readOffsetMinutes? rest).map (fun read => (-(read.1 : Int), read.2))
  | '\u2212' :: rest => (readOffsetMinutes? rest).map (fun read => (-(read.1 : Int), read.2))
  | first :: second :: third :: rest =>
      if [first, second, third].map Char.toUpper = ['U', 'T', 'C'] then some (0, rest) else none
  | _ => none

/-- The years a timestamp may have. -/
def isYearInRange (year : Int) : Bool := -262143 ≤ year && year ≤ 262142

/-- The instant that a clock `offset` minutes ahead of universal time shows. -/
def ofLocal? (date : Date) (hour minute second nanosecond : Nat) (offset : Int) :
    Option Timestamp :=
  if valid : hour < 24 ∧ minute < 60 ∧ second ≤ 60 ∧ nanosecond < 1000000000 then
    let minutes : Int := 60 * hour + minute - offset
    let day :=
      if minutes < 0 then date.previous else if minutes < 1440 then date else date.next
    let minuteOfDay := (minutes % 1440).toNat
    if isYearInRange day.year then
      some
        { date := day
          hour := minuteOfDay / 60 % 24
          minute := minuteOfDay % 60
          second := second
          nanosecond := nanosecond
          hour_valid := Nat.mod_lt _ (by decide)
          minute_valid := Nat.mod_lt _ (by decide)
          second_valid := valid.2.2.1
          nanosecond_valid := valid.2.2.2 }
    else none
  else none

def readDate? (text : List Char) : Option (Date × List Char) := do
  let (year, rest) <- readYear? (dropBlanks text)
  let rest <- readSeparator? '-' rest
  let (month, rest) <- readField? rest
  let rest <- readSeparator? '-' rest
  let (day, rest) <- readField? rest
  let date <- Date.ofParts? year month day
  if isYearInRange year then some (date, rest) else none

/-- The mark between the date and the time of day. -/
def readDivider? : List Char -> Option (List Char)
  | 'T' :: rest => some rest
  | 't' :: rest => some rest
  | ' ' :: rest => some rest
  | _ => none

def ofChars? (text : List Char) : Option Timestamp := do
  let (date, rest) <- readDate? text
  let rest <- readDivider? rest
  let (hour, rest) <- readField? rest
  let rest <- readSeparator? ':' rest
  let (minute, rest) <- readField? rest
  let rest <- readSeparator? ':' rest
  let (second, rest) <- readField? rest
  let (nanosecond, rest) <- readFraction? rest
  let (offset, rest) <- readOffset? (dropBlanks rest)
  if offset.natAbs < 1440 ∧ dropBlanks rest = [] then
    ofLocal? date hour minute second nanosecond offset
  else none

def ofText? (text : String) : Option Timestamp := ofChars? text.toList

end Timestamp

end FlowPlan
