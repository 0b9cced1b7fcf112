import FlowPlan.Decimal.Shortest
import FlowPlan.Settings.Tree
import FlowPlan.Text.Utf8
import FlowPlan.Toml.Read

namespace FlowPlan

/-!
Settings of the command line: from a file, overridden by the environment.

The file is TOML.  An environment variable whose name begins with the
program's mark, in any case, sets the key that follows, with two underscores
between the parts of its path.  Values are converted to the type that a
setting needs where they spell a value of it.
-/

structure Settings where
  logFilter : String
  pretty : Bool
  deriving DecidableEq, Repr

/-- Reads a file; `none` where there is no file to be read. -/
abbrev FileReader := String -> Option ByteArray

namespace Settings

def default : Settings := ⟨"warn", true⟩

/-! ## Conversions -/

/-- Small letters, as far as they are ASCII letters.  The Kelvin sign is the
one capital of such a letter outside ASCII. -/
def smallLetters (text : String) : String :=
  text.map (fun char => if char = '\u212a' then 'k' else char.toLower)

def truthOfText? (text : String) : Option Bool :=
  let small := smallLetters text
  if ["1", "true", "on", "yes"].contains small then some true
  else if ["0", "false", "off", "no"].contains small then some false
  else none

def bool? : SettingTree -> Option Bool
  | .bool value => some value
  | .integer value => some (value != 0)
  | .float value => some (value != 0.0)
  | .text value => truthOfText? value
  | _ => none

/-- A decimal without an exponent and without a needless fraction. -/
def positionalChars (decimal : Decimal) : List Char :=
  let digits := Nat.toDigits 10 decimal.digits
  let point : Int := digits.length + decimal.exponent
  if 0 ≤ decimal.exponent then digits ++ List.replicate decimal.exponent.toNat '0'
  else if 0 < point then digits.take point.toNat ++ '.' :: digits.drop point.toNat
  else '0' :: '.' :: List.replicate (-point).toNat '0' ++ digits

def floatText (value : Float) : String :=
  if value.isNaN then "NaN"
  else
    (if isSigned value then "-" else "")
      ++ (if value.isFinite then String.ofList (positionalChars (shortestDecimal value)) else "inf")

def text? : SettingTree -> Option String
  | .text value => some value
  | .bool value => some (if value then "true" else "false")
  | .integer value => some (toString value)
  | .float value => some (floatText value)
  | _ => none

/-! ## The environment -/

def environmentMark : String := "taskflow__"

/-- The key a variable sets, if it is one of ours. -/
def environmentKey? (name : String) : Option String :=
  let small := smallLetters name
  if small.startsWith environmentMark then
    some (String.intercalate "." ((small.drop environmentMark.length).toString.splitOn "__"))
  else none

/-- A decimal number in any of its spellings, with its sign. -/
def floatOfText? (text : List Char) : Option Float :=
  let (negative, unsigned) := Toml.splitSign text
  let isMark := fun char : Char => char == 'e' || char == 'E'
  let mantissa := unsigned.takeWhile (fun char => !isMark char)
  let whole := mantissa.takeWhile (fun char => char != '.')
  let fraction := (mantissa.dropWhile (fun char => char != '.')).drop 1
  let lower := unsigned.map Char.toLower
  let magnitude :=
    if lower = ['i', 'n', 'f'] ∨ lower = "infinity".toList then some (1.0 / 0.0)
    else if lower = ['n', 'a', 'n'] then some (0.0 / 0.0)
    else if (whole ++ fraction).all Char.isDigit && !(whole ++ fraction).isEmpty then
      let scaled := fun exponent : Int =>
        Toml.scientific (Nat.ofDigitChars 10 (whole ++ fraction) 0) (exponent - fraction.length)
      match unsigned.dropWhile (fun char => !isMark char) with
      | [] => some (scaled 0)
      | _ :: rest =>
          let (down, digits) := Toml.splitSign rest
          if digits.all Char.isDigit && !digits.isEmpty then
            let size : Int := Nat.ofDigitChars 10 digits 0
            some (scaled (if down then -size else size))
          else none
    else none
  magnitude.map (fun value => if negative then -value else value)

def integerOfText? (text : List Char) : Option Int :=
  let (negative, digits) := Toml.splitSign text
  if digits.all Char.isDigit && !digits.isEmpty then
    let size := Nat.ofDigitChars 10 digits 0
    if negative then (if size ≤ Word.signedCount then some (-(size : Int)) else none)
    else if size < Word.signedCount then some size
    else none
  else none

/-- A variable holds a truth value, a number or a text. -/
def treeOfVariable (value : String) : SettingTree :=
  if smallLetters value = "true" then .bool true
  else if smallLetters value = "false" then .bool false
  else
    match integerOfText? value.toList with
    | some number => .integer number
    | none =>
        match floatOfText? value.toList with
        | some number => .float number
        | none => .text value

/-! ## Files -/

def extension (path : String) : String :=
  let name := (path.splitOn "/").getLastD ""
  match name.splitOn "." with
  | first :: second :: rest =>
      if first = "" ∧ rest = [] then "" else (second :: rest).getLastD ""
  | _ => ""

def byteOrderMark : List UInt8 := [0xEF, 0xBB, 0xBF]

def textOfBytes (bytes : ByteArray) : String :=
  let list := bytes.toList
  Utf8.decodeLossy (if list.take 3 = byteOrderMark then list.drop 3 else list)

/-- A point inside a name, or at its end, begins an extension. -/
def hasExtension (name : String) : Bool := (name.toList.drop 1).contains '.'

/-- What an empty name is taken for where an extension is appended to it. -/
def namelessFile : String := ".placeholder"

/-- The path of a file with an extension appended.  Separators and lone points
at the end of a path are dropped after a plain name.  After a name that has an
extension they stay, so that the last part of the path is what is extended. -/
def extended? (path : String) : Option String :=
  let parts := path.splitOn "/"
  match parts.reverse.dropWhile (fun part => part == "" || part == ".") with
  | [] => none
  | name :: parents =>
      if name = ".." then none
      else if hasExtension name then
        some (path ++ (if parts.getLastD "" = "" then namelessFile else "") ++ ".toml")
      else some (String.intercalate "/" (name :: parents).reverse ++ ".toml")

/-- The entries of a settings file.  A name without its extension will do. -/
def readFile? (read : FileReader) (path : String) : Option TomlEntries :=
  match read path with
  | some bytes => if extension path = "toml" then Toml.parse? (textOfBytes bytes) else none
  | none => ((extended? path).bind read).bind (fun bytes => Toml.parse? (textOfBytes bytes))

/-! ## Loading -/

def readLogFilter? (tree : SettingTree) : Option String :=
  match tree.get? "log_filter" with
  | none => some default.logFilter
  | some value => text? value

/-- The table `output`, or a list of its fields in order. -/
def readPretty? (tree : SettingTree) : Option Bool :=
  let field :=
    match tree.get? "output" with
    | none => some none
    | some (.table entries) => some ((SettingTree.table entries).get? "pretty")
    | some (.list items) => some items.head?
    | some _ => none
  field.bind (fun value =>
    match value with
    | none => some default.pretty
    | some value => bool? value)

/-- Load the settings, or fail where the file or a value is unusable. -/
def load? (read : FileReader) (path : Option String) (environment : List (String × String)) :
    Option Settings := do
  let file <-
    match path with
    | none => some []
    | some path => readFile? read path
  let fromFile :=
    file.foldl (fun (tree : SettingTree) entry => tree.assign entry.1 (.ofToml entry.2))
      SettingTree.empty
  let tree :=
    environment.foldl (fun (tree : SettingTree) binding =>
      match environmentKey? binding.1 with
      | some key => tree.assign key (treeOfVariable binding.2)
      | none => tree) fromFile
  let logFilter <- readLogFilter? tree
  let pretty <- readPretty? tree
  some ⟨logFilter, pretty⟩

end Settings

end FlowPlan
