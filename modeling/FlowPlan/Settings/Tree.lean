import FlowPlan.Toml
import FlowPlan.Word

namespace FlowPlan

/-!
The tree that settings are gathered in.

A path leads through tables by key and through lists by index.  Whatever else
stands on its way makes room for a table or a list.  A list grows as far as an
index asks, at its end, or at its front for an index that counts from the end;
the gap is filled with missing values.  A later source is merged into what the
earlier ones left: its tables key by key, and anything else replaces what was
there.
-/

inductive SettingTree where
  | missing
  | bool (value : Bool)
  | integer (value : Int)
  | float (value : Float)
  | text (value : String)
  | list (items : List SettingTree)
  | table (entries : List (String × SettingTree))

/-- One step of a path.  A negative index counts from the end. -/
inductive SettingStep where
  | key (name : String)
  | index (position : Int)
  deriving DecidableEq, Repr

namespace SettingStep

/-! ## Paths in text -/

def isNameChar (char : Char) : Bool :=
  char.isAlphanum || char == '_' || char == '-'

def isSpace (char : Char) : Bool := char == ' ' || char == '\t'

def readName? (text : List Char) : Option (SettingStep × List Char) :=
  match text.takeWhile isNameChar with
  | [] => none
  | name => some (.key (String.ofList name), text.dropWhile isNameChar)

/-- An index after its opening bracket, up to its closing one. -/
def readIndex? (text : List Char) : Option (SettingStep × List Char) :=
  let (negative, unsigned) :=
    match text.dropWhile isSpace with
    | '-' :: rest => (true, rest)
    | rest => (false, rest)
  let digits := unsigned.takeWhile Char.isDigit
  let size := Nat.ofDigitChars 10 digits 0
  let fits := if negative then size ≤ Word.signedCount else size < Word.signedCount
  match (unsigned.dropWhile Char.isDigit).dropWhile isSpace with
  | ']' :: rest =>
      if !digits.isEmpty && fits then
        some (.index (if negative then -(size : Int) else size), rest)
      else none
  | _ => none

/-- The steps after the first.  Each of them takes a character, so the length
of the text bounds their number. -/
def readSteps? : Nat -> List Char -> Option (List SettingStep)
  | _, [] => some []
  | 0, _ :: _ => none
  | steps + 1, mark :: text => do
      let (step, rest) <-
        if mark = '.' then readName? text else if mark = '[' then readIndex? text else none
      let more <- readSteps? steps rest
      some (step :: more)

/-- A path: names with points between them, and indices in brackets. -/
def path? (text : String) : Option (List SettingStep) := do
  let (step, rest) <- readName? text.toList
  let more <- readSteps? rest.length rest
  some (step :: more)

/-- The path that a key of a source means: itself where it spells no path. -/
def pathOfKey (key : String) : List SettingStep := (path? key).getD [.key key]

end SettingStep

namespace SettingTree

/-! ## Trees of documents -/

mutual

def ofToml : TomlItem -> SettingTree
  | .text value => .text value
  | .integer value => .integer value
  | .float value => .float value
  | .bool value => .bool value
  | .list items => .list (ofTomlItems items)
  | .table _ entries => .table (ofTomlEntries entries)
  | .tables tables => .list (ofTomlTables tables).reverse

def ofTomlItems : List TomlItem -> List SettingTree
  | [] => []
  | item :: items => ofToml item :: ofTomlItems items

def ofTomlEntries : List (String × TomlItem) -> List (String × SettingTree)
  | [] => []
  | (key, item) :: entries => (key, ofToml item) :: ofTomlEntries entries

def ofTomlTables : List (List (String × TomlItem)) -> List SettingTree
  | [] => []
  | entries :: tables => .table (ofTomlEntries entries) :: ofTomlTables tables

end

/-! ## Changes -/

def empty : SettingTree := .table []

def entries : SettingTree -> List (String × SettingTree)
  | .table entries => entries
  | _ => []

def items : SettingTree -> List SettingTree
  | .list items => items
  | _ => []

def get? (tree : SettingTree) (key : String) : Option SettingTree :=
  (tree.entries.find? (fun entry => entry.1 == key)).map Prod.snd

/-- The table with a tree under a key, whatever stood there before. -/
def put (tree : SettingTree) (key : String) (value : SettingTree) : SettingTree :=
  match tree.get? key with
  | some _ =>
      .table (tree.entries.map (fun entry => if entry.1 == key then (key, value) else entry))
  | none => .table (tree.entries ++ [(key, value)])

/-- The list with room for an index, and the place in it that the index means. -/
def reach (items : List SettingTree) (index : Int) : List SettingTree × Nat :=
  if 0 ≤ index then
    (items ++ List.replicate (index.toNat + 1 - items.length) .missing, index.toNat)
  else (List.replicate (index.natAbs - items.length) .missing ++ items, items.length - index.natAbs)

/-- Change what stands at the end of a path. -/
def modify (change : SettingTree -> SettingTree) : List SettingStep -> SettingTree -> SettingTree
  | [], tree => change tree
  | .key name :: path, tree => tree.put name (modify change path ((tree.get? name).getD .missing))
  | .index index :: path, tree =>
      let (items, place) := reach tree.items index
      .list (items.modify place (modify change path))

mutual

def merge (tree : SettingTree) : SettingTree -> SettingTree
  | .table entries => mergeEntries (.table tree.entries) entries
  | value => value

/-- Merge the entries of a table into a tree, in order. -/
def mergeEntries (tree : SettingTree) : List (String × SettingTree) -> SettingTree
  | [] => tree
  | (key, value) :: entries =>
      mergeEntries (tree.put key (merge ((tree.get? key).getD .missing) value)) entries

end

/-- Merge a value into a tree where a key of its source tells. -/
def assign (tree : SettingTree) (key : String) (value : SettingTree) : SettingTree :=
  modify (fun existing => merge existing value) (SettingStep.pathOfKey key) tree

end SettingTree

end FlowPlan
