namespace FlowPlan

/-!
TOML documents as trees, and the rules by which a document defines its tables.

A table is defined once.  A header may complete a table that was only implied
by the path of an earlier header.  A dotted key may add to such a table as to
one that dotted keys began, and from then on no header completes it.  It may
also lead through the latest table under a doubled header, as long as it goes
on to a table inside.  An inline table is closed.
-/

/-- How a table came to be. -/
inductive TomlTableForm where
  | inlined
  | implied
  | dotted
  | headed
  deriving DecidableEq, Repr

inductive TomlItem where
  | text (value : String)
  | integer (value : Int)
  | float (value : Float)
  | bool (value : Bool)
  | list (items : List TomlItem)
  | table (form : TomlTableForm) (entries : List (String × TomlItem))
  /-- The tables under a doubled header, latest first. -/
  | tables (tables : List (List (String × TomlItem)))

abbrev TomlEntries := List (String × TomlItem)

namespace TomlEntries

def get? (entries : TomlEntries) (key : String) : Option TomlItem :=
  (entries.find? (fun entry => entry.1 == key)).map Prod.snd

def replace (entries : TomlEntries) (key : String) (item : TomlItem) : TomlEntries :=
  entries.map (fun entry => if entry.1 == key then (key, item) else entry)

/-- Change the table at the end of a path, adding the tables on the way. -/
def within? (change : TomlEntries -> Option TomlEntries) :
    List String -> TomlEntries -> Option TomlEntries
  | [], entries => change entries
  | key :: path, entries =>
      match get? entries key with
      | none =>
          (within? change path []).map (fun inner => entries ++ [(key, .table .implied inner)])
      | some (.table .inlined _) => none
      | some (.table form inner) =>
          (within? change path inner).map (fun inner => replace entries key (.table form inner))
      | some (.tables (latest :: earlier)) =>
          (within? change path latest).map (fun latest =>
            replace entries key (.tables (latest :: earlier)))
      | some _ => none

/-- Define a table by its header. -/
def openTable? (key : String) (entries : TomlEntries) : Option TomlEntries :=
  match get? entries key with
  | none => some (entries ++ [(key, .table .headed [])])
  | some (.table .implied inner) => some (replace entries key (.table .headed inner))
  | some _ => none

/-- Begin the next table under a doubled header. -/
def openNext? (key : String) (entries : TomlEntries) : Option TomlEntries :=
  match get? entries key with
  | none => some (entries ++ [(key, .tables [[]])])
  | some (.tables tables) => some (replace entries key (.tables ([] :: tables)))
  | some _ => none

/-- Give a dotted key its value. -/
def assign? (item : TomlItem) : List String -> TomlEntries -> Option TomlEntries
  | [], _ => none
  | [key], entries =>
      match get? entries key with
      | none => some (entries ++ [(key, item)])
      | some _ => none
  | key :: path, entries =>
      match get? entries key with
      | none =>
          (assign? item path []).map (fun inner => entries ++ [(key, .table .dotted inner)])
      | some (.table form inner) =>
          if form = .implied ∨ form = .dotted then
            (assign? item path inner).map (fun inner => replace entries key (.table .dotted inner))
          else none
      | some (.tables (latest :: earlier)) =>
          if path.length = 1 then none
          else
            (assign? item path latest).map (fun latest =>
              replace entries key (.tables (latest :: earlier)))
      | some _ => none

end TomlEntries

end FlowPlan
