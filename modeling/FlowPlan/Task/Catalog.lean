import FlowPlan.Dictionary
import FlowPlan.Task.Kind

namespace FlowPlan

/-!
Catalogs: the task types known to a planner, by name.

Registering a name again replaces its definition.  The listing is by name, in
code point order.
-/

structure Catalog where
  tasks : Dictionary TaskDefinition
  deriving DecidableEq

namespace Catalog

def empty : Catalog := ⟨Dictionary.empty⟩

def register (catalog : Catalog) (name : String) (definition : TaskDefinition) : Catalog :=
  ⟨catalog.tasks.insert name definition⟩

/-- Register several definitions in order. -/
def registerAll (catalog : Catalog) (tasks : List (String × TaskDefinition)) : Catalog :=
  tasks.foldl (fun catalog task => catalog.register task.1 task.2) catalog

def builtin : Catalog :=
  empty.registerAll (TaskKind.all.map (fun kind => (kind.name, kind.definition)))

def lookup (catalog : Catalog) : Registry := fun name => catalog.tasks.get? name

def size (catalog : Catalog) : Nat := catalog.tasks.size

def isEmpty (catalog : Catalog) : Bool := catalog.tasks.isEmpty

def entries (catalog : Catalog) : List (String × TaskDefinition) := catalog.tasks.entries

end Catalog

end FlowPlan
