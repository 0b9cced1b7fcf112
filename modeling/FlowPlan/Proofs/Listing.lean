import FlowPlan.Proofs.ByteOrder
import FlowPlan.Proofs.OutcomeText
import Mathlib.Data.Finset.Card

namespace FlowPlan

/-!
What a catalog holds after a history of registrations, and what is printed of it.

Under each name the last registration counts, or else the built-in task of that
name.  Entries are kept by name, each name once.  A printed entry puts the name
among the fields of the definition, so it is read back in two parts: the name
first, then a definition from the fields that remain.
-/

/-! ## Looking up and listing -/

theorem isSome_find?_key_iff {Entry : Type} {key : Entry -> String} {entries : List Entry}
    {name : String} :
    (entries.find? (fun entry => key entry == name)).isSome = true ↔ name ∈ entries.map key := by
  rw [List.find?_isSome]
  simp only [beq_iff_eq, List.mem_map]

namespace Dictionary

variable {Value : Type}

theorem nodup_names (dictionary : Dictionary Value) :
    (dictionary.entries.map Prod.fst).Nodup := by
  apply List.pairwise_map.mpr
  refine dictionary.ascending.imp ?_
  intro first second before same
  exact String.lt_irrefl _ (same ▸ before)

/-- What is looked up is what is listed. -/
theorem get?_eq_some_iff {dictionary : Dictionary Value} {name : String} {value : Value} :
    dictionary.get? name = some value ↔ (name, value) ∈ dictionary.entries := by
  rw [get?, Option.map_eq_some_iff]
  constructor
  · rintro ⟨entry, found, rfl⟩
    have named : entry.1 = name := by simpa using List.find?_some found
    exact named ▸ List.mem_of_find?_eq_some found
  · intro member
    refine ⟨(name, value), ?_, rfl⟩
    cases found : dictionary.entries.find? (fun entry => entry.1 == name) with
    | none =>
        have passed := List.find?_eq_none.mp found (name, value) member
        simp at passed
    | some entry =>
        have named : entry.1 = name := by simpa using List.find?_some found
        have same := List.inj_on_of_nodup_map dictionary.nodup_names
          (List.mem_of_find?_eq_some found) member named
        rw [same]

theorem isSome_get?_iff {dictionary : Dictionary Value} {name : String} :
    (dictionary.get? name).isSome = true ↔ name ∈ dictionary.entries.map Prod.fst := by
  rw [get?, Option.isSome_map, isSome_find?_key_iff]

/-- The entries of one name are the one that is looked up, if there is one. -/
theorem filter_entries (dictionary : Dictionary Value) (name : String) :
    dictionary.entries.filter (fun entry => name == entry.1)
      = (dictionary.get? name).toList.map (fun value => (name, value)) := by
  cases stored : dictionary.get? name with
  | none =>
      apply List.filter_eq_nil_iff.mpr
      rintro ⟨other, value⟩ member same
      have named : name = other := beq_iff_eq.mp same
      rw [named, get?_eq_some_iff.mpr member] at stored
      exact Option.some_ne_none value stored
  | some value =>
      have entries : dictionary.entries.Nodup := dictionary.nodup_names.of_map Prod.fst
      apply List.perm_singleton.mp
      apply (List.perm_ext_iff_of_nodup (entries.filter _) (List.nodup_singleton _)).mpr
      rintro ⟨other, candidate⟩
      rw [List.mem_filter, List.mem_singleton, ← get?_eq_some_iff, beq_iff_eq]
      constructor
      · rintro ⟨found, rfl⟩
        rw [Option.some.inj (found.symm.trans stored)]
      · intro same
        rw [Prod.mk.injEq] at same
        rw [same.1, same.2]
        exact ⟨stored, rfl⟩

end Dictionary

/-- The definition under which a name was registered last. -/
def latest? (tasks : List (String × TaskDefinition)) (name : String) : Option TaskDefinition :=
  (tasks.reverse.find? (fun task => task.1 == name)).map Prod.snd

theorem latest?_concat (tasks : List (String × TaskDefinition)) (task : String × TaskDefinition)
    (name : String) :
    latest? (tasks ++ [task]) name = if task.1 = name then some task.2 else latest? tasks name := by
  rw [latest?, List.reverse_append, List.reverse_singleton, List.singleton_append, List.find?_cons]
  by_cases same : task.1 = name
  · have chosen : (task.1 == name) = true := beq_iff_eq.mpr same
    rw [if_pos same, chosen, Option.map_some]
  · have passed : (task.1 == name) = false := beq_eq_false_iff_ne.mpr same
    rw [if_neg same, passed, latest?]

theorem isSome_latest?_iff {tasks : List (String × TaskDefinition)} {name : String} :
    (latest? tasks name).isSome = true ↔ name ∈ tasks.map Prod.fst := by
  rw [latest?, Option.isSome_map, isSome_find?_key_iff, List.map_reverse, List.mem_reverse]

namespace Catalog

/-- A registration counts until the next one of its name. -/
theorem lookup_registerAll (start : Catalog) (tasks : List (String × TaskDefinition))
    (name : String) :
    (start.registerAll tasks).lookup name = (latest? tasks name).or (start.lookup name) := by
  induction tasks using List.reverseRecOn with
  | nil => rfl
  | append_singleton tasks task ih =>
      have step : start.registerAll (tasks ++ [task])
          = (start.registerAll tasks).register task.1 task.2 := by
        rw [registerAll, List.foldl_append]
        rfl
      rw [step, latest?_concat]
      by_cases same : task.1 = name
      · rw [if_pos same, ← same]
        exact Dictionary.get?_insert_self _ _ _
      · rw [if_neg same, ← ih]
        exact Dictionary.get?_insert_of_ne _ _ same

end Catalog

theorem TaskKind.name_injective : Function.Injective TaskKind.name := by
  intro kind other same
  have read := kind.ofName?_name
  rw [same, other.ofName?_name] at read
  exact (Option.some.inj read).symm

/-- The built-in task among these that has a name. -/
def TaskKind.named? (kinds : List TaskKind) (name : String) : Option TaskKind :=
  kinds.find? (fun kind => kind.name == name)

theorem TaskKind.isSome_named?_iff {kinds : List TaskKind} {name : String} :
    (TaskKind.named? kinds name).isSome = true ↔ name ∈ kinds.map TaskKind.name :=
  isSome_find?_key_iff

theorem latest?_kinds (kinds : List TaskKind) (name : String) :
    latest? (kinds.map (fun kind => (kind.name, kind.definition))) name
      = (TaskKind.named? kinds name).map TaskKind.definition := by
  induction kinds using List.reverseRecOn with
  | nil => rfl
  | append_singleton kinds kind ih =>
      rw [List.map_append, List.map_singleton, latest?_concat, ih, TaskKind.named?,
        TaskKind.named?, List.find?_append, List.find?_singleton]
      by_cases same : kind.name = name
      · rw [if_pos same, if_pos (beq_iff_eq.mpr same)]
        cases earlier : kinds.find? (fun kind => kind.name == name) with
        | none => rfl
        | some other =>
            have named : other.name = name := by simpa using List.find?_some earlier
            rw [TaskKind.name_injective (same.trans named.symm)]
            rfl
      · rw [if_neg same, if_neg (mt beq_iff_eq.mp same), Option.or_none]

/-! ## Reading a listing -/

namespace Command

/-- A listed task is read in two parts: its name, and a definition made of the
other fields. -/
def entry? : Json -> Option (String × TaskDefinition)
  | .object members => do
      let fields <- (Json.object members).fields? ["taskType"]
      let name <- fields.required? "taskType" Json.text?
      let definition <-
        TaskDefinition.ofJson? (.object (members.filter (fun member => member.1 != some "taskType")))
      some (name, definition)
  | _ => none

theorem entry?_entryJson (entry : String × TaskDefinition) :
    entry? (entryJson entry) = some entry := by
  have distinct : ((("taskType", Json.text entry.1) :: entry.2.members).map Prod.fst).Nodup := by
    simp [TaskDefinition.members]
  have fields := Json.fields?_record distinct ["taskType"]
  have others := Json.filter_members_cons distinct
  have definition := entry.2.ofJson?_toJson
  rw [TaskDefinition.toJson, Json.record] at definition
  rw [Json.record] at fields
  rw [entryJson, Json.record, entry?, fields, others, definition]
  simp [Json.Fields.required?]

end Command

theorem PortType.isExact_toJson (portType : PortType) : portType.toJson.isExact = true := rfl

theorem InputPort.isExact_toJson (port : InputPort) : port.toJson.isExact = true := by
  apply Json.isExact_record
  rcases port with ⟨name, portType, required, hideHandle, helperText⟩
  cases helperText <;>
    simp [Json.optionalMember, Json.isExact_text, PortType.isExact_toJson, Json.isExact]

theorem OutputPort.isExact_toJson (port : OutputPort) : port.toJson.isExact = true := by
  apply Json.isExact_record
  simp [Json.isExact_text, PortType.isExact_toJson]

theorem Command.isExact_entryJson (entry : String × TaskDefinition) :
    (Command.entryJson entry).isExact = true := by
  have inputs := Json.isExact_array
    (fun port (_ : port ∈ entry.2.inputs) => port.isExact_toJson)
  have outputs := Json.isExact_array
    (fun port (_ : port ∈ entry.2.outputs) => port.isExact_toJson)
  have entryPoint : (Json.bool entry.2.isEntryPoint).isExact = true := rfl
  apply Json.isExact_record
  simp [TaskDefinition.members, Json.isExact_text, inputs, outputs, entryPoint]

/-- The tasks that a printed body lists. -/
def CommandOutput.listing? (output : CommandOutput) : Option (List (String × TaskDefinition)) :=
  (Json.parse? output.body).bind (Json.list? Command.entry?)

/-- What is printed of a catalog is read back as the entries that were asked for. -/
theorem Command.listing?_listTasks (catalog : Catalog) (layout : Json.Layout)
    (only : Option TaskKind) :
    (Command.listTasks catalog layout only).listing?
      = some (catalog.entries.filter (fun entry => only.all (fun kind => kind.name == entry.1))) := by
  have exact := Json.isExact_array (fun entry (_ : entry ∈ catalog.entries.filter
    (fun entry => only.all (fun kind => kind.name == entry.1))) => Command.isExact_entryJson entry)
  rw [CommandOutput.listing?, Command.listTasks, Json.parse?_render layout exact, Option.bind_some]
  exact Json.list?_array (fun entry _ => Command.entry?_entryJson entry)

/-! ## Registration histories -/

namespace Catalog

/-- The names under which there are definitions, in the order of the listing. -/
def names (catalog : Catalog) : List String := catalog.entries.map Prod.fst

/-- What a catalog holds, lists and prints when `kinds` were in it from the start
and `tasks` have been registered since, one after the other. -/
structure Faithful (kinds : List TaskKind) (tasks : List (String × TaskDefinition))
    (catalog : Catalog) : Prop where
  lookup (name : String) :
    catalog.lookup name
      = (latest? tasks name).or ((TaskKind.named? kinds name).map TaskKind.definition)
  size : catalog.size = (kinds.map TaskKind.name ++ tasks.map Prod.fst).toFinset.card
  once (name : String) :
    catalog.names.count name
      = if name ∈ kinds.map TaskKind.name ++ tasks.map Prod.fst then 1 else 0
  ascending : (catalog.names.map utf8Bytes).Pairwise (fun first second => first < second)
  agrees (entry : String × TaskDefinition) :
    entry ∈ catalog.entries -> catalog.lookup entry.1 = some entry.2
  printed (layout : Json.Layout) :
    (Command.listTasks catalog layout none).listing? = some catalog.entries
  narrowed (layout : Json.Layout) (kind : TaskKind) :
    (Command.listTasks catalog layout (some kind)).listing?
      = some ((catalog.lookup kind.name).toList.map (fun definition => (kind.name, definition)))

/-- The order of the listing is that of the bytes of the names. -/
theorem ascending_names (catalog : Catalog) :
    (catalog.names.map utf8Bytes).Pairwise (fun first second => first < second) := by
  apply List.pairwise_map.mpr
  apply List.pairwise_map.mpr
  exact catalog.tasks.ascending.imp utf8Bytes_lt

section Looking

variable {kinds : List TaskKind} {tasks : List (String × TaskDefinition)} {catalog : Catalog}
  (lookup : forall name, catalog.lookup name
    = (latest? tasks name).or ((TaskKind.named? kinds name).map TaskKind.definition))

include lookup

theorem mem_names_iff {name : String} :
    name ∈ catalog.names ↔ name ∈ kinds.map TaskKind.name ++ tasks.map Prod.fst := by
  have present : (catalog.lookup name).isSome = true ↔ name ∈ catalog.names :=
    Dictionary.isSome_get?_iff
  rw [← present, lookup, Option.isSome_or, Option.isSome_map, Bool.or_eq_true,
    isSome_latest?_iff, TaskKind.isSome_named?_iff, List.mem_append, or_comm]

/-- What is looked up settles the rest: names, their number, and the listing. -/
theorem faithful_of_lookup : Faithful kinds tasks catalog := by
  have distinct : catalog.names.Nodup := catalog.tasks.nodup_names
  constructor
  case lookup => exact lookup
  case size =>
    calc
      catalog.size = catalog.names.length := (List.length_map _).symm
      _ = catalog.names.toFinset.card := (List.toFinset_card_of_nodup distinct).symm
      _ = (kinds.map TaskKind.name ++ tasks.map Prod.fst).toFinset.card := by
        congr 1
        ext name
        rw [List.mem_toFinset, List.mem_toFinset, mem_names_iff lookup]
  case once =>
    intro name
    rw [distinct.count]
    exact if_congr (mem_names_iff lookup) rfl rfl
  case ascending => exact catalog.ascending_names
  case agrees =>
    intro entry member
    exact Dictionary.get?_eq_some_iff.mpr member
  case printed =>
    intro layout
    rw [Command.listing?_listTasks]
    exact congrArg some (List.filter_eq_self.mpr (fun _ _ => rfl))
  case narrowed =>
    intro layout kind
    rw [Command.listing?_listTasks]
    exact congrArg some (catalog.tasks.filter_entries kind.name)

end Looking

/-- A catalog made of kinds of task alone looks up their definitions. -/
theorem lookup_registerAll_kinds (kinds : List TaskKind) (name : String) :
    (empty.registerAll (kinds.map (fun kind => (kind.name, kind.definition)))).lookup name
      = (TaskKind.named? kinds name).map TaskKind.definition := by
  rw [lookup_registerAll, latest?_kinds]
  exact Option.or_none

/-- From the empty catalog and from the built-in one, after any registrations, a
catalog answers with the definition registered last under a name, counts and
lists each name once in the order of the bytes, and what is printed of it is
read back as what it lists. -/
theorem faithful_registerAll (tasks : List (String × TaskDefinition)) :
    Faithful [] tasks (empty.registerAll tasks)
      ∧ Faithful TaskKind.all tasks (builtin.registerAll tasks) := by
  constructor
  case left =>
    apply faithful_of_lookup
    exact lookup_registerAll empty tasks
  case right =>
    apply faithful_of_lookup
    intro name
    rw [lookup_registerAll, builtin, lookup_registerAll_kinds]

end Catalog

end FlowPlan
