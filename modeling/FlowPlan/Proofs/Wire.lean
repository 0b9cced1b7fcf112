import FlowPlan.Wire.Plan
import FlowPlan.Wire.Task
import Mathlib.Data.List.Basic
import Mathlib.Data.List.Nodup

namespace FlowPlan

/-!
Decoding what was encoded.

A record comes back field by field: its names are distinct, and what is absent
is not listed.  So each kind of value comes back from its JSON form, without
any condition on the texts in it.  A phase number has to fit 64 bits.
-/

theorem mapM_map_eq_some {Value Form : Type} {encode : Value -> Form}
    {decode : Form -> Option Value} {values : List Value}
    (each : forall value, value ∈ values -> decode (encode value) = some value) :
    (values.map encode).mapM decode = some values := by
  induction values with
  | nil => rfl
  | cons value values ih =>
      have rest := ih (fun other member => each other (List.mem_cons_of_mem _ member))
      rw [List.map_cons, List.mapM_cons, each value List.mem_cons_self, rest]
      rfl

namespace Json

@[simp] theorem text?_text (content : String) : (text content).text? = some content := rfl

theorem text_ne_null (content : String) : text content ≠ .null := nofun

theorem natural?_natural {value : Nat} (word : value < Word.unsignedCount) :
    (natural value).natural? = some value := by
  simp [natural, natural?, word]

theorem list?_array {Value : Type} {encode : Value -> Json} {decode : Json -> Option Value}
    {values : List Value}
    (each : forall value, value ∈ values -> decode (encode value) = some value) :
    (Json.array (values.map encode)).list? decode = some values :=
  mapM_map_eq_some each

/-! ## Records -/

/-- Among distinct names none is repeated. -/
theorem isUnrepeated_of_nodup {members : List (String × Json)}
    (distinct : (members.map Prod.fst).Nodup) (name : String) :
    isUnrepeated (members.map (fun member => (some member.1, member.2))) name = true := by
  have once := List.nodup_iff_count_le_one.mp distinct name
  rw [List.count_eq_countP, List.countP_map, List.countP_eq_length_filter] at once
  rw [isUnrepeated, List.filter_map, List.length_map, decide_eq_true_eq]
  simpa [Function.comp_def] using once

/-- The fields of a record are looked up among its members. -/
theorem fields?_record {members : List (String × Json)}
    (distinct : (members.map Prod.fst).Nodup) (names : List String) :
    (record members).fields? names
      = some (fun name => (members.find? (fun member => member.1 == name)).map Prod.snd) := by
  have unrepeated : names.all
      (isUnrepeated (members.map (fun member => (some member.1, member.2)))) = true :=
    List.all_eq_true.mpr (fun name _ => isUnrepeated_of_nodup distinct name)
  simp [record, fields?, unrepeated, List.find?_map, Function.comp_def]

/-- Among distinct names, the first member can be told from the others by its
name alone. -/
theorem filter_members_cons {name : String} {value : Json} {rest : List (String × Json)}
    (distinct : (((name, value) :: rest).map Prod.fst).Nodup) :
    (((name, value) :: rest).map (fun member => (some member.1, member.2))).filter
        (fun member => member.1 != some name)
      = rest.map (fun member => (some member.1, member.2)) := by
  rw [List.map_cons, List.nodup_cons] at distinct
  rw [List.map_cons, List.filter_cons_of_neg (by simp), List.filter_eq_self]
  intro member listed
  rcases List.mem_map.mp listed with ⟨field, stated, rfl⟩
  have different : field.1 ≠ name := by
    intro same
    exact distinct.1 (List.mem_map.mpr ⟨field, stated, same⟩)
  simpa using different

/-- An optional field is absent exactly where it was, since no value is
written as `null`. -/
theorem Fields.optional?_map {Value : Type} {fields : Fields} {name : String}
    {encode : Value -> Json} {decode : Json -> Option Value} {content : Option Value}
    (written : fields name = content.map encode) (solid : forall value, encode value ≠ .null)
    (each : forall value, content = some value -> decode (encode value) = some value) :
    fields.optional? name decode = some content := by
  cases content with
  | none => simp [optional?, written]
  | some value =>
      have present : fields name = some (encode value) := written
      have shape := solid value
      have read := each value rfl
      unfold optional?
      split
      · rename_i absent
        simp [present] at absent
      · rename_i absent
        exact absurd (Option.some.inj (present.symm.trans absent)) shape
      · rename_i other _ found
        rw [← Option.some.inj (present.symm.trans found), read]
        rfl

end Json

namespace Dictionary

variable {Value : Type}

theorem eq_of_entries_eq {first second : Dictionary Value}
    (same : first.entries = second.entries) : first = second := by
  cases first
  cases second
  cases same
  rfl

/-- An entry after all others is placed last. -/
theorem place_of_forall_lt {name : String} {value : Value} {entries : List (String × Value)}
    (last : forall entry, entry ∈ entries -> entry.1 < name) :
    place name value entries = entries ++ [(name, value)] := by
  induction entries with
  | nil => rfl
  | cons entry entries ih =>
      have before := last entry List.mem_cons_self
      have different : name ≠ entry.1 := by
        intro same
        exact String.lt_irrefl name (same ▸ before)
      rw [place, if_neg (String.lt_asymm before), if_neg different,
        ih (fun other member => last other (List.mem_cons_of_mem _ member)), List.cons_append]

theorem entries_foldl_insert {dictionary : Dictionary Value} {entries : List (String × Value)}
    (ascending : (dictionary.entries ++ entries).Pairwise
      (fun first second => first.1 < second.1)) :
    (entries.foldl (fun dictionary entry => dictionary.insert entry.1 entry.2) dictionary).entries
      = dictionary.entries ++ entries := by
  induction entries generalizing dictionary with
  | nil => simp
  | cons entry entries ih =>
      have placed : (dictionary.insert entry.1 entry.2).entries = dictionary.entries ++ [entry] :=
        place_of_forall_lt (fun other member =>
          (List.pairwise_append.mp ascending).2.2 other member entry List.mem_cons_self)
      rw [List.foldl_cons, ih (by rw [placed]; simpa using ascending), placed, List.append_assoc,
        List.singleton_append]

/-- A dictionary is made of its own entries. -/
theorem ofList_entries (dictionary : Dictionary Value) :
    ofList dictionary.entries = dictionary := by
  apply eq_of_entries_eq
  rw [ofList, entries_foldl_insert (by simpa [empty] using dictionary.ascending)]
  rfl

theorem ofJson?_toJson (literals : Dictionary String) :
    ofJson? literals.toJson = some literals := by
  have read : ((literals.entries.map (fun entry => (entry.1, Json.text entry.2))).map
      (fun member => (some member.1, member.2))).mapM entryOfMember? = some literals.entries := by
    rw [List.map_map]
    exact mapM_map_eq_some (fun _ _ => rfl)
  rw [toJson, Json.record, ofJson?, read, Option.map_some, ofList_entries]

end Dictionary

/-! ## Documents -/

theorem Node.ofJson?_toJson (node : Node) : ofJson? node.toJson = some node := by
  simp [ofJson?, toJson, Json.fields?_record, Json.Fields.required?, Json.Fields.defaulted?,
    Dictionary.ofJson?_toJson]

theorem Edge.exists_fields_toJson (edge : Edge) :
    ∃ fields,
      edge.toJson.fields? ["source", "target", "sourceHandle", "targetHandle"] = some fields ∧
      fields "source" = some (.text edge.source) ∧ fields "target" = some (.text edge.target) ∧
      fields "sourceHandle" = edge.sourceHandle.map .text ∧
      fields "targetHandle" = edge.targetHandle.map .text := by
  rcases edge with ⟨source, target, sourceHandle, targetHandle⟩
  cases sourceHandle <;> cases targetHandle <;>
    simp [toJson, Json.fields?_record, Json.optionalMember]

theorem Edge.ofJson?_toJson (edge : Edge) : ofJson? edge.toJson = some edge := by
  rcases edge.exists_fields_toJson with
    ⟨fields, found, source, target, sourceHandle, targetHandle⟩
  have readSource := Json.Fields.optional?_map sourceHandle (fun _ => Json.text_ne_null _)
    (fun content _ => Json.text?_text content)
  have readTarget := Json.Fields.optional?_map targetHandle (fun _ => Json.text_ne_null _)
    (fun content _ => Json.text?_text content)
  simp [ofJson?, found, Json.Fields.required?, source, target, readSource, readTarget]

/-! ## Tasks -/

theorem PortType.ofJson?_toJson (portType : PortType) : ofJson? portType.toJson = some portType :=
  portType.ofName?_name

theorem InputPort.exists_fields_toJson (port : InputPort) :
    ∃ fields,
      port.toJson.fields? ["name", "type", "required", "hideHandle", "helperText"] = some fields ∧
      fields "name" = some (.text port.name) ∧ fields "type" = some port.portType.toJson ∧
      fields "required" = some (.bool port.required) ∧
      fields "hideHandle" = some (.bool port.hideHandle) ∧
      fields "helperText" = port.helperText.map .text := by
  rcases port with ⟨name, portType, required, hideHandle, helperText⟩
  cases helperText <;> simp [toJson, Json.fields?_record, Json.optionalMember]

theorem InputPort.ofJson?_toJson (port : InputPort) : ofJson? port.toJson = some port := by
  rcases port.exists_fields_toJson with
    ⟨fields, found, name, portType, required, hideHandle, helperText⟩
  have readHelp := Json.Fields.optional?_map helperText (fun _ => Json.text_ne_null _)
    (fun content _ => Json.text?_text content)
  simp [ofJson?, found, Json.Fields.required?, Json.Fields.defaulted?, name, portType,
    PortType.ofJson?_toJson, required, hideHandle, Json.bool?, readHelp]

theorem OutputPort.ofJson?_toJson (port : OutputPort) : ofJson? port.toJson = some port := by
  simp [ofJson?, toJson, Json.fields?_record, Json.Fields.required?, PortType.ofJson?_toJson]

theorem TaskDefinition.ofJson?_toJson (definition : TaskDefinition) :
    ofJson? definition.toJson = some definition := by
  have inputs := Json.list?_array
    (fun port (_ : port ∈ definition.inputs) => port.ofJson?_toJson)
  have outputs := Json.list?_array
    (fun port (_ : port ∈ definition.outputs) => port.ofJson?_toJson)
  simp [ofJson?, toJson, members, Json.fields?_record, Json.Fields.required?, inputs, outputs,
    Json.bool?]

/-! ## Plans -/

/-- The phase numbers of a plan are unsigned integers of 64 bits. -/
def Plan.Numbered (plan : Plan) : Prop :=
  forall phase, phase ∈ plan.phases -> phase.number < Word.unsignedCount

theorem Phase.ofJson?_toJson {phase : Phase} (word : phase.number < Word.unsignedCount) :
    ofJson? phase.toJson = some phase := by
  have nodes := Json.list?_array (fun node (_ : node ∈ phase.nodes) => Node.ofJson?_toJson node)
  simp [ofJson?, toJson, Json.fields?_record, Json.Fields.required?, Json.natural?_natural word,
    nodes]

theorem Plan.ofJson?_toJson {plan : Plan} (numbered : plan.Numbered) :
    ofJson? plan.toJson = some plan := by
  rw [ofJson?, toJson, Json.list?_array
    (fun phase member => Phase.ofJson?_toJson (numbered phase member))]
  rfl

end FlowPlan
