namespace FlowPlan

/-!
Finite maps from names to values.

A dictionary is the list of its entries in strictly ascending order of names,
by code point.  No name stands twice, and two dictionaries with the same
content are the same value, so that equality of documents needs no quotient.
-/

/-- A finite map keyed by names, listed by name. -/
structure Dictionary (Value : Type) where
  entries : List (String × Value)
  ascending : entries.Pairwise (fun first second => first.1 < second.1)
  deriving DecidableEq

namespace Dictionary

variable {Value : Type}

/-- Put one entry into an ascending list, in place of the entry of that name
if there is one. -/
def place (name : String) (value : Value) : List (String × Value) -> List (String × Value)
  | [] => [(name, value)]
  | entry :: rest =>
      if name < entry.1 then (name, value) :: entry :: rest
      else if name = entry.1 then (name, value) :: rest
      else entry :: place name value rest

theorem mem_place {name : String} {value : Value} {entry : String × Value}
    {entries : List (String × Value)} (member : entry ∈ place name value entries) :
    entry = (name, value) ∨ entry ∈ entries := by
  induction entries with
  | nil => simpa [place] using member
  | cons head tail ih =>
      simp only [place] at member
      split at member
      · simpa using member
      · split at member
        · rcases List.mem_cons.mp member with same | old
          · exact Or.inl same
          · exact Or.inr (List.mem_cons_of_mem _ old)
        · rcases List.mem_cons.mp member with same | old
          · exact Or.inr (same ▸ List.mem_cons_self)
          · exact (ih old).imp id (List.mem_cons_of_mem _)

theorem lt_of_not_lt_of_ne {first second : String} (below : ¬ first < second)
    (different : first ≠ second) : second < first :=
  Decidable.byContradiction fun above =>
    different (String.le_antisymm (String.not_lt.mp above) (String.not_lt.mp below))

theorem place_ascending (name : String) (value : Value) {entries : List (String × Value)}
    (ascending : entries.Pairwise (fun first second => first.1 < second.1)) :
    (place name value entries).Pairwise (fun first second => first.1 < second.1) := by
  induction entries with
  | nil => simp [place]
  | cons head tail ih =>
      have parts := List.pairwise_cons.mp ascending
      simp only [place]
      split
      · rename_i below
        refine List.pairwise_cons.mpr ⟨fun entry member => ?_, ascending⟩
        rcases List.mem_cons.mp member with same | later
        · exact same ▸ below
        · exact String.lt_trans below (parts.1 entry later)
      · rename_i notBelow
        split
        · rename_i same
          exact List.pairwise_cons.mpr ⟨fun entry member => same ▸ parts.1 entry member, parts.2⟩
        · rename_i different
          refine List.pairwise_cons.mpr ⟨fun entry member => ?_, ih parts.2⟩
          rcases mem_place member with same | later
          · exact same ▸ lt_of_not_lt_of_ne notBelow different
          · exact parts.1 entry later

def empty : Dictionary Value := ⟨[], List.Pairwise.nil⟩

/-- The dictionary with `value` under `name`, whatever stood there before. -/
def insert (dictionary : Dictionary Value) (name : String) (value : Value) : Dictionary Value :=
  ⟨place name value dictionary.entries, place_ascending name value dictionary.ascending⟩

/-- Read entries in order; of two entries of one name the later one holds. -/
def ofList (entries : List (String × Value)) : Dictionary Value :=
  entries.foldl (fun dictionary entry => dictionary.insert entry.1 entry.2) empty

def get? (dictionary : Dictionary Value) (name : String) : Option Value :=
  (dictionary.entries.find? (fun entry => entry.1 == name)).map Prod.snd

def size (dictionary : Dictionary Value) : Nat := dictionary.entries.length

def isEmpty (dictionary : Dictionary Value) : Bool := dictionary.entries.isEmpty

@[simp] theorem get?_empty (name : String) : (empty : Dictionary Value).get? name = none := rfl

@[simp] theorem get?_insert_self (dictionary : Dictionary Value) (name : String) (value : Value) :
    (dictionary.insert name value).get? name = some value := by
  have placed : forall entries : List (String × Value),
      ((place name value entries).find? (fun entry => entry.1 == name)).map Prod.snd
        = some value := by
    intro entries
    induction entries with
    | nil => simp [place]
    | cons head tail ih =>
        simp only [place]
        split
        · simp
        · split
          · simp
          · rename_i different
            have other : (head.1 == name) = false :=
              beq_eq_false_iff_ne.mpr (Ne.symm different)
            simpa [List.find?_cons, other] using ih
  exact placed dictionary.entries

theorem get?_insert_of_ne (dictionary : Dictionary Value) {name other : String} (value : Value)
    (different : name ≠ other) :
    (dictionary.insert name value).get? other = dictionary.get? other := by
  have placed : forall entries : List (String × Value),
      (place name value entries).find? (fun entry => entry.1 == other)
        = entries.find? (fun entry => entry.1 == other) := by
    intro entries
    have skipped : (name == other) = false := beq_eq_false_iff_ne.mpr different
    induction entries with
    | nil => simp [place, skipped]
    | cons head tail ih =>
        simp only [place]
        split
        · simp [List.find?_cons, skipped]
        · split
          · rename_i same
            have headSkipped : (head.1 == other) = false := same ▸ skipped
            simp [skipped, headSkipped]
          · cases found : head.1 == other <;> simp [found, ih]
  exact congrArg (Option.map Prod.snd) (placed dictionary.entries)

end Dictionary

end FlowPlan
