import ElmBindgen.Proofs.Resolution.Order

/-!
# Categories of records

A record keeps the category `request` as long as it is reached as an input alone. Whether
it is reached in another way is noticed only when its slot is filled: while its own members
are resolved the slot is reserved, and a reference back to it leaves no trace.

## Main definitions

* `SlotTable.IsRequest`: the slot of a name holds a record of the category `request`
* `Model.OnlyInput`: operations take a shape, none returns it and no structure leads to it
* `Model.Overlooked`: structures lead to a shape, but all of them are below it

## Main results

* `Model.Walk.isRequest_iff`: what a walk does to the category of a record
* `Model.category_eq_request_iff`: which records have the category `request` at the end
-/

namespace ElmBindgen

open Elm (Category Definition Record)

/-! ## Requests in tables -/

namespace SlotTable

/-- The slot of a name holds a record of the category `request`. -/
def IsRequest (table : SlotTable) (name : String) : Prop :=
  ∃ record, table.find? name = some (.filled (.record record)) ∧ record.category = .request

variable {table : SlotTable} {name key : String}

theorem IsRequest.mem_names (request : table.IsRequest name) : name ∈ table.names := by
  obtain ⟨record, found, _⟩ := request
  exact mem_names_of_find? found

theorem isRequest_reserve : (table.reserve key).IsRequest name ↔ table.IsRequest name := by
  rw [IsRequest, IsRequest, find?_reserve]
  cases table.find? name with
  | some slot => rfl
  | none =>
    rw [Option.none_or]
    split <;> simp

theorem isRequest_fill_of_ne (other : name ≠ key) (definition : Definition) :
    (table.fill key definition).IsRequest name ↔ table.IsRequest name := by
  rw [IsRequest, IsRequest, SlotTable.fill, find?_modify, if_neg other]

theorem isRequest_fill (known : name ∈ table.names) (definition : Definition) :
    (table.fill name definition).IsRequest name ↔
      ∃ record, definition = .record record ∧ record.category = .request := by
  obtain ⟨slot, found⟩ := mem_names_iff.mp known
  rw [IsRequest, SlotTable.fill, find?_modify, if_pos rfl, found]
  simp

/-- A record stays a request if it is reached as one. -/
theorem isRequest_promote (category : Category) :
    (table.promote key category).IsRequest name ↔
      table.IsRequest name ∧ (key = name → category = .request) := by
  rw [IsRequest, IsRequest, SlotTable.promote, find?_modify]
  by_cases same : name = key
  · subst same
    rw [if_pos rfl]
    rcases table.find? name with _ | _ | union | record
    · simp
    · simp [Slot.promote]
    · simp [Slot.promote, Definition.promote]
    · by_cases request : record.category = .request
      · by_cases stays : category = .request
        · simp [Slot.promote, Definition.promote, stays]
        · simp [Slot.promote, Definition.promote, stays, request]
      · simp [Slot.promote, Definition.promote, request]
  · rw [if_neg same]
    simp [Ne.symm same]

end SlotTable

namespace Model

variable {model : Model}

/-! ## Spared shapes -/

/-- None of the names that are new leads to a shape. -/
def Spares (model : Model) (old new : List String) (name : String) : Prop :=
  ∀ shape ∈ new, shape ∉ old → ¬model.Edge shape name

namespace Spares

variable {old middle new : List String} {name : String}

theorem refl (old : List String) (name : String) : model.Spares old old name :=
  fun _ here fresh => absurd here fresh

/-- A shape is spared on the whole if it is spared at first and later on. -/
theorem trans_iff (first : old ⊆ middle) (second : middle ⊆ new) :
    model.Spares old new name ↔ model.Spares old middle name ∧ model.Spares middle new name := by
  constructor
  · intro spares
    exact ⟨fun shape here => spares shape (second here),
      fun shape here fresh => spares shape here fun known => fresh (first known)⟩
  · rintro ⟨before, onward⟩ shape here fresh
    by_cases known : shape ∈ middle
    · exact before shape known fresh
    · exact onward shape here known

theorem reserve_iff {table : SlotTable} {key : String} (fresh : key ∉ table.names) :
    model.Spares table.names (table.reserve key).names name ↔ ¬model.Edge key name := by
  rw [Spares, SlotTable.names_reserve]
  constructor
  · exact fun spares => spares key (by simp) fresh
  · intro free shape here new
    rcases List.mem_append.mp here with known | own
    · exact absurd known new
    · rwa [List.mem_singleton.mp own]

end Spares

/-! ## What walks do to categories -/

namespace Walk

variable {table after : SlotTable} {agenda : List (ShapeUse × Category)} {name : String}

/-- A record that is not a request does not become one, and a record that is made while
nothing reaches it as a request is none. -/
theorem not_isRequest (walk : model.Walk table agenda after) (before : ¬table.IsRequest name)
    (others : name ∉ table.names → ∀ entry ∈ agenda, entry.1.name = name →
      entry.2 ≠ .request) : ¬after.IsRequest name := by
  induction walk with
  | done table => exact before
  | @known table after use category rest slot _ ih =>
    refine ih ?_ ?_
    · exact fun request => before ((SlotTable.isRequest_promote category).mp request).1
    · intro fresh entry listed
      rw [SlotTable.names_promote] at fresh
      exact others fresh entry (.tail _ listed)
  | @record table middle after use category record targets rest fresh _ outline below _
      inner outer =>
    -- The record is made here, or else somewhere below or later.
    by_cases same : use.name = name
    · subst same
      have known : use.name ∈ middle.names := below.grows.mem_names (by simp)
      refine outer ?_ ?_
      · rw [SlotTable.isRequest_fill known]
        rintro ⟨_, same, request⟩
        cases same
        exact others fresh _ List.mem_cons_self rfl (outline.category_eq ▸ request)
      · rw [SlotTable.names_fill]
        exact fun fresh => absurd known fresh
    · have inside : ¬middle.IsRequest name := by
        refine inner ?_ ?_
        · rwa [SlotTable.isRequest_reserve]
        · intro _ entry listed _
          obtain ⟨target, _, rfl⟩ := List.mem_map.mp listed
          simp
      refine outer ?_ ?_
      · rwa [SlotTable.isRequest_fill_of_ne (Ne.symm same)]
      · rw [SlotTable.names_fill]
        intro fresh entry listed
        refine others (fun known => fresh (below.grows.mem_names ?_)) entry (.tail _ listed)
        rw [SlotTable.names_reserve]
        exact List.mem_append_left _ known
  | @union table after use category union rest _ _ _ _ ih =>
    refine ih ?_ ?_
    · by_cases same : name = use.name
      · subst same
        rw [SlotTable.isRequest_fill (by simp)]
        simp
      · rwa [SlotTable.isRequest_fill_of_ne same, SlotTable.isRequest_reserve]
    · rw [SlotTable.names_fill, SlotTable.names_reserve]
      intro fresh entry listed
      exact others (fun known => fresh (List.mem_append_left _ known)) entry (.tail _ listed)
  | @keep table after use category rest _ _ _ ih =>
    refine ih ?_ ?_
    · rwa [SlotTable.isRequest_reserve]
    · rw [SlotTable.names_reserve]
      intro fresh entry listed
      exact others (fun known => fresh (List.mem_append_left _ known)) entry (.tail _ listed)
  | giveUp _ _ _ ih =>
    exact ih before fun fresh entry listed => others fresh entry (.tail _ listed)

/-- A record that was there before a walk stays a request if the walk reaches it as one
alone: it is nothing else in the agenda, and no shape that is new leads to it. -/
theorem isRequest_iff (walk : model.Walk table agenda after) (literal : model.Literal)
    (used : model.Used agenda) (known : name ∈ table.names) :
    after.IsRequest name ↔ table.IsRequest name ∧
      (∀ entry ∈ agenda, entry.1.name = name → entry.2 = .request) ∧
      model.Spares table.names after.names name := by
  induction walk with
  | done table => exact ⟨fun request => ⟨request, by simp, .refl _ _⟩, And.left⟩
  | @known table after use category rest slot _ ih =>
    rw [ih used.tail (by rwa [SlotTable.names_promote]), SlotTable.isRequest_promote,
      List.forall_mem_cons, SlotTable.names_promote]
    constructor
    · rintro ⟨⟨before, own⟩, listed, spares⟩
      exact ⟨before, ⟨own, listed⟩, spares⟩
    · rintro ⟨before, ⟨own, listed⟩, spares⟩
      exact ⟨⟨before, own⟩, listed, spares⟩
  | @record table middle after use category record targets rest fresh handler outline below onward
      inner outer =>
    have uses : model.Uses use := used.head
    have differs : use.name ≠ name := fun same => fresh (same ▸ known)
    have reserved : name ∈ (table.reserve use.name).names := by simp [known]
    have grown : (table.reserve use.name).names ⊆ middle.names := below.grows.names.subset
    have final := onward.grows.names.subset
    specialize inner (outline.used uses) reserved
    specialize outer used.tail (by
      rw [SlotTable.names_fill]
      exact grown reserved)
    -- The members are reached as something else than requests.
    have members : (∀ entry ∈ targets.map (·, Category.other), entry.1.name = name →
        entry.2 = .request) ↔ ¬model.Edge use.name name := by
      rw [literal.edge_iff uses handler outline]
      simp
    rw [SlotTable.isRequest_reserve, members] at inner
    rw [SlotTable.isRequest_fill_of_ne differs.symm, SlotTable.names_fill]
      at outer
    rw [SlotTable.names_fill] at final
    rw [outer, inner, List.forall_mem_cons,
      Spares.trans_iff (SlotTable.Extends.reserve table use.name).names.subset
        (List.Subset.trans grown final),
      Spares.trans_iff grown final, Spares.reserve_iff fresh]
    constructor
    · rintro ⟨⟨before, free, below⟩, listed, later⟩
      exact ⟨before, ⟨fun same => absurd same differs, listed⟩, free, below, later⟩
    · rintro ⟨before, ⟨-, listed⟩, free, below, later⟩
      exact ⟨⟨before, free, below⟩, listed, later⟩
  | @union table after use category union rest fresh handler _ onward ih =>
    have differs : use.name ≠ name := fun same => fresh (same ▸ known)
    have free := literal.not_edge used.head (by simp [handler]) name
    have final := onward.grows.names.subset
    specialize ih used.tail (by
      rw [SlotTable.names_fill]
      simp [known])
    rw [SlotTable.isRequest_fill_of_ne differs.symm, SlotTable.isRequest_reserve,
      SlotTable.names_fill] at ih
    rw [SlotTable.names_fill] at final
    rw [ih, List.forall_mem_cons,
      Spares.trans_iff (SlotTable.Extends.reserve table use.name).names.subset final,
      Spares.reserve_iff fresh]
    constructor
    · rintro ⟨before, listed, spares⟩
      exact ⟨before, ⟨fun same => absurd same differs, listed⟩, free, spares⟩
    · rintro ⟨before, ⟨-, listed⟩, -, spares⟩
      exact ⟨before, listed, spares⟩
  | @keep table after use category rest fresh handler onward ih =>
    have differs : use.name ≠ name := fun same => fresh (same ▸ known)
    have free := literal.not_edge used.head (by simp [handler]) name
    specialize ih used.tail (by simp [known])
    rw [SlotTable.isRequest_reserve] at ih
    rw [ih, List.forall_mem_cons,
      Spares.trans_iff (SlotTable.Extends.reserve table use.name).names.subset
        onward.grows.names.subset,
      Spares.reserve_iff fresh]
    constructor
    · rintro ⟨before, listed, spares⟩
      exact ⟨before, ⟨fun same => absurd same differs, listed⟩, free, spares⟩
    · rintro ⟨before, ⟨-, listed⟩, -, spares⟩
      exact ⟨before, listed, spares⟩
  | @giveUp table after use category rest fresh _ _ ih =>
    have differs : use.name ≠ name := fun same => fresh (same ▸ known)
    rw [ih used.tail known, List.forall_mem_cons]
    simp [differs]

end Walk

/-! ## Visited shapes -/

theorem Edge.defines {shape name : String} (edge : model.Edge shape name) :
    model.defines shape := by
  obtain ⟨targets, ⟨use, found, ⟨type, _⟩ | ⟨_, rfl⟩⟩, here⟩ := edge
  · rw [Model.defines, found]
    simp [Except.toOption, ShapeUse.isRoot, type]
  · cases here

section Visited

variable {table start after : SlotTable} {agenda before rest : List (ShapeUse × Category)}
  {use : ShapeUse} {category : Category} {name : String}

/-- What a walk from the start has visited is what can be reached. -/
theorem Walk.mem_names_iff (walk : model.Walk .empty agenda table) (literal : model.Literal)
    (used : model.Used agenda) (defined : model.defines name) :
    name ∈ table.names ↔
      ∃ root ∈ rootNames agenda, Relation.ReflTransGen model.Edge root name := by
  obtain ⟨found, names, search⟩ := walk.depthFirst literal used
  have visited : name ∈ table.names ↔ name ∈ found := by
    rw [show found = table.names.filter model.defines from names.symm, List.mem_filter]
    simp [defined]
  rw [visited]
  exact search.mem_iff edges_rightUnique

theorem rootNames_append (first second : List (ShapeUse × Category)) :
    rootNames (first ++ second) = rootNames first ++ rootNames second := by
  rw [rootNames, List.filter_append, List.map_append]
  rfl

/-- After one more use has been entered, what has been visited is what was visited before and, if
the use is a root, what can be reached from it. -/
theorem Walk.mem_names_entered (earlier : model.Walk .empty before start)
    (entering : model.Walk start [(use, category)] after) (literal : model.Literal)
    (used : model.Used (before ++ [(use, category)])) (defined : model.defines name) :
    name ∈ after.names ↔
      name ∈ start.names ∨ use.isRoot ∧ Relation.ReflTransGen model.Edge use.name name := by
  rw [(earlier.append entering).mem_names_iff literal used defined,
    earlier.mem_names_iff literal used.left defined, rootNames_append, rootNames_cons]
  simp only [List.mem_append, or_and_right, exists_or]
  by_cases root : use.isRoot <;> simp [root, rootNames]

/-- A structure that is entered from an operation gets the category of its payload. -/
theorem Walk.isRequest_entered (walk : model.Walk start [(use, category)] after)
    (fresh : use.name ∉ start.names) (handler : use.handler = .record) :
    after.IsRequest use.name ↔ category = .request := by
  cases walk with
  | known slot => exact absurd slot fresh
  | record _ _ outline below onward =>
    cases onward
    rw [SlotTable.isRequest_fill (below.grows.mem_names (by simp))]
    simp [outline.category_eq]
  | union _ handler' => simp [handler] at handler'
  | keep _ handler' => simp [handler] at handler'
  | giveUp _ handler' => simp [handler] at handler'

/-- A structure that is first reached by an operation is a request at the end if this
operation takes it, no later one returns it, and all structures that lead to it are
below it. -/
theorem Walk.isRequest_iff_below (earlier : model.Walk .empty before start)
    (walk : model.Walk start ((use, category) :: rest) after) (literal : model.Literal)
    (used : model.Used (before ++ (use, category) :: rest))
    (fresh : use.name ∉ start.names) (handler : use.handler = .record) :
    after.IsRequest use.name ↔ category = .request ∧
      (∀ entry ∈ rest, entry.1.name = use.name → entry.2 = .request) ∧
      ∀ shape, (∃ root ∈ rootNames (before ++ (use, category) :: rest),
          Relation.ReflTransGen model.Edge root shape) →
        model.Edge shape use.name → Relation.ReflTransGen model.Edge use.name shape := by
  have root : use.isRoot := ShapeUse.isRoot_iff.mpr (.inl handler)
  have defined : model.defines use.name := by
    rwa [literal.defines_eq used.right.head]
  have whole := earlier.append walk
  obtain ⟨middle, entering, onward⟩ := walk.uncons
  have known : use.name ∈ middle.names :=
    entering.agenda_subset (List.mem_singleton_self _) (by simp [handler])
  -- After the structure has been entered, everything that is visited is either old or below.
  have visited {shape : String} (defined : model.defines shape) :
      shape ∈ middle.names ↔
        shape ∈ start.names ∨ Relation.ReflTransGen model.Edge use.name shape := by
    rw [List.append_cons] at used
    rw [earlier.mem_names_entered entering literal used.left defined, and_iff_right root]
  -- What was visited before does not lead to the structure, or it would have been visited.
  have closed {shape : String} (edge : model.Edge shape use.name) : shape ∉ start.names := by
    intro old
    obtain ⟨root, listed, path⟩ := (earlier.mem_names_iff literal used.left edge.defines).mp old
    exact fresh ((earlier.mem_names_iff literal used.left defined).mpr
      ⟨root, listed, path.tail edge⟩)
  rw [onward.isRequest_iff literal used.right.tail known,
    entering.isRequest_entered fresh handler]
  refine and_congr_right fun _ => and_congr_right fun _ => ?_
  constructor
  · intro spares shape reachable edge
    have here := (whole.mem_names_iff literal used edge.defines).mpr reachable
    by_contra elsewhere
    refine spares shape here ?_ edge
    rw [visited edge.defines]
    exact not_or.mpr ⟨closed edge, elsewhere⟩
  · intro below shape here new edge
    refine new ((visited edge.defines).mpr (.inr (below shape ?_ edge)))
    exact (whole.mem_names_iff literal used edge.defines).mp here

/-- A walk that gives a name a slot does so at some entry of its agenda. -/
theorem Walk.split_first (walk : model.Walk start agenda after) (fresh : name ∉ start.names)
    (known : name ∈ after.names) :
    ∃ before entry rest old new, agenda = before ++ entry :: rest ∧
      model.Walk start before old ∧ name ∉ old.names ∧ model.Walk old [entry] new ∧
      name ∈ new.names ∧ model.Walk new rest after := by
  induction agenda generalizing start with
  | nil =>
    cases walk
    exact absurd known fresh
  | cons entry rest ih =>
    obtain ⟨middle, first, onward⟩ := walk.uncons
    by_cases here : name ∈ middle.names
    · exact ⟨[], entry, rest, start, middle, rfl, .done _, fresh, first, here, onward⟩
    · obtain ⟨before, later, tail, old, new, rfl, earlier, absent, entering, present, last⟩ :=
        ih onward here
      exact ⟨entry :: before, later, tail, old, new, rfl, first.append earlier, absent, entering,
        present, last⟩

end Visited

/-! ## Requests at the end -/

/-- Some operation takes a shape, and nothing before it leads to the shape. -/
def FirstInput (model : Model) (name : String) : Prop :=
  ∃ before use rest, model.payloads = before ++ (use, Category.request) :: rest ∧
    use.name = name ∧
    ¬∃ root ∈ rootNames before, Relation.ReflTransGen model.Edge root name

/-- No operation returns a shape. -/
def NeverOutput (model : Model) (name : String) : Prop :=
  ∀ use, (use, Category.response) ∈ model.payloads → use.name ≠ name

/-- Operations take a shape, none returns it, and no structure that can be reached leads to
it. -/
def OnlyInput (model : Model) (name : String) : Prop :=
  (∃ use, (use, Category.request) ∈ model.payloads ∧ use.name = name) ∧
    model.NeverOutput name ∧ ∀ shape, model.Reachable shape → ¬model.Edge shape name

/-- Structures lead to a shape, but an operation takes it before any of them is reached, so
that all of them are below the shape itself; and no operation returns it. -/
def Overlooked (model : Model) (name : String) : Prop :=
  model.FirstInput name ∧ model.NeverOutput name ∧
    (∃ shape, model.Reachable shape ∧ model.Edge shape name) ∧
    ∀ shape, model.Reachable shape → model.Edge shape name →
      Relation.ReflTransGen model.Edge name shape

/-- Payloads are inputs or outputs. -/
theorem payloads_category {use : ShapeUse} {category : Category}
    (listed : (use, category) ∈ model.payloads) : category = .request ∨ category = .response := by
  obtain ⟨name, _, listed⟩ := List.mem_flatMap.mp listed
  rw [operationUses] at listed
  split at listed
  · rcases List.mem_append.mp listed with listed | listed
    · obtain ⟨_, _, _, rfl⟩ := by simpa using listed
      exact .inl rfl
    · obtain ⟨_, _, _, rfl⟩ := by simpa using listed
      exact .inr rfl
  · cases listed

/-- A shape that no structure leads to is first reached by an operation that takes it, if
some operation does and none returns it. -/
theorem OnlyInput.firstInput {name : String} (only : model.OnlyInput name) :
    model.FirstInput name := by
  obtain ⟨⟨use, listed, named⟩, never, free⟩ := only
  have here : name ∈ model.payloads.map (·.1.name) := List.mem_map.mpr ⟨_, listed, named⟩
  obtain ⟨_, _, split, absent⟩ := List.eq_append_cons_of_mem here
  obtain ⟨before, tail, whole, rfl, same⟩ := List.map_eq_append_iff.mp split
  obtain ⟨⟨first, category⟩, rest, rfl, named, rfl⟩ := List.map_eq_cons_iff.mp same
  have own : (first, category) ∈ model.payloads := by simp [whole]
  have request : category = .request :=
    (payloads_category own).resolve_right fun response => never first (response ▸ own) named
  subst request
  refine ⟨before, first, rest, whole, named, ?_⟩
  rintro ⟨root, rooted, path⟩
  obtain ⟨entry, kept, rfl⟩ := List.mem_map.mp rooted
  -- A path to the shape is empty, since no last edge can lead to it.
  rcases Relation.ReflTransGen.cases_tail path with same | ⟨shape, path, edge⟩
  · exact absent (List.mem_map.mpr ⟨entry, List.mem_of_mem_filter kept, same.symm⟩)
  · refine free shape ⟨entry.1.name, ?_, path⟩ edge
    rw [roots, whole, rootNames_append]
    exact List.mem_append_left _ rooted

section Definitions

variable {table : SlotTable} {definitions : List Definition} {name : String} {record : Record}

/-- A record is a request at the end if an operation takes it first, none returns it, and
all structures that lead to it are below it. -/
theorem isRequest_iff_firstInput (literal : model.Literal)
    (run : model.definitions.on .empty = (.ok definitions, table))
    (found : table.find? name = some (.filled (.record record))) :
    table.IsRequest name ↔ model.FirstInput name ∧ model.NeverOutput name ∧
      ∀ shape, model.Reachable shape → model.Edge shape name →
        Relation.ReflTransGen model.Edge name shape := by
  obtain ⟨walk, -⟩ := walk_of_definitions run
  have used : model.Used model.payloads := used_payloads
  have known : name ∈ table.names := SlotTable.mem_names_of_find? found
  -- Every use of the shape is one of a structure.
  obtain ⟨owner, _, _, uses, named, owned, -⟩ :=
    ((settled_of_definitions run).2 name known).of_record found
  have handler {use : ShapeUse} (uses' : model.Uses use) (same : use.name = name) :
      use.handler = .record := by
    rw [literal.handler_eq uses' uses (same.trans named.symm), owned]
  have defined : model.defines name := by
    rw [← named, literal.defines_eq uses]
    exact ShapeUse.isRoot_iff.mpr (.inl owned)
  have reached {before : List (ShapeUse × Category)} {old : SlotTable}
      (earlier : model.Walk .empty before old) (used : model.Used before) :=
    earlier.mem_names_iff literal used defined
  constructor
  · intro request
    obtain ⟨before, ⟨use, category⟩, rest, old, new, whole, earlier, fresh, entering, here,
      onward⟩ := walk.split_first (List.not_mem_nil : name ∉ SlotTable.empty.names) known
    rw [whole] at used
    by_cases same : use.name = name
    · subst same
      have own := handler used.right.head rfl
      have final : model.Walk old ((use, category) :: rest) table := entering.append onward
      rw [earlier.isRequest_iff_below final literal used fresh own] at request
      obtain ⟨rfl, later, below⟩ := request
      rw [reached earlier used.left] at fresh
      refine ⟨⟨before, use, rest, whole, rfl, fresh⟩, ?_, ?_⟩
      · intro other listed same
        -- An earlier output would have reached the shape before.
        rw [whole] at listed
        rcases List.mem_append.mp listed with listed | listed
        · refine fresh ⟨other.name, ?_, by rw [same]⟩
          have root := ShapeUse.isRoot_iff.mpr (.inl (handler (used.left _ listed) same))
          exact List.mem_map.mpr ⟨_, List.mem_filter.mpr ⟨listed, root⟩, rfl⟩
        · rcases List.mem_cons.mp listed with own | listed
          · cases own
          · cases later (other, .response) listed same
      · rwa [← whole] at below
    · -- A shape that is not first reached by an operation is no request from the start.
      refine absurd request (onward.not_isRequest ?_ fun absent => absurd here absent)
      refine entering.not_isRequest (fun request => fresh request.mem_names) ?_
      intro _ entry listed named
      rw [List.mem_singleton.mp listed] at named
      exact absurd named same
  · rintro ⟨⟨before, use, rest, whole, rfl, first⟩, never, below⟩
    rw [whole] at walk used
    obtain ⟨old, earlier, onward⟩ := walk.split
    have fresh : use.name ∉ old.names := by
      rwa [reached earlier used.left]
    have own := handler used.right.head rfl
    rw [earlier.isRequest_iff_below onward literal used fresh own]
    refine ⟨rfl, fun ⟨other, category⟩ listed same => ?_, ?_⟩
    · have there : (other, category) ∈ model.payloads := by
        rw [whole]
        exact List.mem_append_right _ (.tail _ listed)
      exact (payloads_category there).resolve_right fun response =>
        never other (response ▸ there) same
    · rwa [← whole]

/-- A record has the category `request` at the end if operations take it and nothing else
leads to it, or if it was overlooked that something does. -/
theorem category_eq_request_iff (literal : model.Literal)
    (run : model.definitions.on .empty = (.ok definitions, table))
    (filled : (name, .record record) ∈ table.filled) :
    record.category = .request ↔ model.OnlyInput name ∨ model.Overlooked name := by
  obtain ⟨distinct, _⟩ := settled_of_definitions run
  have found := (SlotTable.mem_filled_iff distinct).mp filled
  have own : record.category = .request ↔ table.IsRequest name := by
    rw [SlotTable.IsRequest, found]
    simp
  rw [own, isRequest_iff_firstInput literal run found]
  constructor
  · rintro ⟨first, never, below⟩
    by_cases led : ∃ shape, model.Reachable shape ∧ model.Edge shape name
    · exact .inr ⟨first, never, led, below⟩
    · obtain ⟨before, use, rest, whole, named, _⟩ := first
      refine .inl ⟨⟨use, by simp [whole], named⟩, never, fun shape reachable edge => ?_⟩
      exact led ⟨shape, reachable, edge⟩
  · rintro (only | ⟨first, never, _, below⟩)
    · exact ⟨only.firstInput, only.2.1, fun shape reachable edge =>
        absurd edge (only.2.2 shape reachable)⟩
    · exact ⟨first, never, below⟩

/-- A folder that is an input and the parent of its own entry. -/
def archive : Model where
  metadata := .object []
  operations := some (.object [("Put", .object [("input", .named "Folder")])])
  shapes := .object [
    ("Folder", .object [("type", .text "structure"),
      ("members", .object [("Entry", .named "Entry")])]),
    ("Entry", .object [("type", .text "structure"),
      ("members", .object [("Parent", .named "Folder")])])]

theorem edge_archive : archive.Edge "Folder" "Entry" ∧ archive.Edge "Entry" "Folder" := by
  have leaf {use : ShapeUse} (type : use.type = .text "structure") : archive.Leads use use :=
    .leaf (by simp [type]) (by simp [type])
  constructor
  · exact ⟨["Entry"], ⟨_, rfl, .inl ⟨rfl, _, [_], rfl, .cons (leaf rfl) .nil, rfl⟩⟩, by simp⟩
  · exact ⟨["Folder"], ⟨_, rfl, .inl ⟨rfl, _, [_], rfl, .cons (leaf rfl) .nil, rfl⟩⟩, by simp⟩

/-- A folder that its own entry leads to is a request all the same. -/
theorem category_archive :
    archive.Literal ∧ ∃ definitions table record,
      archive.definitions.on .empty = (.ok definitions, table) ∧
      ("Folder", .record record) ∈ table.filled ∧ record.category = .request ∧
      ¬archive.OnlyInput "Folder" ∧ archive.Overlooked "Folder" := by
  have literal : archive.Literal := .of_listed (by decide)
  have led : archive.Reachable "Entry" :=
    ⟨"Folder", by decide, .single edge_archive.1⟩
  have notOnly : ¬archive.OnlyInput "Folder" :=
    fun only => only.2.2 "Entry" led edge_archive.2
  obtain ⟨definitions, table, record, run, filled, request⟩ : ∃ definitions table record,
      archive.definitions.on .empty = (.ok definitions, table) ∧
      ("Folder", .record record) ∈ table.filled ∧ record.category = .request :=
    ⟨_, _, _, rfl, .head _, rfl⟩
  refine ⟨literal, definitions, table, record, run, filled, request, notOnly, ?_⟩
  exact ((category_eq_request_iff literal run filled).mp request).resolve_left notOnly

end Definitions

end Model

end ElmBindgen
