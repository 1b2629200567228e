import ElmBindgen.Proofs.Graph.DepthFirst
import ElmBindgen.Proofs.Graph.Literal
import ElmBindgen.Proofs.Resolution.Walk

/-!
# The graph of shapes

Shapes are the vertices of a graph. A member of a structure is followed through lists
and maps to the first shape that is neither; the structure has an edge to this shape if
it is a structure or a string with values. The roots are the structures and strings that
operations take and return.

## Main definitions

* `Model.Leads`: following lists and maps from one use to another
* `ShapeUse.isTarget`, `ShapeUse.isRoot`: the uses that edges and operations may lead to
* `Model.Edges`, `Model.Edge`: the targets of a shape, in the order of its members
* `Model.roots`, `Model.Reachable`: where the graph is entered, and what can be reached
* `Model.Used`: agendas of uses of a model

## Main results

* `Model.edges_rightUnique`: every shape has one list of targets
* `Model.leads_of_chain`: a chain ends where following leads to
* `Model.Literal.edges_of_outlines`: the targets of an outline are those of the graph
-/

namespace ElmBindgen

open Elm (Category Record)

namespace ShapeUse

/-- Whether a use has a definition when a member leads to it: structures and strings with
values. -/
def isTarget (use : ShapeUse) : Bool :=
  match use.type with
  | .text "structure" => true
  | .text "string" => (use.enum.toOption.map Value.isTrue).getD false
  | _ => false

/-- Whether a use has a definition when an operation takes or returns it: structures and
all strings. -/
def isRoot (use : ShapeUse) : Bool :=
  match use.type with
  | .text "structure" => true
  | .text "string" => true
  | _ => false

theorem isRoot_of_isTarget {use : ShapeUse} (target : use.isTarget) : use.isRoot := by
  unfold isTarget at target
  unfold isRoot
  split at target <;> simp_all

/-- The shapes with a definition are the ones that have a handler for it. -/
theorem isRoot_iff {use : ShapeUse} :
    use.isRoot ↔ use.handler = .record ∨ use.handler = .union := by
  unfold isRoot handler
  split <;> split <;> simp_all

theorem handler_eq_record_iff {use : ShapeUse} :
    use.handler = .record ↔ use.type = .text "structure" := by
  unfold handler
  split <;> simp_all

end ShapeUse

namespace Model

variable {model : Model}

/-! ## Following lists and maps -/

/-- Following lists and maps from a use leads to a use that is neither. -/
inductive Leads (model : Model) : ShapeUse → ShapeUse → Prop
  | leaf {use} (list : use.type ≠ .text "list") (map : use.type ≠ .text "map") :
      Leads model use use
  | item {use next leaf} (list : use.type = .text "list") (found : use.item model = .ok next)
      (onward : Leads model next leaf) : Leads model use leaf
  | entryValue {use next leaf} (map : use.type = .text "map")
      (found : use.entryValue model = .ok next) (onward : Leads model next leaf) :
      Leads model use leaf

theorem leads_rightUnique : Relator.RightUnique model.Leads := by
  intro use first second leads leads'
  -- The type of a use tells which of the three steps is taken.
  induction leads with
  | leaf list map =>
    cases leads' with
    | leaf => rfl
    | item list' => exact absurd list' list
    | entryValue map' => exact absurd map' map
  | item list found _ ih =>
    cases leads' with
    | leaf list' => exact absurd list list'
    | item _ found' onward =>
      cases found.symm.trans found'
      exact ih onward
    | entryValue map' => simp [list] at map'
  | entryValue map found _ ih =>
    cases leads' with
    | leaf _ map' => exact absurd map map'
    | item list' => simp [map] at list'
    | entryValue _ found' onward =>
      cases found.symm.trans found'
      exact ih onward

/-- What a model refers to leads only to what it refers to. -/
theorem Leads.uses {use leaf : ShapeUse} (leads : model.Leads use leaf)
    (uses : model.Uses use) : model.Uses leaf := by
  induction leads with
  | leaf => exact uses
  | item _ found _ ih => exact ih (uses.of_item found)
  | entryValue _ found _ ih => exact ih (uses.of_entryValue found)

end Model

/-! ## Chains -/

/-- What a step along a chain says about the use that it starts at. -/
theorem ShapeUse.step_ok {use : ShapeUse} {step : Step} (found : use.step = .ok step) :
    match step with
    | .link .list => use.type = .text "list"
    | .link .map => use.type = .text "map"
    | .leaf leaf => use.type ≠ .text "list" ∧ use.type ≠ .text "map" ∧
        Chain.target? ⟨[], leaf⟩ = if use.isTarget then some use else none := by
  unfold ShapeUse.step at found
  unfold ShapeUse.isTarget
  split at found
  · next type =>
    cases found
    simp [type, Chain.target?]
  · next type =>
    obtain ⟨values, enum, found⟩ := Fault.bind_ok_iff.mp found
    split at found <;>
    · next filled =>
      cases found
      simp [type, enum, filled, Chain.target?, Except.toOption]
  · next type =>
    cases found
    exact type
  · next type =>
    cases found
    exact type
  -- No other type is one that is tested for, whether or not it is a text.
  · next type notStructure notString notList notMap =>
    cases found
    simp_all [Chain.target?]
  · next notText _ _ _ _ =>
    obtain ⟨_, _, found⟩ := Fault.bind_ok_iff.mp found
    cases found
    simp_all [Chain.target?]

namespace Model

variable {model : Model}

/-- A chain ends where following lists and maps leads to. -/
theorem leads_of_chain {bound : Nat} {use : ShapeUse} {chain : Chain}
    (found : model.chain bound use = .ok chain) :
    ∃ leaf, model.Leads use leaf ∧
      chain.target? = if leaf.isTarget then some leaf else none := by
  induction bound generalizing use chain with
  | zero => cases found
  | succ bound ih =>
    obtain ⟨step, stepped, found⟩ := Fault.bind_ok_iff.mp found
    have told := use.step_ok stepped
    cases step with
    | leaf leaf =>
      cases found
      obtain ⟨list, map, target⟩ := told
      exact ⟨use, .leaf list map, target⟩
    | link link =>
      obtain ⟨next, followed, found⟩ := Fault.bind_ok_iff.mp found
      obtain ⟨rest, onward, made⟩ := Fault.bind_ok_iff.mp found
      cases made
      obtain ⟨leaf, leads, target⟩ := ih onward
      cases link with
      | list => exact ⟨leaf, .item told followed leads, target⟩
      | map => exact ⟨leaf, .entryValue told followed leads, target⟩

/-! ## Edges -/

/-- The targets of a shape in the order of its members; only structures have any. -/
def Edges (model : Model) (name : String) (targets : List String) : Prop :=
  ∃ use, model.shapeNamed name = .ok use ∧
    ((use.type = .text "structure" ∧ ∃ entries leaves, use.members model = .ok entries ∧
        List.Forall₂ (fun entry leaf => model.Leads entry.2 leaf) entries leaves ∧
        targets = (leaves.filter ShapeUse.isTarget).map ShapeUse.name) ∨
      (use.type ≠ .text "structure" ∧ targets = []))

/-- Some member of a structure leads to a shape with a definition. -/
def Edge (model : Model) : String → String → Prop := DepthFirst.Edge model.Edges

/-- The structures and strings of an agenda, in order. -/
def rootNames (agenda : List (ShapeUse × Category)) : List String :=
  (agenda.filter (·.1.isRoot)).map (·.1.name)

/-- The structures and strings that operations take and return, in order. -/
def roots (model : Model) : List String := rootNames model.payloads

/-- A shape that can be reached from the roots. -/
def Reachable (model : Model) (name : String) : Prop :=
  ∃ root ∈ model.roots, Relation.ReflTransGen model.Edge root name

theorem rootNames_cons (use : ShapeUse) (category : Category)
    (rest : List (ShapeUse × Category)) :
    rootNames ((use, category) :: rest) =
      if use.isRoot then use.name :: rootNames rest else rootNames rest := by
  rw [rootNames, List.filter_cons]
  cases use.isRoot <;> rfl

theorem rootNames_map {targets : List ShapeUse} (roots : ∀ target ∈ targets, target.isRoot)
    (category : Category) :
    rootNames (targets.map (·, category)) = targets.map ShapeUse.name := by
  rw [rootNames, List.filter_eq_self.mpr, List.map_map]
  · rfl
  · intro entry listed
    obtain ⟨target, there, rfl⟩ := List.mem_map.mp listed
    exact roots target there

theorem edges_rightUnique : Relator.RightUnique model.Edges := by
  rintro name first second ⟨use, found, one⟩ ⟨use', found', other⟩
  cases found.symm.trans found'
  rcases one with ⟨type, entries, leaves, members, leads, rfl⟩ | ⟨type, rfl⟩
  · rcases other with ⟨-, entries', leaves', members', leads', rfl⟩ | ⟨type', -⟩
    · cases members.symm.trans members'
      have functional : Relator.RightUnique
          fun (entry : String × ShapeUse) leaf => model.Leads entry.2 leaf :=
        fun _ _ _ => @leads_rightUnique model _ _ _
      rw [functional.forall₂ leads leads']
    · exact absurd type type'
  · rcases other with ⟨type', -⟩ | ⟨-, rfl⟩
    · exact absurd type' type
    · rfl

/-- Among the leaves that some uses lead to, the targets of their chains are those with a
definition. -/
theorem leaves_of_chains {bound : Nat} {entries : List (String × ShapeUse)} {chains : List Chain}
    (found : List.Forall₂ (fun entry chain => model.chain bound entry.2 = .ok chain)
      entries chains) :
    ∃ leaves, List.Forall₂ (fun entry leaf => model.Leads entry.2 leaf) entries leaves ∧
      chains.filterMap Chain.target? = leaves.filter ShapeUse.isTarget := by
  induction found with
  | nil => exact ⟨[], .nil, rfl⟩
  | cons followed _ ih =>
    obtain ⟨leaves, leads, same⟩ := ih
    obtain ⟨leaf, first, target⟩ := leads_of_chain followed
    refine ⟨leaf :: leaves, .cons first leads, ?_⟩
    rw [List.filterMap_cons, List.filter_cons, target, same]
    cases leaf.isTarget <;> rfl

/-- The targets of an outline are among the leaves of the members. -/
theorem Outlines.leaves {use : ShapeUse} {category : Category} {record : Record}
    {targets : List ShapeUse} (outline : model.Outlines use category record targets) :
    ∃ entries leaves, use.members model = .ok entries ∧
      List.Forall₂ (fun entry leaf => model.Leads entry.2 leaf) entries leaves ∧
      targets = leaves.filter ShapeUse.isTarget := by
  obtain ⟨_, entries, chains, _, members, found, _, rfl⟩ := outline
  obtain ⟨leaves, leads, same⟩ := leaves_of_chains found
  exact ⟨entries, leaves, members, leads, same⟩

/-- The targets of an outline are used by the model and have definitions. -/
theorem Outlines.targets {use : ShapeUse} {category : Category} {record : Record}
    {targets : List ShapeUse} (outline : model.Outlines use category record targets)
    (uses : model.Uses use) {target : ShapeUse} (listed : target ∈ targets) :
    model.Uses target ∧ target.isRoot := by
  obtain ⟨entries, leaves, members, leads, rfl⟩ := outline.leaves
  obtain ⟨here, isTarget⟩ := List.mem_filter.mp listed
  obtain ⟨entry, there, leads⟩ := Fault.exists_of_forall₂ leads here
  exact ⟨leads.uses (uses.of_members members there), ShapeUse.isRoot_of_isTarget isTarget⟩

namespace Literal

variable {use : ShapeUse}

/-- In a literal model the targets of an outline are the edges of its shape. -/
theorem edges_of_outlines (literal : model.Literal) (uses : model.Uses use)
    (handler : use.handler = .record) {category : Category} {record : Record}
    {targets : List ShapeUse} (outline : model.Outlines use category record targets) :
    model.Edges use.name (targets.map ShapeUse.name) := by
  obtain ⟨bare, found, alike⟩ := literal.alike uses
  obtain ⟨entries, leaves, members, leads, rfl⟩ := outline.leaves
  refine ⟨bare, found, .inl ⟨?_, entries, leaves, ?_, leads, rfl⟩⟩
  · rw [← alike.type, ← ShapeUse.handler_eq_record_iff, handler]
  · rw [← alike.members, members]

/-- A shape that is no structure has no targets. -/
theorem edges_nil (literal : model.Literal) (uses : model.Uses use)
    (handler : use.handler ≠ .record) : model.Edges use.name [] := by
  obtain ⟨bare, found, alike⟩ := literal.alike uses
  refine ⟨bare, found, .inr ⟨?_, rfl⟩⟩
  rwa [ne_eq, ← alike.type, ← ShapeUse.handler_eq_record_iff]

/-- In a literal model the shapes that a structure leads to are the targets of its outline. -/
theorem edge_iff (literal : model.Literal) (uses : model.Uses use)
    (handler : use.handler = .record) {category : Category} {record : Record}
    {targets : List ShapeUse} (outline : model.Outlines use category record targets)
    {name : String} : model.Edge use.name name ↔ ∃ target ∈ targets, target.name = name := by
  have edges := literal.edges_of_outlines uses handler outline
  constructor
  · rintro ⟨_, edges', here⟩
    obtain rfl := edges_rightUnique edges edges'
    exact List.mem_map.mp here
  · intro target
    exact ⟨_, edges, List.mem_map.mpr target⟩

theorem not_edge (literal : model.Literal) (uses : model.Uses use)
    (handler : use.handler ≠ .record) (name : String) : ¬model.Edge use.name name := by
  rintro ⟨_, edges, here⟩
  obtain rfl := edges_rightUnique (literal.edges_nil uses handler) edges
  cases here

/-- In a literal model uses of one shape are handled alike. -/
theorem handler_eq (literal : model.Literal) (uses : model.Uses use) {other : ShapeUse}
    (uses' : model.Uses other) (same : use.name = other.name) : use.handler = other.handler :=
  (literal.alike_of_name uses uses' same).handler

end Literal

/-! ## Operations -/

theorem uses_of_payload {name operation : Value} {key : String} {use : ShapeUse}
    (found : model.operation name = .ok operation) (side : key = "input" ∨ key = "output")
    (payload : model.payload operation key = .ok (some use)) : model.Uses use := by
  rw [Model.payload] at payload
  split at payload
  · next reference here =>
    cases stands : model.use reference with
    | error fault =>
      rw [stands] at payload
      cases payload
    | ok use =>
      rw [stands] at payload
      cases payload
      exact ⟨reference, .payload found side here, stands⟩
  · cases payload

/-- Every entry of an agenda is a use of the model. -/
def Used (model : Model) (agenda : List (ShapeUse × Category)) : Prop :=
  ∀ entry ∈ agenda, model.Uses entry.1

namespace Used

variable {use : ShapeUse} {category : Category} {entry : ShapeUse × Category}
  {first second : List (ShapeUse × Category)}

theorem head (used : model.Used ((use, category) :: second)) : model.Uses use :=
  used _ List.mem_cons_self

theorem tail (used : model.Used (entry :: second)) : model.Used second :=
  fun _ listed => used _ (List.mem_cons_of_mem _ listed)

theorem left (used : model.Used (first ++ second)) : model.Used first :=
  fun _ listed => used _ (List.mem_append_left _ listed)

theorem right (used : model.Used (first ++ second)) : model.Used second :=
  fun _ listed => used _ (List.mem_append_right _ listed)

theorem append (before : model.Used first) (onward : model.Used second) :
    model.Used (first ++ second) :=
  List.forall_mem_append.mpr ⟨before, onward⟩

end Used

theorem Outlines.used {use : ShapeUse} {category next : Category} {record : Record}
    {targets : List ShapeUse} (outline : model.Outlines use category record targets)
    (uses : model.Uses use) : model.Used (targets.map (·, next)) := by
  intro entry listed
  obtain ⟨target, there, rfl⟩ := List.mem_map.mp listed
  exact (outline.targets uses there).1

/-- What an operation refers to is used by the model. -/
theorem used_payloadsOf {name : Value} {references : Option ShapeUse × Option ShapeUse}
    (resolved : model.references name = .ok references) : model.Used (payloadsOf references) := by
  obtain ⟨input, output⟩ := references
  obtain ⟨operation, found, inputUse, outputUse⟩ := references_ok_iff.mp resolved
  intro payload listed
  rcases List.mem_append.mp listed with listed | listed
  · obtain ⟨use, rfl, rfl⟩ := by simpa using listed
    exact uses_of_payload found (.inl rfl) inputUse
  · obtain ⟨use, rfl, rfl⟩ := by simpa using listed
    exact uses_of_payload found (.inr rfl) outputUse

theorem used_payloads : model.Used model.payloads := by
  intro payload listed
  obtain ⟨name, _, listed⟩ := List.mem_flatMap.mp listed
  rw [operationUses] at listed
  split at listed
  · next references resolved => exact used_payloadsOf resolved payload listed
  · cases listed

end Model

end ElmBindgen
