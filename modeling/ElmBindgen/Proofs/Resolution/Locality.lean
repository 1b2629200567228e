import ElmBindgen.Proofs.Graph.Involvement
import ElmBindgen.Proofs.Resolution.Change

/-!
# Resolution is local

An operation looks at no slots but those of the shapes that it involves, and changes no others,
whether it is answered or fails somewhere on the way. So operations that involve different
shapes do not notice each other.

## Main definitions

* `SlotTable.AgreesOn`: tables with the same slots under some names
* `SlotTable.outside`: the slots of all other names
* `Resolution.StaysIn`: a step that looks at slots of some names only, and changes no others

## Main results

* `Model.reach_staysIn`: reaching a shape stays in names that are closed under references
* `Model.ask_staysIn`: an operation stays in such names if they have its input and its output
* `Model.ask_operation_local`: what follows for an operation that is asked about
-/

namespace ElmBindgen

open Elm (Category)

/-! ## Tables -/

namespace SlotTable

variable {names : Set String} {table twin : SlotTable} {name : String}

/-- Two tables have the same slots under some names. -/
def AgreesOn (table : SlotTable) (names : Set String) (twin : SlotTable) : Prop :=
  ∀ name ∈ names, table.find? name = twin.find? name

open Classical in
/-- The slots of all names but some, in order. -/
noncomputable def outside (table : SlotTable) (names : Set String) : List (String × Slot) :=
  table.slots.filter fun entry => entry.1 ∉ names

theorem AgreesOn.refl (table : SlotTable) (names : Set String) : table.AgreesOn names table :=
  fun _ _ => rfl

/-- Tables with the same slots outside of some names agree on all names out there. -/
theorem agreesOn_of_outside {others : Set String}
    (same : twin.outside names = table.outside names) (apart : ∀ name ∈ others, name ∉ names) :
    twin.AgreesOn others table := by
  classical
  intro other here
  have missing := apart other here
  have found (slots : SlotTable) : slots.find? other = (slots.outside names).lookup other := by
    rw [outside, lookup_filter_fst slots.slots fun key => decide (key ∉ names), if_pos]
    · rfl
    · exact decide_eq_true missing
  rw [found, found, same]

/-! Changing a slot under one of the names keeps what tables agree on and what is outside. -/

theorem AgreesOn.modify (agree : table.AgreesOn names twin) (name : String)
    (change : Slot → Slot) :
    (table.modify name change).AgreesOn names (twin.modify name change) := by
  intro other here
  rw [find?_modify, find?_modify, agree other here]

theorem AgreesOn.reserve (agree : table.AgreesOn names twin) (name : String) :
    (table.reserve name).AgreesOn names (twin.reserve name) := by
  intro other here
  rw [find?_reserve, find?_reserve, agree other here]

theorem AgreesOn.drop (agree : table.AgreesOn names twin) (name : String) :
    (table.drop name).AgreesOn names (twin.drop name) := by
  intro other here
  rw [find?_drop, find?_drop, agree other here]

theorem outside_modify (here : name ∈ names) (table : SlotTable) (change : Slot → Slot) :
    (table.modify name change).outside names = table.outside names := by
  obtain ⟨slots⟩ := table
  simp only [outside, modify]
  induction slots with
  | nil => rfl
  | cons entry rest ih =>
    by_cases same : entry.1 = name
    · simpa [same, here] using ih
    · rw [List.map_cons, if_neg same, List.filter_cons, List.filter_cons, ih]

theorem outside_reserve (here : name ∈ names) (table : SlotTable) :
    (table.reserve name).outside names = table.outside names := by
  simp [outside, reserve, List.filter_append, here]

theorem outside_drop (here : name ∈ names) (table : SlotTable) :
    (table.drop name).outside names = table.outside names := by
  rw [outside, outside, drop, List.filter_filter]
  refine List.filter_congr fun entry _ => ?_
  by_cases same : entry.1 = name
  · simp [same, here]
  · simp [same]

end SlotTable

/-! ## Steps -/

namespace Resolution

variable {α β : Type} {names : Set String}

/-- A step that looks at slots of some names only, and changes no others. On tables that agree
on these names it has the same outcome and leaves tables that agree on them again; all other
slots stay as they are. -/
def StaysIn (names : Set String) (step : Resolution α) : Prop :=
  ∀ table twin, table.AgreesOn names twin → ∃ outcome after later,
    step.on table = (outcome, after) ∧ step.on twin = (outcome, later) ∧
      after.AgreesOn names later ∧ after.outside names = table.outside names

namespace StaysIn

variable {step : Resolution α} {next : α → Resolution β}

theorem ofExcept (result : Except Fault α) : StaysIn names (Resolution.ofExcept result) :=
  fun table twin agree => ⟨result, table, twin, rfl, rfl, agree, rfl⟩

theorem pure (a : α) : StaysIn names (Pure.pure a : Resolution α) := ofExcept (.ok a)

theorem throw (fault : Fault) : StaysIn names (MonadExcept.throw fault : Resolution α) :=
  ofExcept (.error fault)

theorem bind (first : StaysIn names step) (second : ∀ a, StaysIn names (next a)) :
    StaysIn names (step >>= next) := by
  intro table twin agree
  obtain ⟨outcome, middle, middle', run, run', agree, same⟩ := first table twin agree
  rw [on_bind, on_bind, run, run']
  cases outcome with
  | error fault => exact ⟨.error fault, middle, middle', rfl, rfl, agree, same⟩
  | ok a =>
    obtain ⟨outcome, after, later, run, run', agree, same'⟩ := second a middle middle' agree
    exact ⟨outcome, after, later, run, run', agree, same'.trans same⟩

/-- What follows a pure result only has to stay in the names if there is one. -/
theorem ofExcept_bind {result : Except Fault α}
    (second : ∀ a, result = .ok a → StaysIn names (next a)) :
    StaysIn names (Resolution.ofExcept result >>= next) := by
  cases result with
  | error fault => exact ofExcept (.error fault)
  | ok a => exact second a rfl

theorem mapM {xs : List α} {each : α → Resolution β} (all : ∀ x ∈ xs, StaysIn names (each x)) :
    StaysIn names (xs.mapM each) := by
  induction xs with
  | nil =>
    rw [List.mapM_nil]
    exact pure []
  | cons x rest ih =>
    have first := all x List.mem_cons_self
    have others := ih fun y listed => all y (List.mem_cons_of_mem x listed)
    rw [List.mapM_cons]
    exact first.bind fun _ => others.bind fun _ => pure _

/-- What follows a look at the table stays in the names if it depends on the slot of one of them
alone. -/
theorem look {name : String} (here : name ∈ names) {next : SlotTable → Resolution β}
    (sees : ∀ table twin, table.find? name = twin.find? name → next table = next twin)
    (onward : ∀ table, StaysIn names (next table)) :
    StaysIn names (Resolution.table >>= next) := by
  intro table twin agree
  rw [on_table_bind, on_table_bind, ← sees table twin (agree name here)]
  exact onward table table twin agree

section Changes

variable {name : String} (here : name ∈ names)
include here

theorem modify (change : Slot → Slot) : StaysIn names (update (·.modify name change)) :=
  fun table _ agree =>
    ⟨.ok (), _, _, rfl, rfl, agree.modify name change, table.outside_modify here change⟩

theorem reserve : StaysIn names (update (·.reserve name)) :=
  fun table _ agree => ⟨.ok (), _, _, rfl, rfl, agree.reserve name, table.outside_reserve here⟩

theorem drop : StaysIn names (update (·.drop name)) :=
  fun table _ agree => ⟨.ok (), _, _, rfl, rfl, agree.drop name, table.outside_drop here⟩

end Changes

end StaysIn

end Resolution

/-! ## Resolution -/

namespace Model

open Resolution (StaysIn)

variable {model : Model} {names : Set String} {name : Value}

section Closed

variable (kept : model.KeepsLinks)
  (closed : ∀ outer ∈ names, ∀ inner, model.Refers outer inner → inner ∈ names)
include kept closed

/-- The making of a record stays in the names if what its members lead to does. -/
theorem record_staysIn {reach : ShapeUse → Category → Resolution Unit} {use : ShapeUse}
    (uses : model.Uses use) (here : use.name ∈ names)
    (below : ∀ own category, model.Uses own → own.name ∈ names → StaysIn names (reach own category))
    (bound : Nat) (category : Category) :
    StaysIn names (model.record reach bound use category) := by
  refine .ofExcept_bind fun required _ => .ofExcept_bind fun entries members => ?_
  refine .bind (.mapM fun entry listed => ?_) fun _ => .pure _
  rw [member_eq]
  refine .ofExcept_bind fun chain follow => ?_
  rcases chain.visit_eq reach with nothing | ⟨own, target, visit⟩
  · rw [nothing]
    exact .bind (.pure ()) fun _ => .pure _
  · -- The structure is one of the names, so what its members lead to is one of them too.
    have path := kept.refers_of_target uses members listed follow target
    have there := mem_of_refers closed here path
    rw [visit]
    exact .bind (below own .other (uses.of_target members listed follow target) there)
      fun _ => .pure _

/-- Reaching a shape stays in names that are closed under references. -/
theorem reach_staysIn {use : ShapeUse} (uses : model.Uses use) (here : use.name ∈ names)
    (bound depth : Nat) (category : Category) :
    StaysIn names (model.reach bound depth use category) := by
  induction depth generalizing use category with
  | zero => exact .throw _
  | succ depth ih =>
    -- Which way is taken depends on the slot of this one name alone.
    refine .look here (fun _ _ same => by simp only [same]) fun slots => ?_
    cases slots.find? use.name with
    | some slot => exact .modify here _
    | none =>
      refine .bind (.reserve here) fun _ => ?_
      cases use.handler with
      | record =>
        have made := record_staysIn kept closed uses here
          (fun own category uses here => ih uses here category) bound category
        exact made.bind fun _ => .modify here _
      | union => exact .ofExcept_bind fun _ _ => .modify here _
      | keep => exact .pure ()
      | giveUp => exact .drop here

theorem resolvePayload_staysIn {use : Option ShapeUse}
    (inside : ∀ own ∈ use, model.Uses own ∧ own.name ∈ names) (category : Category) :
    StaysIn names (model.resolvePayload use category) := by
  cases use with
  | none => exact .pure _
  | some own =>
    obtain ⟨uses, here⟩ := inside own rfl
    refine .bind (reach_staysIn kept closed uses here _ _ category) fun _ => ?_
    refine .look here (fun _ _ same => by simp only [SlotTable.definition?, same]) fun slots => ?_
    cases slots.definition? own.name <;> exact .pure _

/-- An operation stays in names that are closed under references and have its input and its
output. -/
theorem ask_staysIn (inside : model.involved name ⊆ names) :
    StaysIn names (model.ask (.operation name)) := by
  have payload {key : String} (side : key = "input" ∨ key = "output") {use : Option ShapeUse}
      (found : model.payloadOf name key = .ok use) :
      ∀ own ∈ use, model.Uses own ∧ own.name ∈ names := by
    rintro own rfl
    exact ⟨uses_of_payloadOf side found, inside (mem_involved side found)⟩
  rw [ask, operationPayloads_eq]
  refine .bind (.bind (.ofExcept_bind fun input found => ?_) fun _ =>
    .ofExcept_bind fun output found => .bind ?_ fun _ => .pure _) fun _ => .pure _
  · exact resolvePayload_staysIn kept closed (payload (.inl rfl) found) .request
  · exact resolvePayload_staysIn kept closed (payload (.inr rfl) found) .response

end Closed

/-! ## Queries -/

/-- From tables that agree on some names, queries that stay in these names are answered alike. -/
theorem askAll_eq_of_staysIn {queries : List Query}
    (inside : ∀ query ∈ queries, StaysIn names (model.ask query)) {table twin : SlotTable}
    (agree : table.AgreesOn names twin) :
    (model.askAll table queries).1 = (model.askAll twin queries).1 := by
  induction queries generalizing table twin with
  | nil => rfl
  | cons query rest ih =>
    obtain ⟨first, others⟩ := List.forall_mem_cons.mp inside
    obtain ⟨answer, after, later, run, run', agree, -⟩ := first table twin agree
    have onward := ih others agree
    simp only [askAll, run, run', onward]

/-- An operation is local, whether it is answered or fails. The slots of all shapes that it does
not involve stay where and as they are. From a table with the same slots for the shapes that it
involves it has the same outcome, and leaves the same slots for them. And operations that involve
none of these shapes are answered, or fail, as if it had not been asked about. -/
theorem ask_operation_local (kept : model.KeepsLinks) {table after : SlotTable}
    {answer : Except Fault Finding}
    (run : (model.ask (.operation name)).on table = (answer, after)) :
    after.outside (model.involved name) = table.outside (model.involved name) ∧
    (∀ twin, table.AgreesOn (model.involved name) twin → ∃ later,
      (model.ask (.operation name)).on twin = (answer, later) ∧
        after.AgreesOn (model.involved name) later) ∧
    ∀ others : List Value,
      (∀ other ∈ others, ∀ shape ∈ model.involved other, shape ∉ model.involved name) →
        (model.askAll after (others.map .operation)).1 =
          (model.askAll table (others.map .operation)).1 := by
  have stays := ask_staysIn kept (model.involved_closed name) (Set.Subset.refl _)
  -- The frame is what a run shows next to itself.
  have frame : after.outside (model.involved name) = table.outside (model.involved name) := by
    obtain ⟨_, _, _, run', -, -, same⟩ := stays table table (.refl table _)
    cases run.symm.trans run'
    exact same
  refine ⟨frame, fun twin agree => ?_, fun others apart => ?_⟩
  · obtain ⟨_, _, later, run', there, agree', -⟩ := stays table twin agree
    cases run.symm.trans run'
    exact ⟨later, there, agree'⟩
  · -- What the others involve is closed under references as well, and has no slot that changed.
    let names : Set String := {shape | ∃ other ∈ others, shape ∈ model.involved other}
    have closed : ∀ outer ∈ names, ∀ inner, model.Refers outer inner → inner ∈ names := by
      rintro outer ⟨other, listed, here⟩ inner refers
      exact ⟨other, listed, model.involved_closed other outer here inner refers⟩
    have separate : ∀ shape ∈ names, shape ∉ model.involved name := by
      rintro shape ⟨other, listed, here⟩
      exact apart other listed shape here
    refine askAll_eq_of_staysIn ?_ (SlotTable.agreesOn_of_outside frame separate)
    intro query listed
    obtain ⟨other, there, rfl⟩ := List.mem_map.mp listed
    exact ask_staysIn kept closed fun shape here => ⟨other, there, here⟩

/-- A club that lets boats for a fee that is described nowhere, and has guests. -/
def club : Model where
  metadata := .object []
  operations := some (.object [
    ("Hire", .object [("input", .named "Order")]),
    ("Join", .object [("input", .named "Guest"), ("output", .named "Guest")])])
  shapes := .object [
    ("Order", .object [("type", .text "structure"), ("members", .object [
      ("Boats", .named "Boats"), ("Charge", .named "Charge")])]),
    ("Boats", .object [("type", .text "list"), ("member", .named "Boat")]),
    ("Boat", .object [("type", .text "structure")]),
    ("Charge", .object [("type", .text "structure"),
      ("members", .object [("Fee", .named "Fee")])]),
    ("Guest", .object [("type", .text "structure"), ("members", .object [
      ("Home", .named "Address")])]),
    ("Address", .object [("type", .text "structure")])]

/-- Hiring fails when a boat has been reached already, with guests in the table or without.
Guests who join do not notice. -/
theorem hire_club :
    ∃ fault joined after,
      ((club.ask (.operation (.text "Join"))).on .empty).2 = joined ∧
      (club.ask (.operation (.text "Hire"))).on joined = (.error fault, after) ∧
      joined.names = ["Guest", "Address"] ∧
      after.names = ["Guest", "Address", "Order", "Boat", "Charge"] ∧
      after.outside (club.involved (.text "Hire")) =
        joined.outside (club.involved (.text "Hire")) ∧
      (∃ later, (club.ask (.operation (.text "Hire"))).on .empty = (.error fault, later)) ∧
      (club.askAll after [.operation (.text "Join")]).1 =
        (club.askAll joined [.operation (.text "Join")]).1 := by
  have kept : club.KeepsLinks := .of_listed (by decide)
  have hiring : ∀ shape ∈ club.involved (.text "Hire"),
      shape ∈ ["Order", "Boats", "Boat", "Charge"] :=
    involved_subset (by decide) (by decide)
  have joining : ∀ shape ∈ club.involved (.text "Join"), shape ∈ ["Guest", "Address"] :=
    involved_subset (by decide) (by decide)
  have separate : ∀ shape ∈ ["Order", "Boats", "Boat", "Charge"],
      shape ∉ ["Guest", "Address"] := by decide
  obtain ⟨fault, joined, after, before, run, names, names'⟩ : ∃ fault joined after,
      ((club.ask (.operation (.text "Join"))).on .empty).2 = joined ∧
      (club.ask (.operation (.text "Hire"))).on joined = (.error fault, after) ∧
      joined.names = ["Guest", "Address"] ∧
      after.names = ["Guest", "Address", "Order", "Boat", "Charge"] := ⟨_, _, _, rfl, rfl, rfl, rfl⟩
  obtain ⟨frame, alike, unnoticed⟩ := ask_operation_local kept run
  have agree : joined.AgreesOn (club.involved (.text "Hire")) .empty := by
    intro shape here
    rw [(joined.find?_eq_none_iff shape).mpr]
    · rfl
    · rw [names]
      exact separate shape (hiring shape here)
  have apart : ∀ shape ∈ club.involved (.text "Join"), shape ∉ club.involved (.text "Hire") :=
    fun shape here there => separate shape (hiring shape there) (joining shape here)
  obtain ⟨later, again, -⟩ := alike .empty agree
  exact ⟨fault, joined, after, before, run, names, names', frame, ⟨later, again⟩,
    unnoticed [.text "Join"] (by simpa using apart)⟩

end Model

end ElmBindgen
