import ElmBindgen.Proofs.Graph.Listing
import ElmBindgen.Proofs.Resolution.Change

/-!
# Stability of definitions

What a slot table holds between two queries is never taken back. The filled slots come
first in every later table and in the same order, and all that may happen to one of them is
that a request becomes a response or something else, once. A slot that is still reserved
between two queries stays so, and no answer tells anything about its shape.

## Main definitions

* `Elm.Definition.Stays`: what may happen to a definition
* `Model.Unreported`: no answer tells anything about a shape

## Main results

* `SlotTable.Extends.filled`: the filled slots of a table stay at their places
* `Model.resolvePayload_reserved`: the answer about a shape whose slot is reserved
* `Model.filled_stable`: what later queries can do to a table
-/

namespace ElmBindgen

open Elm (Category Definition Payload Record)

/-! ## Definitions and slots -/

namespace Elm.Definition

/-- A definition later on: the same, or a request that was reached in another category. -/
def Stays (old new : Definition) : Prop :=
  new = old ∨ ∃ record category, old = .record record ∧ record.category = .request ∧
    category ≠ .request ∧ new = .record { record with category := category }

theorem stays_promote (definition : Definition) (category : Category) :
    definition.Stays (definition.promote category) := by
  cases definition with
  | union union => exact .inl rfl
  | record record =>
    rw [promote]
    split
    · next changes => exact .inr ⟨record, category, rfl, changes.1, changes.2, rfl⟩
    · exact .inl rfl

/-- A category changes once at most, since what it changes to is no request. -/
theorem Stays.once {old new last : Definition} (first : old.Stays new) (second : new.Stays last) :
    new = old ∨ last = new := by
  obtain same | ⟨record, category, -, -, changed, rfl⟩ := first
  · exact .inl same
  obtain same | ⟨_, _, again, request, -⟩ := second
  · exact .inr same
  · cases again
    exact absurd request changed

end Elm.Definition

theorem Slot.Becomes.filled {old : Definition} {later : Slot}
    (becomes : (Slot.filled old).Becomes later) : ∃ new, later = .filled new ∧ old.Stays new := by
  obtain rfl | ⟨category, rfl⟩ := becomes
  · exact ⟨old, rfl, .inl rfl⟩
  · exact ⟨old.promote category, rfl, old.stays_promote category⟩

/-! ## Tables -/

/-- Slots are filled later on where they are filled now. -/
theorem forall₂_filled {slots laters : List (String × Slot)}
    (becomes : List.Forall₂ (fun old new => new.1 = old.1 ∧ old.2.Becomes new.2) slots laters) :
    List.Forall₂ (fun old new => new.1 = old.1 ∧ old.2.Stays new.2)
      (SlotTable.mk slots).filled (SlotTable.mk laters).filled := by
  induction becomes with
  | nil => exact .nil
  | @cons old new olds news head _ ih =>
    obtain ⟨name, slot⟩ := old
    obtain ⟨_, now⟩ := new
    obtain ⟨rfl, becomes⟩ := head
    cases slot with
    | reserved =>
      obtain rfl := becomes.reserved
      exact ih
    | filled definition =>
      obtain ⟨new, rfl, stays⟩ := becomes.filled
      exact .cons ⟨rfl, stays⟩ ih

namespace SlotTable.Extends

variable {table later : SlotTable}

/-- The slots of a table come first in every later one, in the same order. -/
theorem slots (grows : table.Extends later) (before : table.names.Nodup)
    (distinct : later.names.Nodup) :
    ∃ front back, later.slots = front ++ back ∧
      List.Forall₂ (fun old new => new.1 = old.1 ∧ old.2.Becomes new.2) table.slots front := by
  obtain ⟨more, names⟩ := grows.names
  obtain ⟨front, back, parts, same, -⟩ := List.map_eq_append_iff.mp names.symm
  have firsts : List.Forall₂ (fun old new => old.1 = new.1) table.slots front := by
    have names : List.Forall₂ (· = ·) (table.slots.map Prod.fst) (front.map Prod.fst) := by
      rw [same]
      exact List.forall₂_refl _
    rwa [List.forall₂_map_left_iff, List.forall₂_map_right_iff] at names
  refine ⟨front, back, parts, List.forall₂_iff_zip.mpr ⟨firsts.length_eq, ?_⟩⟩
  rintro ⟨name, old⟩ ⟨other, new⟩ paired
  obtain rfl : name = other := List.forall₂_zip firsts paired
  obtain ⟨own, there⟩ := List.of_mem_zip paired
  -- Both slots are the ones that are found under the name.
  have found : table.find? name = some old := (find?_eq_some_iff before).mpr own
  have now : later.find? name = some new := by
    rw [find?_eq_some_iff distinct, parts]
    exact List.mem_append_left back there
  obtain ⟨slot, here, becomes⟩ := grows.slot name old found
  cases here.symm.trans now
  exact ⟨rfl, becomes⟩

/-- What the filled slots of a table hold stays at its place. -/
theorem filled (grows : table.Extends later) (before : table.names.Nodup)
    (distinct : later.names.Nodup) :
    ∃ kept added, later.filled = kept ++ added ∧
      List.Forall₂ (fun old new => new.1 = old.1 ∧ old.2.Stays new.2) table.filled kept := by
  obtain ⟨front, back, parts, becomes⟩ := grows.slots before distinct
  refine ⟨(SlotTable.mk front).filled, (SlotTable.mk back).filled, ?_, forall₂_filled becomes⟩
  rw [SlotTable.filled, parts, List.filterMap_append]
  rfl

/-- A filled slot is filled in every later table. -/
theorem stays (grows : table.Extends later) {name : String} {old new : Definition}
    (found : table.find? name = some (.filled old))
    (here : later.find? name = some (.filled new)) : old.Stays new := by
  obtain ⟨slot, now, becomes⟩ := grows.slot name _ found
  obtain ⟨last, rfl, stays⟩ := becomes.filled
  cases now.symm.trans here
  exact stays

end SlotTable.Extends

/-- A reserved slot is not among the filled ones. -/
theorem SlotTable.not_mem_filled {table : SlotTable} {name : String}
    (distinct : table.names.Nodup) (reserved : table.find? name = some .reserved) :
    name ∉ table.filled.map Prod.fst := by
  intro listed
  obtain ⟨⟨own, definition⟩, here, rfl⟩ := List.mem_map.mp listed
  rw [mem_filled_iff distinct, reserved] at here
  cases here

namespace Model

variable {model : Model} {table later : SlotTable} {name : String}

/-! ## Answers -/

/-- About a shape whose slot is reserved there is nothing to answer. -/
theorem resolvePayload_reserved (model : Model) {use : ShapeUse} (category : Category)
    (reserved : table.find? use.name = some .reserved) :
    ((model.resolvePayload (some use) category).on table).1 =
      .ok (.nothing (some (Elm.typeName use.name))) := by
  have known := SlotTable.mem_names_of_find? reserved
  -- Reaching the shape again does not fill its slot.
  have after : (table.promote use.name category).find? use.name = some .reserved :=
    (SlotTable.Extends.promote table use.name category).reserved reserved
  rw [resolvePayload, Resolution.on_bind, resolve, reach_known known]
  simp only [Resolution.on_table_bind, SlotTable.definition?, after]
  rfl

/-- No answer about a table tells anything about a shape: it is not among the definitions of
all operations, and an operation that takes or returns it gets its type alone. -/
structure Unreported (model : Model) (table : SlotTable) (name : String) : Prop where
  definitions : ∀ finding after, (model.ask .all).on table = (.ok finding, after) →
    finding = .definitions (after.filled.map Prod.snd) ∧ name ∉ after.filled.map Prod.fst
  payloads : ∀ operation uses finding after, model.references operation = .ok uses →
    (model.ask (.operation operation)).on table = (.ok finding, after) →
      ∃ input output, finding = .payloads input output ∧
        (∀ use ∈ uses.1, use.name = name → input = .nothing (some (Elm.typeName name))) ∧
        (∀ use ∈ uses.2, use.name = name → output = .nothing (some (Elm.typeName name)))

/-- A slot that is reserved between two queries is never told anything about. -/
theorem unreported_of_reserved (distinct : table.names.Nodup)
    (reserved : table.find? name = some .reserved) : model.Unreported table name where
  definitions := by
    intro finding after run
    obtain ⟨definitions, last, collected, made⟩ := Resolution.on_bind_ok_iff.mp run
    cases made
    obtain ⟨walk, rfl⟩ := walk_of_definitions collected
    exact ⟨rfl, SlotTable.not_mem_filled (walk.nodup distinct) (walk.grows.reserved reserved)⟩
  payloads := by
    intro operation uses finding after resolved run
    obtain ⟨⟨input, output⟩, last, answered, made⟩ := Resolution.on_bind_ok_iff.mp run
    cases made
    obtain ⟨_, middle, resolved', taken, returned⟩ := operationPayloads_ok_iff.mp answered
    cases resolved.symm.trans resolved'
    refine ⟨input, output, rfl, ?_, ?_⟩
    · intro use here named
      subst named
      have told := model.resolvePayload_reserved .request reserved
      rw [← Option.mem_def.mp here, taken] at told
      exact Except.ok.inj told
    · intro use here named
      subst named
      have grows := model.resolvePayload_extends uses.1 .request table
      rw [taken] at grows
      have told := model.resolvePayload_reserved .response (grows.reserved reserved)
      rw [← Option.mem_def.mp here, returned] at told
      exact Except.ok.inj told

/-! ## Later tables -/

/-- What later queries can do to a table that queries have left behind: what it holds comes
first in the later table, with at most one change of category for good, and what it has
reserved stays reserved without an answer ever telling about it. -/
theorem filled_stable (serves : model.Serves table) (onward : model.Leaves table later) :
    (∃ kept added, later.filled = kept ++ added ∧
      List.Forall₂ (fun old new => new.1 = old.1 ∧ old.2.Stays new.2) table.filled kept) ∧
    (∀ last, model.Leaves later last → ∀ name old new final, (name, old) ∈ table.filled →
      (name, new) ∈ later.filled → (name, final) ∈ last.filled → new = old ∨ final = new) ∧
    ∀ name, table.find? name = some .reserved →
      later.find? name = some .reserved ∧ model.Unreported later name := by
  have before := serves.nodup
  have distinct := (serves.onward onward).nodup
  refine ⟨onward.extends.filled before distinct, ?_, ?_⟩
  · intro last next name old new final own here there
    rw [SlotTable.mem_filled_iff before] at own
    rw [SlotTable.mem_filled_iff distinct] at here
    rw [SlotTable.mem_filled_iff ((serves.onward onward).onward next).nodup] at there
    exact (onward.extends.stays own here).once (next.extends.stays here there)
  · intro name reserved
    have stays := onward.extends.reserved reserved
    exact ⟨stays, unreported_of_reserved distinct stays⟩

/-- A book that is lent and returned, and a search whose filter is of a shape that is not
there. -/
def lending : Model where
  metadata := .object []
  operations := some (.object [
    ("Lend", .object [("input", .named "Book")]),
    ("Search", .object [("input", .named "Query")]),
    ("Return", .object [("output", .named "Book")])])
  shapes := .object [
    ("Book", .object [("type", .text "structure"),
      ("members", .object [("Title", .named "Title")])]),
    ("Query", .object [("type", .text "structure"),
      ("members", .object [("Filter", .named "Missing")])]),
    ("Title", .object [("type", .text "string")])]

/-- After a book was lent and a search failed, the book becomes a response when it is returned,
and the query of the search is passed over. -/
theorem filled_lending :
    ∃ table later record, lending.Serves table ∧ lending.Leaves table later ∧
      table.filled = [("Book", .record record)] ∧ record.category = .request ∧
      later.filled = [("Book", .record { record with category := .response })] ∧
      table.find? "Query" = some .reserved ∧ lending.Unreported later "Query" := by
  obtain ⟨table, serves⟩ : ∃ table, (lending.askAll .empty
      [.operation (.text "Lend"), .operation (.text "Search")]).2 = table := ⟨_, rfl⟩
  obtain ⟨later, onward⟩ : ∃ later, (lending.askAll table
      [.operation (.text "Return"), .all]).2 = later := ⟨_, rfl⟩
  have reserved : table.find? "Query" = some .reserved := by
    rw [← serves]
    rfl
  obtain ⟨-, -, kept⟩ := filled_stable ⟨_, serves⟩ ⟨_, onward⟩
  subst serves onward
  exact ⟨_, _, _, ⟨_, rfl⟩, ⟨_, rfl⟩, rfl, rfl, rfl, reserved, (kept "Query" reserved).2⟩

end Model

end ElmBindgen
