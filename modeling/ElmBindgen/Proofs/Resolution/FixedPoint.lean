import ElmBindgen.Proofs.Resolution.Repetition

/-!
# Collecting definitions settles a table

When all definitions have been collected, there is nothing left for the operations to do. What
they refer to has a slot or takes none, and what they return is no request any more. So from then
on every query is answered from the table, which stays as it is, also if slots are left over from
queries that have failed.

A reference that overrides the type of its shape could still give a definition to a shape that
took no slot, so there must be none.

## Main definitions

* `Model.KeepsTypes`: no reference overrides the type of the shape that it names
* `Model.Rests`: an operation that has nothing left to do
* `Model.Tells`: what a table tells about a query

## Main results

* `Model.on_ask_of_rests`: an operation that rests is answered from the table
* `Model.Rests.onward`: an operation that rests keeps resting
* `Model.askAll_fixedPoint`: when all definitions have been collected, no query changes the table
-/

namespace ElmBindgen

open Elm (Definition)

/-- A later table has a request where an earlier one has, unless the earlier one has no slot. -/
theorem SlotTable.Extends.isRequest {table later : SlotTable} {name : String}
    (grows : table.Extends later) (known : name ∈ table.names) (request : later.IsRequest name) :
    table.IsRequest name := by
  obtain ⟨record, found, category⟩ := request
  obtain ⟨slot, before⟩ := SlotTable.mem_names_iff.mp known
  cases slot with
  | reserved => cases found.symm.trans (grows.reserved before)
  | filled definition =>
    -- A category that has changed is no request afterwards.
    obtain same | ⟨_, changed, -, -, other, same⟩ := grows.stays before found
    · rw [← same] at before
      exact ⟨record, before, category⟩
    · cases same
      exact absurd category other

namespace Model

variable {model : Model} {table later after : SlotTable} {name : Value} {finding : Finding}

/-! ## Types -/

/-- No reference overrides the type of the shape that it names. -/
def KeepsTypes (model : Model) : Prop :=
  ∀ reference, model.Mentions reference → reference.get? "type" = none

/-- Uses of one shape are handled alike. -/
theorem KeepsTypes.handler_eq (kept : model.KeepsTypes) {use other : ShapeUse}
    (uses : model.Uses use) (uses' : model.Uses other) (same : use.name = other.name) :
    use.handler = other.handler := by
  have plain : ∀ reference, model.Mentions reference → ∀ key ∈ ["type"],
      reference.get? key = none :=
    fun reference mentions => List.forall_mem_singleton.mpr (kept reference mentions)
  have bare {own : ShapeUse} (uses : model.Uses own) :
      ∃ bare, model.shapeNamed own.name = .ok bare ∧ own.type = bare.type := by
    obtain ⟨bare, named, -, -, get?⟩ := uses.bare (by decide) plain
    refine ⟨bare, named, ?_⟩
    rw [ShapeUse.type, ShapeUse.type, get? "type" (List.mem_singleton_self _)]
  obtain ⟨first, found, type⟩ := bare uses
  obtain ⟨second, found', type'⟩ := bare uses'
  rw [same] at found
  cases found.symm.trans found'
  rw [ShapeUse.handler, ShapeUse.handler, type, type']

/-- References keep the types of their shapes if none of the listed ones holds another or has a
type. -/
theorem KeepsTypes.of_listed (flat : ∀ reference ∈ model.listed, reference.references = [])
    (plain : ∀ reference ∈ model.listed, reference.get? "type" = none) : model.KeepsTypes :=
  fun reference mentions => plain reference (mentions.mem_listed flat)

/-! ## Operations at rest -/

/-- An operation has nothing left to do: what it refers to has a slot or takes none, and what it
returns is no request. -/
def Rests (model : Model) (table : SlotTable) (name : Value) : Prop :=
  ∃ taken returned, model.references name = .ok (taken, returned) ∧ table.Passes taken ∧
    table.Passes returned ∧ ∀ own ∈ returned, ¬table.IsRequest own.name

/-- What a table tells about a query. -/
inductive Tells (model : Model) (table : SlotTable) : Query → Finding → Prop
  | operation {name taken returned} (resolved : model.references name = .ok (taken, returned)) :
      Tells model table (.operation name)
        (.payloads (table.payload taken) (table.payload returned))
  | all : Tells model table .all (.definitions table.definitions)

/-- An operation that rests is answered from the table, which stays as it is. -/
theorem on_ask_of_rests (distinct : table.names.Nodup) (rests : model.Rests table name) :
    ∃ told, (model.ask (.operation name)).on table = (.ok told, table) ∧
      model.Tells table (.operation name) told := by
  obtain ⟨taken, returned, resolved, passes, passes', settled⟩ := rests
  refine ⟨_, ask_operation_ok_iff.mpr ⟨taken, returned, table, resolved, ?_, ?_⟩,
    .operation resolved⟩
  · exact model.resolvePayload_again distinct passes (.inl rfl)
  · exact model.resolvePayload_again distinct passes' (.inr settled)

/-- An operation that has been resolved rests. -/
theorem rests_of_operationPayloads {payloads : Elm.Payload × Elm.Payload}
    (run : (model.operationPayloads name).on table = (.ok payloads, after)) :
    model.Rests after name := by
  obtain ⟨⟨taken, returned⟩, middle, resolved, first, second⟩ := operationPayloads_ok_iff.mp run
  obtain ⟨-, passes⟩ := reached_of_resolvePayload first
  obtain ⟨grows, passes'⟩ := reached_of_resolvePayload second
  obtain ⟨left, -⟩ := resolvePayload_ok_iff.mp second
  exact ⟨taken, returned, resolved, passes.grows grows, passes', not_isRequest_of_enter left⟩

/-- An operation that rests keeps resting. What has a slot becomes no request again, and what
takes none is not given one by another use of its shape. -/
theorem Rests.onward (kept : model.KeepsTypes) (rests : model.Rests table name)
    (grows : table.Extends later) (sound : model.Sound later) : model.Rests later name := by
  obtain ⟨taken, returned, resolved, passes, passes', settled⟩ := rests
  refine ⟨taken, returned, resolved, passes.grows grows, passes'.grows grows, ?_⟩
  rintro own here request
  rcases passes' own here with known | giveUp
  · exact settled own here (grows.isRequest known request)
  · -- The record would come from a use that is handled otherwise than this one.
    obtain ⟨record, found, -⟩ := request
    obtain ⟨use, uses, named, makes⟩ := sound own.name _ found
    have used := used_payloadsOf resolved (own, .response)
      (List.mem_append_right _ (by simpa using here))
    cases makes with
    | record handler _ =>
      rw [kept.handler_eq uses used named, giveUp] at handler
      cases handler

/-! ## Collecting definitions -/

/-- Operations that have been resolved one after the other all rest. -/
theorem rests_of_operations (kept : model.KeepsTypes) {names : List Value}
    (run : (names.forM fun name => discard (model.operationPayloads name)).on table =
      (.ok (), after)) (sound : model.Sound after) : ∀ name ∈ names, model.Rests after name := by
  induction names generalizing table with
  | nil => simp
  | cons own rest ih =>
    obtain ⟨_, middle, first, onward⟩ := Resolution.on_bind_ok_iff.mp run
    obtain ⟨payloads, answered⟩ := Resolution.on_discard_ok_iff.mp first
    -- The first operation rests when it has been resolved, and the others leave it at rest.
    have grows : middle.Extends after := by
      have whole : Resolution.Keeps SlotTable.Extends
          (rest.forM fun name => discard (model.operationPayloads name)) :=
        .forM fun name => .discard (model.operationPayloads_extends name)
      simpa only [onward] using whole middle
    have rests := (rests_of_operationPayloads answered).onward kept grows sound
    exact List.forall_mem_cons.mpr ⟨rests, ih onward⟩

/-- Operations that rest are resolved again without a change to the table. -/
theorem on_operations_of_rests (distinct : table.names.Nodup) {names : List Value}
    (rests : ∀ name ∈ names, model.Rests table name) :
    (names.forM fun name => discard (model.operationPayloads name)).on table =
      (.ok (), table) := by
  induction names with
  | nil => rfl
  | cons own rest ih =>
    obtain ⟨first, others⟩ := List.forall_mem_cons.mp rests
    obtain ⟨told, answered, -⟩ := on_ask_of_rests distinct first
    obtain ⟨payloads, middle, resolved, made⟩ := Resolution.on_bind_ok_iff.mp answered
    cases made
    exact Resolution.on_bind_ok_iff.mpr
      ⟨(), table, Resolution.on_discard_ok_iff.mpr ⟨payloads, resolved⟩, ih others⟩

/-- A table in which all operations rest is told as it is when all definitions are asked for. -/
theorem on_ask_all_of_rests (distinct : table.names.Nodup) {names : List Value}
    (listed : model.operationNames = .ok names) (rests : ∀ name ∈ names, model.Rests table name) :
    (model.ask .all).on table = (.ok (.definitions table.definitions), table) := by
  refine Resolution.on_bind_ok_iff.mpr ⟨table.definitions, table, ?_, rfl⟩
  refine Resolution.on_ofExcept_bind_ok_iff.mpr ⟨names, listed, ?_⟩
  exact Resolution.on_bind_ok_iff.mpr ⟨(), table, on_operations_of_rests distinct rests, rfl⟩

/-- When all definitions have been collected, whatever has been asked before and whether or not it
has failed, the table is settled. All further queries about operations of the model and about all
of them are answered as the table tells, which stays as it is; so they all collect the same
definitions again. -/
theorem askAll_fixedPoint (kept : model.KeepsTypes) (serves : model.Serves table)
    {names : List Value} (listed : model.operationNames = .ok names)
    (run : (model.ask .all).on table = (.ok finding, after)) (queries : List Query)
    (known : ∀ name, .operation name ∈ queries → name ∈ names) :
    (model.askAll after queries).2 = after ∧
      List.Forall₂ (fun query answer => ∃ told, answer = .ok told ∧ model.Tells after query told)
        queries (model.askAll after queries).1 ∧
      finding = .definitions after.definitions := by
  have served : model.Serves after := serves.onward ⟨[.all], by simp [askAll, run]⟩
  have distinct := served.nodup
  obtain ⟨definitions, last, collected, made⟩ := Resolution.on_bind_ok_iff.mp run
  cases made
  obtain ⟨-, told⟩ := walk_of_definitions collected
  have rests : ∀ name ∈ names, model.Rests after name := by
    obtain ⟨_, listed', onward⟩ := Resolution.on_ofExcept_bind_ok_iff.mp collected
    cases listed.symm.trans listed'
    obtain ⟨⟨⟩, _, operations, made⟩ := Resolution.on_bind_ok_iff.mp onward
    cases made
    exact rests_of_operations kept operations served.sound
  rw [and_iff_left (congrArg _ told)]
  induction queries with
  | nil => exact ⟨rfl, .nil⟩
  | cons query rest ih =>
    -- Every query leaves the table as it is, so the next one finds it settled.
    obtain ⟨told, answered, tells⟩ : ∃ told, (model.ask query).on after = (.ok told, after) ∧
        model.Tells after query told := by
      cases query with
      | operation name => exact on_ask_of_rests distinct (rests name (known name (by simp)))
      | all => exact ⟨_, on_ask_all_of_rests distinct listed rests, .all⟩
    obtain ⟨same, others⟩ := ih fun name here => known name (List.mem_cons_of_mem _ here)
    simp only [askAll, answered]
    exact ⟨same, .cons ⟨told, rfl, tells⟩ others⟩

/-- Parcels that are sent, tracked and insured. What is sent needs an address, which the reference
to the parcel says and not its shape, and insurance is for a price that is described nowhere. -/
def parcels : Model where
  metadata := .object []
  operations := some (.object [
    ("Send", .object [
      ("input", .object [("shape", .text "Parcel"), ("required", .list [.text "Address"])]),
      ("output", .named "Codes")]),
    ("Track", .object [("input", .named "Codes"), ("output", .named "Parcel")]),
    ("Insure", .object [("input", .named "Claim")])])
  shapes := .object [
    ("Parcel", .object [("type", .text "structure"),
      ("members", .object [("Address", .named "Code")])]),
    ("Code", .object [("type", .text "string")]),
    ("Codes", .object [("type", .text "list"), ("member", .named "Code")]),
    ("Claim", .object [("type", .text "structure"), ("members", .object [
      ("Loss", .named "Loss")])]),
    ("Loss", .object [("type", .text "structure"), ("members", .object [
      ("Price", .named "Price")])])]

/-- The definitions of the parcels are collected the second time, when a claim and its loss have
been left without definitions. All that is asked after that is answered and changes nothing. -/
theorem askAll_parcels :
    ∃ table after queries answers,
      parcels.askAll .empty [.all] = ([.error (.unknownShape (.text "Price"))], table) ∧
      (parcels.ask .all).on table = (.ok (.definitions
        [.record ⟨"Parcel", .response, [⟨"Address", true, ⟨"String", "JD.string"⟩⟩]⟩]), after) ∧
      after.names = ["Parcel", "Claim", "Loss"] ∧ parcels.KeepsTypes ∧
      queries = [.operation (.text "Insure"), .all, .operation (.text "Send")] ∧
      parcels.askAll after queries = (answers, after) ∧
      List.Forall₂ (fun query answer => ∃ told, answer = .ok told ∧ parcels.Tells after query told)
        queries answers := by
  have kept : parcels.KeepsTypes := .of_listed (by decide) (by decide)
  obtain ⟨table, after, before, run, names⟩ : ∃ table after,
      parcels.askAll .empty [.all] = ([.error (.unknownShape (.text "Price"))], table) ∧
      (parcels.ask .all).on table = (.ok (.definitions
        [.record ⟨"Parcel", .response, [⟨"Address", true, ⟨"String", "JD.string"⟩⟩]⟩]), after) ∧
      after.names = ["Parcel", "Claim", "Loss"] := ⟨_, _, rfl, rfl, rfl⟩
  have listed : parcels.operationNames = .ok [.text "Send", .text "Track", .text "Insure"] := rfl
  have settled := askAll_fixedPoint kept ⟨_, congrArg Prod.snd before⟩ listed run
    [.operation (.text "Insure"), .all, .operation (.text "Send")] (by simp)
  cases asked : parcels.askAll after
      [.operation (.text "Insure"), .all, .operation (.text "Send")] with
  | mk answers last =>
    rw [asked] at settled
    obtain ⟨rfl, answered, -⟩ := settled
    exact ⟨table, last, _, answers, before, run, names, kept, rfl, asked, answered⟩

end Model

end ElmBindgen
