import ElmBindgen.Proofs.Graph.Listing
import ElmBindgen.Proofs.Resolution.Walk

/-!
# What failed operations leave behind

An operation that fails does not take back what it has done. A slot that was reserved when
a shape failed stays reserved for good, so that the same operation does not fail there
again. Only an operation whose references cannot be resolved may leave no trace.

## Main definitions

* `SlotTable.Passes`: what reaching again cannot fail on
* `Model.AnswersAlike`: two tables give the same answers to all sequences of queries
* `Model.enterInput`: the part of an operation before its output is looked at

## Main results

* `Model.resolvePayload_passes`: what was reached once does not fail again
* `Model.ask_operation_failed`: when a failed operation leaves no trace, and what it leaves
  otherwise
-/

namespace ElmBindgen

open Elm (Category Definition Payload)

/-! ## Requests that change nothing -/

/-- Reaching a name as a request changes nothing. -/
theorem SlotTable.promote_request (table : SlotTable) (name : String) :
    table.promote name .request = table := by
  have kept (slot : Slot) : slot.promote .request = slot := by
    rcases slot with _ | union | record
    · rfl
    · rfl
    · simp [Slot.promote, Definition.promote]
  obtain ⟨slots⟩ := table
  rw [SlotTable.promote, SlotTable.modify, SlotTable.mk.injEq]
  refine List.map_id'' (fun entry => ?_) slots
  split
  · next same => rw [kept, ← same]
  · rfl

/-- A use that reaching cannot fail on: it has a slot, or it takes none. -/
def SlotTable.Passes (table : SlotTable) (use : Option ShapeUse) : Prop :=
  ∀ own ∈ use, own.name ∈ table.names ∨ own.handler = .giveUp

theorem SlotTable.Passes.grows {table later : SlotTable} {use : Option ShapeUse}
    (passes : table.Passes use) (grows : table.Extends later) : later.Passes use :=
  fun own here => (passes own here).imp_left grows.mem_names

namespace Model

variable {model : Model} {table after : SlotTable} {category : Category} {fault : Fault}

/-! ## Shapes that fail -/

section Reaching

variable {bound depth : Nat} {use : ShapeUse}

/-- Reaching leaves a slot behind, unless the shape takes none. -/
theorem mem_names_of_reach (handled : use.handler ≠ .giveUp) :
    use.name ∈ ((model.reach bound (depth + 1) use category).on table).2.names := by
  by_cases known : use.name ∈ table.names
  · rw [reach_known known, SlotTable.names_promote]
    exact known
  cases handler : use.handler with
  | record =>
    rw [reach_record known handler, Resolution.on_bind]
    cases made : (model.record (model.reach bound depth) bound use category).on
        (table.reserve use.name) with
    | mk outcome middle =>
      have here := SlotTable.mem_names_of_find? (model.record_reserved outcome made known)
      cases outcome with
      | error fault => exact here
      | ok record =>
        change use.name ∈ (middle.fill use.name (.record record)).names
        rwa [SlotTable.names_fill]
  | union =>
    rw [reach_union known handler]
    cases use.union <;> simp
  | keep =>
    rw [reach_keep known handler]
    simp
  | giveUp => exact absurd handler handled

/-- A shape that fails had no slot before and has a reserved one afterwards. -/
theorem reserved_of_reach_error
    (failed : (model.reach bound (depth + 1) use category).on table = (.error fault, after)) :
    use.name ∉ table.names ∧ after.find? use.name = some .reserved := by
  by_cases known : use.name ∈ table.names
  · rw [reach_known known] at failed
    cases failed
  refine ⟨known, ?_⟩
  cases handler : use.handler with
  | record =>
    rw [reach_record known handler, Resolution.on_bind_error_iff] at failed
    rcases failed with made | ⟨_, _, _, filled⟩
    · exact model.record_reserved _ made known
    · cases filled
  | union =>
    rw [reach_union known handler] at failed
    cases made : use.union with
    | ok union =>
      rw [made] at failed
      cases failed
    | error own =>
      rw [made] at failed
      cases failed
      exact SlotTable.find?_reserve_self known
  | keep =>
    rw [reach_keep known handler] at failed
    cases failed
  | giveUp =>
    rw [reach_giveUp known handler] at failed
    cases failed

end Reaching

/-! ## Payloads -/

section Payloads

variable {use : Option ShapeUse}

/-- The answer about a payload is given without a fault and leaves the table alone. -/
theorem on_resolvePayload (model : Model) (own : ShapeUse) (category : Category)
    (table : SlotTable) :
    (∃ fault after, (model.resolve own category).on table = (.error fault, after) ∧
      (model.resolvePayload (some own) category).on table = (.error fault, after)) ∨
    ∃ payload after, (model.resolve own category).on table = (.ok (), after) ∧
      (model.resolvePayload (some own) category).on table = (.ok payload, after) := by
  rw [resolvePayload, Resolution.on_bind]
  rcases (model.resolve own category).on table with ⟨fault | ⟨⟩, after⟩
  · exact .inl ⟨fault, after, rfl, rfl⟩
  · right
    simp only [Resolution.on_table_bind]
    split <;> exact ⟨_, after, rfl, rfl⟩

/-- What passes is resolved, and as a request it leaves no trace. -/
theorem resolvePayload_of_passes (model : Model) (passes : table.Passes use)
    (category : Category) :
    ∃ payload after, (model.resolvePayload use category).on table = (.ok payload, after) ∧
      (category = .request → after = table) := by
  cases use with
  | none => exact ⟨_, table, rfl, fun _ => rfl⟩
  | some own =>
    -- With a slot the use is known already, and without one it takes none.
    have reached : (model.resolve own category).on table =
        (.ok (), if own.name ∈ table.names then table.promote own.name category else table) := by
      by_cases known : own.name ∈ table.names
      · rw [if_pos known]
        exact reach_known known
      · rw [if_neg known]
        exact reach_giveUp known ((passes own rfl).resolve_left known)
    rcases model.on_resolvePayload own category table with
      ⟨_, _, failed, _⟩ | ⟨payload, after, run, answered⟩
    · rw [reached] at failed
      cases failed
    · cases reached.symm.trans run
      refine ⟨payload, _, answered, ?_⟩
      rintro rfl
      split
      · exact table.promote_request own.name
      · rfl

/-- What was reached once passes from then on, whether or not it failed. -/
theorem resolvePayload_passes (model : Model) (use : Option ShapeUse) (category : Category)
    (table : SlotTable) :
    ((model.resolvePayload use category).on table).2.Passes use := by
  rintro own rfl
  by_cases handler : own.handler = .giveUp
  · exact .inr handler
  · have here : own.name ∈ ((model.resolve own category).on table).2.names :=
      mem_names_of_reach handler
    rcases model.on_resolvePayload own category table with
      ⟨_, _, reached, answered⟩ | ⟨_, _, reached, answered⟩
    all_goals
      rw [reached] at here
      rw [answered]
      exact .inl here

/-- A payload that fails leaves a reserved slot behind. -/
theorem resolvePayload_error
    (failed : (model.resolvePayload use category).on table = (.error fault, after)) :
    ∃ own, use = some own ∧ own.name ∉ table.names ∧
      after.find? own.name = some .reserved := by
  cases use with
  | none => cases failed
  | some own =>
    rcases model.on_resolvePayload own category table with
      ⟨_, _, reached, answered⟩ | ⟨_, _, _, answered⟩
    · cases answered.symm.trans failed
      exact ⟨own, rfl, reserved_of_reach_error reached⟩
    · cases answered.symm.trans failed

end Payloads

/-! ## Operations that fail -/

/-- The use under a key of an operation, if it has one. -/
def payloadOf (model : Model) (name : Value) (key : String) : Except Fault (Option ShapeUse) := do
  model.payload (← model.operation name) key

/-- The part of an operation before its output is looked at. -/
def enterInput (model : Model) (name : Value) : Resolution Payload := do
  model.resolvePayload (← Resolution.ofExcept (model.payloadOf name "input")) .request

/-- Two tables give the same answers to every sequence of queries. -/
def AnswersAlike (model : Model) (table later : SlotTable) : Prop :=
  ∀ queries, (model.askAll table queries).1 = (model.askAll later queries).1

section Operations

variable {name : Value}

/-- An operation enters its input, then finds and enters its output. -/
theorem operationPayloads_eq (name : Value) :
    model.operationPayloads name = model.enterInput name >>= fun input =>
      Resolution.ofExcept (model.payloadOf name "output") >>= fun output =>
        model.resolvePayload output .response >>= fun output => pure (input, output) := by
  rw [operationPayloads, enterInput, payloadOf, payloadOf]
  cases model.operation name with
  | error fault => rfl
  | ok operation =>
    rw [bind_assoc]
    rfl

theorem references_eq (name : Value) :
    model.references name = (do
      let input ← model.payloadOf name "input"
      let output ← model.payloadOf name "output"
      return (input, output)) := by
  rw [references, payloadOf, payloadOf]
  cases model.operation name <;> rfl

theorem on_enterInput {input : Option ShapeUse}
    (inputUse : model.payloadOf name "input" = .ok input) (table : SlotTable) :
    (model.enterInput name).on table = (model.resolvePayload input .request).on table := by
  rw [enterInput, inputUse, Resolution.on_ofExcept_bind]

/-- If nothing that an operation refers to can fail, the operation is answered. -/
theorem ask_operation_of_passes {input output : Option ShapeUse}
    (inputUse : model.payloadOf name "input" = .ok input)
    (outputUse : model.payloadOf name "output" = .ok output)
    (first : table.Passes input) (second : table.Passes output) :
    ∃ finding after, (model.ask (.operation name)).on table = (.ok finding, after) := by
  obtain ⟨taken, _, entered, same⟩ := model.resolvePayload_of_passes first .request
  obtain rfl := same rfl
  obtain ⟨returned, after, left, -⟩ :=
    model.resolvePayload_of_passes second .response
  refine ⟨.payloads taken returned, after, ?_⟩
  rw [ask, operationPayloads_eq, Resolution.on_bind_ok_iff]
  refine ⟨(taken, returned), after, ?_, rfl⟩
  refine Resolution.on_bind_ok_iff.mpr ⟨taken, _, (on_enterInput inputUse _).trans entered, ?_⟩
  refine Resolution.on_ofExcept_bind_ok_iff.mpr ⟨output, outputUse, ?_⟩
  exact Resolution.on_bind_ok_iff.mpr ⟨returned, after, left, rfl⟩

/-- An operation fails where its input, its references or its output do. -/
theorem ask_operation_error (failed : (model.ask (.operation name)).on table =
    (.error fault, after)) :
    model.references name = .error fault ∧ after = ((model.enterInput name).on table).2 ∨
      ∃ input, model.payloadOf name "input" = .ok input ∧
        ((model.resolvePayload input .request).on table = (.error fault, after) ∨
          ∃ output taken middle, model.payloadOf name "output" = .ok output ∧
            (model.resolvePayload input .request).on table = (.ok taken, middle) ∧
            (model.resolvePayload output .response).on middle = (.error fault, after)) := by
  rw [ask, operationPayloads_eq, Resolution.on_bind_error_iff] at failed
  rcases failed with failed | ⟨_, _, _, ⟨⟩⟩
  cases inputUse : model.payloadOf name "input" with
  | error own =>
    have entered : (model.enterInput name).on table = (.error own, table) := by
      rw [enterInput, inputUse, Resolution.on_ofExcept_bind]
    rw [Resolution.on_bind, entered] at failed
    cases failed
    left
    rw [references_eq, inputUse, entered]
    exact ⟨rfl, rfl⟩
  | ok input =>
    have entered := on_enterInput inputUse table
    rw [Resolution.on_bind_error_iff, entered] at failed
    rcases failed with failed | ⟨taken, middle, run, failed⟩
    · exact .inr ⟨input, rfl, .inl failed⟩
    cases outputUse : model.payloadOf name "output" with
    | error own =>
      rw [outputUse, Resolution.on_ofExcept_bind] at failed
      cases failed
      left
      rw [references_eq, inputUse, outputUse, entered, run]
      exact ⟨rfl, rfl⟩
    | ok output =>
      rw [outputUse, Resolution.on_ofExcept_bind, Resolution.on_bind_error_iff] at failed
      rcases failed with failed | ⟨_, _, _, ⟨⟩⟩
      exact .inr ⟨input, rfl, .inr ⟨output, taken, middle, rfl, run, failed⟩⟩

/-- The references of an operation are those under its two keys. -/
theorem payloadOf_of_references {input output : Option ShapeUse}
    (found : model.references name = .ok (input, output)) :
    model.payloadOf name "input" = .ok input ∧ model.payloadOf name "output" = .ok output := by
  rw [references_eq] at found
  obtain ⟨_, inputUse, found⟩ := Fault.bind_ok_iff.mp found
  obtain ⟨_, outputUse, made⟩ := Fault.bind_ok_iff.mp found
  cases made
  exact ⟨inputUse, outputUse⟩

/-- An operation with a reference that cannot be resolved leaves no trace if its input
passes. -/
theorem ask_operation_of_references {own : Fault} (broken : model.references name = .error own)
    (passes : ∀ input, model.payloadOf name "input" = .ok input → table.Passes input) :
    (model.ask (.operation name)).on table = (.error own, table) := by
  rw [ask, operationPayloads_eq, Resolution.on_bind_error_iff, Resolution.on_bind_error_iff]
  left
  rw [references_eq] at broken
  cases inputUse : model.payloadOf name "input" with
  | error first =>
    rw [inputUse] at broken
    cases broken
    left
    rw [enterInput, inputUse, Resolution.on_ofExcept_bind]
  | ok input =>
    obtain ⟨taken, _, entered, same⟩ :=
      model.resolvePayload_of_passes (passes input inputUse) .request
    obtain rfl := same rfl
    refine .inr ⟨taken, _, (on_enterInput inputUse _).trans entered, ?_⟩
    cases outputUse : model.payloadOf name "output" with
    | error second =>
      rw [inputUse, outputUse] at broken
      cases broken
      rw [Resolution.on_ofExcept_bind]
    | ok output =>
      rw [inputUse, outputUse] at broken
      cases broken

section Failed

variable (failed : (model.ask (.operation name)).on table = (.error fault, after))
include failed

/-- If the fault is one of the references, all that happened was that the input was
entered. -/
theorem eq_enterInput_of_failed (broken : model.references name = .error fault) :
    after = ((model.enterInput name).on table).2 := by
  obtain ⟨-, same⟩ | ⟨input, inputUse, run | ⟨output, _, _, outputUse, _⟩⟩ :=
    ask_operation_error failed
  · exact same
  · rw [on_enterInput inputUse, run]
  · rw [references_eq, inputUse, outputUse] at broken
    cases broken

/-- If the fault is none of the references, some shape that the operation refers to has a
reserved slot from then on, and had none before. -/
theorem reserved_of_failed (resolved : model.references name ≠ .error fault) :
    ∃ key use, model.payloadOf name key = .ok (some use) ∧ use.name ∉ table.names ∧
      after.find? use.name = some .reserved := by
  obtain ⟨broken, -⟩ | ⟨input, inputUse, run | ⟨output, _, middle, outputUse, entered, run⟩⟩ :=
    ask_operation_error failed
  · exact absurd broken resolved
  · obtain ⟨use, rfl, fresh, reserved⟩ := resolvePayload_error run
    exact ⟨"input", use, inputUse, fresh, reserved⟩
  · obtain ⟨use, rfl, fresh, reserved⟩ := resolvePayload_error run
    have grows := model.resolvePayload_extends input .request table
    rw [entered] at grows
    exact ⟨"output", use, outputUse, fun known => fresh (grows.mem_names known), reserved⟩

/-- The input of a failed operation passes from then on. -/
theorem passes_of_failed {input : Option ShapeUse}
    (inputUse : model.payloadOf name "input" = .ok input) : after.Passes input := by
  have entered := model.resolvePayload_passes input .request table
  obtain ⟨-, same⟩ | ⟨own, ownUse, run | ⟨output, _, middle, _, first, run⟩⟩ :=
    ask_operation_error failed
  · rwa [same, on_enterInput inputUse]
  · cases ownUse.symm.trans inputUse
    rwa [run] at entered
  · cases ownUse.symm.trans inputUse
    have grows := model.resolvePayload_extends output .response middle
    rw [first] at entered
    rw [run] at grows
    exact entered.grows grows

/-- An operation whose references can be resolved fails twice in a row at most: once for its
input and once for its output. -/
theorem retry_of_failed {uses : Option ShapeUse × Option ShapeUse}
    (resolved : model.references name = .ok uses) :
    ∃ finding, .ok finding ∈ (model.askAll after [.operation name, .operation name]).1 := by
  obtain ⟨input, output⟩ := uses
  obtain ⟨inputUse, outputUse⟩ := payloadOf_of_references resolved
  have first := passes_of_failed failed inputUse
  cases retry : (model.ask (.operation name)).on after with
  | mk outcome later =>
    cases outcome with
    | ok finding => exact ⟨finding, by simp [askAll, retry]⟩
    | error own =>
      -- The input passes, so it is the output that fails this time.
      have second : later.Passes output := by
        obtain ⟨broken, -⟩ | ⟨_, ownUse, run | ⟨_, _, middle, otherUse, _, run⟩⟩ :=
          ask_operation_error retry
        · rw [resolved] at broken
          cases broken
        · cases ownUse.symm.trans inputUse
          obtain ⟨_, _, answered, -⟩ := model.resolvePayload_of_passes first .request
          cases answered.symm.trans run
        · cases otherUse.symm.trans outputUse
          have passes := model.resolvePayload_passes output .response middle
          rwa [run] at passes
      have grows := model.ask_extends (.operation name) after
      rw [retry] at grows
      obtain ⟨finding, last, answered⟩ :=
        ask_operation_of_passes inputUse outputUse (first.grows grows) second
      exact ⟨finding, by simp [askAll, retry, answered]⟩

/-- If nobody notices a failed operation, its fault is one of the references. -/
theorem references_of_answersAlike (alike : model.AnswersAlike table after) :
    model.references name = .error fault := by
  -- The operation that failed once would have to fail in the same way ever after.
  have again : ((model.ask (.operation name)).on after).1 = .error fault := by
    have answers := alike [.operation name]
    simpa [askAll, failed, eq_comm] using answers
  cases found : model.references name with
  | error own =>
    by_contra differs
    have own_ne : own ≠ fault := fun same => differs (congrArg _ same)
    have passes (input) (inputUse : model.payloadOf name "input" = .ok input) :=
      passes_of_failed failed inputUse
    rw [ask_operation_of_references found passes] at again
    cases again
    exact own_ne rfl
  | ok uses =>
    -- But one of the next two times it is answered.
    obtain ⟨finding, answered⟩ := retry_of_failed failed found
    rw [← alike, askAll, failed] at answered
    simp [askAll, again] at answered

end Failed

/-- What a failed operation leaves behind. The table is as before exactly if the fault is one
of the operation's references and its input passes. Nobody notices the operation exactly if
the fault is one of its references and nobody notices that its input was entered. With any
other fault some shape that the operation refers to has a reserved slot for good, and asking
again twice is answered if all references can be resolved. -/
theorem ask_operation_failed (failed : (model.ask (.operation name)).on table =
    (.error fault, after)) :
    (after = table ↔ model.references name = .error fault ∧
      ∀ input, model.payloadOf name "input" = .ok input → table.Passes input) ∧
    (model.AnswersAlike table after ↔ model.references name = .error fault ∧
      model.AnswersAlike table ((model.enterInput name).on table).2) ∧
    (model.references name ≠ .error fault → ∃ key use,
      model.payloadOf name key = .ok (some use) ∧ use.name ∉ table.names ∧
        ∀ queries, (model.askAll after queries).2.find? use.name = some .reserved) ∧
    (∀ uses, model.references name = .ok uses → ∃ finding,
      .ok finding ∈ (model.askAll after [.operation name, .operation name]).1) := by
  refine ⟨⟨?_, ?_⟩, ⟨?_, ?_⟩, ?_, fun uses => retry_of_failed failed⟩
  · rintro rfl
    -- If the table is the same, no slot can have been reserved.
    refine ⟨?_, fun input => passes_of_failed failed⟩
    by_contra resolved
    obtain ⟨key, use, _, fresh, reserved⟩ := reserved_of_failed failed resolved
    exact fresh (SlotTable.mem_names_of_find? reserved)
  · rintro ⟨broken, passes⟩
    rw [ask_operation_of_references broken passes] at failed
    cases failed
    rfl
  · intro alike
    have broken := references_of_answersAlike failed alike
    rw [eq_enterInput_of_failed failed broken] at alike
    exact ⟨broken, alike⟩
  · rintro ⟨broken, alike⟩
    rwa [eq_enterInput_of_failed failed broken]
  · intro resolved
    obtain ⟨key, use, found, fresh, reserved⟩ := reserved_of_failed failed resolved
    exact ⟨key, use, found, fresh, fun queries =>
      (model.askAll_extends queries after).reserved reserved⟩

/-- A search whose filter is of a shape that is not there. -/
def search : Model where
  metadata := .object []
  operations := some (.object [("Get", .object [("input", .named "Query")])])
  shapes := .object [
    ("Query", .object [("type", .text "structure"),
      ("members", .object [("Filter", .named "Missing")])])]

/-- The second time the search does not fail, and its query is never among the definitions. -/
theorem search_failed :
    ∃ after, (search.ask (.operation (.text "Get"))).on .empty =
        (.error (.unknownShape (.text "Missing")), after) ∧
      after ≠ .empty ∧ ¬search.AnswersAlike .empty after ∧
      (∃ finding, .ok finding ∈
        (search.askAll after [.operation (.text "Get"), .operation (.text "Get")]).1) := by
  obtain ⟨after, failed⟩ : ∃ after, (search.ask (.operation (.text "Get"))).on .empty =
      (.error (.unknownShape (.text "Missing")), after) := ⟨_, rfl⟩
  obtain ⟨uses, resolved⟩ : ∃ uses, search.references (.text "Get") = .ok uses := ⟨_, rfl⟩
  obtain ⟨unchanged, alike, -, retry⟩ := ask_operation_failed failed
  refine ⟨after, failed, ?_, ?_, retry uses resolved⟩
  · rw [ne_eq, unchanged, resolved]
    simp
  · rw [alike, resolved]
    simp

end Operations

end Model

end ElmBindgen
