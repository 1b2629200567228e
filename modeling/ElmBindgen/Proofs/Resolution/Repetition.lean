import ElmBindgen.Proofs.Resolution.Category
import ElmBindgen.Proofs.Resolution.Failure
import ElmBindgen.Proofs.Resolution.Stability

/-!
# Asking again

An operation is answered from the table, its input as soon as it has been reached and its output
after that. So the answer about the input can be out of date when the output has been reached as
well: the output may be the same shape, or lead to it. Asked again, the operation is answered from
the table as it is, which it leaves alone.

## Main definitions

* `SlotTable.payload`: what a table tells about what an operation takes or returns
* `Model.Unfailed`: tables that queries leave behind none of which failed
* `Model.Overtakes`: the output of an operation changes the category of its input

## Main results

* `Model.resolvePayload_again`: what has a slot is answered from the table alone
* `SlotTable.Extends.payload`: how an answer gets out of date
* `Model.ask_operation_again`: how the answer about an operation agrees with the table
-/

namespace ElmBindgen

open Elm (Category Definition Payload Record)

/-! ## Answers and tables -/

namespace SlotTable

/-- What a table tells about what an operation takes or returns. -/
def payload (table : SlotTable) : Option ShapeUse → Payload
  | none => .nothing none
  | some use =>
    match table.definition? use.name with
    | some definition => .defined definition
    | none => .nothing (some (Elm.typeName use.name))

variable {table later : SlotTable} {name : String}

theorem definition?_eq_some_iff {definition : Definition} :
    table.definition? name = some definition ↔ table.find? name = some (.filled definition) := by
  rw [definition?, Option.bind_eq_some_iff]
  constructor
  · rintro ⟨slot, found, held⟩
    cases slot with
    | reserved => cases held
    | filled own =>
      cases held
      exact found
  · exact fun found => ⟨_, found, rfl⟩

/-- Reaching a name changes nothing unless its slot holds a request. -/
theorem promote_eq_self (distinct : table.names.Nodup) (settled : ¬table.IsRequest name)
    (category : Category) : table.promote name category = table := by
  obtain ⟨slots⟩ := table
  rw [promote, modify, mk.injEq]
  refine (List.map_congr_left fun entry here => ?_).trans (List.map_id slots)
  split
  · next same =>
    obtain ⟨key, slot⟩ := entry
    subst same
    have found := (find?_eq_some_iff distinct).mpr here
    rcases slot with _ | union | record
    · rfl
    · rfl
    · have other : record.category ≠ .request := fun request => settled ⟨record, found, request⟩
      simp [Slot.promote, Definition.promote, other]
  · rfl

/-- The answer about a shape gets out of date in one of two ways: its record was a request and is
none any more, or it had no slot and got one. -/
theorem Extends.payload (grows : table.Extends later) (use : ShapeUse) :
    later.payload (some use) = table.payload (some use) ∨
      (∃ record category, table.find? use.name = some (.filled (.record record)) ∧
        record.category = .request ∧ category ≠ .request ∧
        later.payload (some use) = .defined (.record { record with category := category })) ∨
      use.name ∉ table.names := by
  cases found : table.find? use.name with
  | none => exact .inr (.inr ((table.find?_eq_none_iff _).mp found))
  | some slot =>
    cases slot with
    | reserved =>
      left
      simp only [SlotTable.payload, definition?, found, grows.reserved found]
    | filled old =>
      obtain ⟨now, here, becomes⟩ := grows.slot use.name _ found
      obtain ⟨new, rfl, same | ⟨record, category, rfl, request, other, rfl⟩⟩ := becomes.filled
      · left
        simp only [SlotTable.payload, definition?, found, here, same]
      · right; left
        refine ⟨record, category, rfl, request, other, ?_⟩
        simp only [SlotTable.payload, definition?, here]
        rfl

end SlotTable

namespace Model

variable {model : Model} {table middle after : SlotTable} {name : Value} {category : Category}

/-! ## Payloads -/

section Payloads

variable {use : Option ShapeUse} {payload : Payload}

/-- The shape of a payload is reached, if there is one. -/
def enter (model : Model) (use : Option ShapeUse) (category : Category) : Resolution Unit :=
  match use with
  | none => pure ()
  | some own => model.resolve own category

/-- A payload is answered from the table that reaching its shape leaves behind. -/
theorem resolvePayload_eq (model : Model) (use : Option ShapeUse) (category : Category) :
    model.resolvePayload use category = model.enter use category >>= fun _ =>
      Resolution.table >>= fun slots => pure (slots.payload use) := by
  cases use with
  | none => rfl
  | some own =>
    rw [resolvePayload, enter]
    congr 1
    funext _
    congr 1
    funext slots
    rw [SlotTable.payload]
    cases slots.definition? own.name <;> rfl

theorem resolvePayload_ok_iff :
    (model.resolvePayload use category).on table = (.ok payload, after) ↔
      (model.enter use category).on table = (.ok (), after) ∧ payload = after.payload use := by
  rw [resolvePayload_eq, Resolution.on_bind_ok_iff]
  constructor
  · rintro ⟨⟨⟩, last, entered, made⟩
    cases made
    exact ⟨entered, rfl⟩
  · rintro ⟨entered, rfl⟩
    exact ⟨(), after, entered, rfl⟩

/-- An answer about a payload leaves its shape behind as one that has been reached. -/
theorem reached_of_resolvePayload
    (run : (model.resolvePayload use category).on table = (.ok payload, after)) :
    table.Extends after ∧ after.Passes use := by
  have grows := model.resolvePayload_extends use category table
  have passes := model.resolvePayload_passes use category table
  rw [run] at grows passes
  exact ⟨grows, passes⟩

/-- What an earlier table tells about a shape that has been reached agrees with a later one, or
its record was a request and is none any more, or it gives its slot up and another use of the
name has got a definition. -/
theorem payload_of_grows (passes : middle.Passes use) (grows : middle.Extends after) :
    middle.payload use = after.payload use ∨
      (∃ record category, middle.payload use = .defined (.record record) ∧
        record.category = .request ∧ category ≠ .request ∧
        after.payload use = .defined (.record { record with category := category })) ∨
      ∃ own definition, use = some own ∧ own.handler = .giveUp ∧
        middle.payload use = .nothing (some (Elm.typeName own.name)) ∧
        after.payload use = .defined definition := by
  cases use with
  | none => exact .inl rfl
  | some own =>
    rcases grows.payload own with same | ⟨record, category, found, request, differs, changed⟩ |
      fresh
    · exact .inl same.symm
    · have held : middle.definition? own.name = some (.record record) :=
        SlotTable.definition?_eq_some_iff.mpr found
      refine .inr (.inl ⟨record, category, ?_, request, differs, changed⟩)
      simp only [SlotTable.payload, held]
    · have giveUp := (passes own rfl).resolve_left fresh
      have nothing : middle.payload (some own) = .nothing (some (Elm.typeName own.name)) := by
        rw [← SlotTable.find?_eq_none_iff] at fresh
        simp only [SlotTable.payload, SlotTable.definition?, fresh]
        rfl
      cases here : after.definition? own.name with
      | none =>
        left
        rw [nothing]
        simp only [SlotTable.payload, here]
      | some definition =>
        refine .inr (.inr ⟨own, definition, rfl, giveUp, nothing, ?_⟩)
        simp only [SlotTable.payload, here]

/-- What has a slot, or takes none, is answered from the table alone, unless it is a request that
is reached in another category. -/
theorem resolvePayload_again (model : Model) (distinct : table.names.Nodup)
    (passes : table.Passes use)
    (settled : category = .request ∨ ∀ own ∈ use, ¬table.IsRequest own.name) :
    (model.resolvePayload use category).on table = (.ok (table.payload use), table) := by
  refine resolvePayload_ok_iff.mpr ⟨?_, rfl⟩
  cases use with
  | none => rfl
  | some own =>
    have same : table.promote own.name category = table := by
      rcases settled with rfl | settled
      · exact table.promote_request own.name
      · exact SlotTable.promote_eq_self distinct (settled own rfl) category
    by_cases known : own.name ∈ table.names
    · exact (reach_known known).trans (by rw [same])
    · exact reach_giveUp known ((passes own rfl).resolve_left known)

/-- What is reached as an output is no request afterwards. -/
theorem not_isRequest_of_enter (entered : (model.enter use .response).on table = (.ok (), after)) :
    ∀ own ∈ use, ¬after.IsRequest own.name := by
  rintro own rfl request
  have walk : model.Walk table [(own, .response)] after := walk_of_reach entered
  cases walk with
  | known slot onward =>
    cases onward
    exact nomatch ((SlotTable.isRequest_promote _).mp request).2 rfl
  | record fresh handler outline below onward =>
    cases onward
    rw [SlotTable.isRequest_fill (below.grows.mem_names (by simp))] at request
    obtain ⟨_, ⟨⟩, request⟩ := request
    exact nomatch outline.category_eq.symm.trans request
  | union fresh _ _ onward =>
    cases onward
    rw [SlotTable.isRequest_fill (by simp)] at request
    obtain ⟨_, ⟨⟩, _⟩ := request
  | keep fresh _ onward =>
    cases onward
    exact fresh (SlotTable.isRequest_reserve.mp request).mem_names
  | giveUp fresh _ onward =>
    cases onward
    exact fresh request.mem_names

end Payloads

/-! ## Tables without failures -/

/-- A table that queries leave behind none of which failed. -/
def Unfailed (model : Model) (table : SlotTable) : Prop :=
  ∃ queries, (model.askAll .empty queries).2 = table ∧
    ∀ answer ∈ (model.askAll .empty queries).1, ∃ finding, answer = .ok finding

/-- A query that is answered is a walk through what operations refer to. -/
theorem walk_of_ask {query : Query} {finding : Finding}
    (run : (model.ask query).on table = (.ok finding, after)) :
    ∃ agenda, model.Used agenda ∧ model.Walk table agenda after := by
  cases query with
  | operation name =>
    obtain ⟨payloads, last, answered, made⟩ := Resolution.on_bind_ok_iff.mp run
    cases made
    obtain ⟨references, resolved, walk⟩ := walk_of_operationPayloads answered
    exact ⟨payloadsOf references, used_payloadsOf resolved, walk⟩
  | all =>
    obtain ⟨definitions, last, collected, made⟩ := Resolution.on_bind_ok_iff.mp run
    cases made
    exact ⟨model.payloads, used_payloads, (walk_of_definitions collected).1⟩

/-- Queries that are all answered are a walk. -/
theorem walk_of_askAll {queries : List Query}
    (answered : ∀ answer ∈ (model.askAll table queries).1, ∃ finding, answer = .ok finding) :
    ∃ agenda, model.Used agenda ∧ model.Walk table agenda (model.askAll table queries).2 := by
  induction queries generalizing table with
  | nil => exact ⟨[], fun _ => nofun, .done table⟩
  | cons query rest ih =>
    obtain ⟨⟨finding, same⟩, others⟩ := List.forall_mem_cons.mp answered
    obtain ⟨first, used, before⟩ := walk_of_ask (Prod.ext same rfl)
    obtain ⟨second, used', onward⟩ := ih others
    exact ⟨first ++ second, used.append used', before.append onward⟩

/-- What queries without failures leave behind is what a walk from the start does. -/
theorem Unfailed.walk (unfailed : model.Unfailed table) :
    ∃ agenda, model.Used agenda ∧ model.Walk .empty agenda table := by
  obtain ⟨queries, rfl, answered⟩ := unfailed
  exact walk_of_askAll answered

/-! ## Answers out of date -/

/-- The output of an operation changes the category of its input: so far the input has been
reached as an input alone, if at all, and the output is the same structure or leads to it through
one that has not been reached before and is not reached from the input either. -/
structure Overtakes (model : Model) (table : SlotTable) (own other : ShapeUse) : Prop where
  record : own.handler = .record
  request : own.name ∈ table.names → table.IsRequest own.name
  reached : other.name = own.name ∨ ∃ shape, Relation.ReflTransGen model.Edge other.name shape ∧
    model.Edge shape own.name ∧ shape ∉ table.names ∧
      ¬Relation.ReflTransGen model.Edge own.name shape

section Literal

variable {agenda : List (ShapeUse × Category)} {own other : ShapeUse}

/-- In a literal model the answer about a shape gets out of date only when its record is no
request any more. -/
theorem Literal.payload_eq_iff (literal : model.Literal) (uses : model.Uses own)
    (passes : middle.Passes (some own)) (grows : middle.Extends after)
    (settled : ∀ name ∈ after.names, model.Settled after name) :
    middle.payload (some own) = after.payload (some own) ↔
      (middle.IsRequest own.name → after.IsRequest own.name) := by
  constructor
  · rintro same ⟨record, found, request⟩
    have held : middle.definition? own.name = some (.record record) :=
      SlotTable.definition?_eq_some_iff.mpr found
    simp only [SlotTable.payload, held] at same
    split at same
    · next definition here =>
      cases same
      exact ⟨record, SlotTable.definition?_eq_some_iff.mp here, request⟩
    · cases same
  · intro stays
    rcases grows.payload own with
      same | ⟨record, category, found, request, differs, changed⟩ | fresh
    · exact same.symm
    · obtain ⟨now, here, still⟩ := stays ⟨record, found, request⟩
      have held : after.definition? own.name = some (.record now) :=
        SlotTable.definition?_eq_some_iff.mpr here
      simp only [SlotTable.payload, held] at changed
      cases changed
      exact absurd still differs
    · -- A shape without a slot gives its slots up, and so do all uses of it.
      have giveUp := (passes own rfl).resolve_left fresh
      have absent : own.name ∉ after.names := by
        intro known
        obtain ⟨use, uses', named, handled⟩ := (settled _ known).exists_use
        rw [literal.handler_eq uses' uses named] at handled
        exact handled giveUp
      rw [← SlotTable.find?_eq_none_iff] at fresh absent
      simp only [SlotTable.payload, SlotTable.definition?, fresh, absent]

/-- The input of an operation is a request when it has been reached if it is a structure that was
one before or had not been reached. -/
theorem Literal.isRequest_input_iff (literal : model.Literal)
    (earlier : model.Walk .empty agenda table) (used : model.Used (agenda ++ [(own, .request)]))
    (entering : model.Walk table [(own, .request)] middle) :
    middle.IsRequest own.name ↔
      own.handler = .record ∧ (own.name ∈ table.names → table.IsRequest own.name) := by
  by_cases handler : own.handler = .record
  · rw [and_iff_right handler]
    by_cases known : own.name ∈ table.names
    · cases entering with
      | known _ onward =>
        cases onward
        rw [table.promote_request]
        simp [known]
      | record fresh => exact absurd known fresh
      | union fresh => exact absurd known fresh
      | keep fresh => exact absurd known fresh
      | giveUp fresh => exact absurd known fresh
    · rw [entering.isRequest_entered known handler]
      simp [known]
  · refine iff_of_false (fun request => ?_) fun both => handler both.1
    obtain ⟨record, found, -⟩ := request
    have settled := (earlier.append entering).settled_of_empty used
      (SlotTable.mem_names_of_find? found)
    obtain ⟨use, _, _, uses, named, owned, -⟩ := settled.of_record found
    rw [literal.handler_eq uses used.right.head named] at owned
    exact handler owned

/-- The output of an operation takes the category of a request from its input if it is the same
shape or leads to it through a structure that has not been reached before. -/
theorem Literal.isRequest_output_iff (literal : model.Literal)
    (earlier : model.Walk .empty agenda table)
    (used : model.Used (agenda ++ [(own, .request)] ++ [(other, .response)]))
    (entering : model.Walk table [(own, .request)] middle)
    (leaving : model.Walk middle [(other, .response)] after)
    (handler : own.handler = .record) (request : middle.IsRequest own.name) :
    after.IsRequest own.name ↔
      ¬(other.name = own.name ∨ ∃ shape, Relation.ReflTransGen model.Edge other.name shape ∧
        model.Edge shape own.name ∧ shape ∉ table.names ∧
          ¬Relation.ReflTransGen model.Edge own.name shape) := by
  have root : own.isRoot := ShapeUse.isRoot_iff.mpr (.inl handler)
  have both := earlier.append entering
  have before {shape : String} (defined : model.defines shape) : shape ∈ middle.names ↔
      shape ∈ table.names ∨ Relation.ReflTransGen model.Edge own.name shape := by
    rw [earlier.mem_names_entered entering literal used.left defined, and_iff_right root]
  have onward {shape : String} (edge : model.Edge shape own.name) : shape ∈ after.names ↔
      shape ∈ middle.names ∨ Relation.ReflTransGen model.Edge other.name shape := by
    rw [both.mem_names_entered leaving literal used edge.defines]
    -- Only structures have edges, so a path to one starts at one.
    refine or_congr_right (and_iff_right_of_imp fun path => ?_)
    have entered : model.defines other.name := by
      rcases path.cases_head with same | ⟨_, first, -⟩
      · exact same ▸ edge.defines
      · exact first.defines
    rwa [literal.defines_eq used.right.head] at entered
  rw [leaving.isRequest_iff literal used.right request.mem_names]
  simp only [request, true_and, List.forall_mem_singleton, reduceCtorEq, imp_false, not_or,
    not_exists, not_and]
  refine and_congr_right fun _ => forall_congr' fun shape => ?_
  constructor
  · intro spares path edge fresh below
    refine spares ((onward edge).mpr (.inr path)) ?_ edge
    rw [before edge.defines]
    exact not_or.mpr ⟨fresh, below⟩
  · intro free here fresh edge
    have path := ((onward edge).mp here).resolve_left fresh
    rw [before edge.defines, not_or] at fresh
    exact free path edge fresh.1 fresh.2

/-- The output overtakes the input exactly if it takes the category of a request from it. -/
theorem Literal.overtakes_iff (literal : model.Literal)
    (earlier : model.Walk .empty agenda table)
    (used : model.Used (agenda ++ [(own, .request)] ++ [(other, .response)]))
    (entering : model.Walk table [(own, .request)] middle)
    (leaving : model.Walk middle [(other, .response)] after) :
    model.Overtakes table own other ↔
      middle.IsRequest own.name ∧ ¬after.IsRequest own.name := by
  have input := literal.isRequest_input_iff earlier used.left entering
  constructor
  · rintro ⟨handler, before, reached⟩
    have request := input.mpr ⟨handler, before⟩
    rw [literal.isRequest_output_iff earlier used entering leaving handler request]
    exact ⟨request, not_not.mpr reached⟩
  · rintro ⟨request, changed⟩
    obtain ⟨handler, before⟩ := input.mp request
    rw [literal.isRequest_output_iff earlier used entering leaving handler request,
      not_not] at changed
    exact ⟨handler, before, changed⟩

end Literal

/-! ## Operations -/

section Operations

variable {taken returned : Option ShapeUse} {input output : Payload}

/-- An operation is answered from two tables: the one in which its input has been reached, and
the one in which its output has been reached as well. -/
theorem ask_operation_ok_iff :
    (model.ask (.operation name)).on table = (.ok (.payloads input output), after) ↔
      ∃ taken returned middle, model.references name = .ok (taken, returned) ∧
        (model.resolvePayload taken .request).on table = (.ok input, middle) ∧
        (model.resolvePayload returned .response).on middle = (.ok output, after) := by
  rw [ask, Resolution.on_bind_ok_iff]
  constructor
  · rintro ⟨⟨first, second⟩, last, answered, made⟩
    cases made
    obtain ⟨⟨taken, returned⟩, middle, found⟩ := operationPayloads_ok_iff.mp answered
    exact ⟨taken, returned, middle, found⟩
  · rintro ⟨taken, returned, middle, found⟩
    exact ⟨(input, output), after,
      operationPayloads_ok_iff.mpr ⟨(taken, returned), middle, found⟩, rfl⟩

/-- In a literal model, if no query has failed before, the answer about the input is out of date
exactly if the output overtakes it. -/
theorem Literal.input_eq_iff (literal : model.Literal) (unfailed : model.Unfailed table)
    (resolved : model.references name = .ok (taken, returned))
    (first : (model.resolvePayload taken .request).on table = (.ok input, middle))
    (second : (model.resolvePayload returned .response).on middle = (.ok output, after)) :
    input = after.payload taken ↔
      ¬∃ own ∈ taken, ∃ other ∈ returned, model.Overtakes table own other := by
  obtain ⟨agenda, used, earlier⟩ := unfailed.walk
  obtain ⟨entered, rfl⟩ := resolvePayload_ok_iff.mp first
  obtain ⟨left, rfl⟩ := resolvePayload_ok_iff.mp second
  cases taken with
  | none => simp [SlotTable.payload]
  | some own =>
    cases returned with
    | none =>
      cases left
      simp
    | some other =>
      have entering : model.Walk table [(own, .request)] middle := walk_of_reach entered
      have leaving : model.Walk middle [(other, .response)] after := walk_of_reach left
      have used : model.Used (agenda ++ [(own, .request)] ++ [(other, .response)]) := by
        rw [List.append_assoc]
        exact used.append (used_payloadsOf resolved)
      obtain ⟨-, passes⟩ := reached_of_resolvePayload first
      have settled : ∀ name ∈ after.names, model.Settled after name := fun name =>
        ((earlier.append entering).append leaving).settled_of_empty used
      rw [literal.payload_eq_iff used.left.right.head passes leaving.grows settled]
      simp only [Option.mem_some_iff, exists_eq_left',
        literal.overtakes_iff earlier used entering leaving, not_and, not_not]

/-- How the answer about an operation agrees with the table that it leaves behind, whatever has
been asked before. The output is as in the table. Asked again, the operation is answered from the
table, which stays as it is. The input is as in the table as well, or it was a request and is
none any more, or it gives its slot up but the output has a definition under its name. In a
literal model, if no query has failed before, it differs exactly if the output overtakes it. -/
theorem ask_operation_again (serves : model.Serves table)
    (run : (model.ask (.operation name)).on table = (.ok (.payloads input output), after)) :
    ∃ taken returned, model.references name = .ok (taken, returned) ∧
      output = after.payload returned ∧
      (model.ask (.operation name)).on after =
        (.ok (.payloads (after.payload taken) (after.payload returned)), after) ∧
      (input = after.payload taken ∨
        (∃ record category, input = .defined (.record record) ∧ record.category = .request ∧
          category ≠ .request ∧
          after.payload taken = .defined (.record { record with category := category })) ∨
        ∃ own definition, taken = some own ∧ own.handler = .giveUp ∧
          input = .nothing (some (Elm.typeName own.name)) ∧
          after.payload taken = .defined definition) ∧
      (model.Literal → model.Unfailed table → (input = after.payload taken ↔
        ¬∃ own ∈ taken, ∃ other ∈ returned, model.Overtakes table own other)) := by
  obtain ⟨taken, returned, middle, resolved, first, second⟩ := ask_operation_ok_iff.mp run
  obtain ⟨-, passes⟩ := reached_of_resolvePayload first
  obtain ⟨grows, passes'⟩ := reached_of_resolvePayload second
  obtain ⟨-, told⟩ := resolvePayload_ok_iff.mp first
  obtain ⟨left, told'⟩ := resolvePayload_ok_iff.mp second
  refine ⟨taken, returned, resolved, told', ?_, ?_,
    fun literal unfailed => literal.input_eq_iff unfailed resolved first second⟩
  · -- Nothing that the operation refers to is reached in a way that the table does not know of.
    have onward : model.Leaves table after := ⟨[.operation name], by simp [askAll, run]⟩
    have distinct := (serves.onward onward).nodup
    have settled := not_isRequest_of_enter left
    exact ask_operation_ok_iff.mpr ⟨taken, returned, after, resolved,
      model.resolvePayload_again distinct (passes.grows grows) (.inl rfl),
      model.resolvePayload_again distinct passes' (.inr settled)⟩
  · rw [told]
    exact payload_of_grows passes grows

/-- Drawers that are renamed, which takes and returns a drawer, and moved, which returns a note
of the place that it takes. -/
def drawers : Model where
  metadata := .object []
  operations := some (.object [
    ("Rename", .object [("input", .named "Drawer"), ("output", .named "Drawer")]),
    ("Move", .object [("input", .named "Place"), ("output", .named "Note")])])
  shapes := .object [
    ("Drawer", .object [("type", .text "structure")]),
    ("Place", .object [("type", .text "structure")]),
    ("Note", .object [("type", .text "structure"),
      ("members", .object [("From", .named "Place")])])]

/-- When a drawer has been moved, the place was answered as a request although it is none any
more, since the note leads to it. -/
theorem ask_drawers :
    ∃ table after output own other, drawers.Literal ∧ drawers.Unfailed table ∧
      (drawers.ask (.operation (.text "Move"))).on table =
        (.ok (.payloads (.defined (.record ⟨"Place", .request, []⟩)) output), after) ∧
      (drawers.ask (.operation (.text "Move"))).on after =
        (.ok (.payloads (.defined (.record ⟨"Place", .other, []⟩)) output), after) ∧
      drawers.references (.text "Move") = .ok (some own, some other) ∧
      drawers.Overtakes table own other := by
  have literal : drawers.Literal := .of_listed (by decide)
  obtain ⟨table, same⟩ : ∃ table,
      (drawers.askAll .empty [.operation (.text "Rename")]).2 = table := ⟨_, rfl⟩
  have unfailed : drawers.Unfailed table :=
    ⟨_, same, fun answer listed => ⟨_, List.mem_singleton.mp listed⟩⟩
  obtain ⟨output, after, run, place⟩ : ∃ output after,
      (drawers.ask (.operation (.text "Move"))).on table =
        (.ok (.payloads (.defined (.record ⟨"Place", .request, []⟩)) output), after) ∧
      ∀ own : ShapeUse, own.name = "Place" →
        after.payload (some own) = .defined (.record ⟨"Place", .other, []⟩) := by
    rw [← same]
    refine ⟨_, _, rfl, fun own named => ?_⟩
    rw [SlotTable.payload, named]
    rfl
  obtain ⟨taken, returned, resolved, told, again, -, exact⟩ :=
    ask_operation_again ⟨_, same⟩ run
  obtain ⟨own, other, found, named⟩ : ∃ own other,
      drawers.references (.text "Move") = .ok (some own, some other) ∧ own.name = "Place" :=
    ⟨_, _, rfl, rfl⟩
  cases resolved.symm.trans found
  have changed := place own named
  rw [← told, changed] at again
  -- The two answers about the place differ, so the note overtakes it.
  obtain ⟨_, ⟨⟩, _, ⟨⟩, overtakes⟩ := not_not.mp ((exact literal unfailed).not.mp (by
    rw [changed]
    decide))
  exact ⟨table, after, output, own, other, literal, unfailed, run, again, found, overtakes⟩

end Operations

end Model

end ElmBindgen
