import ElmBindgen.Proofs.Elm.Arguments
import ElmBindgen.Proofs.Graph.Relisting
import ElmBindgen.Proofs.Resolution.Failure
import ElmBindgen.Proofs.Resolution.Fragments

/-!
# Members that are required

The resolution decides which members of a record have to be there, and what is wrapped for those
that may be missing; the rendering decides by which word a step begins. The two agree: a step has
as many arguments as its word asks for. Nothing else depends on the list of what is required, so
in another order, with repetitions or with more names on it, the list leads to the same results.

## Main results

* `Model.Outlines.fits`: the members of a record are those of its structure, and their steps fit
* `Model.Relists.askAll`: models with other lists that say the same answer alike
* `Model.members_required`: both, for whatever has been asked
-/

namespace ElmBindgen

open Elm (Category Member Record)
open Fault (Agree)

/-! ## Steps that run alike -/

namespace Resolution

variable {α β γ : Type}

/-- If results agree and related ones are followed by the same, the whole is the same. -/
theorem ofExcept_bind_congr {related : α → β → Prop} {result : Except Fault α}
    {result' : Except Fault β} {next : α → Resolution γ} {next' : β → Resolution γ}
    (agree : Agree related result result') (onward : ∀ a b, related a b → next a = next' b) :
    Resolution.ofExcept result >>= next = Resolution.ofExcept result' >>= next' := by
  cases agree with
  | error fault => rfl
  | ok relation => exact onward _ _ relation

theorem mapM_congr {related : α → β → Prop} {xs : List α} {ys : List β}
    {each : α → Resolution γ} {each' : β → Resolution γ} (all : List.Forall₂ related xs ys)
    (onward : ∀ x y, related x y → each x = each' y) : xs.mapM each = ys.mapM each' := by
  induction all with
  | nil => rfl
  | cons relation _ ih => rw [List.mapM_cons, List.mapM_cons, onward _ _ relation, ih]

end Resolution

namespace Model

variable {model other : Model}

/-! ## Other lists -/

namespace ChainTwins

variable {chain chain' : Chain}

/-- Twins of chains have the same fragment. -/
theorem fragment (relists : model.Relists other) (twins : model.ChainTwins other chain chain') :
    chain'.fragment = chain.fragment := by
  obtain ⟨links, leaf⟩ := chain
  obtain ⟨links', leaf'⟩ := chain'
  obtain ⟨rfl, leaves⟩ : links' = links ∧ _ := twins
  cases leaves with
  | named twins => simp only [Chain.fragment, Leaf.fragment, (twins.matches relists).name]
  | plain => rfl

/-- What is reached for them is the same if it is for twins. -/
theorem visit {reach reach' : ShapeUse → Category → Resolution Unit}
    (below : ∀ use twin, model.Twins other use twin → ∀ category,
      reach use category = reach' twin category)
    (twins : model.ChainTwins other chain chain') :
    chain.leaf.visit reach = chain'.leaf.visit reach' := by
  obtain ⟨links, leaf⟩ := chain
  obtain ⟨links', leaf'⟩ := chain'
  obtain ⟨-, leaves⟩ : links' = links ∧ _ := twins
  cases leaves with
  | named twins => exact below _ _ twins .other
  | plain => rfl

end ChainTwins

namespace Relists

variable {use twin : ShapeUse} (relists : model.Relists other)
include relists

/-- If reaching twins is the same, so is the making of a record of them. -/
theorem record {reach reach' : ShapeUse → Category → Resolution Unit}
    (below : ∀ use twin, model.Twins other use twin → ∀ category,
      reach use category = reach' twin category)
    (twins : model.Twins other use twin) (category : Category) :
    model.record reach model.chainBound use category =
      other.record reach' other.chainBound twin category := by
  have matching := twins.matches relists
  refine Resolution.ofExcept_bind_congr (matching.requiredKeys twins.uses) fun keys keys' same => ?_
  refine Resolution.ofExcept_bind_congr (relists.members twins).results ?_
  rintro entries entries' ⟨all, members, -⟩
  -- The lists tell the same of every key that has an entry.
  have known : ∀ entry ∈ entries, (Key.text entry.1 ∈ keys' ↔ Key.text entry.1 ∈ keys) := by
    intro entry listed
    refine same entry.1 ?_
    rw [← ShapeUse.map_fst_members members]
    exact List.mem_map_of_mem listed
  have resolved : entries.mapM (model.member reach model.chainBound keys) =
      entries'.mapM (other.member reach' other.chainBound keys') := by
    refine Resolution.mapM_congr ((List.forall₂_and_left _ _).mpr ⟨known, all⟩) ?_
    rintro ⟨key, part⟩ ⟨key', part'⟩ ⟨told, same, twins⟩
    obtain rfl : key' = key := same
    rw [member_eq, member_eq]
    refine Resolution.ofExcept_bind_congr (relists.chain_chainBound twins) fun _ _ twins => ?_
    simp only [twins.visit below, Chain.member, twins.fragment relists, told]
  rw [resolved, matching.name]

/-- Reaching twins is the same. -/
theorem reach (twins : model.Twins other use twin) (depth : Nat) (category : Category) :
    model.reach model.chainBound depth use category =
      other.reach other.chainBound depth twin category := by
  induction depth generalizing use twin category with
  | zero => rfl
  | succ depth ih =>
    have matching := twins.matches relists
    have record := relists.record (fun _ _ twins category => ih twins category) twins category
    rw [Model.reach, Model.reach, matching.name, matching.handler, matching.union, record]

theorem shapeCount : model.shapeCount = other.shapeCount := by
  obtain ⟨shapes, shapes', own, own', all⟩ := relists.shapes
  rw [Model.shapeCount, Model.shapeCount, own, own']
  exact all.length_eq

/-- An operation takes and returns twins. -/
theorem payloadOf (name : Value) {key : String} (side : key = "input" ∨ key = "output") :
    Agree (Option.Rel (model.Twins other)) (model.payloadOf name key)
      (other.payloadOf name key) := by
  have operation : other.operation name = model.operation name := by
    rw [Model.operation, Model.operation, relists.operations]
  rw [Model.payloadOf, Model.payloadOf, operation]
  refine (Agree.eq (model.operation name)).results.bind ?_
  rintro operation _ ⟨rfl, found, -⟩
  rw [Model.payload, Model.payload]
  cases here : operation.get? key with
  | none => exact .ok .none
  | some reference =>
    exact (relists.twins (.payload found side here)).map fun _ _ twins => .some twins

theorem resolvePayload {payload payload' : Option ShapeUse}
    (twins : Option.Rel (model.Twins other) payload payload') (category : Category) :
    model.resolvePayload payload category = other.resolvePayload payload' category := by
  cases twins with
  | none => rfl
  | some twins =>
    have matching := twins.matches relists
    rw [Model.resolvePayload, Model.resolvePayload, Model.resolve, Model.resolve,
      relists.shapeCount, relists.reach twins, matching.name]

theorem operationPayloads : model.operationPayloads = other.operationPayloads := by
  funext name
  have entered : model.enterInput name = other.enterInput name :=
    Resolution.ofExcept_bind_congr (relists.payloadOf name (.inl rfl)) fun _ _ twins =>
      relists.resolvePayload twins .request
  rw [operationPayloads_eq, operationPayloads_eq, entered]
  refine congrArg (other.enterInput name >>= ·) (funext fun input => ?_)
  refine Resolution.ofExcept_bind_congr (relists.payloadOf name (.inr rfl)) fun _ _ twins => ?_
  rw [relists.resolvePayload twins]

/-- Models with other lists of what is required, which say the same of all members, answer all
queries alike. -/
theorem askAll (table : SlotTable) (queries : List Query) :
    model.askAll table queries = other.askAll table queries := by
  have answers (query : Query) : model.ask query = other.ask query := by
    cases query with
    | operation name => rw [Model.ask, Model.ask, relists.operationPayloads]
    | all =>
      rw [Model.ask, Model.ask, Model.definitions, Model.definitions, relists.operationPayloads,
        Model.operationNames, Model.operationNames, relists.operations]
  induction queries generalizing table with
  | nil => rfl
  | cons query rest ih => simp only [Model.askAll, answers, ih]

end Relists

/-! ## Steps of members -/

/-- A member that is made from a chain has a step that fits. -/
theorem stepFits_of_chain {bound : Nat} {use : ShapeUse} {chain : Chain} (worded : model.Worded)
    (uses : model.Uses use) (found : model.chain bound use = .ok chain) (required : List Key)
    (key : String) : (chain.member required key).StepFits := by
  obtain ⟨nesting, nests, built⟩ := nests_of_chain found
  refine Member.stepFits (nests.isAtom worded uses).2 nests.plain ?_
  rw [Chain.member]
  split
  · exact built
  · exact congrArg Elm.Fragment.optional built

/-- The members of a record in an outline are those of its structure, in their order. Each has to
be there if the structure says so, and its step fits. -/
theorem Outlines.fits {use : ShapeUse} {category : Category} {record : Record}
    {targets : List ShapeUse} (outline : model.Outlines use category record targets)
    (worded : model.Worded) (uses : model.Uses use) :
    ∃ items, use.required.elements = .ok items ∧
      record.members.map (·.key) = use.memberNames ∧
      ∀ member ∈ record.members, (member.required ↔ .text member.key ∈ items) ∧
        member.StepFits := by
  obtain ⟨keys, entries, chains, required, members, found, rfl, -⟩ := outline
  -- The list is read once, for its keys; a text has its key on it if it is on the list itself.
  obtain ⟨items, listed, read⟩ := Fault.bind_ok_iff.mp required
  have used : ∀ entry ∈ entries, model.Uses entry.2 := fun _ => uses.of_members members
  rw [← ShapeUse.map_fst_members members]
  refine ⟨items, listed, ?_⟩
  clear members
  induction found with
  | nil => exact ⟨rfl, by simp⟩
  | @cons entry chain _ _ followed _ ih =>
    obtain ⟨own, others⟩ := List.forall_mem_cons.mp used
    obtain ⟨names, rest⟩ := ih others
    have key : (chain.member keys entry.1).key = entry.1 := by
      rw [Chain.member]
      split <;> rfl
    have told : (chain.member keys entry.1).required ↔ .text entry.1 ∈ items := by
      rw [← Value.text_mem_keys read, Chain.member]
      split <;> simp_all
    refine ⟨congrArg₂ List.cons key names, List.forall_mem_cons.mpr ⟨⟨?_, ?_⟩, rest⟩⟩
    · rwa [key]
    · exact stepFits_of_chain worded own followed keys entry.1

/-- Resolution and rendering agree on what is required. Whatever has been asked, the members of a
record are those of a structure of the model, in their order; each of them has to be there if and
only if its name is on the structure's list, and its step has the arguments that its word asks for.
A list in another order, with repetitions or with more names on it that are no members changes no
answer and no table. -/
theorem members_required (worded : model.Worded) :
    (∀ table name record, model.Serves table → (name, .record record) ∈ table.filled →
      ∃ use items, model.Uses use ∧ use.name = name ∧ use.required.elements = .ok items ∧
        record.members.map (·.key) = use.memberNames ∧
        ∀ member ∈ record.members, (member.required ↔ .text member.key ∈ items) ∧
          member.StepFits) ∧
      ∀ other, model.Relists other → ∀ table queries,
        model.askAll table queries = other.askAll table queries := by
  refine ⟨?_, fun other relists => relists.askAll⟩
  intro table name record serves made
  rw [SlotTable.mem_filled_iff serves.nodup] at made
  obtain ⟨use, uses, named, makes⟩ := serves.sound name _ made
  cases makes with
  | record handler outline =>
    obtain ⟨items, told⟩ := outline.fits worded uses
    exact ⟨use, items, uses, named, told⟩

/-- A ferry whose trips have some members that are required. -/
def ferry (required : List String) : Model where
  metadata := .object []
  operations := some (.object [("Sail", .object [("input", .named "Trip")])])
  shapes := .object [
    ("Trip", .object [("type", .text "structure"), ("required", .list (required.map .text)),
      ("members", .object [("Port", .named "Place"), ("Stops", .named "Places"),
        ("Fares", .named "Prices")])]),
    ("Place", .object [("type", .text "string")]),
    ("Places", .object [("type", .text "list"), ("member", .named "Place")]),
    ("Prices", .object [("type", .text "map"), ("value", .named "Price")]),
    ("Price", .object [("type", .text "double")])]

theorem required_ferry :
    ∃ table record, (ferry ["Port", "Stops"]).Worded ∧ (ferry ["Port", "Stops"]).Serves table ∧
      ("Trip", .record record) ∈ table.filled ∧
      record.members.map Member.decoderStep =
        ["JDP.required \"Port\" JD.string", "JDP.required \"Stops\" (JD.list JD.string)",
          "JDP.optional \"Fares\" (JD.nullable (JD.dict JD.float)) Nothing"] ∧
      (∀ member ∈ record.members, member.StepFits) ∧
      (ferry ["Port", "Stops"]).Relists (ferry ["Stops", "Crew", "Port", "Stops"]) ∧
      (ferry ["Port", "Stops"]).askAll .empty [.all] =
        (ferry ["Stops", "Crew", "Port", "Stops"]).askAll .empty [.all] := by
  have worded : (ferry ["Port", "Stops"]).Worded := .of_shapes rfl (by decide)
  have literal : (ferry ["Port", "Stops"]).Literal := .of_listed (by decide)
  have members : ∀ use, (ferry ["Port", "Stops"]).Uses use → use.name = "Trip" →
      use.memberNames = ["Port", "Stops", "Fares"] := by
    intro use uses named
    obtain ⟨bare, found, alike⟩ := literal.alike uses
    rw [named] at found
    cases found
    rw [ShapeUse.memberNames, alike.get? "members" (by decide)]
    rfl
  have relists :
      (ferry ["Port", "Stops"]).Relists (ferry ["Stops", "Crew", "Port", "Stops"]) := by
    refine ⟨rfl, rfl, _, _, rfl, rfl,
      .cons ⟨rfl, ?_⟩ (List.forall₂_same.mpr fun shape _ => ⟨rfl, .same _⟩)⟩
    refine .of_names (fun key other => ?_) rfl rfl (by decide) fun key here => ?_
    · simp only [List.lookup_cons, beq_false_of_ne other]
    · have known : ∀ key ∈ ["Stops", "Crew", "Port", "Stops"],
          key ∈ ["Port", "Stops"] ∨ key ∉ ["Port", "Stops", "Fares"] := by decide
      refine (known key here).imp_right fun absent use uses named => ?_
      rwa [members use uses named]
  obtain ⟨told, answers⟩ := members_required worded
  obtain ⟨table, serves⟩ : ∃ table,
      ((ferry ["Port", "Stops"]).askAll .empty [.operation (.text "Sail")]).2 = table := ⟨_, rfl⟩
  obtain ⟨record, made, steps⟩ : ∃ record, ("Trip", .record record) ∈ table.filled ∧
      record.members.map Member.decoderStep =
        ["JDP.required \"Port\" JD.string", "JDP.required \"Stops\" (JD.list JD.string)",
          "JDP.optional \"Fares\" (JD.nullable (JD.dict JD.float)) Nothing"] := by
    rw [← serves]
    exact ⟨_, List.mem_cons_self, rfl⟩
  obtain ⟨_, _, -, -, -, -, fits⟩ := told table "Trip" record ⟨_, serves⟩ made
  exact ⟨table, record, worded, ⟨_, serves⟩, made, steps,
    fun member listed => (fits member listed).2, relists, answers _ relists .empty [.all]⟩

end Model

end ElmBindgen
