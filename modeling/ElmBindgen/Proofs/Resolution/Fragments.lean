import ElmBindgen.Proofs.Elm.Nesting
import ElmBindgen.Proofs.Resolution.Change
import ElmBindgen.Proofs.Resolution.References

/-!
# Fragments of members

The fragments of the members of a record can be read back: type and decoder read as the
same nesting of lists and maps, which is the one of the member's shape, with one more
wrapper around it exactly if the member may be missing.

## Main definitions

* `ShapeUse.leafFragment`: the fragment of a shape that is neither a list nor a map
* `Model.Nests`: the nesting of lists and maps that starts at a use
* `Elm.Member.ReadsAs`: the texts of a member are read as a nesting and in no other way
* `Model.Worded`: what is asked of the names of shapes
* `Model.Renders`: a member is made from an entry of a structure

## Main results

* `Model.nests_of_chain`: the fragment of a chain is built along the nesting of its use
* `Model.members_readAs`: all members of all records read as the nestings of their shapes
-/

namespace ElmBindgen

open Elm (Category Definition Fragment IsAtom Member Nesting ReadsStep ReadsType Record Wrapper)

/-- The fragment of a shape that is neither a list nor a map. -/
def ShapeUse.leafFragment (use : ShapeUse) : Fragment :=
  if use.isTarget then .named use.name
  else match use.type with
    | .text type => (Fragment.primitive? type).getD .untyped
    | _ => .untyped

theorem Elm.Fragment.IsBasic.isAtom {fragment : Fragment} (basic : fragment.IsBasic) :
    IsAtom fragment.type ∧ IsAtom fragment.decoder := by
  obtain ⟨type, decoder⟩ := basic.isWord
  refine ⟨⟨?_, type⟩, ?_, decoder⟩ <;>
  · obtain rfl | ⟨_, known⟩ := basic
    · decide
    · unfold Fragment.primitive? at known
      split at known <;> cases known <;> decide

/-- The texts of a member are read as a nesting, which is in a wrapper of its own unless the
member is required, and in no other way. -/
structure Elm.Member.ReadsAs (member : Member) (nesting : Nesting Fragment) : Prop where
  type : ∀ tree, ReadsType member.value.type tree ↔
    tree = (nesting.member member.required).map Fragment.type
  decoder : ∀ tree, ReadsStep member.value.decoder tree ↔
    tree = (nesting.member member.required).map Fragment.decoder

namespace Model

variable {model : Model}

/-! ## Nestings of shapes -/

/-- The nesting of lists and maps that starts at a use and ends at the first shape that is
neither. -/
inductive Nests (model : Model) : ShapeUse → Nesting Fragment → Prop
  | leaf {use} (list : use.type ≠ .text "list") (map : use.type ≠ .text "map") :
      Nests model use (.leaf use.leafFragment)
  | item {use next nesting} (list : use.type = .text "list") (found : use.item model = .ok next)
      (onward : Nests model next nesting) : Nests model use (.wrap .list nesting)
  | entryValue {use next nesting} (map : use.type = .text "map")
      (found : use.entryValue model = .ok next) (onward : Nests model next nesting) :
      Nests model use (.wrap .dict nesting)

/-- The leaf of a chain has the fragment of the use that it is made from. -/
theorem leafFragment_of_step {use : ShapeUse} {leaf : Leaf} (found : use.step = .ok (.leaf leaf)) :
    leaf.fragment = use.leafFragment := by
  unfold ShapeUse.step at found
  unfold ShapeUse.leafFragment ShapeUse.isTarget
  split at found
  · next type =>
    cases found
    simp [type, Leaf.fragment]
  · next type =>
    obtain ⟨values, enum, found⟩ := Fault.bind_ok_iff.mp found
    split at found <;>
    · next filled =>
      cases found
      simp [type, enum, filled, Leaf.fragment, Except.toOption]
  · cases found
  · cases found
  -- No other type makes a target, whether or not it is a text.
  · next type notStructure notString notList notMap =>
    cases found
    simp_all [Leaf.fragment]
  · next notText _ _ _ _ =>
    obtain ⟨_, _, found⟩ := Fault.bind_ok_iff.mp found
    cases found
    simp_all [Leaf.fragment]

/-- The fragment of a chain is built along the nesting of the use that it starts at. -/
theorem nests_of_chain {bound : Nat} {use : ShapeUse} {chain : Chain}
    (found : model.chain bound use = .ok chain) :
    ∃ nesting, model.Nests use nesting ∧ chain.fragment = nesting.fragment := by
  -- Each link of the chain is one wrapper of the nesting.
  induction bound generalizing use chain with
  | zero => cases found
  | succ bound ih =>
    obtain ⟨step, stepped, found⟩ := Fault.bind_ok_iff.mp found
    have told := use.step_ok stepped
    cases step with
    | leaf leaf =>
      cases found
      obtain ⟨list, map, -⟩ := told
      exact ⟨_, .leaf list map, leafFragment_of_step stepped⟩
    | link link =>
      obtain ⟨next, followed, found⟩ := Fault.bind_ok_iff.mp found
      obtain ⟨rest, onward, made⟩ := Fault.bind_ok_iff.mp found
      cases made
      obtain ⟨nesting, nests, built⟩ := ih onward
      cases link with
      | list => exact ⟨_, .item told followed nests, congrArg Fragment.list built⟩
      | map => exact ⟨_, .entryValue told followed nests, congrArg Fragment.dict built⟩

namespace Nests

variable {use : ShapeUse} {nesting : Nesting Fragment}

/-- In a shape nothing may be missing. -/
theorem plain (nests : model.Nests use nesting) : nesting.Plain := by
  induction nests with
  | leaf => exact trivial
  | item _ _ _ ih => exact ⟨by decide, ih⟩
  | entryValue _ _ _ ih => exact ⟨by decide, ih⟩

/-- At its core a nesting has something basic or the name of a shape. -/
theorem core (nests : model.Nests use nesting) (uses : model.Uses use) :
    nesting.core.IsBasic ∨ ∃ own, model.Uses own ∧ nesting.core = .named own.name := by
  induction nests with
  | @leaf use list map =>
    rw [Nesting.core, ShapeUse.leafFragment]
    split
    · exact .inr ⟨use, uses, rfl⟩
    · split
      · exact .inl (Fragment.isBasic_getD _)
      · exact .inl (.inl rfl)
  | item _ found _ ih => exact ih (uses.of_item found)
  | entryValue _ found _ ih => exact ih (uses.of_entryValue found)

end Nests

/-! ## Names of shapes -/

/-- The names of all shapes are words of letters and digits. -/
def Worded (model : Model) : Prop :=
  ∀ name entry, model.shape (.text name) = .ok (name, entry) →
    name ≠ "" ∧ Elm.IsAlphanumeric name

theorem Worded.of_shapes {shapes : List (String × Value)} (own : model.shapes = .object shapes)
    (all : ∀ shape ∈ shapes, shape.1 ≠ "" ∧ Elm.IsAlphanumeric shape.1) : model.Worded := by
  intro name entry found
  obtain ⟨_, same, listed⟩ := shape_mem found
  cases own.symm.trans same
  exact all _ listed

/-- Types and decoders that are referred to are words of the fragments. -/
theorem Worded.isAtom_named (worded : model.Worded) {use : ShapeUse} (uses : model.Uses use) :
    IsAtom (Fragment.named use.name).type ∧ IsAtom (Fragment.named use.name).decoder := by
  obtain ⟨reference, _, stands⟩ := uses
  obtain ⟨fields, entries, rfl, shape, _⟩ := use_ok stands
  obtain ⟨nonempty, alphanumeric⟩ := worded use.name _ shape
  obtain ⟨type, decoder⟩ := Elm.isWord_named alphanumeric
  exact ⟨⟨Elm.typeName_ne_empty nonempty, type⟩,
    Elm.decoderName_ne_empty _, decoder⟩

theorem Nests.isAtom {use : ShapeUse} {nesting : Nesting Fragment}
    (nests : model.Nests use nesting) (worded : model.Worded) (uses : model.Uses use) :
    IsAtom nesting.core.type ∧ IsAtom nesting.core.decoder := by
  obtain basic | ⟨own, uses, named⟩ := nests.core uses
  · exact Fragment.IsBasic.isAtom basic
  · rw [named]
    exact worded.isAtom_named uses

/-! ## Members -/

/-- A member of a record is made from an entry of a structure: it has its key, it is required
if the key is, and it reads as the nesting of the entry's shape. -/
structure Renders (model : Model) (required : List Key) (entry : String × ShapeUse)
    (member : Member) : Prop where
  key : member.key = entry.1
  required : member.required ↔ Key.text entry.1 ∈ required
  reads : ∃ nesting, model.Nests entry.2 nesting ∧ member.ReadsAs nesting

/-- A member that is made from a chain reads as the nesting of the chain's use. -/
theorem Nests.readsAs {use : ShapeUse} {nesting : Nesting Fragment} {member : Member}
    (nests : model.Nests use nesting) (worded : model.Worded) (uses : model.Uses use)
    (built : member.value = (nesting.member member.required).fragment) :
    member.ReadsAs nesting := by
  obtain ⟨type, decoder⟩ := nests.isAtom worded uses
  -- Both texts can be read as the nesting, so as nothing else.
  have typed := (nesting.member member.required).readsType_fragment
    (by rwa [Nesting.core_member])
  have decoded := nesting.readsStep_fragment decoder nests.plain member.required
  rw [← built] at typed decoded
  exact {
    type := fun tree => ⟨fun reads => reads.unique typed, fun same => same ▸ typed⟩
    decoder := fun tree => ⟨fun reads => reads.unique decoded, fun same => same ▸ decoded⟩ }

theorem renders_of_chain {bound : Nat} {entry : String × ShapeUse} {chain : Chain}
    (worded : model.Worded) (uses : model.Uses entry.2)
    (found : model.chain bound entry.2 = .ok chain) (required : List Key) :
    model.Renders required entry (chain.member required entry.1) := by
  obtain ⟨nesting, nests, built⟩ := nests_of_chain found
  rw [Chain.member]
  split
  · next listed => exact ⟨rfl, by simp [listed], nesting, nests, nests.readsAs worded uses built⟩
  · next missing =>
    have optional := congrArg Fragment.optional built
    exact ⟨rfl, by simp [missing], nesting, nests, nests.readsAs worded uses optional⟩

/-- The members of a record in an outline are made from the entries of its structure. -/
theorem Outlines.renders {use : ShapeUse} {category : Category} {record : Record}
    {targets : List ShapeUse} (outline : model.Outlines use category record targets)
    (worded : model.Worded) (uses : model.Uses use) :
    ∃ required entries, use.requiredKeys = .ok required ∧ use.members model = .ok entries ∧
      List.Forall₂ (model.Renders required) entries record.members := by
  obtain ⟨required, entries, chains, keys, members, found, rfl, -⟩ := outline
  refine ⟨required, entries, keys, members, ?_⟩
  have used : ∀ entry ∈ entries, model.Uses entry.2 := fun _ => uses.of_members members
  clear members
  induction found with
  | nil => exact .nil
  | cons followed _ ih =>
    have first := renders_of_chain worded (used _ List.mem_cons_self) followed required
    exact .cons first (ih fun entry listed => used entry (List.mem_cons_of_mem _ listed))

/-- Whatever has been asked, the members of a record are made from the entries of a structure
of the model, in their order: the texts of each member read as the nesting of its shape, and
in no other way. -/
theorem members_readAs {table : SlotTable} (worded : model.Worded) (serves : model.Serves table)
    {name : String} {record : Record} (made : (name, .record record) ∈ table.filled) :
    ∃ use required entries, model.Uses use ∧ use.name = name ∧
      use.requiredKeys = .ok required ∧ use.members model = .ok entries ∧
      List.Forall₂ (model.Renders required) entries record.members := by
  rw [SlotTable.mem_filled_iff serves.nodup] at made
  -- Whatever the queries were, the record was made in an outline of some use.
  obtain ⟨use, uses, named, makes⟩ := serves.sound name _ made
  cases makes with
  | record handler outline =>
    obtain ⟨required, entries, read⟩ := outline.renders worded uses
    exact ⟨use, required, entries, uses, named, read⟩

/-- A library with books on shelves of rooms, and with notes on books. -/
def library : Model where
  metadata := .object []
  operations := some (.object [("Visit", .object [("output", .named "library")])])
  shapes := .object [
    ("library", .object [("type", .text "structure"), ("required", .list [.text "Rooms"]),
      ("members", .object [("Rooms", .named "rooms"), ("Notes", .named "notes")])]),
    ("rooms", .object [("type", .text "list"), ("member", .named "shelves")]),
    ("shelves", .object [("type", .text "map"), ("value", .named "books")]),
    ("books", .object [("type", .text "list"), ("member", .named "book")]),
    ("book", .object [("type", .text "structure")]),
    ("notes", .object [("type", .text "map"), ("value", .named "number")]),
    ("number", .object [("type", .text "integer")])]

theorem members_library :
    ∃ table record, library.Worded ∧ library.Serves table ∧
      ("library", .record record) ∈ table.filled ∧
      record.members.map (·.value) = [
        ⟨"List (Dict String (List Book))", "(JD.list (JD.dict (JD.list bookDecoder)))"⟩,
        ⟨"Maybe (Dict String Int)", "(JD.nullable (JD.dict JD.int)) Nothing"⟩] ∧
      ∃ required entries, List.Forall₂ (library.Renders required) entries record.members := by
  have worded : library.Worded := .of_shapes rfl (by decide)
  obtain ⟨table, serves⟩ : ∃ table,
      (library.askAll .empty [.operation (.text "Visit")]).2 = table := ⟨_, rfl⟩
  obtain ⟨record, made, values⟩ : ∃ record, ("library", .record record) ∈ table.filled ∧
      record.members.map (·.value) = [
        ⟨"List (Dict String (List Book))", "(JD.list (JD.dict (JD.list bookDecoder)))"⟩,
        ⟨"Maybe (Dict String Int)", "(JD.nullable (JD.dict JD.int)) Nothing"⟩] := by
    rw [← serves]
    exact ⟨_, List.mem_cons_self, rfl⟩
  obtain ⟨_, required, entries, -, -, -, -, read⟩ := members_readAs worded ⟨_, serves⟩ made
  exact ⟨table, record, worded, ⟨_, serves⟩, made, values, required, entries, read⟩

end Model

end ElmBindgen
