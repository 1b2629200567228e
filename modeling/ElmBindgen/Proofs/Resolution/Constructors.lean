import ElmBindgen.Proofs.Elm.Constructor
import ElmBindgen.Proofs.Resolution.Order

/-!
# Constructors of different unions

All constructors of a module share one namespace. Their names start with those of their types,
but this keeps the constructors of two unions apart only if neither type goes on after the other
with what could be the words of a wire string.

## Main results

* `ShapeUse.name_of_union`: how the constructors of a union are named
* `Model.definitions_constructors`: when two unions of a module have the same constructor
-/

namespace ElmBindgen

open Elm (Definition Union constructorName)

/-- The constructors of a union are named for its type and their wire strings. -/
theorem ShapeUse.name_of_union {use : ShapeUse} {union : Union} (made : use.union = .ok union) :
    ∀ variant ∈ union.variants, variant.name = constructorName union.type variant.wire := by
  obtain ⟨values, -, made⟩ := Fault.bind_ok_iff.mp made
  obtain ⟨elements, -, made⟩ := Fault.bind_ok_iff.mp made
  obtain ⟨variants, each, made⟩ := Fault.bind_ok_iff.mp made
  cases made
  intro variant listed
  obtain ⟨value, -, named⟩ := Fault.exists_of_forall₂ (Fault.mapM_ok_iff.mp each) listed
  cases value with
  | text wire =>
    rw [← Except.ok.inj named]
  | _ => exact absurd named nofun

namespace Model

variable {model : Model} {table : SlotTable} {definitions : List Definition}

/-- The unions among the definitions name their constructors for their types. -/
theorem name_of_definitions (run : model.definitions.on .empty = (.ok definitions, table))
    {union : Union} (listed : .union union ∈ definitions) :
    ∀ variant ∈ union.variants, variant.name = constructorName union.type variant.wire := by
  obtain ⟨distinct, settled⟩ := settled_of_definitions run
  obtain ⟨-, rfl⟩ := walk_of_definitions run
  obtain ⟨⟨name, _⟩, filled, rfl⟩ := List.mem_map.mp listed
  have found := (SlotTable.mem_filled_iff distinct).mp filled
  obtain ⟨use, slot, -, -, here, settles⟩ := settled name (SlotTable.mem_names_of_find? found)
  cases here.symm.trans found
  cases settles with
  | union _ made => exact use.name_of_union made

/-- Constructors are named for the types of their unions. Two unions of different types have a
constructor in common exactly where the wire string of the one makes up for what the type of the
other goes on with; so they have none if neither type prolongs the other. If one does, some wire
strings give both types the same constructor. -/
theorem definitions_constructors (run : model.definitions.on .empty = (.ok definitions, table)) :
    (∀ union, .union union ∈ definitions → ∀ variant ∈ union.variants,
      variant.name = constructorName union.type variant.wire) ∧
    (∀ first second, .union first ∈ definitions → .union second ∈ definitions →
      first.type ≠ second.type → ∀ variant ∈ first.variants, ∀ other ∈ second.variants,
        (variant.name = other.name ↔ Elm.Absorbs first.type variant.wire second.type other.wire ∨
          Elm.Absorbs second.type other.wire first.type variant.wire) ∧
        (variant.name = other.name →
          Elm.Prolongs second.type first.type ∨ Elm.Prolongs first.type second.type)) ∧
    ∀ first second : String, first ≠ second →
      ((∃ wire other, constructorName first wire = constructorName second other) ↔
        Elm.Prolongs second first ∨ Elm.Prolongs first second) := by
  refine ⟨fun _ listed => name_of_definitions run listed, ?_, fun first second different =>
    Elm.exists_constructorName_eq_iff different⟩
  intro first second here there different variant own other its
  have exact : variant.name = other.name ↔
      Elm.Absorbs first.type variant.wire second.type other.wire ∨
        Elm.Absorbs second.type other.wire first.type variant.wire := by
    rw [name_of_definitions run here variant own, name_of_definitions run there other its]
    exact Elm.constructorName_eq_iff different
  refine ⟨exact, fun same => ?_⟩
  exact (exact.mp same).imp Elm.Absorbs.prolongs Elm.Absorbs.prolongs

/-- A machine with a state and a group of states, whose types start alike. -/
def machines : Model where
  metadata := .object []
  operations := some (.object [("Inspect", .object [("output", .named "Machine")])])
  shapes := .object [
    ("Machine", .object [("type", .text "structure"),
      ("members", .object [("State", .named "State"), ("Group", .named "StateGroup")])]),
    ("State", .object [("type", .text "string"),
      ("enum", .list [.text "group-open", .text "off"])]),
    ("StateGroup", .object [("type", .text "string"), ("enum", .list [.text "open"])])]

/-- The two unions of the machine have different types and a constructor in common. -/
theorem definitions_machines :
    ∃ definitions table first second variant other,
      machines.definitions.on .empty = (.ok definitions, table) ∧
      .union first ∈ definitions ∧ .union second ∈ definitions ∧ first.type ≠ second.type ∧
      variant ∈ first.variants ∧ other ∈ second.variants ∧
      variant.name = "StateGroupOpen" ∧ other.name = "StateGroupOpen" ∧
      Elm.Prolongs second.type first.type := by
  obtain ⟨definitions, table, run, listed⟩ : ∃ definitions table,
      machines.definitions.on .empty = (.ok definitions, table) ∧
      definitions.tail = [
        .union ⟨"State", [⟨"StateGroupOpen", "group-open"⟩, ⟨"StateOff", "off"⟩]⟩,
        .union ⟨"StateGroup", [⟨"StateGroupOpen", "open"⟩]⟩] := ⟨_, _, rfl, rfl⟩
  have here : ∀ union ∈ definitions.tail, union ∈ definitions := fun _ => List.mem_of_mem_tail
  rw [listed] at here
  obtain ⟨first, second⟩ := And.intro (here _ (.head _)) (here _ (.tail _ (.head _)))
  obtain ⟨-, constructors, -⟩ := definitions_constructors run
  obtain ⟨-, prolongs⟩ := constructors _ _ first second (by decide) _ (.head _) _ (.head _)
  refine ⟨definitions, table, _, _, _, _, run, first, second, by decide, .head _, .head _, rfl,
    rfl, (prolongs rfl).resolve_right ?_⟩
  rintro ⟨more, -, -, longer⟩
  have shorter := congrArg List.length longer
  simp at shorter

end Model

end ElmBindgen
