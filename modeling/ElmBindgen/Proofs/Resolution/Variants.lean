import ElmBindgen.Proofs.Elm.Spelling
import ElmBindgen.Proofs.Elm.UnionSource
import ElmBindgen.Proofs.Graph.Listing
import ElmBindgen.Proofs.Resolution.Change

/-!
# Constructors of one union

Within a union all constructors start with the same type, so they differ as far as the wire strings
do that they are made from. Different wire strings are not enough for this: if two of them are read
alike, the source of the type lists one constructor twice.

## Main definitions

* `Elm.Union.wires`, `Elm.Union.constructors`: the two sides of a union
* `Elm.Union.ofWires`: the union for some wire strings

## Main results

* `Elm.nodup_constructorNames_iff`: when wire strings get different constructors
* `ShapeUse.union_ok_iff`: what the union of an enumeration is
* `Model.variants_nodup_iff`: when the constructors of a union are distinct
-/

namespace ElmBindgen

namespace Elm

variable {type : String} {strings : List String}

/-- Wire strings get different constructors exactly if no two of them are read alike. -/
theorem nodup_constructorNames_iff :
    (strings.map (constructorName type)).Nodup ↔
      strings.Pairwise fun wire other => ¬Alike wire other := by
  rw [List.Nodup, List.pairwise_map]
  simp only [ne_eq, constructorName_eq_iff_alike]

/-- Different wire strings of regular words get different constructors. -/
theorem nodup_constructorNames_of_regular {separator : Char} (separates : ¬isWordChar separator)
    (regular : ∀ wire ∈ strings, Regular separator wire) (distinct : strings.Nodup) :
    (strings.map (constructorName type)).Nodup := by
  rw [nodup_constructorNames_iff]
  refine distinct.imp_of_mem fun own its different alike => different ?_
  exact alike.eq_of_regular separates (regular _ own) (regular _ its)

/-- Constructors of a type that fits on a line fit on a line. -/
theorem isLine_constructorName (typed : IsLine type) (wire : String) :
    IsLine (constructorName type wire) := by
  rw [IsLine, constructorName, String.toList_ofList, List.mem_append]
  rintro (inside | inside)
  · exact typed inside
  · exact absurd ((isConstructorSuffix_constructorSuffix wire).1 _ inside) (by decide)

namespace Union

/-- The wire strings of a union, in order. -/
def wires (union : Union) : List String := union.variants.map (·.wire)

/-- The constructors of a union, in order. -/
def constructors (union : Union) : List String := union.variants.map (·.name)

/-- The union for the wire strings of an enumeration, in their order. -/
def ofWires (name : String) (wires : List String) : Union :=
  ⟨typeName name, wires.map fun wire => ⟨constructorName (typeName name) wire, wire⟩⟩

variable {name : String}

@[simp]
theorem wires_ofWires : (ofWires name strings).wires = strings := by
  rw [wires, ofWires, List.map_map]
  exact List.map_id strings

@[simp]
theorem constructors_ofWires :
    (ofWires name strings).constructors = strings.map (constructorName (typeName name)) := by
  rw [constructors, ofWires, List.map_map]
  rfl

end Union

end Elm

open Elm (Alike Regular Union Variant constructorName isWordChar typeName)

namespace ShapeUse

/-- Values that all have a variant are texts, and their variants are those for these texts. -/
theorem mapM_variant_iff {name : String} {values : List Value} {variants : List Variant} :
    values.mapM (variant (typeName name)) = .ok variants ↔
      ∃ wires, values = wires.map .text ∧ variants = (Union.ofWires name wires).variants := by
  rw [Fault.mapM_ok_iff]
  constructor
  · intro all
    induction all with
    | nil => exact ⟨[], rfl, rfl⟩
    | @cons value _ _ _ named _ ih =>
      obtain ⟨wires, rfl, rfl⟩ := ih
      cases value with
      | text wire =>
        obtain rfl := Except.ok.inj named
        exact ⟨wire :: wires, rfl, rfl⟩
      | _ => exact absurd named nofun
  · rintro ⟨wires, rfl, rfl⟩
    rw [Union.ofWires, List.forall₂_map_left_iff, List.forall₂_map_right_iff, List.forall₂_same]
    exact fun _ _ => rfl

/-- An enumeration has a union if all its values are texts, which are its wire strings then. -/
theorem union_ok_iff {use : ShapeUse} {union : Union} :
    use.union = .ok union ↔ ∃ value wires, use.enum = .ok value ∧
      value.elements = .ok (wires.map .text) ∧ union = .ofWires use.name wires := by
  rw [ShapeUse.union, Fault.bind_ok_iff]
  constructor
  · rintro ⟨value, enum, made⟩
    obtain ⟨values, elements, made⟩ := Fault.bind_ok_iff.mp made
    obtain ⟨variants, each, made⟩ := Fault.bind_ok_iff.mp made
    obtain ⟨wires, rfl, rfl⟩ := mapM_variant_iff.mp each
    exact ⟨value, wires, enum, elements, (Except.ok.inj made).symm⟩
  · rintro ⟨value, wires, enum, elements, rfl⟩
    refine ⟨value, enum, Fault.bind_ok_iff.mpr ⟨_, elements, Fault.bind_ok_iff.mpr ⟨_, ?_, rfl⟩⟩⟩
    exact mapM_variant_iff.mpr ⟨wires, rfl, rfl⟩

end ShapeUse

namespace Model

/-- Whatever has been asked, a union is that for the wire strings of an enumeration of the model.
Its constructors are pairwise distinct exactly if no two of the wire strings are read alike; for
wire strings of regular words with one separator it is enough that they are distinct. The source of
the type lists just these constructors. Two wire strings get the same constructor of a type exactly
if they are read alike, whatever the type is. -/
theorem variants_nodup_iff (model : Model) :
    (∀ table name union, model.Serves table → (name, .union union) ∈ table.filled →
      ∃ use value, model.Uses use ∧ use.name = name ∧ use.enum = .ok value ∧
        value.elements = .ok (union.wires.map .text) ∧ union = .ofWires name union.wires ∧
        (union.constructors.Nodup ↔ union.wires.Pairwise fun wire other => ¬Alike wire other) ∧
        (∀ separator, ¬isWordChar separator → (∀ wire ∈ union.wires, Regular separator wire) →
          union.wires.Nodup → union.constructors.Nodup) ∧
        (Elm.IsLine union.type →
          Elm.readUnionType union.typeSource = some (union.type, union.constructors))) ∧
      ∀ type wire other,
        constructorName type wire = constructorName type other ↔ Alike wire other := by
  refine ⟨?_, Elm.constructorName_eq_iff_alike⟩
  intro table name union serves made
  rw [SlotTable.mem_filled_iff serves.nodup] at made
  obtain ⟨use, uses, rfl, makes⟩ := serves.sound name _ made
  cases makes with
  | union handler own =>
    obtain ⟨value, wires, enum, elements, rfl⟩ := ShapeUse.union_ok_iff.mp own
    have written : ∀ constructor ∈ (Union.ofWires use.name wires).constructors,
        Elm.IsLine (typeName use.name) → Elm.IsLine constructor := by
      rw [Union.constructors_ofWires, List.forall_mem_map]
      exact fun wire _ typed => Elm.isLine_constructorName typed wire
    refine ⟨use, value, uses, rfl, enum, ?_, ?_, ?_, ?_, fun typed => ?_⟩
    · rwa [Union.wires_ofWires]
    · rw [Union.wires_ofWires]
    · rw [Union.wires_ofWires, Union.constructors_ofWires]
      exact Elm.nodup_constructorNames_iff
    · rw [Union.wires_ofWires, Union.constructors_ofWires]
      exact fun _ => Elm.nodup_constructorNames_of_regular
    · exact Elm.readUnionType_unionType typed fun _ own => written _ own typed

/-- A disk, whose states are spelled in two ways and whose modes are in one. -/
def disks : Model where
  metadata := .object []
  operations := some (.object [("Get", .object [("output", .named "Disk")])])
  shapes := .object [
    ("Disk", .object [("type", .text "structure"),
      ("members", .object [("State", .named "Status"), ("Mode", .named "Mode")])]),
    ("Status", .object [("type", .text "string"),
      ("enum", .list [.text "in-use", .text "in_use"])]),
    ("Mode", .object [("type", .text "string"),
      ("enum", .list [.text "read-only", .text "read-write"])])]

/-- The states are different wire strings with one constructor, which the source of their type lists
twice. The modes have constructors of their own. -/
theorem variants_disks :
    ∃ table states modes, disks.Serves table ∧
      ("Status", .union states) ∈ table.filled ∧ ("Mode", .union modes) ∈ table.filled ∧
      states.wires.Nodup ∧ ¬states.constructors.Nodup ∧
      Elm.readUnionType states.typeSource = some ("Status", ["StatusInUse", "StatusInUse"]) ∧
      modes.constructors.Nodup := by
  obtain ⟨table, serves, filled⟩ : ∃ table, disks.Serves table ∧ table.filled.tail =
      [("Status", .union (.ofWires "Status" ["in-use", "in_use"])),
        ("Mode", .union (.ofWires "Mode" ["read-only", "read-write"]))] := ⟨_, ⟨[.all], rfl⟩, rfl⟩
  have here : ∀ entry ∈ table.filled.tail, entry ∈ table.filled := fun _ => List.mem_of_mem_tail
  rw [filled] at here
  obtain ⟨states, modes⟩ := And.intro (here _ (.head _)) (here _ (.tail _ (.head _)))
  obtain ⟨told, -⟩ := disks.variants_nodup_iff
  obtain ⟨_, _, -, -, -, -, -, distinct, -, source⟩ := told _ _ _ serves states
  obtain ⟨_, _, -, -, -, -, -, -, regular, -⟩ := told _ _ _ serves modes
  refine ⟨table, _, _, serves, states, modes, by decide, ?_, source (by decide), ?_⟩
  · rw [distinct]
    decide
  · exact regular '-' (by decide) (by decide) (by decide)

end Model

end ElmBindgen
