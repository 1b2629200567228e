import ElmBindgen.Proofs.Elm.Comments
import ElmBindgen.Proofs.Resolution.Variants

/-!
# Documentation of unions

The type of a union and its constructors are alphanumeric if the name of the shape is. So the wire
strings alone decide whether the documentation of the union is one comment.

## Main results

* `Model.Serves.union_eq`: a union is the one for its wire strings
* `Model.isComment_docSource_iff`: when the documentation of a union is one comment
-/

namespace ElmBindgen

open Elm (Balanced IsAlphanumeric IsComment Union constructorName marks typeName)

/-- The constructors of an alphanumeric type are alphanumeric. -/
theorem Elm.isAlphanumeric_constructorName {type : String} (typed : IsAlphanumeric type)
    (wire : String) : IsAlphanumeric (constructorName type wire) := by
  rw [IsAlphanumeric, constructorName, String.toList_ofList]
  intro c inside
  rcases List.mem_append.mp inside with inside | inside
  · exact typed c inside
  · exact (isConstructorSuffix_constructorSuffix wire).1 c inside

/-- The documentation of the union for some wire strings is one comment exactly if their marks are
balanced. -/
theorem Elm.Union.isComment_ofWires_iff {name : String} (alphanumeric : IsAlphanumeric name)
    (wires : List String) :
    IsComment (ofWires name wires).docSource ↔
      Balanced 0 (wires.flatMap fun wire => marks wire.toList) := by
  have typed : IsAlphanumeric (ofWires name wires).type := isAlphanumeric_typeName alphanumeric
  have named : ∀ variant ∈ (ofWires name wires).variants.map fun variant =>
      (variant.name, variant.wire), IsAlphanumeric variant.1 := by
    simp only [ofWires, List.forall_mem_map]
    exact fun wire _ => isAlphanumeric_constructorName typed wire
  rw [docSource, isComment_unionDoc_iff typed named]
  simp only [ofWires, List.map_map, List.flatMap_map, Function.comp_def]

namespace Model

variable {model : Model} {table : SlotTable} {name : String} {union : Union}

/-- Whatever has been asked, a union is the one for its wire strings. -/
theorem Serves.union_eq (serves : model.Serves table) (made : (name, .union union) ∈ table.filled) :
    union = .ofWires name union.wires := by
  rw [SlotTable.mem_filled_iff serves.nodup] at made
  obtain ⟨use, -, rfl, makes⟩ := serves.sound name _ made
  cases makes with
  | union _ own =>
    obtain ⟨_, wires, -, -, rfl⟩ := ShapeUse.union_ok_iff.mp own
    rw [Elm.Union.wires_ofWires]

/-- Whatever has been asked, the documentation of a union with an alphanumeric name is one comment,
which its first two characters open and its last two close, exactly if the marks in the wire
strings, one string after the other, close all that they open and nothing else. It is enough that
there are none. In any case the documentation begins with an opening mark and ends with a closing
one. -/
theorem isComment_docSource_iff (serves : model.Serves table)
    (made : (name, .union union) ∈ table.filled) (alphanumeric : IsAlphanumeric name) :
    (IsComment union.docSource ↔
      Balanced 0 (union.wires.flatMap fun wire => marks wire.toList)) ∧
    ((∀ wire ∈ union.wires, marks wire.toList = []) → IsComment union.docSource) ∧
    ∃ inside, union.docSource = "\x7b-" ++ inside ++ "-\x7d" := by
  have exact : IsComment union.docSource ↔
      Balanced 0 (union.wires.flatMap fun wire => marks wire.toList) := by
    have own := Elm.Union.isComment_ofWires_iff alphanumeric union.wires
    rwa [← serves.union_eq made] at own
  refine ⟨exact, fun plain => exact.mpr ?_, _, Elm.unionDoc_eq _ _⟩
  rw [List.flatMap_eq_nil_iff.mpr plain]
  exact Balanced.nil_iff.mpr rfl

/-- A remark with a style, whose wire strings are marks that match, and a mood with one that does
not. -/
def remarks : Model where
  metadata := .object []
  operations := some (.object [("Get", .object [("output", .named "Remark")])])
  shapes := .object [
    ("Remark", .object [("type", .text "structure"),
      ("members", .object [("Style", .named "Style"), ("Mood", .named "Mood")])]),
    ("Style", .object [("type", .text "string"),
      ("enum", .list [.text "\x7b-", .text "plain", .text "-\x7d"])]),
    ("Mood", .object [("type", .text "string"), ("enum", .list [.text "a-\x7db"])])]

/-- The documentation of the styles is one comment with another one inside. That of the moods is
not. -/
theorem isComment_remarks :
    ∃ table styles moods, remarks.Serves table ∧
      ("Style", .union styles) ∈ table.filled ∧ ("Mood", .union moods) ∈ table.filled ∧
      IsComment styles.docSource ∧ ¬IsComment moods.docSource := by
  obtain ⟨table, serves, filled⟩ : ∃ table, remarks.Serves table ∧ table.filled.tail =
      [("Style", .union (.ofWires "Style" ["\x7b-", "plain", "-\x7d"])),
        ("Mood", .union (.ofWires "Mood" ["a-\x7db"]))] := ⟨_, ⟨[.all], rfl⟩, rfl⟩
  have here : ∀ entry ∈ table.filled.tail, entry ∈ table.filled := fun _ => List.mem_of_mem_tail
  rw [filled] at here
  obtain ⟨styles, moods⟩ := And.intro (here _ (.head _)) (here _ (.tail _ (.head _)))
  refine ⟨table, _, _, serves, styles, moods, ?_, ?_⟩
  · rw [(isComment_docSource_iff serves styles (by decide)).1]
    change Balanced 0 [.opening, .closing]
    rw [Balanced.opening_iff, Balanced.closing_iff, Balanced.nil_iff]
  · rw [(isComment_docSource_iff serves moods (by decide)).1]
    exact Balanced.not_closing

end Model

end ElmBindgen
