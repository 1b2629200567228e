import ElmBindgen.EnumTable.Basic
import ElmBindgen.Text.Case

/-!
# Serializers

The ways in which an enumeration table derives a wire form from a value.

## Main definitions

* `Serializer`: the ways
* `Serializer.apply`: the wire form of a value
-/

namespace ElmBindgen

/-- A way of deriving a wire form from a value: a text in upper or lower case, the
display form, the value itself, or the second part of the first pair whose first
part equals the value. -/
inductive Serializer where
  | upper
  | lower
  | display
  | identity
  | pairs (rows : List (Value × Value))

namespace Serializer

/-- The wire form of a value. -/
def apply : Serializer → Value → Except Fault Value
  | upper, .text s => .ok (.text (String.ofList (Text.upper s.toList)))
  | lower, .text s => .ok (.text (String.ofList (Text.lower s.toList)))
  | upper, _ => .error .wrongType
  | lower, _ => .error .wrongType
  | display, value => .ok (.text value.display)
  | identity, value => .ok value
  | pairs rows, value =>
    match rows.find? fun row => row.1.equal value with
    | some row => .ok row.2
    | none => .ok .null

end Serializer

end ElmBindgen
