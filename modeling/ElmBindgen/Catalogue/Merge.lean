import ElmBindgen.Value.Access

/-!
# Merging extras

Extras hold entries that are merged into a description. Where both sides are
objects they are merged entry by entry; anything else is replaced, and new
entries go last.

## Main definitions

* `mergeFields`: the entries of an object with those of another one merged in
* `mergeValue`: a description with a value merged in
* `applyExtras`: a description with the extras of a document merged in
-/

namespace ElmBindgen

/-- An entry replaced in its place, or added at the end. -/
def putEntry (fields : List (String × Value)) (key : String) (value : Value) :
    List (String × Value) :=
  if (fields.lookup key).isSome then
    fields.map fun field => if field.1 = key then (key, value) else field
  else fields ++ [(key, value)]

mutual

/-- An entry with another value merged in: objects are merged, anything else is
replaced. -/
def mergeEntry (old : Option Value) : Value → Value
  | .object extra =>
    match old with
    | some (.object base) => .object (mergeFields base extra)
    | _ => .object extra
  | extra => extra

/-- The entries of an object with those of another one merged in. -/
def mergeFields (base : List (String × Value)) : List (String × Value) → List (String × Value)
  | [] => base
  | (key, extra) :: rest =>
    mergeFields (putEntry base key (mergeEntry (base.lookup key) extra)) rest

end

/-- A list with another one merged in, each of whose items is the position of the
item that it puts there. -/
def mergeItems (base extra : List Value) : Except Fault (List Value) :=
  extra.foldlM (fun items index => do
    let source ← index.position extra.length
    let target ← index.position items.length
    return items.set target (extra.getD source .null)) base

/-- A description with a value merged in. A list merged into an object has to list
positions of its own; what it puts there is out of reach, since no name leads to
it. -/
def mergeValue : Value → Value → Except Fault Value
  | .object base, .object extra => .ok (.object (mergeFields base extra))
  | .object base, .list extra => do
    let _ ← extra.mapM (Value.position extra.length)
    return .object base
  | .list base, .list extra => .list <$> mergeItems base extra
  | base, extra => do
    if (← extra.elements).isEmpty then return base
    throw .wrongType

/-- A description with the extras of a document merged in. Extras without an entry
to merge change nothing. -/
def applyExtras (base extras : Value) : Except Fault Value := do
  if ← extras.contains "merge" then
    match extras.get? "merge" with
    | some extra => mergeValue base extra
    | none => throw .wrongType
  else return base

end ElmBindgen
