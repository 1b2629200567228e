import ElmBindgen.Elm.Definition
import ElmBindgen.Model.Basic

/-!
# Chains of lists and maps

The shape of a member is followed through lists and maps to the first shape that
is neither. Its fragment wraps the fragment of that shape.

## Main definitions

* `Leaf`: what a chain ends in
* `ShapeUse.leaf?`: the leaf that a use is, if it is no link of a chain
* `Chain`: the links of a chain and its leaf
* `Model.chain`: the chain that starts at a use
-/

namespace ElmBindgen

open Elm (Fragment)

/-- A link of a chain. -/
inductive Link where
  | list
  | map
  deriving DecidableEq, Repr

namespace Link

/-- The fragment of a list or map that holds a fragment. -/
def wrap : Link → Fragment → Fragment
  | list => Fragment.list
  | map => Fragment.dict

/-- What a list or a map holds. -/
def follow (model : Model) (use : ShapeUse) : Link → Except Fault ShapeUse
  | list => use.item model
  | map => use.entryValue model

end Link

/-- What a chain ends in: a shape with a definition, or a fragment. -/
inductive Leaf where
  | named (use : ShapeUse)
  | plain (fragment : Fragment)

namespace Leaf

/-- The fragment of a leaf. -/
def fragment : Leaf → Fragment
  | named use => Fragment.named use.name
  | plain fragment => fragment

end Leaf

/-- The links of a chain, outermost first, and its leaf. -/
structure Chain where
  links : List Link
  leaf : Leaf

namespace Chain

/-- The fragment of a chain. -/
def fragment (chain : Chain) : Fragment := chain.links.foldr Link.wrap chain.leaf.fragment

end Chain

/-- A step along a chain. -/
inductive Step where
  | link (link : Link)
  | leaf (leaf : Leaf)

namespace ShapeUse

/-- Whether a use is a link of a chain or its leaf. A string with values is an
enumeration and has a definition. -/
def step (use : ShapeUse) : Except Fault Step :=
  match use.type with
  | .text "structure" => .ok (.leaf (.named use))
  | .text "string" => do
    if (← use.enum).isTrue then return .leaf (.named use)
    else return .leaf (.plain ((Fragment.primitive? "string").getD .untyped))
  | .text "list" => .ok (.link .list)
  | .text "map" => .ok (.link .map)
  | .text type => .ok (.leaf (.plain ((Fragment.primitive? type).getD .untyped)))
  | type => do
    let _ ← type.key
    return .leaf (.plain .untyped)

end ShapeUse

namespace Model

/-- The chain that starts at a use, if it ends within a number of links. -/
def chain (model : Model) : Nat → ShapeUse → Except Fault Chain
  | 0, _ => .error .endlessNesting
  | bound + 1, use => do
    match ← use.step with
    | .leaf leaf => return ⟨[], leaf⟩
    | .link link =>
      let rest ← model.chain bound (← link.follow model use)
      return ⟨link :: rest.links, rest.leaf⟩

end Model

end ElmBindgen
