import ElmBindgen.Elm.Render
import ElmBindgen.Model.Metadata
import ElmBindgen.Resolver.Resolution

/-!
# Generating a module

One pass over a model gives the descriptor of the service and the source text of
all its definitions. Neither is derived from the other.

## Main definitions

* `GeneratedModule`: the outcome of a pass
* `Model.generate`: the pass
-/

namespace ElmBindgen

open Elm (Definition Rendered)

/-- What is generated for a service. -/
structure GeneratedModule where
  service : Service
  definitions : List Definition

namespace GeneratedModule

/-- The rendered definitions. -/
def rendered (generated : GeneratedModule) : List Rendered :=
  generated.definitions.map Definition.render

/-- The texts that are there and not empty. -/
def present (texts : List (Option String)) : List String :=
  (texts.filterMap id).filter (· ≠ "")

/-- The names that the module exports, in order. -/
def exposing (generated : GeneratedModule) : List String :=
  present (generated.rendered.map (·.exposeAs))

/-- The types that the module defines, in order. -/
def typeDefs (generated : GeneratedModule) : List String :=
  present (generated.rendered.map (·.typeDef))

/-- The decoders that the module defines, in order. -/
def decoderDefs (generated : GeneratedModule) : List String :=
  present (generated.rendered.map (·.decoderDef))

end GeneratedModule

namespace Model

/-- Generates the module of a service, with the descriptor bound to a region
unless the region is null or the service is global. -/
def generate (model : Model) (region : Value) : Except Fault GeneratedModule := do
  let service ← model.service region
  let definitions ← (model.definitions.on .empty).1
  return ⟨service, definitions⟩

end Model

end ElmBindgen
