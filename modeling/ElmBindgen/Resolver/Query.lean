import ElmBindgen.Resolver.Resolution

/-!
# Queries

A slot table serves a sequence of queries: about what one operation takes and
returns, or about all operations. Each query finds the table as the one before
left it, whether that one succeeded or not.

## Main definitions

* `Query`, `Finding`: what can be asked and what is answered
* `Model.ask`: the answer to a query
* `Model.askAll`: the answers to a sequence of queries
-/

namespace ElmBindgen

open Elm (Definition Payload)

/-- What can be asked about a model. -/
inductive Query where
  | operation (name : Value)
  | all

/-- The answer to a query: what an operation takes and returns, or the definitions
of all operations. -/
inductive Finding where
  | payloads (input output : Payload)
  | definitions (definitions : List Definition)
  deriving DecidableEq, Repr

namespace Model

/-- The answer to a query. -/
def ask (model : Model) : Query → Resolution Finding
  | .operation name => do
    let (input, output) ← model.operationPayloads name
    return .payloads input output
  | .all => do return .definitions (← model.definitions)

/-- The answers to a sequence of queries, and the table after it. -/
def askAll (model : Model) (table : SlotTable) :
    List Query → List (Except Fault Finding) × SlotTable
  | [] => ([], table)
  | query :: rest =>
    let (answer, after) := (model.ask query).on table
    let (answers, last) := askAll model after rest
    (answer :: answers, last)

/-- A table that some queries leave behind. -/
def Serves (model : Model) (table : SlotTable) : Prop :=
  ∃ queries, (model.askAll .empty queries).2 = table

end Model

end ElmBindgen
