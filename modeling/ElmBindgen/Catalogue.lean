import ElmBindgen.Catalogue.Merge
import ElmBindgen.Catalogue.Path
import ElmBindgen.Model.Basic

/-!
# Catalogues of service descriptions

Descriptions are documents below a list of search paths, under the name of their
service and a version. A document in an earlier path hides the same document in a
later one; extras are merged into the description that they belong to.

## Main definitions

* `Document`: a document and where it is
* `Catalogue`: the documents of some search paths
* `Catalogue.services`, `Catalogue.versions`: what a catalogue holds
* `Catalogue.description`: the description of a service
-/

namespace ElmBindgen

/-! ## Documents -/

/-- A document, the file `service/version/name` below a search path. -/
structure Document where
  service : String
  version : String
  name : String
  content : Value

namespace Document

/-- The way to a document. -/
def route? (document : Document) : Option Route :=
  Route.ofPath? (joinPath (joinPath document.service document.version) document.name)

/-- The directories that some documents are in, and those above them. -/
def directories (documents : List Document) : List (List String) :=
  [] :: documents.flatMap fun document => (document.route?.map Route.passed).getD []

/-- The content of the document at a path. Of two documents in one place the later
one counts, and a document without content counts as missing. -/
def find? (documents : List Document) (path : String) : Option Value := do
  let route ← Route.ofPath? path
  guard (route.isOpen (directories documents))
  let document ← documents.reverse.find? fun document => document.route?.any route.meets
  if document.content.isNull then none else some document.content

end Document

/-! ## Looking up descriptions -/

/-- The documents below each search path. -/
structure Catalogue where
  paths : List (List Document)

namespace Catalogue

/-- The name under which descriptions are kept. -/
def descriptionName : String := "service-2"

/-- The services and versions of the descriptions that a catalogue holds. -/
def holdings (catalogue : Catalogue) : List (String × String) :=
  catalogue.paths.flatten.filterMap fun document => do
    let route ← document.route?
    guard (route.name = descriptionName)
    match route.directory with
    | [service, version] => some (service, version)
    | _ => none

/-- Texts in order, each once. -/
def sortedOnce (texts : List String) : List String :=
  (texts.mergeSort fun a b => decide (a ≤ b)).eraseDups

/-- The services whose descriptions a catalogue holds, in order. -/
def services (catalogue : Catalogue) : List String :=
  sortedOnce (catalogue.holdings.map Prod.fst)

/-- The versions of a service that a catalogue holds, in order. -/
def versions (catalogue : Catalogue) (service : String) : List String :=
  sortedOnce ((catalogue.holdings.filter (·.1 = service)).map Prod.snd)

/-- The content of the document at a path, from the first search path that has it. -/
def find? (catalogue : Catalogue) (path : String) : Option Value :=
  catalogue.paths.findSome? fun documents => Document.find? documents path

/-- The description of a service in a version, or in the greatest one. -/
def description (catalogue : Catalogue) (service version : Value) : Except Fault Value := do
  let _ ← service.key
  let _ ← version.key
  let known := catalogue.services
  let name ← match service with
    | .text name =>
      if name ∈ known then pure name else throw (.unknownService service known)
    | _ => throw (.unknownService service known)
  let version ← match version with
    | .null => pure ((catalogue.versions name).getLast?.getD "")
    | .text version => pure version
    | _ => throw .wrongType
  let directory := joinPath name version
  let path := joinPath directory descriptionName
  match catalogue.find? path with
  | none => throw (.dataNotFound path)
  | some base =>
    match catalogue.find? (joinPath directory (descriptionName ++ ".sdk-extras")) with
    | some extras => applyExtras base extras
    | none => return base

/-- The model of a service in a version, or in the greatest one. -/
def load (catalogue : Catalogue) (service version : Value) : Except Fault Model := do
  Model.ofDescription (← catalogue.description service version)

end Catalogue

end ElmBindgen
