import ElmBindgen.Model.Basic
import ElmBindgen.Service.Descriptor

/-!
# Metadata

The metadata of a model says which protocol and signer a service uses and where
it is found. A descriptor is made from it in a fixed order, so the first entry
that does not fit decides the fault.

## Main definitions

* `Model.protocol`, `Model.signer`: the supported protocol and the signer
* `Model.xmlNamespace`, `Model.hasGlobalEndpoint`: further entries
* `Model.service`: the descriptor of a model
-/

namespace ElmBindgen

namespace Model

/-- Whether a candidate protocol is passed over without a look. -/
def isBlankCandidate : Value → Bool
  | .null => true
  | .text "" => true
  | _ => false

/-- The first candidate that is a known protocol. -/
def firstKnown (reported : Value) : List Value → Except Fault Protocol
  | [] => .error (.unsupportedProtocol reported)
  | candidate :: rest =>
    if isBlankCandidate candidate then firstKnown reported rest
    else match protocols.fromWire (.value candidate) with
      | .error (.unknownEnumValue _) => firstKnown reported rest
      | answer => answer

/-- The protocol of a service. Descriptions may list several protocols in order
of preference; the first known one is taken. -/
def protocol (model : Model) : Except Fault Protocol := do
  let first := (← model.metadata.entry? "protocol").getD .null
  let others ← ((← model.metadata.entry? "protocols").getD (.list [])).elements
  firstKnown first (first :: others)

/-- The signer of a service. The version `s3v4` is another word for the signer
of S3. -/
def signer (model : Model) : Except Fault Signer := do
  let version := (← model.metadata.entry? "signatureVersion").getD .null
  if (← version.key) = .text "s3v4" then return .s3
  match signers.fromWire (.value version) with
  | .error (.unknownEnumValue _) => throw (.unsupportedSigner version)
  | answer => answer

/-- The namespace of XML bodies: the entry itself, or the address within it. -/
def xmlNamespace (model : Model) : Except Fault Value := do
  match (← model.metadata.entry? "xmlNamespace").getD .null with
  | .object fields => return (fields.lookup "uri").getD .null
  | entry => return entry

/-- Whether the metadata names a global endpoint. -/
def hasGlobalEndpoint (model : Model) : Except Fault Bool :=
  model.metadata.contains "globalEndpoint"

/-- The changes that one entry of the metadata asks for, if it is there. -/
def changeOf (model : Model) (key : String) (change : Value → Except Fault Change) :
    Except Fault (List Change) := do
  match model.metadata.get? key with
  | some value => return [← change value]
  | none => return []

/-- The timestamp format that a word stands for. -/
def timestampChange (word : Value) : Except Fault Change := do
  return .timestampFormat (← timestampFormats.fromWire (.value word))

/-- The changes that the metadata asks for, in order. -/
def changes (model : Model) : Except Fault (List Change) := do
  let jsonVersion ← model.changeOf "jsonVersion" fun value => .ok (.jsonVersion value)
  let signingName ← model.changeOf "signingName" fun value => .ok (.signingName value)
  let targetPrefix ← model.changeOf "targetPrefix" fun value => .ok (.targetPrefix value)
  let timestampFormat ← model.changeOf "timestampFormat" timestampChange
  let address ← model.xmlNamespace
  return jsonVersion ++ signingName ++ targetPrefix ++ timestampFormat ++
    (if address.isNull then [] else [.xmlNamespace address])

/-- The descriptor of a model. It is global without a region and for a service
that names a global endpoint. -/
def service (model : Model) (region : Value) : Except Fault Service := do
  let endpointPrefix ← model.metadata.entry "endpointPrefix"
  let apiVersion ← model.metadata.entry "apiVersion"
  let protocol ← model.protocol
  let signer ← model.signer
  let endpoint : Endpoint :=
    if region.isNull || (← model.hasGlobalEndpoint) then .global else .regional region
  let service ← Service.define endpointPrefix apiVersion protocol signer endpoint
  return (← model.changes).foldl Service.apply service

end Model

end ElmBindgen
