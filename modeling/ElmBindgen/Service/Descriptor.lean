import ElmBindgen.EnumTable.Basic
import ElmBindgen.Service.Registry
import ElmBindgen.Text.Case

/-!
# Service descriptors

A descriptor says how a service is addressed and signed. Its definition fixes
the prefix, the version, the protocol, the signer and the endpoint and derives
defaults for the rest; later changes replace single fields and recompute
nothing.

## Main definitions

* `Service`: the descriptors
* `Service.ofParts`, `Service.define`: the descriptor of a definition
* `Change`, `Service.apply`: replacing a field
* `Change.toDigitalOceanSpaces`: moving to another provider
* `Service.host`, `Service.contentType`: what a descriptor answers
-/

namespace ElmBindgen

/-- A description of how one service is addressed and signed. The fields of type
`Value` hold whatever they were set to; null stands for unset. -/
structure Service where
  endpointPrefix : String
  apiVersion : String
  protocol : Protocol
  signer : Signer
  targetPrefix : Value
  timestampFormat : TimestampFormat
  endpoint : Endpoint
  jsonVersion : Value
  signingName : Value
  xmlNamespace : Value
  hostRule : HostRule

namespace Service

/-- The target prefix that a definition implies: the prefix in upper case and
the version without hyphens. -/
def defaultTargetPrefix (endpointPrefix apiVersion : String) : String :=
  String.ofList ("AWS".toList ++ Text.upper endpointPrefix.toList ++
    '_' :: apiVersion.toList.filter (· ≠ '-'))

/-- The descriptor that a definition stands for. -/
def ofParts (endpointPrefix apiVersion : String) (protocol : Protocol) (signer : Signer)
    (endpoint : Endpoint) : Service where
  endpointPrefix := endpointPrefix
  apiVersion := apiVersion
  protocol := protocol
  signer := signer
  targetPrefix := .text (defaultTargetPrefix endpointPrefix apiVersion)
  timestampFormat := defaultTimestampFormat protocol
  endpoint := endpoint
  jsonVersion := .null
  signingName := .null
  xmlNamespace := .null
  hostRule := .standard

/-- The descriptor of a definition whose prefix and version are untyped. -/
def define (endpointPrefix apiVersion : Value) (protocol : Protocol) (signer : Signer)
    (endpoint : Endpoint) : Except Fault Service := do
  return ofParts (← endpointPrefix.string) (← apiVersion.string) protocol signer endpoint

/-- Whether a descriptor is addressed globally. -/
def isGlobal (service : Service) : Bool := service.endpoint.isGlobal

/-- The host of a service. -/
def host (service : Service) : Except Fault String :=
  service.hostRule.host service.endpoint (.text service.endpointPrefix)

/-- The region that requests to a service are signed for. -/
def region (service : Service) : Except Fault Value :=
  service.hostRule.region service.endpoint

/-- The name that requests are signed with. -/
def signingService (service : Service) : Value :=
  if service.signingName.isTrue then service.signingName else .text service.endpointPrefix

/-- The content type of requests. -/
def contentType (service : Service) : String :=
  if service.protocol = .restXml then "application/xml; charset=utf-8"
  else if service.jsonVersion.isNull then "application/json; charset=utf-8"
  else "application/x-amz-json-" ++ service.jsonVersion.display ++ "; charset=utf-8"

/-- The content type that responses are asked for in. -/
def acceptType (service : Service) : String :=
  if service.protocol = .restXml then "application/xml" else "application/json"

/-- Equality of all fields. -/
def same (a b : Service) : Bool :=
  a.endpointPrefix == b.endpointPrefix && a.apiVersion == b.apiVersion &&
  a.protocol == b.protocol && a.signer == b.signer &&
  a.targetPrefix.same b.targetPrefix && a.timestampFormat == b.timestampFormat &&
  a.endpoint.same b.endpoint && a.jsonVersion.same b.jsonVersion &&
  a.signingName.same b.signingName && a.xmlNamespace.same b.xmlNamespace &&
  a.hostRule.same b.hostRule

/-- The untyped values in a descriptor. -/
def parameters (service : Service) : List Value :=
  [service.targetPrefix] ++ service.endpoint.parameters ++
    [service.jsonVersion, service.signingName, service.xmlNamespace] ++
    service.hostRule.parameters

end Service

/-- A replacement of one field of a descriptor. -/
inductive Change where
  | jsonVersion (value : Value)
  | signingName (value : Value)
  | targetPrefix (value : Value)
  | timestampFormat (format : TimestampFormat)
  | xmlNamespace (value : Value)
  | hostRule (rule : HostRule)

/-- The change that moves a descriptor to DigitalOcean Spaces. -/
def Change.toDigitalOceanSpaces : Change := .hostRule .digitalOceanSpaces

namespace Service

/-- A descriptor with one field replaced. -/
def apply (service : Service) : Change → Service
  | .jsonVersion value => { service with jsonVersion := value }
  | .signingName value => { service with signingName := value }
  | .targetPrefix value => { service with targetPrefix := value }
  | .timestampFormat format => { service with timestampFormat := format }
  | .xmlNamespace value => { service with xmlNamespace := value }
  | .hostRule rule => { service with hostRule := rule }

end Service

end ElmBindgen
