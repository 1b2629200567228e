import ElmBindgen.Service.Descriptor

/-!
# Sessions

A session defines descriptors, changes them and registers providers. A descriptor
is never modified: every change makes a new one, which is numbered after the ones
before it. A step that fails changes nothing.

## Main definitions

* `Session`: the descriptors made so far and the registered providers
* `Session.Step`: what can be done in a session
* `Session.perform`: the answer of a step and the session after it
-/

namespace ElmBindgen

/-- The descriptors made so far, in order, and the registered providers. -/
structure Session where
  services : List Service
  registry : Registry

namespace Session

/-! ## Steps and answers -/

/-- A host rule, given directly or by the name of its provider. -/
inductive RuleSource where
  | rule (rule : HostRule)
  | provider (name : Value)

/-- A change to a descriptor, with its parts not yet looked up. -/
inductive Request where
  | jsonVersion (value : Value)
  | signingName (value : Value)
  | targetPrefix (value : Value)
  | timestampFormat (word : Value)
  | xmlNamespace (value : Value)
  | rule (source : RuleSource)
  | toDigitalOceanSpaces

/-- What can be done in a session. A descriptor is chosen by its number, and a
negative number counts from the last one back. -/
inductive Step where
  | define (endpointPrefix apiVersion protocol signer : Value) (endpoint : Endpoint)
  | change (on : Int) (request : Request)
  | recall (on : Int)
  | assign (field : Value)
  | compare (a b : Int)
  | register (name : Value) (source : RuleSource)
  | provider (name : Value)
  | providers
  | resolve (source : RuleSource) (endpoint : Endpoint) (endpointPrefix : Value)
  | compareRules (a b : RuleSource)
  | compareEndpoints (a b : Endpoint)
  | endpointLiteral (endpoint : Endpoint)

/-- What a step answers. -/
inductive Answer where
  | service (service : Service)
  | rule (rule : HostRule)
  | names (names : List Value)
  | address (host : Except Fault String) (region : Except Fault Value) (isGlobal : Bool)
  | equal (same : Bool)
  | verdict (same : Bool)
  | text (s : String)
  | done

/-! ## Performing steps -/

/-- A session in which nothing has been done. -/
def start : Session := ⟨[], .builtin⟩

/-- The descriptor with a number. -/
def service (session : Session) (number : Int) : Except Fault Service := do
  match session.services[← Value.positionOf session.services.length number]? with
  | some service => return service
  | none => throw .outOfRange

/-- The host rule that a source stands for. -/
def rule (session : Session) : RuleSource → Except Fault HostRule
  | .rule rule => .ok rule
  | .provider name => session.registry.find name

/-- The change that a request stands for. -/
def changeOf (session : Session) : Request → Except Fault Change
  | .jsonVersion value => .ok (.jsonVersion value)
  | .signingName value => .ok (.signingName value)
  | .targetPrefix value => .ok (.targetPrefix value)
  | .timestampFormat word => do
    return .timestampFormat (← timestampFormats.fromWire (.value word))
  | .xmlNamespace value => .ok (.xmlNamespace value)
  | .rule source => do return .hostRule (← session.rule source)
  | .toDigitalOceanSpaces => .ok .toDigitalOceanSpaces

/-- The session with one more descriptor. -/
def push (session : Session) (service : Service) : Session :=
  { session with services := session.services ++ [service] }

/-- The answer to a comparison. Equal things are looked up under the same keys, so
the values in them are asked for theirs; a list or an object has none. -/
def compared (same : Bool) (parameters : List Value) : Except Fault Answer := do
  if same then
    let _ ← parameters.mapM Value.key
  return .equal same

/-- The answer of a step, and the session after it, if the step succeeds. -/
def attempt (session : Session) : Step → Except Fault (Answer × Session)
  | .define endpointPrefix apiVersion protocol signer endpoint => do
    let protocol ← protocols.fromWire (.value protocol)
    let signer ← signers.fromWire (.value signer)
    let service ← Service.define endpointPrefix apiVersion protocol signer endpoint
    return (.service service, session.push service)
  | .change on request => do
    let service ← session.service on
    let service := service.apply (← session.changeOf request)
    return (.service service, session.push service)
  | .recall on => do return (.service (← session.service on), session)
  | .assign (.text field) => throw (.frozenField field)
  | .assign _ => throw .wrongType
  | .compare a b => do
    let a ← session.service a
    let b ← session.service b
    return (← compared (a.same b) a.parameters, session)
  | .register name source => do
    let rule ← session.rule source
    return (.done, { session with registry := ← session.registry.register name rule })
  | .provider name => do return (.rule (← session.registry.find name), session)
  | .providers => return (.names session.registry.names, session)
  | .resolve source endpoint endpointPrefix => do
    let rule ← session.rule source
    return (.address (rule.host endpoint endpointPrefix) (rule.region endpoint)
      endpoint.isGlobal, session)
  | .compareRules a b => do
    let a ← session.rule a
    let b ← session.rule b
    return (← compared (a.same b) a.parameters, session)
  | .compareEndpoints a b => return (.verdict (a.same b), session)
  | .endpointLiteral endpoint => return (.text endpoint.literal, session)

/-- The answer of a step and the session after it. -/
def perform (session : Session) (step : Step) : Except Fault Answer × Session :=
  match session.attempt step with
  | .ok (answer, after) => (.ok answer, after)
  | .error fault => (.error fault, session)

end Session

end ElmBindgen
