import ElmBindgen.Fault

/-!
# Endpoints and host rules

A service is addressed globally, with one host for every region, or regionally,
with one host per region. A host rule turns an endpoint into a host and into the
region that requests are signed for; both answers come from the one rule. Besides the
rules of two providers there are those that users define.

## Main definitions

* `Endpoint`: the ways of addressing a service
* `CustomRule`: a naming rule with answers of its own
* `HostRule`: the naming rules of the providers
* `HostRule.host`, `HostRule.region`: the answers of a rule
-/

namespace ElmBindgen

/-- A way of addressing a service. A plain endpoint is neither global nor bound
to a region; host rules treat it like a global one. -/
inductive Endpoint where
  | global
  | plain
  | regional (region : Value)

namespace Endpoint

/-- Whether an endpoint is the global one. -/
def isGlobal : Endpoint → Bool
  | global => true
  | plain => false
  | regional _ => false

/-- Equality of endpoints. A plain endpoint has nothing to compare and equals no
other. -/
def same : Endpoint → Endpoint → Bool
  | global, global => true
  | regional x, regional y => x.same y
  | _, _ => false

/-- What an endpoint was given. -/
def parameters : Endpoint → List Value
  | global => []
  | plain => []
  | regional region => [region]

/-- The literal form of an endpoint. -/
def literal : Endpoint → String
  | global => "GLOBAL"
  | plain => "PLAIN"
  | regional region => "RegionalEndpoint(region=" ++ region.literal ++ ")"

end Endpoint

/-- A naming rule that a user defines: its kind, what it was given, and its answers,
whatever they are. -/
structure CustomRule where
  kind : String
  fields : List (String × Value)
  host : Endpoint → Value → Except Fault String
  region : Endpoint → Except Fault Value

/-- How a provider names its hosts. AWS puts the endpoint prefix, the region of a
regional endpoint and a suffix one after another; Spaces puts the region in front
of a fixed suffix, whatever the prefix. The abstract rule answers nothing, and any
other rule what its user has defined. -/
inductive HostRule where
  | aws (dnsSuffix globalRegion : Value)
  | spaces (defaultRegion : Value)
  | abstract
  | custom (rule : CustomRule)

namespace HostRule

/-- The standard rule. -/
def standard : HostRule := aws (.text "amazonaws.com") (.text "us-east-1")

/-- The rule of DigitalOcean Spaces. -/
def digitalOceanSpaces : HostRule := spaces (.text "nyc3")

/-- The region that requests to an endpoint are signed for. -/
def region (rule : HostRule) (endpoint : Endpoint) : Except Fault Value :=
  match rule, endpoint with
  | abstract, _ => .error .notImplemented
  | custom rule, endpoint => rule.region endpoint
  | _, .regional region => .ok region
  | aws _ globalRegion, _ => .ok globalRegion
  | spaces defaultRegion, _ => .ok defaultRegion

/-- The host of an endpoint, for a service with the given endpoint prefix. -/
def host (rule : HostRule) (endpoint : Endpoint) (endpointPrefix : Value) :
    Except Fault String :=
  match rule with
  | abstract => .error .notImplemented
  | aws dnsSuffix _ =>
    match endpoint with
    | .regional region =>
      .ok (endpointPrefix.display ++ "." ++ region.display ++ "." ++ dnsSuffix.display)
    | _ => .ok (endpointPrefix.display ++ "." ++ dnsSuffix.display)
  | spaces defaultRegion =>
    match endpoint with
    | .regional region => .ok (region.display ++ ".digitaloceanspaces.com")
    | _ => .ok (defaultRegion.display ++ ".digitaloceanspaces.com")
  | custom rule => rule.host endpoint endpointPrefix

/-- Equality of host rules: rules of the same kind with the same parameters. -/
def same : HostRule → HostRule → Bool
  | aws suffix region, aws suffix' region' => suffix.same suffix' && region.same region'
  | spaces region, spaces region' => region.same region'
  | abstract, abstract => true
  | custom rule, custom rule' =>
    rule.kind == rule'.kind && (Value.object rule.fields).same (.object rule'.fields)
  | _, _ => false

/-- What a host rule was given. -/
def parameters : HostRule → List Value
  | aws dnsSuffix globalRegion => [dnsSuffix, globalRegion]
  | spaces defaultRegion => [defaultRegion]
  | abstract => []
  | custom rule => rule.fields.map Prod.snd

end HostRule

end ElmBindgen
