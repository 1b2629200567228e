import ElmBindgen.Service.Endpoint
import ElmBindgen.Value.Access

/-!
# The registry of providers

Host rules are registered under names. A name keeps the place of its first
registration; registering it again replaces its rule.

## Main definitions

* `Registry`: the registered names and rules
* `Registry.register`, `Registry.find`: writing and reading
* `Registry.names`: the names in order of first registration
-/

namespace ElmBindgen

/-- Registered host rules, in order of first registration. -/
structure Registry where
  entries : List (Value × HostRule)

namespace Registry

/-- The registry with the built-in providers. -/
def builtin : Registry :=
  ⟨[(.text "aws", .standard), (.text "digitalocean-spaces", .digitalOceanSpaces)]⟩

/-- Entries with the rule of a name replaced, or added at the end. -/
def put (key : Key) (name : Value) (rule : HostRule) :
    List (Value × HostRule) → List (Value × HostRule)
  | [] => [(name, rule)]
  | entry :: rest =>
    if entry.1.key? = some key then (entry.1, rule) :: rest else entry :: put key name rule rest

/-- Registers a rule under a name. -/
def register (registry : Registry) (name : Value) (rule : HostRule) :
    Except Fault Registry := do
  return ⟨put (← name.key) name rule registry.entries⟩

/-- The rule registered under a name. -/
def find (registry : Registry) (name : Value) : Except Fault HostRule := do
  let key ← name.key
  match registry.entries.find? (fun entry => entry.1.key? = some key) with
  | some entry => return entry.2
  | none => throw (.unknownProvider name)

/-- The registered names in order of first registration. -/
def names (registry : Registry) : List Value := registry.entries.map Prod.fst

end Registry

end ElmBindgen
