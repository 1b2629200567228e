import ElmBindgen.Proofs.Service.LastWrite

/-!
# Providers in a session

Of all that is done in a session, its registry keeps what was registered, and that as a log would:
under a name it finds the rule that was registered last, and it lists the names in the order in
which each of them was registered first. The built-in providers count as registered before all
others. Descriptors are made from what the registry finds at that step. They take their rule along,
so nothing that is registered later reaches them.

## Main definitions

* `Registrations`: the registrations in a session, with what they come to
* `Registrations.after`: the registrations that some steps make
* `Registry.Follows`: a registry that answers as a log of registrations tells
* `Session.Provides`: what a session answers about its providers

## Main results

* `Registry.Follows.register`: registering a rule adds to the log
* `Session.attempt_cases`: what a step can do to a session
* `Session.follows_perform`, `Session.follows_performAll`: a registry follows the log of all steps
* `Session.performAll_provides`: what a session answers about its providers after any steps
-/

namespace ElmBindgen

/-! ## Logs of registrations -/

/-- Names and the rules that were registered under them, in order. -/
abbrev Registrations := List (String × HostRule)

namespace Registrations

/-- The providers that are there from the start. -/
def builtin : Registrations :=
  [("aws", .standard), ("digitalocean-spaces", .digitalOceanSpaces)]

/-- The rule that was registered last under a name. -/
def latest? (log : Registrations) (name : String) : Option HostRule := log.reverse.lookup name

/-- The rule of a provider: the one that was registered last under its name, or else the one that
is built in. -/
def rule? (log : Registrations) (name : String) : Option HostRule :=
  (latest? log name).or (latest? builtin name)

/-- The names of all providers, the built-in ones first, each where it was registered first. -/
def names (log : Registrations) : List String :=
  (builtin.map Prod.fst ++ log.map Prod.fst).eraseDups

/-- The rule that a source stands for. -/
def stands? (log : Registrations) : Session.RuleSource → Option HostRule
  | .rule rule => some rule
  | .provider (.text name) => rule? log name
  | .provider _ => none

/-- What a step adds to the registrations. -/
def made (log : Registrations) : Session.Step → Registrations
  | .register (.text name) source => ((stands? log source).map fun rule => (name, rule)).toList
  | _ => []

/-- The registrations after some more steps. -/
def after (log : Registrations) (steps : List Session.Step) : Registrations :=
  steps.foldl (fun log step => log ++ made log step) log

variable {log : Registrations} {name : String} {rule : HostRule}

theorem rule?_concat (other : String) :
    rule? (log ++ [(name, rule)]) other = if other = name then some rule else rule? log other := by
  rw [rule?, latest?, List.reverse_concat, List.lookup_cons]
  by_cases same : other = name
  · rw [if_pos same, beq_iff_eq.mpr same]
    rfl
  · rw [if_neg same, beq_false_of_ne same]
    rfl

/-- A name is listed where it was registered first, and so one that is known does not move. -/
theorem names_concat :
    names (log ++ [(name, rule)]) =
      if name ∈ names log then names log else names log ++ [name] := by
  rw [names, List.map_append, List.map_singleton, ← List.append_assoc, List.eraseDups_append,
    List.cons_removeAll, ← names]
  -- The name is added at the end of the log, where only the first of several is kept.
  by_cases known : name ∈ names log
  · rw [if_pos known]
    rw [names, List.mem_eraseDups] at known
    simp [known]
  · rw [if_neg known]
    rw [names, List.mem_eraseDups] at known
    simp [known, List.eraseDups_cons]

/-- The providers that have a rule are those that are listed. -/
theorem isSome_rule?_iff : (rule? log name).isSome ↔ name ∈ names log := by
  have latest (log : Registrations) : (latest? log name).isSome ↔ name ∈ log.map Prod.fst := by
    rw [latest?, List.lookup_isSome_iff]
    simp
  rw [rule?, Option.isSome_or, Bool.or_eq_true, latest, latest, or_comm, ← List.mem_append,
    names, List.mem_eraseDups]

end Registrations

/-! ## Registries -/

namespace Registry

/-- The rule under a name. -/
def rule? (registry : Registry) (name : String) : Option HostRule :=
  (registry.entries.find? fun entry => entry.1.key? = some (.text name)).map Prod.snd

theorem find_text (registry : Registry) (name : String) :
    registry.find (.text name) =
      (registry.rule? name).elim (.error (.unknownProvider (.text name))) .ok := by
  have keyed : (Value.text name).key = .ok (.text name) := rfl
  rw [find, keyed, rule?]
  simp only [bind, Except.bind]
  cases registry.entries.find? fun entry => entry.1.key? = some (.text name) with
  | none => rfl
  | some entry => rfl

/-- Putting a rule under a key changes what is found under this key and nothing else. -/
theorem find?_put {key : Key} {name : Value} (keyed : name.key? = some key) (other : Key)
    (rule : HostRule) (entries : List (Value × HostRule)) :
    ((put key name rule entries).find? fun entry => entry.1.key? = some other).map Prod.snd =
      if other = key then some rule
      else (entries.find? fun entry => entry.1.key? = some other).map Prod.snd := by
  induction entries with
  | nil =>
    by_cases same : other = key <;> simp [put, keyed, same, eq_comm (a := key)]
  | cons entry rest ih =>
    unfold put
    by_cases here : entry.1.key? = some key
    · -- The entry of the key stands here, so no other key is found at this place.
      rw [if_pos here]
      by_cases same : other = key <;> simp [here, same, eq_comm (a := key)]
    · rw [if_neg here, List.find?_cons, List.find?_cons]
      by_cases found : entry.1.key? = some other
      · have different : other ≠ key := by
          rintro rfl
          exact here found
        simp [found, different]
      · simp [found, ih]

/-- Putting a rule under a key leaves the names as they are, or adds one at the end. -/
theorem names_put {key : Key} {name : Value} (rule : HostRule)
    (entries : List (Value × HostRule)) :
    (put key name rule entries).map Prod.fst =
      if ∃ entry ∈ entries, entry.1.key? = some key then entries.map Prod.fst
      else entries.map Prod.fst ++ [name] := by
  induction entries with
  | nil => simp [put]
  | cons entry rest ih =>
    unfold put
    by_cases here : entry.1.key? = some key
    · simp [here]
    · simp only [here, if_false, List.map_cons, ih, List.exists_mem_cons_iff, false_or]
      split <;> rfl

/-- A registry that answers as a log of registrations tells. -/
structure Follows (registry : Registry) (log : Registrations) : Prop where
  names : registry.names = (Registrations.names log).map .text
  rule? : ∀ name, registry.rule? name = Registrations.rule? log name

/-- Nothing has been registered yet, but the built-in providers are there. -/
theorem follows_builtin : builtin.Follows [] where
  names := by
    simp [Registry.names, builtin, Registrations.names, Registrations.builtin, List.eraseDups_cons]
  rule? name := by
    change _ = Registrations.builtin.reverse.lookup name
    by_cases aws : name = "aws"
    · rw [aws]
      rfl
    · by_cases spaces : name = "digitalocean-spaces"
      · rw [spaces]
        rfl
      · simp [Registry.rule?, builtin, Registrations.builtin, Value.key?, List.lookup_cons,
          beq_false_of_ne aws, beq_false_of_ne spaces, Ne.symm aws, Ne.symm spaces]

/-- Registering a rule adds to the log. -/
theorem Follows.register {registry after : Registry} {log : Registrations}
    (follows : registry.Follows log) {name : String} {rule : HostRule}
    (registered : registry.register (.text name) rule = .ok after) :
    after.Follows (log ++ [(name, rule)]) := by
  cases registered
  constructor
  case names =>
    have known : (∃ entry ∈ registry.entries, entry.1.key? = some (.text name)) ↔
        name ∈ Registrations.names log := by
      rw [← Registrations.isSome_rule?_iff, ← follows.rule?, Registry.rule?, Option.isSome_map,
        List.find?_isSome]
      simp
    rw [Registry.names, names_put, Registrations.names_concat, ← Registry.names, follows.names]
    simp only [known]
    split <;> simp
  case rule? =>
    intro other
    rw [Registry.rule?, find?_put rfl, ← Registry.rule?, follows.rule?, Registrations.rule?_concat]
    simp only [Key.text.injEq]

end Registry

/-! ## Steps of a session -/

namespace Session

/-- Whether a source names a provider by a text, if it does. -/
def RuleSource.isTextual : RuleSource → Bool
  | .rule _ => true
  | .provider (.text _) => true
  | .provider _ => false

/-- Whether a step names providers by texts, if it registers one. -/
def Step.isTextual : Step → Bool
  | .register (.text _) source => source.isTextual
  | .register _ _ => false
  | _ => true

variable {session after : Session} {step : Step} {answer : Answer}

/-- A step that succeeds changes nothing, makes a descriptor or registers a rule. -/
theorem attempt_cases (done : session.attempt step = .ok (answer, after)) :
    after = session ∨ (∃ service, after = session.push service) ∨
      ∃ name source rule registry, step = .register name source ∧
        session.rule source = .ok rule ∧ session.registry.register name rule = .ok registry ∧
        after = { session with registry := registry } := by
  cases step with
  | define endpointPrefix apiVersion protocol signer endpoint =>
    obtain ⟨_, -, done⟩ := Fault.bind_ok_iff.mp done
    obtain ⟨_, -, done⟩ := Fault.bind_ok_iff.mp done
    obtain ⟨service, -, done⟩ := Fault.bind_ok_iff.mp done
    cases done
    exact .inr (.inl ⟨service, rfl⟩)
  | change on request =>
    obtain ⟨_, -, done⟩ := Fault.bind_ok_iff.mp done
    obtain ⟨_, -, done⟩ := Fault.bind_ok_iff.mp done
    cases done
    exact .inr (.inl ⟨_, rfl⟩)
  | register name source =>
    obtain ⟨rule, found, done⟩ := Fault.bind_ok_iff.mp done
    obtain ⟨registry, registered, done⟩ := Fault.bind_ok_iff.mp done
    cases done
    exact .inr (.inr ⟨name, source, rule, registry, rfl, found, registered, rfl⟩)
  | assign field => cases field <;> cases done
  | compare a b | compareRules a b =>
    obtain ⟨_, -, done⟩ := Fault.bind_ok_iff.mp done
    obtain ⟨_, -, done⟩ := Fault.bind_ok_iff.mp done
    obtain ⟨_, -, done⟩ := Fault.bind_ok_iff.mp done
    cases done
    exact .inl rfl
  | providers | compareEndpoints a b | endpointLiteral endpoint =>
    cases done
    exact .inl rfl
  | _ =>
    obtain ⟨_, -, done⟩ := Fault.bind_ok_iff.mp done
    cases done
    exact .inl rfl

/-- Likewise for any step, since one that fails changes nothing. -/
theorem perform_cases (session : Session) (step : Step) :
    (session.perform step).2 = session ∨
      (∃ service, (session.perform step).2 = session.push service) ∨
      ∃ name source rule registry, step = .register name source ∧
        session.rule source = .ok rule ∧ session.registry.register name rule = .ok registry ∧
        (session.perform step).2 = { session with registry := registry } := by
  unfold perform
  split
  · next done => exact attempt_cases done
  · exact .inl rfl

/-- What a session keeps: its descriptors with their numbers, and the places of its names. -/
structure Grows (session later : Session) : Prop where
  services : session.services <+: later.services
  names : session.registry.names <+: later.registry.names

namespace Grows

theorem refl (session : Session) : Grows session session := ⟨List.prefix_rfl, List.prefix_rfl⟩

theorem trans {session later last : Session} (first : Grows session later)
    (second : Grows later last) : Grows session last :=
  ⟨first.services.trans second.services, first.names.trans second.names⟩

theorem perform (session : Session) (step : Step) : Grows session (session.perform step).2 := by
  obtain same | ⟨service, same⟩ | ⟨name, source, rule, registry, -, -, registered, same⟩ :=
    session.perform_cases step
  · rw [same]
    exact refl session
  · rw [same]
    exact ⟨List.prefix_append _ _, List.prefix_rfl⟩
  · rw [same]
    obtain ⟨key, -, made⟩ := Fault.bind_ok_iff.mp registered
    cases made
    refine ⟨List.prefix_rfl, ?_⟩
    rw [Registry.names, Registry.names, Registry.names_put]
    split
    · exact List.prefix_rfl
    · exact List.prefix_append _ _

/-- Whatever is done, a session keeps its descriptors and the places of its names. -/
theorem performAll (session : Session) (steps : List Step) :
    Grows session (session.performAll steps).2 := by
  induction steps generalizing session with
  | nil => exact refl session
  | cons step rest ih => exact (perform session step).trans (ih _)

end Grows

/-- Descriptors are numbered from the first one on. -/
theorem service_of_getElem? {session : Session} {number : ℕ} {service : Service}
    (found : session.services[number]? = some service) : session.service number = .ok service := by
  obtain ⟨inside, -⟩ := List.getElem?_eq_some_iff.mp found
  have position : Value.positionOf session.services.length number = .ok number := by
    have nonnegative : ¬(number : Int) < 0 := by omega
    simp [Value.positionOf, nonnegative, inside]
  rw [Session.service, position, Fault.bind_ok_iff]
  exact ⟨number, rfl, by rw [found]; rfl⟩

/-- A descriptor that a session has made keeps its number, whatever is done. -/
theorem service_performAll (session : Session) (service : Service) (steps : List Step) :
    (((session.push service).performAll steps).2.service session.services.length) =
      .ok service := by
  apply service_of_getElem?
  -- The descriptor is the last one when it is made, and nothing is ever put in front of it.
  have kept := Grows.performAll (session.push service) steps
  have inside : session.services.length < (session.push service).services.length := by
    simp [push]
  rw [List.prefix_iff_getElem?.mp kept.services _ inside]
  simp [push]

/-! ## Providers of a session -/

/-- A step that does not register anything leaves the registry as it is. -/
theorem registry_perform (session : Session) {step : Step}
    (other : ∀ name source, step ≠ .register name source) :
    (session.perform step).2.registry = session.registry := by
  obtain same | ⟨service, same⟩ | ⟨name, source, -, -, registers, -⟩ := session.perform_cases step
  · rw [same]
  · rw [same]
    rfl
  · exact absurd registers (other name source)

/-- A descriptor that is given to a provider takes over its rule, if there is one. -/
theorem perform_change_provider {on : Int} {service : Service}
    (chosen : session.service on = .ok service) (name : Value) :
    session.perform (.change on (.rule (.provider name))) =
      match session.registry.find name with
      | .ok rule => (.ok (.service (service.apply (.hostRule rule))),
          session.push (service.apply (.hostRule rule)))
      | .error fault => (.error fault, session) := by
  rw [perform, attempt, chosen]
  simp only [changeOf, rule, bind, Except.bind]
  cases session.registry.find name <;> rfl

section Follows

variable {log : Registrations} (follows : session.registry.Follows log)

include follows

/-- A provider has the rule that the log tells. -/
theorem find_of_follows (name : String) :
    session.registry.find (.text name) =
      (log.rule? name).elim (.error (.unknownProvider (.text name))) .ok := by
  rw [Registry.find_text, follows.rule?]

/-- A source stands for the rule that the log tells. -/
theorem rule_of_follows {source : RuleSource} (textual : source.isTextual) :
    (∃ fault, session.rule source = .error fault ∧ log.stands? source = none) ∨
      ∃ rule, session.rule source = .ok rule ∧ log.stands? source = some rule := by
  unfold RuleSource.isTextual at textual
  split at textual
  · next rule => exact .inr ⟨rule, rfl, rfl⟩
  · next name =>
    have found := find_of_follows follows name
    cases known : log.rule? name with
    | none => exact .inl ⟨_, by rw [Session.rule, found, known]; rfl, known⟩
    | some rule => exact .inr ⟨rule, by rw [Session.rule, found, known]; rfl, known⟩
  · cases textual

/-- A step adds to the log what it registers. -/
theorem follows_perform (textual : step.isTextual) :
    (session.perform step).2.registry.Follows (log ++ log.made step) := by
  unfold Step.isTextual at textual
  split at textual
  · next name source =>
    obtain ⟨fault, missing, unknown⟩ | ⟨rule, found, known⟩ := rule_of_follows follows textual
    · -- The source names no provider, so the step fails and nothing is added.
      have step : session.attempt (.register (.text name) source) = .error fault := by
        rw [attempt, missing]
        rfl
      rw [perform, step, Registrations.made, unknown]
      simpa using follows
    · obtain ⟨registry, registered⟩ : ∃ registry,
          session.registry.register (.text name) rule = .ok registry := ⟨_, rfl⟩
      have step : session.attempt (.register (.text name) source) =
          .ok (.done, { session with registry := registry }) := by
        rw [attempt, found, Fault.bind_ok_iff]
        exact ⟨rule, rfl, Fault.bind_ok_iff.mpr ⟨registry, registered, rfl⟩⟩
      rw [perform, step, Registrations.made, known]
      exact follows.register registered
  · cases textual
  · next other =>
    have none : log.made step = [] := by
      cases step with
      | register name source => exact absurd rfl (other name source)
      | _ => rfl
    rw [registry_perform session other, none, List.append_nil]
    exact follows

end Follows

/-- A registry follows the log of all steps. -/
theorem follows_performAll {log : Registrations} {steps : List Step} {session : Session}
    (follows : session.registry.Follows log) (textual : ∀ step ∈ steps, step.isTextual) :
    (session.performAll steps).2.registry.Follows (log.after steps) := by
  induction steps generalizing session log with
  | nil => exact follows
  | cons step rest ih =>
    obtain ⟨first, others⟩ := List.forall_mem_cons.mp textual
    exact ih (follows_perform follows first) others

/-- What a session answers about its providers, as far as its registrations tell. -/
structure Provides (session : Session) (log : Registrations) : Prop where
  /-- A provider is known by the rule that was registered last under its name or, if none was, by
  the one that is built in. -/
  known : ∀ name rule, (log.latest? name).or (Registrations.builtin.latest? name) = some rule →
    session.perform (.provider (.text name)) = (.ok (.rule rule), session)
  /-- Nothing else is known, and asking for it changes nothing. -/
  unknown : ∀ name, (log.latest? name).or (Registrations.builtin.latest? name) = none →
    session.perform (.provider (.text name)) = (.error (.unknownProvider (.text name)), session) ∧
      ∀ on service, session.service on = .ok service →
        session.perform (.change on (.rule (.provider (.text name)))) =
          (.error (.unknownProvider (.text name)), session)
  /-- The built-in providers are listed first and then the others, each where it was registered
  first. -/
  listed : session.perform .providers = (.ok (.names (log.names.map .text)), session)
  /-- Whatever is done later, no name moves. -/
  stays : ∀ steps, session.registry.names <+: (session.performAll steps).2.registry.names
  /-- A descriptor that is given to a provider answers by the rule that the provider has at this
  step, and keeps doing so whatever is done later. -/
  keeps : ∀ name rule, (log.latest? name).or (Registrations.builtin.latest? name) = some rule →
    ∀ on service, session.service on = .ok service →
      ∃ made, session.perform (.change on (.rule (.provider (.text name)))) =
          (.ok (.service made), session.push made) ∧
        made = service.apply (.hostRule rule) ∧
        made.host = rule.host service.endpoint (.text service.endpointPrefix) ∧
        made.region = rule.region service.endpoint ∧
        ∀ steps, ((session.push made).performAll steps).2.service session.services.length = .ok made

/-- Whatever descriptors there are, after any steps that name providers by texts a session answers
about its providers what the registrations among these steps tell. -/
theorem performAll_provides (services : List Service) {steps : List Step}
    (textual : ∀ step ∈ steps, step.isTextual) :
    ((Session.mk services .builtin).performAll steps).2.Provides
      (Registrations.after [] steps) := by
  have follows : ((Session.mk services .builtin).performAll steps).2.registry.Follows
      (Registrations.after [] steps) := follows_performAll Registry.follows_builtin textual
  -- From here on it matters only that the registry follows the log, not which steps led to it.
  generalize ((Session.mk services .builtin).performAll steps).2 = session at follows ⊢
  generalize Registrations.after [] steps = log at follows ⊢
  constructor
  case known =>
    intro name rule known
    have found := find_of_follows follows name
    rw [Registrations.rule?, known] at found
    rw [perform, attempt, found]
    rfl
  case unknown =>
    intro name unknown
    have missing := find_of_follows follows name
    rw [Registrations.rule?, unknown] at missing
    constructor
    · rw [perform, attempt, missing]
      rfl
    · intro on service chosen
      rw [perform_change_provider chosen, missing]
      rfl
  case listed =>
    rw [← follows.names]
    rfl
  case stays =>
    exact fun steps => (Grows.performAll session steps).names
  case keeps =>
    intro name rule known on service chosen
    have found := find_of_follows follows name
    rw [Registrations.rule?, known] at found
    refine ⟨service.apply (.hostRule rule), ?_, rfl, rfl, rfl, session.service_performAll _⟩
    rw [perform_change_provider chosen, found]
    rfl

/-- A provider is registered, copied under another name and registered again, and then a built-in
one is replaced. -/
def leasing : List Step := [
  .define (.text "s3") (.text "2006-03-01") (.text "rest-xml") (.text "s3") .global,
  .register (.text "mirror") (.rule (.aws (.text "mirror.test") (.text "home"))),
  .register (.text "copy") (.provider (.text "mirror")),
  .register (.text "mirror") (.rule .digitalOceanSpaces),
  .register (.text "aws") (.rule .abstract),
  .provider (.text "nowhere")]

/-- The copy has kept the first rule, and no name has moved. A descriptor that is given to the
provider stays with its second rule. -/
theorem leasing_provides :
    (∀ step ∈ leasing, step.isTextual) ∧ ∃ session, (start.performAll leasing).2 = session ∧
      session.perform .providers = (.ok (.names
        [.text "aws", .text "digitalocean-spaces", .text "mirror", .text "copy"]), session) ∧
      session.perform (.provider (.text "aws")) = (.ok (.rule .abstract), session) ∧
      session.perform (.provider (.text "copy")) =
        (.ok (.rule (.aws (.text "mirror.test") (.text "home"))), session) ∧
      session.perform (.provider (.text "nowhere")) =
        (.error (.unknownProvider (.text "nowhere")), session) ∧
      ∃ made, session.perform (.change (-1) (.rule (.provider (.text "mirror")))) =
          (.ok (.service made), session.push made) ∧
        made.host = .ok "nyc3.digitaloceanspaces.com" ∧
        ∀ steps, ((session.push made).performAll steps).2.service 1 = .ok made := by
  have textual : ∀ step ∈ leasing, step.isTextual := by decide
  have provides := performAll_provides [] textual
  obtain ⟨made, retargeted, -, host, -, keeps⟩ := provides.keeps "mirror" _ rfl (-1) _ rfl
  exact ⟨textual, _, rfl, provides.listed, provides.known "aws" _ rfl,
    provides.known "copy" _ rfl, (provides.unknown "nowhere" rfl).1, made, retargeted, host, keeps⟩

end Session

end ElmBindgen
