import ElmBindgen.Proofs.EnumTable.TwoWay
import ElmBindgen.Proofs.Service.Hosts

/-!
# Telling host rules apart

Host rules are compared by their provider and their parameters. If the parameters are texts, this
is a comparison of what the rules answer: the global endpoint shows the suffix and the region of an
AWS rule and the region of a Spaces rule, and a second prefix shows which of the two providers a
rule is of, since Spaces leaves the prefix out.

## Main definitions

* `Endpoint.Textual`, `HostRule.Textual`: endpoints and rules that were given texts
* `HostRule.AgreeFor`: the same host and the same region for an endpoint and a prefix

## Main results

* `HostRule.host_aws_ne_spaces`: an AWS rule follows the prefix, which a Spaces rule does not
* `HostRule.eq_of_agreeFor`: two prefixes for the global endpoint tell all rules apart
* `HostRule.same_iff_agreeFor`: equality of rules is equality of what they answer
-/

namespace ElmBindgen

/-- The global endpoint, or a region that is a text. -/
inductive Endpoint.Textual : Endpoint → Prop
  | global : Textual .global
  | regional (region : String) : Textual (.regional (.text region))

namespace HostRule

/-- A rule of one of the providers whose parameters are texts. -/
inductive Textual : HostRule → Prop
  | aws (dnsSuffix globalRegion : String) : Textual (.aws (.text dnsSuffix) (.text globalRegion))
  | spaces (defaultRegion : String) : Textual (.spaces (.text defaultRegion))

/-- Two rules give the same host and the same region for an endpoint and a prefix. -/
def AgreeFor (endpoint : Endpoint) (endpointPrefix : String) (rule other : HostRule) : Prop :=
  rule.host endpoint (.text endpointPrefix) = other.host endpoint (.text endpointPrefix) ∧
    rule.region endpoint = other.region endpoint

/-! ## Hosts of the two providers -/

/-- What an AWS host goes on with after the prefix does not depend on the prefix. -/
theorem exists_host_aws (dnsSuffix globalRegion : Value) (endpoint : Endpoint) :
    ∃ rest, ∀ endpointPrefix, (aws dnsSuffix globalRegion).host endpoint (.text endpointPrefix) =
      .ok (endpointPrefix ++ rest) := by
  cases endpoint with
  | regional region =>
    exact ⟨"." ++ region.display ++ "." ++ dnsSuffix.display, fun _ => by
      simp [host, Value.display, String.append_assoc]⟩
  | _ =>
    exact ⟨"." ++ dnsSuffix.display, fun _ => by simp [host, Value.display, String.append_assoc]⟩

/-- A Spaces host does not depend on the prefix. -/
theorem host_spaces_eq (defaultRegion : Value) (endpoint : Endpoint)
    (endpointPrefix other : Value) :
    (spaces defaultRegion).host endpoint endpointPrefix =
      (spaces defaultRegion).host endpoint other := by
  cases endpoint <;> rfl

/-- For whatever endpoint, an AWS host and a Spaces host differ for one of any two prefixes. -/
theorem host_aws_ne_spaces (dnsSuffix globalRegion defaultRegion : Value) (endpoint : Endpoint)
    {endpointPrefix other : String} (different : endpointPrefix ≠ other) :
    (aws dnsSuffix globalRegion).host endpoint (.text endpointPrefix) ≠
        (spaces defaultRegion).host endpoint (.text endpointPrefix) ∨
      (aws dnsSuffix globalRegion).host endpoint (.text other) ≠
        (spaces defaultRegion).host endpoint (.text other) := by
  rw [← not_and_or]
  rintro ⟨here, there⟩
  obtain ⟨rest, follows⟩ := exists_host_aws dnsSuffix globalRegion endpoint
  -- The Spaces host is the same for both prefixes, so the AWS host would be, too.
  rw [host_spaces_eq _ _ _ (.text other), ← there, follows, follows, Except.ok.injEq,
    String.append_left_inj] at here
  exact different here

/-! ## Rules and their answers -/

/-- Texts are the same only if they are equal. -/
theorem same_text_iff {text other : String} :
    (Value.text text).same (.text other) ↔ text = other := by
  have keyed : (Value.text other).key? = some (.text other) := rfl
  rw [Value.same_iff keyed]
  simp [Value.key?]

/-- Rules that were given texts are the same only if they are equal. -/
theorem same_iff_eq {rule other : HostRule} (textual : rule.Textual) (textual' : other.Textual) :
    rule.same other ↔ rule = other := by
  cases textual <;> cases textual' <;> simp [same, same_text_iff]

/-- A rule that was given texts answers for every endpoint that was. -/
theorem exists_answers {rule : HostRule} (textual : rule.Textual) {endpoint : Endpoint}
    (addressed : endpoint.Textual) (endpointPrefix : String) :
    ∃ host region, rule.host endpoint (.text endpointPrefix) = .ok host ∧
      rule.region endpoint = .ok (.text region) := by
  cases textual <;> cases addressed <;> exact ⟨_, _, rfl, rfl⟩

/-- Two prefixes for the global endpoint tell all rules apart. -/
theorem eq_of_agreeFor {rule other : HostRule} (textual : rule.Textual) (textual' : other.Textual)
    {endpointPrefix otherPrefix : String} (different : endpointPrefix ≠ otherPrefix)
    (here : AgreeFor .global endpointPrefix rule other)
    (there : AgreeFor .global otherPrefix rule other) : rule = other := by
  cases textual with
  | aws dnsSuffix globalRegion =>
    cases textual' with
    | aws dnsSuffix' globalRegion' =>
      -- The prefix is the same, so the host shows the suffix. The region shows the other one.
      obtain ⟨host, region⟩ := here
      rw [host_aws_global, host_aws_global, Except.ok.injEq, String.append_right_inj] at host
      obtain rfl := host
      obtain rfl : globalRegion = globalRegion' := by simpa [HostRule.region] using region
      rfl
    | spaces defaultRegion =>
      have apart := host_aws_ne_spaces (.text dnsSuffix) (.text globalRegion)
        (.text defaultRegion) .global different
      exact absurd ⟨here.1, there.1⟩ (not_and_or.mpr apart)
  | spaces defaultRegion =>
    cases textual' with
    | aws dnsSuffix globalRegion =>
      have apart := host_aws_ne_spaces (.text dnsSuffix) (.text globalRegion)
        (.text defaultRegion) .global different
      exact absurd ⟨here.1.symm, there.1.symm⟩ (not_and_or.mpr apart)
    | spaces defaultRegion' =>
      obtain rfl : defaultRegion = defaultRegion' := by simpa [HostRule.region] using here.2
      rfl

/-- Two rules that were given texts are the same exactly if they answer alike for all endpoints and
prefixes, and two prefixes for the global endpoint are enough to find out. They answer for all
endpoints. An AWS rule and a Spaces rule never answer alike, whatever they were given: for every
endpoint, the hosts differ for one of any two prefixes. -/
theorem same_iff_agreeFor {rule other : HostRule} (textual : rule.Textual)
    (textual' : other.Textual) :
    (rule.same other ↔ ∀ endpoint endpointPrefix, endpoint.Textual →
      AgreeFor endpoint endpointPrefix rule other) ∧
    (∀ endpointPrefix otherPrefix, endpointPrefix ≠ otherPrefix →
      (rule.same other ↔ AgreeFor .global endpointPrefix rule other ∧
        AgreeFor .global otherPrefix rule other)) ∧
    (∀ endpoint endpointPrefix, endpoint.Textual →
      ∃ host region, rule.host endpoint (.text endpointPrefix) = .ok host ∧
        rule.region endpoint = .ok (.text region)) ∧
    ∀ dnsSuffix globalRegion defaultRegion endpoint endpointPrefix otherPrefix,
      endpointPrefix ≠ otherPrefix →
      (aws dnsSuffix globalRegion).host endpoint (.text endpointPrefix) ≠
          (spaces defaultRegion).host endpoint (.text endpointPrefix) ∨
        (aws dnsSuffix globalRegion).host endpoint (.text otherPrefix) ≠
          (spaces defaultRegion).host endpoint (.text otherPrefix) := by
  have probes {endpointPrefix otherPrefix : String} (different : endpointPrefix ≠ otherPrefix)
      (here : AgreeFor .global endpointPrefix rule other)
      (there : AgreeFor .global otherPrefix rule other) : rule.same other := by
    rw [same_iff_eq textual textual']
    exact eq_of_agreeFor textual textual' different here there
  have agree (same : rule.same other) (endpoint : Endpoint) (endpointPrefix : String) :
      AgreeFor endpoint endpointPrefix rule other := by
    rw [same_iff_eq textual textual'] at same
    rw [same]
    exact ⟨rfl, rfl⟩
  refine ⟨⟨?_, ?_⟩, ?_, ?_, ?_⟩
  · intro same endpoint endpointPrefix _
    exact agree same endpoint endpointPrefix
  · intro all
    exact probes (by decide : "s3" ≠ "iam") (all _ _ .global) (all _ _ .global)
  · intro endpointPrefix otherPrefix different
    exact ⟨fun same => ⟨agree same .global endpointPrefix, agree same .global otherPrefix⟩,
      fun both => probes different both.1 both.2⟩
  · intro endpoint endpointPrefix addressed
    exact exists_answers textual addressed endpointPrefix
  · intro dnsSuffix globalRegion defaultRegion endpoint endpointPrefix otherPrefix different
    exact host_aws_ne_spaces dnsSuffix globalRegion defaultRegion endpoint different

/-- An AWS rule with the suffix and the region of Spaces. -/
def posing : HostRule := aws (.text "digitaloceanspaces.com") (.text "nyc3")

/-- It agrees with the rule of Spaces for one prefix, but only for that. -/
theorem posing_apart :
    posing.Textual ∧ digitalOceanSpaces.Textual ∧
      AgreeFor .global "nyc3" posing digitalOceanSpaces ∧
      ¬posing.same digitalOceanSpaces ∧ ¬AgreeFor .global "s3" posing digitalOceanSpaces := by
  have textual : posing.Textual := .aws _ _
  have textual' : digitalOceanSpaces.Textual := .spaces _
  have here : AgreeFor .global "nyc3" posing digitalOceanSpaces := ⟨rfl, rfl⟩
  have other : ¬posing.same digitalOceanSpaces := by simp [posing, digitalOceanSpaces, same]
  have told := (same_iff_agreeFor textual textual').2.1 "nyc3" "s3" (by decide)
  exact ⟨textual, textual', here, other, fun there => other (told.mpr ⟨here, there⟩)⟩

/-- Rules that were not given texts can be the same and name different hosts: an integer can be
equal to a truth value, but the two are not displayed alike. -/
example : (spaces (.int 1)).same (spaces (.bool true)) ∧
    (spaces (.int 1)).host .global .null = .ok "1.digitaloceanspaces.com" ∧
    (spaces (.bool true)).host .global .null = .ok "True.digitaloceanspaces.com" := ⟨rfl, rfl, rfl⟩

end HostRule

end ElmBindgen
