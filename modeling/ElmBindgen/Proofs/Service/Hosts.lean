import ElmBindgen.Proofs.Elm.Lines
import ElmBindgen.Service.Endpoint

/-!
# What a host tells

A host of the AWS rule is the endpoint prefix, the region of a regional endpoint and a suffix, with
dots between them. Prefixes and suffixes hold dots of their own, so a host alone does not tell where
its parts end. Together with the suffix it does: regions are single labels, and so the region is
the last label before the suffix and the prefix is everything before the region.

## Main definitions

* `Dotless`: a text that is a single label
* `labels`: what stands between the dots of a text
* `labelBefore?`: the label directly before a suffix

## Main results

* `append_dot_inj`: a label that follows a text and a dot is told apart from the text
* `HostRule.labelBefore?_host`: the region stands before the suffix
* `HostRule.host_identifies`: which addresses share a host
-/

namespace ElmBindgen

/-! ## Labels -/

/-- A text without a dot. -/
def Dotless (text : String) : Prop := '.' ∉ text.toList

instance (text : String) : Decidable (Dotless text) :=
  inferInstanceAs (Decidable ('.' ∉ text.toList))

/-- What stands between the dots of a text. -/
def labels (text : String) : List String := (text.toList.splitOn '.').map String.ofList

/-- The label directly before a suffix in a host that ends in the suffix. -/
def labelBefore? (suffix host : String) : Option String := do
  (labels (← Elm.before? ("." ++ suffix) host)).getLast?

theorem not_dotless_append_dot (front back : String) : ¬Dotless (front ++ "." ++ back) := by
  simp [Dotless]

/-- A label that follows a text and a dot is the last of the labels. -/
theorem labels_append_dot (front : String) {label : String} (single : Dotless label) :
    labels (front ++ "." ++ label) = labels front ++ [label] := by
  have characters : (front ++ "." ++ label).toList = front.toList ++ '.' :: label.toList := by
    simp
  -- The label is a piece of its own, since there is no dot inside.
  have whole : label.toList.splitOnP (· == '.') = [label.toList] := by
    apply List.splitOnP_eq_singleton
    intro c inside
    apply beq_false_of_ne
    rintro rfl
    exact single inside
  unfold labels
  have divides := List.splitOnP_append_cons (p := (· == '.')) front.toList label.toList
    (beq_self_eq_true '.')
  rw [characters, List.splitOn_eq_splitOnP, List.splitOn_eq_splitOnP, divides, whole,
    List.map_append, List.map_singleton, String.ofList_toList]

/-- A label that follows a text and a dot is told apart from the text, whatever dots the text
holds. -/
theorem append_dot_inj {front other label label' : String} (single : Dotless label)
    (single' : Dotless label') :
    front ++ "." ++ label = other ++ "." ++ label' ↔ front = other ∧ label = label' := by
  constructor
  · intro same
    -- The last of the labels is the one behind the dot.
    have split := congrArg labels same
    rw [labels_append_dot front single, labels_append_dot other single'] at split
    obtain rfl : label = label' := List.singleton_inj.mp (List.append_inj' split rfl).2
    rw [String.append_left_inj, String.append_left_inj] at same
    exact ⟨same, rfl⟩
  · rintro ⟨rfl, rfl⟩
    rfl

namespace HostRule

/-! ## Hosts of the AWS rule -/

variable (suffix : String) (globalRegion : Value)

@[simp]
theorem host_aws_global (endpointPrefix : String) :
    (aws (.text suffix) globalRegion).host .global (.text endpointPrefix) =
      .ok (endpointPrefix ++ "." ++ suffix) := rfl

@[simp]
theorem host_aws_regional (endpointPrefix region : String) :
    (aws (.text suffix) globalRegion).host (.regional (.text region)) (.text endpointPrefix) =
      .ok (endpointPrefix ++ "." ++ region ++ "." ++ suffix) := by
  simp [host, Value.display, String.append_assoc]

/-- Under one suffix, hosts are the same exactly if what stands before the suffix is. -/
theorem under_inj {front other : String} :
    (Except.ok (front ++ "." ++ suffix) : Except Fault String) = .ok (other ++ "." ++ suffix) ↔
      front = other := by
  rw [Except.ok.injEq, String.append_left_inj, String.append_left_inj]

/-- The region of a regional endpoint is the label directly before the suffix. -/
theorem labelBefore?_host (endpointPrefix : String) {region : String} (single : Dotless region) :
    labelBefore? suffix (endpointPrefix ++ "." ++ region ++ "." ++ suffix) = some region := by
  have front := Elm.before?_append ("." ++ suffix) (endpointPrefix ++ "." ++ region)
  rw [← String.append_assoc] at front
  rw [labelBefore?, front, Option.bind_eq_bind, Option.bind_some,
    labels_append_dot endpointPrefix single, List.getLast?_concat]

/-- Which addresses share a host of the AWS rule, whatever its suffix is. Regional endpoints in
dotless regions do only if they agree in prefix and region, and global endpoints only if they agree
in their prefix. A global endpoint with a dotless prefix shares its host with no regional endpoint.
A dotless region is the label directly before the suffix, and it is the region that requests are
signed for. The region of the rule itself has no part in its hosts. Dots are what would blur hosts:
the last label of a prefix can be taken for the first one of a region, and that of a global prefix
for a region. -/
theorem host_identifies :
    (∀ endpointPrefix other region region', Dotless region → Dotless region' →
      ((aws (.text suffix) globalRegion).host (.regional (.text region)) (.text endpointPrefix) =
          (aws (.text suffix) globalRegion).host (.regional (.text region')) (.text other) ↔
        endpointPrefix = other ∧ region = region')) ∧
    (∀ endpointPrefix other region, Dotless endpointPrefix →
      (aws (.text suffix) globalRegion).host .global (.text endpointPrefix) ≠
        (aws (.text suffix) globalRegion).host (.regional (.text region)) (.text other)) ∧
    (∀ endpointPrefix other,
      (aws (.text suffix) globalRegion).host .global (.text endpointPrefix) =
          (aws (.text suffix) globalRegion).host .global (.text other) ↔
        endpointPrefix = other) ∧
    (∀ endpointPrefix region, Dotless region → ∃ host,
      (aws (.text suffix) globalRegion).host (.regional (.text region)) (.text endpointPrefix) =
        .ok host ∧
      labelBefore? suffix host = some region ∧
      (aws (.text suffix) globalRegion).region (.regional (.text region)) = .ok (.text region)) ∧
    (∀ otherRegion endpoint endpointPrefix,
      (aws (.text suffix) otherRegion).host endpoint endpointPrefix =
        (aws (.text suffix) globalRegion).host endpoint endpointPrefix) ∧
    ∀ endpointPrefix label region,
      (aws (.text suffix) globalRegion).host (.regional (.text (label ++ "." ++ region)))
          (.text endpointPrefix) =
        (aws (.text suffix) globalRegion).host (.regional (.text region))
          (.text (endpointPrefix ++ "." ++ label)) ∧
      (aws (.text suffix) globalRegion).host .global (.text (endpointPrefix ++ "." ++ region)) =
        (aws (.text suffix) globalRegion).host (.regional (.text region))
          (.text endpointPrefix) := by
  refine ⟨?regional, ?apart, ?global, ?label, fun _ _ _ => rfl, ?blurred⟩
  case regional =>
    intro endpointPrefix other region region' single single'
    rw [host_aws_regional, host_aws_regional, under_inj, append_dot_inj single single']
  case apart =>
    intro endpointPrefix other region single same
    -- The regional host has a dot in front of the suffix, which the prefix has not.
    rw [host_aws_global, host_aws_regional, under_inj] at same
    apply not_dotless_append_dot other region
    rwa [← same]
  case global =>
    intro endpointPrefix other
    rw [host_aws_global, host_aws_global, under_inj]
  case label =>
    intro endpointPrefix region single
    exact ⟨_, host_aws_regional .., labelBefore?_host suffix endpointPrefix single, rfl⟩
  case blurred =>
    intro endpointPrefix label region
    simp [String.append_assoc]

/-- A prefix and a suffix with dots of their own: the host still tells the region, and neither
another prefix nor the global endpoint has it. -/
theorem host_china :
    Dotless "cn-north-1" ∧ Dotless "ecr" ∧
      (aws (.text "amazonaws.com.cn") (.text "cn-north-1")).host (.regional (.text "cn-north-1"))
        (.text "api.ecr") = .ok "api.ecr.cn-north-1.amazonaws.com.cn" ∧
      labelBefore? "amazonaws.com.cn" "api.ecr.cn-north-1.amazonaws.com.cn" = some "cn-north-1" ∧
      (aws (.text "amazonaws.com.cn") (.text "cn-north-1")).host (.regional (.text "cn-north-1"))
          (.text "api.ecr") ≠
        (aws (.text "amazonaws.com.cn") (.text "cn-north-1")).host (.regional (.text "cn-north-1"))
          (.text "ecr") ∧
      (aws (.text "amazonaws.com.cn") (.text "cn-north-1")).host .global (.text "ecr") ≠
        (aws (.text "amazonaws.com.cn") (.text "cn-north-1")).host (.regional (.text "cn-north-1"))
          (.text "api.ecr") := by
  have region : Dotless "cn-north-1" := by decide
  have plain : Dotless "ecr" := by decide
  obtain ⟨regional, apart, -, told, -⟩ := host_identifies "amazonaws.com.cn" (.text "cn-north-1")
  obtain ⟨host, same, label, -⟩ := told "api.ecr" "cn-north-1" region
  obtain rfl := Except.ok.inj same
  refine ⟨region, plain, rfl, label, fun equal => ?_, apart _ _ _ plain⟩
  have both := (regional _ _ _ _ region region).mp equal
  exact absurd both.1 (by decide)

end HostRule

end ElmBindgen
