import ElmBindgen.Proofs.Graph.Cycles
import ElmBindgen.Proofs.Resolution.Failure
import Mathlib.Data.Set.Basic

/-!
# What operations involve

An operation involves the shapes of its input and its output, and all shapes that these refer to
through the members of structures, the items of lists and the values of maps.

## Main definitions

* `Model.Refers`: a shape refers to another one
* `Model.payloadNames`: the shapes that an operation takes and returns
* `Model.involved`: the names of the shapes that an operation involves

## Main results

* `Model.KeepsLinks.refers_of_target`: what is reached for the members of a structure, its shape
  refers to, directly or not
* `Model.involved_subset`: a test for what is not involved
-/

namespace ElmBindgen.Model

open Relation (ReflTransGen)

/-- The shape of one name refers to the shape of another: it is a structure with a member of
that shape, or a list or a map of it. -/
inductive Refers (model : Model) : String → String → Prop
  | member {outer entries entry} (members : outer.members model = .ok entries)
      (listed : entry ∈ entries) (bare : model.shapeNamed outer.name = .ok outer) :
      Refers model outer.name entry.2.name
  | held {outer inner} (encloses : model.Encloses outer inner) : Refers model outer inner

/-- The names of what an operation takes and returns, as far as its references can be
resolved. -/
def payloadNames (model : Model) (name : Value) : List String :=
  ["input", "output"].flatMap fun key =>
    match model.payloadOf name key with
    | .ok (some use) => [use.name]
    | _ => []

/-- The names of the shapes that an operation involves. -/
def involved (model : Model) (name : Value) : Set String :=
  {other | ∃ first ∈ model.payloadNames name, ReflTransGen model.Refers first other}

variable {model : Model} {use leaf : ShapeUse} {name : Value} {names : Set String}

/-! ## Uses -/

/-- A structure refers to the shapes of its members. -/
theorem KeepsLinks.refers_member (kept : model.KeepsLinks) (uses : model.Uses use)
    {entries : List (String × ShapeUse)} (members : use.members model = .ok entries)
    {entry : String × ShapeUse} (listed : entry ∈ entries) :
    model.Refers use.name entry.2.name := by
  obtain ⟨bare, named, name, form, get?⟩ := uses.bare (by decide) kept
  have same : use.members model = bare.members model := by
    rw [ShapeUse.members, ShapeUse.members, form, get? "members" (by decide)]
  rw [same] at members
  rw [name] at named ⊢
  exact .member members listed named

/-- Following lists and maps leads to shapes that are referred to. -/
theorem KeepsLinks.refers_of_leads (kept : model.KeepsLinks) (uses : model.Uses use)
    (leads : model.Leads use leaf) : ReflTransGen model.Refers use.name leaf.name := by
  induction leads with
  | leaf => exact .refl
  | item list found _ ih =>
    obtain ⟨bare, named, name, type, item, -⟩ := kept.bare uses
    have onward := ih (uses.of_item found)
    rw [name] at named ⊢
    exact .head (.held (.item (type ▸ list) (item ▸ found) named)) onward
  | entryValue map found _ ih =>
    obtain ⟨bare, named, name, type, -, value⟩ := kept.bare uses
    have onward := ih (uses.of_entryValue found)
    rw [name] at named ⊢
    exact .head (.held (.entryValue (type ▸ map) (value ▸ found) named)) onward

/-- A structure leads to the targets of its members. -/
theorem KeepsLinks.refers_of_target (kept : model.KeepsLinks) (uses : model.Uses use)
    {entries : List (String × ShapeUse)} (members : use.members model = .ok entries)
    {entry : String × ShapeUse} (listed : entry ∈ entries) {bound : Nat} {chain : Chain}
    (follow : model.chain bound entry.2 = .ok chain) {own : ShapeUse}
    (target : own ∈ chain.target?) : ReflTransGen model.Refers use.name own.name := by
  obtain ⟨last, leads, same⟩ := leads_of_chain follow
  obtain ⟨-, rfl⟩ : last.isTarget = true ∧ last = own := by simpa [same] using target
  have first := kept.refers_member uses members listed
  exact .head first (kept.refers_of_leads (uses.of_members members listed) leads)

/-! ## Operations -/

/-- What stands under a key of an operation is used by the model. -/
theorem uses_of_payloadOf {key : String} (side : key = "input" ∨ key = "output")
    (found : model.payloadOf name key = .ok (some use)) : model.Uses use := by
  obtain ⟨operation, here, payload⟩ := Fault.bind_ok_iff.mp found
  exact uses_of_payload here side payload

/-- An operation involves its input and its output. -/
theorem mem_involved {key : String} (side : key = "input" ∨ key = "output")
    (found : model.payloadOf name key = .ok (some use)) : use.name ∈ model.involved name := by
  refine ⟨use.name, List.mem_flatMap.mpr ⟨key, ?_, ?_⟩, .refl⟩
  · rcases side with rfl | rfl <;> decide
  · rw [found]
    exact List.mem_singleton_self _

/-- Names that are closed under references have with a name all those that it leads to. -/
theorem mem_of_refers (closed : ∀ outer ∈ names, ∀ inner, model.Refers outer inner → inner ∈ names)
    {outer inner : String} (here : outer ∈ names) (path : ReflTransGen model.Refers outer inner) :
    inner ∈ names := by
  induction path with
  | refl => exact here
  | tail _ refers ih => exact closed _ ih _ refers

/-- What is involved is closed under references. -/
theorem involved_closed (model : Model) (name : Value) :
    ∀ outer ∈ model.involved name, ∀ inner, model.Refers outer inner →
      inner ∈ model.involved name := by
  rintro outer ⟨first, listed, path⟩ inner refers
  exact ⟨first, listed, path.tail refers⟩

/-! ## Tests -/

/-- The names of the shapes that a shape refers to. -/
def referred (model : Model) (outer : String) : List String :=
  (match model.shapeNamed outer with
    | .ok use => ((use.members model).toOption.getD []).map fun entry => entry.2.name
    | .error _ => []) ++ (model.enclosed? outer).toList

theorem Refers.mem_referred {outer inner : String} (refers : model.Refers outer inner) :
    inner ∈ model.referred outer := by
  rw [referred, List.mem_append]
  cases refers with
  | member members listed bare =>
    left
    simp only [bare, members, Except.toOption, Option.getD_some]
    exact List.mem_map_of_mem listed
  | held encloses =>
    right
    rw [encloses.enclosed?]
    exact Option.mem_toList.mpr rfl

/-- An operation involves only names from a list that has its input and its output, and with a
shape all those that it refers to. -/
theorem involved_subset {listed : List String} (starts : model.payloadNames name ⊆ listed)
    (closed : ∀ outer ∈ listed, model.referred outer ⊆ listed) :
    ∀ other ∈ model.involved name, other ∈ listed := by
  rintro other ⟨first, here, path⟩
  have inside : ∀ outer ∈ {name | name ∈ listed}, ∀ inner, model.Refers outer inner →
      inner ∈ {name | name ∈ listed} :=
    fun outer own _ refers => closed outer own refers.mem_referred
  exact mem_of_refers inside (starts here) path

end ElmBindgen.Model
