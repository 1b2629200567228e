import ElmBindgen.Proofs.Graph.Chains
import Mathlib.Data.List.Chain
import Mathlib.Logic.Relation

/-!
# Cycles of references

Lists and maps that hold each other in a circle have no shape at the end of them. Where every
cycle of references passes through a structure there are no such circles: the links of a chain
are different shapes then, so it ends within as many links as there are shapes.

## Main definitions

* `Model.KeepsLinks`: no reference overrides what the shape that it names refers to
* `Model.Encloses`: a list or a map refers to the shape of what it holds
* `Model.Grounded`: every cycle of references passes through a structure

## Main results

* `Model.Grounded.chain_ends`, `Model.Grounded.chain_eq`: in a grounded model the number of
  shapes bounds the search for the end of a chain
* `Model.Grounded.of_rank`, `Model.KeepsLinks.of_listed`: tests
-/

namespace ElmBindgen

open Fault (Ends)

/-! ## Reading ends -/

theorem Value.key_ends (value : Value) : Ends value.key := by
  unfold Value.key
  split <;> nofun

theorem Value.elements_ends (value : Value) : Ends value.elements := by
  unfold Value.elements
  split <;> nofun

theorem Value.position_ends (length : Nat) (value : Value) : Ends (value.position length) := by
  have counts (n : Int) : Ends (Value.positionOf length n) := by
    unfold Value.positionOf
    dsimp only
    split <;> split <;> nofun
  unfold Value.position
  split
  · exact counts _
  · exact counts _
  · nofun

namespace Model

variable (model : Model)

theorem shape_ends (name : Value) : Ends (model.shape name) := by
  refine (name.key_ends).bind fun _ _ => ?_
  split
  · split
    · split <;> nofun
    · nofun
  · exact (name.position_ends _).bind fun _ _ => nofun
  · nofun

theorem useNamed_ends (name : Value) (traits : List (String × Value)) :
    Ends (model.useNamed name traits) := by
  refine (model.shape_ends name).bind fun found _ => ?_
  obtain ⟨name, entry⟩ := found
  cases entry with
  | object entries =>
    dsimp only
    split
    · exact (Value.key_ends _).bind fun _ _ => .ok _
    · nofun
  | _ => nofun

theorem use_ends (reference : Value) : Ends (model.use reference) := by
  unfold use
  split
  · split
    · exact model.useNamed_ends _ _
    · nofun
  · nofun
  · nofun

theorem operation_ends (name : Value) : Ends (model.operation name) := by
  refine name.key_ends.bind fun _ _ => ?_
  split
  · nofun
  · split
    · split <;> nofun
    · nofun
  · exact (name.position_ends _).bind fun _ _ => nofun
  · nofun

theorem payload_ends (operation : Value) (key : String) :
    Ends (model.payload operation key) := by
  unfold payload
  split
  · next reference _ =>
    rw [map_eq_pure_bind]
    exact (model.use_ends reference).bind fun _ _ => .ok _
  · nofun

theorem operationNames_ends : Ends model.operationNames := by
  unfold operationNames
  split
  · exact Value.elements_ends _
  · nofun

end Model

namespace ShapeUse

variable (model : Model) (use : ShapeUse)

theorem enum_ends : Ends use.enum := by
  unfold ShapeUse.enum
  split <;> nofun

theorem held_ends (form : ShapeForm) (key : String) : Ends (use.held model form key) := by
  unfold ShapeUse.held
  split
  · split
    · exact model.use_ends _
    · nofun
  · nofun

theorem members_ends : Ends (use.members model) := by
  unfold ShapeUse.members
  split
  · split
    · nofun
    · exact .mapM fun member => (model.use_ends member.2).bind fun _ _ => .ok _
    · nofun
  · nofun

theorem requiredKeys_ends : Ends use.requiredKeys :=
  (Value.elements_ends _).bind fun _ _ => .mapM Value.key_ends

theorem union_ends : Ends use.union := by
  refine use.enum_ends.bind fun _ _ => (Value.elements_ends _).bind fun values _ => ?_
  refine .bind (.mapM fun value => ?_) fun _ _ => .ok _
  unfold variant
  split <;> nofun

theorem step_ends : Ends use.step := by
  unfold ShapeUse.step
  split
  · nofun
  · refine use.enum_ends.bind fun _ _ => ?_
    split <;> nofun
  · nofun
  · nofun
  · nofun
  · exact (Value.key_ends _).bind fun _ _ => .ok _

theorem follow_ends (link : Link) : Ends (link.follow model use) := by
  cases link <;> exact use.held_ends model _ _

end ShapeUse

/-! ## Lists and maps -/

namespace Model

/-- The entries that say which shapes a shape refers to. -/
def linkKeys : List String := ["type", "members", "member", "value"]

/-- No reference overrides what the shape that it names refers to. -/
def KeepsLinks (model : Model) : Prop :=
  ∀ reference, model.Mentions reference → ∀ key ∈ linkKeys, reference.get? key = none

/-- A shape is a list of another one, or a map of it. -/
inductive Encloses (model : Model) : String → String → Prop
  | item {outer next} (list : outer.type = .text "list") (found : outer.item model = .ok next)
      (bare : model.shapeNamed outer.name = .ok outer) : Encloses model outer.name next.name
  | entryValue {outer next} (map : outer.type = .text "map")
      (found : outer.entryValue model = .ok next)
      (bare : model.shapeNamed outer.name = .ok outer) : Encloses model outer.name next.name

/-- Every cycle of references passes through a structure. Besides structures only lists and
maps refer to shapes, so that is to say that lists and maps alone form none. -/
def Grounded (model : Model) : Prop := ∀ name, ¬Relation.TransGen model.Encloses name name

variable {model : Model} {use next : ShapeUse} {bound : Nat}

theorem Uses.of_follow {link : Link} (uses : model.Uses use)
    (followed : link.follow model use = .ok next) : model.Uses next := by
  cases link with
  | list => exact uses.of_item followed
  | map => exact uses.of_entryValue followed

/-- A use has the type of the bare use of its shape, and refers to the same. -/
theorem KeepsLinks.bare (kept : model.KeepsLinks) (uses : model.Uses use) :
    ∃ bare, model.shapeNamed use.name = .ok bare ∧ use.name = bare.name ∧
      use.type = bare.type ∧ use.item model = bare.item model ∧
        use.entryValue model = bare.entryValue model := by
  obtain ⟨bare, named, name, form, get?⟩ := uses.bare (by decide) kept
  refine ⟨bare, named, name, ?_, ?_, ?_⟩
  · rw [ShapeUse.type, ShapeUse.type, get? "type" (by decide)]
  · rw [ShapeUse.item, ShapeUse.item, ShapeUse.held, ShapeUse.held, form,
      get? "member" (by decide)]
  · rw [ShapeUse.entryValue, ShapeUse.entryValue, ShapeUse.held, ShapeUse.held, form,
      get? "value" (by decide)]

/-- What a link of a chain is a list or a map of, its shape is. -/
theorem KeepsLinks.encloses (kept : model.KeepsLinks) (uses : model.Uses use) {link : Link}
    (stepped : use.step = .ok (.link link)) (followed : link.follow model use = .ok next) :
    model.Encloses use.name next.name := by
  obtain ⟨bare, named, name, type, item, value⟩ := kept.bare uses
  have told := use.step_ok stepped
  rw [name] at named ⊢
  cases link with
  | list => exact .item (type ▸ told) (item ▸ followed) named
  | map => exact .entryValue (type ▸ told) (value ▸ followed) named

/-- Only the rest of a chain can be what is cut short, behind a link. -/
theorem link_of_cut (cut : ¬Ends (model.chain (bound + 1) use)) :
    ∃ link next, use.step = .ok (.link link) ∧ link.follow model use = .ok next ∧
      ¬Ends (model.chain bound next) := by
  by_contra! none
  refine cut (use.step_ends.bind fun step stepped => ?_)
  cases step with
  | leaf leaf => exact .ok _
  | link link =>
    refine (use.follow_ends model link).bind fun next followed => ?_
    exact (none link next stepped followed).bind fun _ _ => .ok _

/-- A search for the end of a chain that is cut short has gone through one more shape than its
bound. -/
theorem KeepsLinks.path_of_chain (kept : model.KeepsLinks) (uses : model.Uses use)
    (cut : ¬Ends (model.chain bound use)) :
    ∃ names : List String, names.length = bound ∧
      (use.name :: names).IsChain model.Encloses ∧
      ∀ name ∈ use.name :: names, name ∈ model.shapeNames := by
  induction bound generalizing use with
  | zero => exact ⟨[], rfl, .singleton _, by simpa using uses.mem_shapeNames⟩
  | succ bound ih =>
    obtain ⟨link, next, stepped, followed, onward⟩ := link_of_cut cut
    obtain ⟨names, length, path, listed⟩ := ih (uses.of_follow followed) onward
    refine ⟨next.name :: names, by rw [List.length_cons, length], ?_, ?_⟩
    · exact .cons_cons (kept.encloses uses stepped followed) path
    · exact List.forall_mem_cons.mpr ⟨uses.mem_shapeNames, listed⟩

/-- In a grounded model the number of shapes bounds the search for the end of a chain. -/
theorem Grounded.chain_ends (grounded : model.Grounded) (kept : model.KeepsLinks)
    (uses : model.Uses use) (enough : model.shapeCount ≤ bound) :
    Ends (model.chain bound use) := by
  by_contra cut
  obtain ⟨names, length, path, listed⟩ := kept.path_of_chain uses cut
  -- A shape that came again on the path would be on a cycle of lists and maps.
  have distinct : (use.name :: names).Nodup := by
    have onward : (use.name :: names).Pairwise (Relation.TransGen model.Encloses) :=
      List.isChain_iff_pairwise.mp (path.imp fun _ _ => .single)
    refine onward.imp ?_
    rintro outer _ cycle rfl
    exact grounded outer cycle
  have few := (distinct.subperm listed).length_le
  rw [length_shapeNames, List.length_cons, length] at few
  omega

/-- In a grounded model all bounds that are not smaller than the number of shapes agree. -/
theorem Grounded.chain_eq (grounded : model.Grounded) (kept : model.KeepsLinks)
    (uses : model.Uses use) {own : Nat} (enough : model.shapeCount ≤ bound)
    (enough' : model.shapeCount ≤ own) : model.chain bound use = model.chain own use := by
  have ends := grounded.chain_ends kept uses (Nat.le_refl _)
  rw [chain_of_ends ends enough, chain_of_ends ends enough']

/-! ## Tests -/

/-- What a shape is a list or a map of. -/
def enclosed? (model : Model) (outer : String) : Option String := do
  let use ← (model.shapeNamed outer).toOption
  match use.type with
  | .text "list" => (use.item model).toOption.map ShapeUse.name
  | .text "map" => (use.entryValue model).toOption.map ShapeUse.name
  | _ => none

theorem Encloses.enclosed? {outer inner : String} (encloses : model.Encloses outer inner) :
    model.enclosed? outer = some inner := by
  cases encloses with
  | item list found bare => simp [Model.enclosed?, bare, list, found, Except.toOption]
  | entryValue map found bare => simp [Model.enclosed?, bare, map, found, Except.toOption]

theorem Encloses.mem_shapeNames {outer inner : String} (encloses : model.Encloses outer inner) :
    outer ∈ model.shapeNames := by
  have listed {own : ShapeUse} (bare : model.shapeNamed own.name = .ok own) :
      own.name ∈ model.shapeNames := by
    obtain ⟨_, _, _, shape, -⟩ := useNamed_ok_iff.mp bare
    exact mem_shapeNames_of_shape shape
  cases encloses with
  | item _ _ bare => exact listed bare
  | entryValue _ _ bare => exact listed bare

/-- A model is grounded if what lists and maps hold has a lower rank than they have. -/
theorem Grounded.of_rank (rank : String → Nat)
    (lower : ∀ outer ∈ model.shapeNames, ∀ inner ∈ model.enclosed? outer, rank inner < rank outer) :
    model.Grounded := by
  have below {outer inner : String} (path : Relation.TransGen model.Encloses outer inner) :
      rank inner < rank outer := by
    induction path with
    | single encloses => exact lower _ encloses.mem_shapeNames _ encloses.enclosed?
    | tail _ encloses ih => exact (lower _ encloses.mem_shapeNames _ encloses.enclosed?).trans ih
  exact fun name cycle => (below cycle).ne rfl

/-- References keep the links of their shapes if none of the listed ones has an entry that says
which shapes a shape refers to. -/
theorem KeepsLinks.of_listed
    (plain : ∀ reference ∈ model.listed, ∀ key ∈ linkKeys, reference.get? key = none) :
    model.KeepsLinks := by
  intro reference mentions
  refine plain reference (mentions.mem_listed fun other listed => ?_)
  exact references_of_plain fun key here => plain other listed key (by simp_all [linkKeys])

end Model

end ElmBindgen
