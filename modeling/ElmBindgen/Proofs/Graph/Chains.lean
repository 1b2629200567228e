import ElmBindgen.Proofs.Graph.Listing
import ElmBindgen.Proofs.Graph.Shapes
import Mathlib.Data.List.Perm.Subperm
import Mathlib.Data.List.Nodup

/-!
# Lengths of chains

The bound on the length of a chain keeps endless ones out and has no other say: a chain is
the same for all bounds that are larger than its number of links. In a literal model the
links of a chain are different shapes, since a shape that comes again would come again for
ever. So the number of shapes bounds all chains.

## Main definitions

* `Model.shapeNames`: the names of the shapes of a model

## Main results

* `Model.chain_of_length_lt`, `Model.chain_of_ends`: the bound has no say, as long as it is
  large enough
* `Model.Literal.length_links_le`: the number of shapes bounds the chains of a literal model
* `Model.Literal.chain_of_chain`: in a literal model what is a chain is one within the bound
  of the model
-/

namespace ElmBindgen

namespace Model

variable {model : Model} {bound own : Nat} {use : ShapeUse} {chain : Chain}

/-! ## Bounds -/

/-- A chain is a leaf, or a link with the chain behind it. -/
theorem chain_succ_ok_iff : model.chain (bound + 1) use = .ok chain ↔
    (∃ leaf, use.step = .ok (.leaf leaf) ∧ chain = ⟨[], leaf⟩) ∨
      ∃ link next rest, use.step = .ok (.link link) ∧ link.follow model use = .ok next ∧
        model.chain bound next = .ok rest ∧ chain = ⟨link :: rest.links, rest.leaf⟩ := by
  rw [Model.chain, Fault.bind_ok_iff]
  constructor
  · rintro ⟨step, stepped, found⟩
    cases step with
    | leaf leaf =>
      cases found
      exact .inl ⟨leaf, stepped, rfl⟩
    | link link =>
      obtain ⟨next, followed, found⟩ := Fault.bind_ok_iff.mp found
      obtain ⟨rest, onward, made⟩ := Fault.bind_ok_iff.mp found
      cases made
      exact .inr ⟨link, next, rest, stepped, followed, onward, rfl⟩
  · rintro (⟨leaf, stepped, rfl⟩ | ⟨link, next, rest, stepped, followed, onward, rfl⟩)
    · exact ⟨_, stepped, rfl⟩
    · refine ⟨_, stepped, Fault.bind_ok_iff.mpr ⟨next, followed, ?_⟩⟩
      exact Fault.bind_ok_iff.mpr ⟨rest, onward, rfl⟩

/-- The bound has no say, as long as it is larger than the number of links. -/
theorem chain_of_length_lt (found : model.chain bound use = .ok chain)
    (enough : chain.links.length < own) : model.chain own use = .ok chain := by
  induction bound generalizing own use chain with
  | zero => cases found
  | succ bound ih =>
    obtain ⟨own, rfl⟩ : ∃ smaller, own = smaller + 1 := ⟨own - 1, by omega⟩
    rw [chain_succ_ok_iff] at found ⊢
    refine found.imp id ?_
    rintro ⟨link, next, rest, stepped, followed, onward, rfl⟩
    have shorter : rest.links.length < own := by simpa using enough
    exact ⟨link, next, rest, stepped, followed, ih onward shorter, rfl⟩

theorem length_links_lt (found : model.chain bound use = .ok chain) :
    chain.links.length < bound := by
  induction bound generalizing use chain with
  | zero => cases found
  | succ bound ih =>
    obtain ⟨_, _, rfl⟩ | ⟨_, _, rest, _, _, onward, rfl⟩ := chain_succ_ok_iff.mp found
    · exact Nat.succ_pos bound
    · have shorter := ih onward
      simpa using shorter

/-- A use has one chain, whatever the bound. -/
theorem chain_unique {other : Chain} (found : model.chain bound use = .ok chain)
    (found' : model.chain own use = .ok other) : chain = other := by
  have first := length_links_lt found
  have second := length_links_lt found'
  -- Within the larger of the two bounds both of them are the chain of the use.
  have enough : chain.links.length < max bound own := by omega
  have enough' : other.links.length < max bound own := by omega
  exact Except.ok.inj ((chain_of_length_lt found enough).symm.trans
    (chain_of_length_lt found' enough'))

/-- A larger bound has no say about a search that no bound has cut short. -/
theorem chain_of_ends (ends : Fault.Ends (model.chain bound use)) (more : bound ≤ own) :
    model.chain own use = model.chain bound use := by
  induction bound generalizing own use with
  | zero => exact absurd rfl ends
  | succ bound ih =>
    obtain ⟨own, rfl⟩ : ∃ smaller, own = smaller + 1 := ⟨own - 1, by omega⟩
    rw [Model.chain, Model.chain]
    rw [Model.chain] at ends
    -- Both searches take the same step; only what they do behind a link is told by the bounds.
    cases stepped : use.step with
    | error fault => rfl
    | ok step =>
      rw [stepped] at ends
      cases step with
      | leaf leaf => rfl
      | link link =>
        change Fault.Ends (link.follow model use >>= _) at ends
        change (link.follow model use >>= _) = (link.follow model use >>= _)
        cases followed : link.follow model use with
        | error fault => rfl
        | ok next =>
          rw [followed] at ends
          have onward : Fault.Ends (model.chain bound next) := by
            intro cut
            exact ends (by simp only [cut, bind, Except.bind])
          simp only [bind, Except.bind, ih onward (Nat.le_of_succ_le_succ more)]

/-! ## Literal models -/

/-- The names of the shapes of a model. -/
def shapeNames (model : Model) : List String :=
  match model.shapes with
  | .object shapes => shapes.map Prod.fst
  | _ => []

theorem length_shapeNames (model : Model) : model.shapeNames.length = model.shapeCount := by
  rw [shapeNames, shapeCount]
  cases model.shapes with
  | object shapes => exact List.length_map _
  | _ => rfl

theorem mem_shapeNames_of_shape {name found : String} {entry : Value}
    (shape : model.shape (.text name) = .ok (found, entry)) : found ∈ model.shapeNames := by
  obtain ⟨shapes, own, listed⟩ := shape_mem shape
  rw [shapeNames, own]
  exact List.mem_map_of_mem listed

theorem Uses.mem_shapeNames (uses : model.Uses use) : use.name ∈ model.shapeNames := by
  obtain ⟨reference, -, found⟩ := uses
  obtain ⟨fields, entries, -, shape, -⟩ := use_ok found
  exact mem_shapeNames_of_shape shape

/-- Every shape counts for the bound on chains. -/
theorem shapeCount_lt_chainBound (model : Model) : model.shapeCount < model.chainBound := by
  have weighs (fields : List (String × Value)) : fields.length ≤ Value.weightFields fields := by
    induction fields with
    | nil => exact Nat.zero_le _
    | cons field rest ih =>
      have one : 1 ≤ field.2.weight := by cases field.2 <;> simp [Value.weight]
      rw [List.length_cons, Value.weightFields]
      omega
  have counts : model.shapeCount ≤ model.shapes.weight := by
    rw [shapeCount]
    cases model.shapes with
    | object shapes => exact Nat.le_succ_of_le (weighs shapes)
    | _ => exact Nat.zero_le _
  rw [chainBound]
  omega

end Model

/-- The step of another use that has the same type and the same values. -/
def Step.at (use : ShapeUse) : Step → Step
  | .leaf (.named _) => .leaf (.named use)
  | step => step

namespace ShapeUse.Alike

variable {model : Model} {first second : ShapeUse}

theorem follow (alike : first.Alike second) (link : Link) :
    link.follow model first = link.follow model second := by
  cases link with
  | list =>
    rw [Link.follow, Link.follow, ShapeUse.item, ShapeUse.item, ShapeUse.held, ShapeUse.held,
      alike.form, alike.get? "member" (by decide)]
  | map =>
    rw [Link.follow, Link.follow, ShapeUse.entryValue, ShapeUse.entryValue, ShapeUse.held,
      ShapeUse.held, alike.form, alike.get? "value" (by decide)]

/-- Alike uses are the same steps, up to the use that a leaf keeps. -/
theorem step (alike : first.Alike second) {step : Step} (found : first.step = .ok step) :
    second.step = .ok (step.at second) := by
  unfold ShapeUse.step at found ⊢
  rw [alike.type, alike.enum] at found
  split at found
  · cases found
    rfl
  · obtain ⟨values, enum, found⟩ := Fault.bind_ok_iff.mp found
    refine Fault.bind_ok_iff.mpr ⟨values, enum, ?_⟩
    split at found
    · next filled =>
      cases found
      exact if_pos filled
    · next empty =>
      cases found
      exact if_neg empty
  · cases found
    rfl
  · cases found
    rfl
  · cases found
    simp_all [Step.at]
  · obtain ⟨key, hashable, found⟩ := Fault.bind_ok_iff.mp found
    cases found
    exact Fault.bind_ok_iff.mpr ⟨key, hashable, rfl⟩

/-- Alike uses have chains with the same links. -/
theorem chain (alike : first.Alike second) {bound : Nat} {chain : Chain}
    (found : model.chain bound first = .ok chain) :
    ∃ leaf, model.chain bound second = .ok ⟨chain.links, leaf⟩ := by
  cases bound with
  | zero => cases found
  | succ bound =>
    obtain ⟨leaf, stepped, rfl⟩ | ⟨link, next, rest, stepped, followed, onward, rfl⟩ :=
      Model.chain_succ_ok_iff.mp found
    · have again := alike.step stepped
      cases leaf <;> exact ⟨_, Model.chain_succ_ok_iff.mpr (.inl ⟨_, again, rfl⟩)⟩
    · rw [alike.follow] at followed
      have again := alike.step stepped
      exact ⟨rest.leaf, Model.chain_succ_ok_iff.mpr
        (.inr ⟨link, next, rest, again, followed, onward, rfl⟩)⟩

end ShapeUse.Alike

namespace Model.Literal

variable {model : Model} {bound : Nat} {use : ShapeUse} {chain : Chain}

/-- The links of a chain have different names. A link that came again would have a chain as
long as the one that it is further back in. -/
theorem names_of_chain (literal : model.Literal) (uses : model.Uses use)
    (found : model.chain bound use = .ok chain) :
    ∃ names : List String, names.length = chain.links.length ∧ names.Nodup ∧
      ∀ name ∈ names, name ∈ model.shapeNames ∧ ∃ bare own rest,
        model.shapeNamed name = .ok bare ∧ model.chain own bare = .ok rest ∧
          rest.links.length ≤ chain.links.length := by
  induction bound generalizing use chain with
  | zero => cases found
  | succ bound ih =>
    have whole := found
    obtain ⟨_, _, rfl⟩ | ⟨link, next, rest, _, followed, onward, rfl⟩ :=
      chain_succ_ok_iff.mp found
    · exact ⟨[], rfl, .nil, by simp⟩
    have usesNext : model.Uses next := by
      cases link with
      | list => exact uses.of_item followed
      | map => exact uses.of_entryValue followed
    obtain ⟨names, length, distinct, shorter⟩ := ih usesNext onward
    obtain ⟨bare, named, alike⟩ := literal.alike uses
    obtain ⟨leaf, again⟩ := alike.chain whole
    -- The names further back have shorter chains, so that of the first link is a new one.
    refine ⟨use.name :: names, by simp [length], List.nodup_cons.mpr ⟨?_, distinct⟩, ?_⟩
    · intro here
      obtain ⟨-, bare', own, rest', named', found', short⟩ := shorter _ here
      cases named.symm.trans named'
      obtain rfl := chain_unique found' again
      exact absurd short (Nat.not_succ_le_self _)
    · intro name here
      rcases List.mem_cons.mp here with rfl | here
      · exact ⟨uses.mem_shapeNames, bare, _, _, named, again, Nat.le_refl _⟩
      · obtain ⟨listed, bare', own, rest', named', found', short⟩ := shorter _ here
        exact ⟨listed, bare', own, rest', named', found', Nat.le_succ_of_le short⟩

/-- In a literal model no chain has more links than there are shapes. -/
theorem length_links_le (literal : model.Literal) (uses : model.Uses use)
    (found : model.chain bound use = .ok chain) : chain.links.length ≤ model.shapeCount := by
  obtain ⟨names, length, distinct, inside⟩ := literal.names_of_chain uses found
  have few := (distinct.subperm fun name here => (inside name here).1).length_le
  rwa [length, length_shapeNames] at few

/-- In a literal model what is a chain within some bound is one within every bound that is
larger than the number of shapes. -/
theorem chain_of_chain (literal : model.Literal) (uses : model.Uses use)
    (found : model.chain bound use = .ok chain) {own : Nat} (enough : model.shapeCount < own) :
    model.chain own use = .ok chain :=
  chain_of_length_lt found (Nat.lt_of_le_of_lt (literal.length_links_le uses found) enough)

end Model.Literal

end ElmBindgen
