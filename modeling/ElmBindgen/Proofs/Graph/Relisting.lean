import ElmBindgen.Proofs.Graph.ChainBound

/-!
# Models with other lists of what is required

The list of what a structure requires is looked at for the names of its members alone. So it may
have another order, repeat names, or list names that are no members: the uses in both models are
made of the same, and lists that are read both tell the same of every member.

## Main definitions

* `ShapeUse.memberNames`: the names of the members of a structure
* `Model.Relisted`: the entry of a shape with another list of what is required
* `Model.Relists`: a model with other such lists, which say the same of all members
* `Model.Twins`: what one reference stands for in each of two models

## Main results

* `Model.Relists.twins`: a reference stands for twins, or has the same fault in both models
* `Model.Twins.matches`: twins are made of the same
* `Model.Relists.members`, `Model.Relists.chain`: what twins consist of are twins again
-/

namespace ElmBindgen

open Fault (Agree)

/-! ## Members and keys -/

/-- The names of the members of a structure, in order. -/
def ShapeUse.memberNames (use : ShapeUse) : List String :=
  match use.get? "members" with
  | some (.object members) => members.map Prod.fst
  | _ => []

/-- The members of a structure are listed under their names. -/
theorem ShapeUse.map_fst_members {model : Model} {use : ShapeUse}
    {entries : List (String × ShapeUse)} (members : use.members model = .ok entries) :
    entries.map Prod.fst = use.memberNames := by
  rw [ShapeUse.members] at members
  rw [memberNames]
  split at members
  · split at members
    · next none =>
      cases members
      rw [none]
      rfl
    · next own here =>
      rw [here]
      change entries.map Prod.fst = own.map Prod.fst
      have read := Fault.mapM_ok_iff.mp members
      clear here members
      induction read with
      | nil => rfl
      | cons resolved _ ih =>
        obtain ⟨part, -, made⟩ := Fault.bind_ok_iff.mp resolved
        cases made
        rw [List.map_cons, List.map_cons, ih]
    · cases members
  · cases members

namespace Value

theorem text_injective : Function.Injective Value.text := fun _ _ same => Value.text.inj same

/-- The key of a text is the key of no other value. -/
theorem key_eq_text_iff {value : Value} {text : String} :
    value.key = .ok (.text text) ↔ value = .text text := by
  unfold key
  cases value with
  | float x => cases x <;> simp [key?, number?]
  | _ => simp [key?, number?]

/-- Among the keys of some values are those of the texts that are listed. -/
theorem text_mem_keys {values : List Value} {keys : List Key}
    (read : values.mapM key = .ok keys) (text : String) :
    Key.text text ∈ keys ↔ Value.text text ∈ values := by
  have all := Fault.mapM_ok_iff.mp read
  constructor
  · intro here
    obtain ⟨value, listed, keyed⟩ := Fault.exists_of_forall₂ all here
    rwa [← key_eq_text_iff.mp keyed]
  · intro here
    obtain ⟨key, listed, keyed⟩ := Fault.exists_of_forall₂ all.flip here
    cases keyed
    exact listed

/-- Values that all have keys are read, and with any others among them they are not. -/
theorem mapM_key (values : List Value) :
    (∃ keys, values.mapM key = .ok keys ∧ ∀ value ∈ values, value.key?.isSome) ∨
      (values.mapM key = .error .wrongType ∧ ¬∀ value ∈ values, value.key?.isSome) := by
  induction values with
  | nil => exact .inl ⟨[], rfl, by simp⟩
  | cons value rest ih =>
    rw [List.mapM_cons, List.forall_mem_cons, key]
    cases keyed : value.key? with
    | none => exact .inr ⟨rfl, by simp⟩
    | some own =>
      rcases ih with ⟨keys, read, all⟩ | ⟨failed, none⟩
      · exact .inl ⟨own :: keys, by rw [read]; rfl, rfl, all⟩
      · exact .inr ⟨by rw [failed]; rfl, fun both => none both.2⟩

end Value

namespace Model

/-! ## Relisting -/

/-- The entry of a shape with another list of what is required. Both lists have the same names of
members on them, in any order and number; what other names they have is left open. A list with
something on it that cannot be looked up stays one. -/
inductive Relisted (model : Model) (name : String) : Value → Value → Prop
  | same (entry) : Relisted model name entry entry
  | required {entries entries' items items'}
      (others : ∀ key ≠ "required", entries'.lookup key = entries.lookup key)
      (before : (entries.lookup "required").getD (.list []) = .list items)
      (after : (entries'.lookup "required").getD (.list []) = .list items')
      (keyed : (∀ item ∈ items', item.key?.isSome) ↔ ∀ item ∈ items, item.key?.isSome)
      (named : ∀ use, model.Uses use → use.name = name → ∀ key ∈ use.memberNames,
        .text key ∈ items' ↔ .text key ∈ items) :
      Relisted model name (.object entries) (.object entries')

/-- A list of names may be put in another order, with repetitions, and with more names on it that
are no members. -/
theorem Relisted.of_names {model : Model} {name : String} {entries entries' : List (String × Value)}
    {names names' : List String}
    (others : ∀ key ≠ "required", entries'.lookup key = entries.lookup key)
    (before : (entries.lookup "required").getD (.list []) = .list (names.map .text))
    (after : (entries'.lookup "required").getD (.list []) = .list (names'.map .text))
    (kept : names ⊆ names')
    (added : ∀ key ∈ names', key ∈ names ∨
      ∀ use, model.Uses use → use.name = name → key ∉ use.memberNames) :
    model.Relisted name (.object entries) (.object entries') := by
  have texts (names : List String) : ∀ item ∈ names.map Value.text, item.key?.isSome :=
    List.forall_mem_map.mpr fun _ _ => rfl
  refine .required others before after (iff_of_true (texts names') (texts names)) ?_
  intro use uses named key listed
  rw [List.mem_map_of_injective Value.text_injective,
    List.mem_map_of_injective Value.text_injective]
  refine ⟨fun here => ?_, fun here => kept here⟩
  exact (added key here).resolve_right fun absent => absent use uses named listed

/-- A model with other lists of what its structures require, which say the same of all members. -/
structure Relists (model other : Model) : Prop where
  metadata : other.metadata = model.metadata
  operations : other.operations = model.operations
  shapes : ∃ shapes shapes', model.shapes = .object shapes ∧ other.shapes = .object shapes' ∧
    List.Forall₂ (fun shape shape' => shape'.1 = shape.1 ∧ model.Relisted shape.1 shape.2 shape'.2)
      shapes shapes'

/-- Uses that are made of the same, but for the lists of what they require, which say the same of
all members. -/
structure Matches (model : Model) (use twin : ShapeUse) : Prop where
  name : twin.name = use.name
  form : twin.form = use.form
  get? : ∀ key ≠ "required", twin.get? key = use.get? key
  requiredKeys : model.Uses use →
    Agree (fun keys keys' => ∀ key ∈ use.memberNames, Key.text key ∈ keys' ↔ .text key ∈ keys)
      use.requiredKeys twin.requiredKeys

/-- What one reference of a model stands for in it and in another model. -/
def Twins (model other : Model) (use twin : ShapeUse) : Prop :=
  ∃ reference, model.Mentions reference ∧ model.use reference = .ok use ∧
    other.use reference = .ok twin

variable {model other : Model}

theorem lookup_forall₂ {α β : Type} {related : String → α → β → Prop} {xs : List (String × α)}
    {ys : List (String × β)}
    (all : List.Forall₂ (fun x y => y.1 = x.1 ∧ related x.1 x.2 y.2) xs ys) (key : String) :
    (xs.lookup key = none ∧ ys.lookup key = none) ∨
      ∃ a b, xs.lookup key = some a ∧ ys.lookup key = some b ∧ related key a b := by
  induction all with
  | nil => exact .inl ⟨rfl, rfl⟩
  | @cons x y xs ys relation _ ih =>
    obtain ⟨name, a⟩ := x
    obtain ⟨name', b⟩ := y
    obtain ⟨rfl, relation⟩ : name' = name ∧ related name a b := relation
    by_cases same : key = name'
    · subst same
      exact .inr ⟨a, b, by simp, by simp, relation⟩
    · simpa [List.lookup_cons, beq_false_of_ne same] using ih

theorem Matches.refl (model : Model) (use : ShapeUse) : model.Matches use use where
  name := rfl
  form := rfl
  get? := fun _ _ => rfl
  requiredKeys := fun _ => .same _ fun _ _ _ _ => .rfl

/-- Lists with the same names of members on them are read alike. -/
theorem agree_keys {items items' : List Value} {names : List String}
    (keyed : (∀ item ∈ items', item.key?.isSome) ↔ ∀ item ∈ items, item.key?.isSome)
    (named : ∀ name ∈ names, .text name ∈ items' ↔ .text name ∈ items) :
    Agree (fun keys keys' => ∀ name ∈ names, Key.text name ∈ keys' ↔ .text name ∈ keys)
      (items.mapM Value.key) (items'.mapM Value.key) := by
  rcases Value.mapM_key items with ⟨keys, read, all⟩ | ⟨failed, none⟩
  · rcases Value.mapM_key items' with ⟨keys', read', -⟩ | ⟨-, none'⟩
    · rw [read, read']
      refine .ok fun name listed => ?_
      rw [Value.text_mem_keys read, Value.text_mem_keys read', named name listed]
    · exact absurd (keyed.mpr all) none'
  · rcases Value.mapM_key items' with ⟨_, _, all'⟩ | ⟨failed', -⟩
    · exact absurd (keyed.mp all') none
    · rw [failed, failed']
      exact .error _

namespace Relists

/-- Both models have the same shapes, up to lists of what is required. -/
theorem shape (relists : model.Relists other) (name : Value) :
    Agree (fun found found' => found'.1 = found.1 ∧ model.Relisted found.1 found.2 found'.2)
      (model.shape name) (other.shape name) := by
  obtain ⟨shapes, shapes', own, own', all⟩ := relists.shapes
  rw [Model.shape, Model.shape, own, own']
  refine (Agree.eq name.key).bind fun _ _ _ => ?_
  cases name with
  | text s =>
    rcases lookup_forall₂ all s with ⟨none, none'⟩ | ⟨entry, entry', found, found', relisted⟩
    · simp only [none, none']
      exact .error _
    · simp only [found, found']
      exact .ok ⟨rfl, relisted⟩
  | _ => exact .error _

/-- A name with traits stands for uses that match. -/
theorem useNamed (relists : model.Relists other) (name : Value) (traits : List (String × Value)) :
    Agree model.Matches (model.useNamed name traits) (other.useNamed name traits) := by
  rw [Model.useNamed, Model.useNamed]
  refine (relists.shape name).bind ?_
  rintro ⟨name, entry⟩ ⟨name', entry'⟩ ⟨rfl, relisted⟩
  cases relisted with
  | same => exact .same _ fun use _ => .refl model use
  | @required entries entries' items items' others before after keyed named =>
    -- The type decides on the form; what is required is looked at in the entries alone.
    simp only [others "type" (by decide)]
    cases entries.lookup "type" with
    | none => exact .error _
    | some type =>
      refine (Agree.eq type.key).bind fun _ _ _ => .ok ?_
      refine ⟨rfl, rfl, fun key differs => ?_, fun uses => ?_⟩
      · rw [ShapeUse.get?, ShapeUse.get?, lookup_override, lookup_override, others key differs]
      · simp only [ShapeUse.requiredKeys, ShapeUse.required, ShapeUse.get?, lookup_override]
        cases traits.lookup "required" with
        -- A list of the reference's own stands before both of those of the shape.
        | some value => exact .same _ fun _ _ _ _ => .rfl
        | none =>
          rw [Option.none_or, Option.none_or, before, after]
          exact agree_keys keyed (named _ uses rfl)

/-- So does a reference. -/
theorem use (relists : model.Relists other) (reference : Value) :
    Agree model.Matches (model.use reference) (other.use reference) := by
  cases reference with
  | object fields =>
    rw [Model.use, Model.use]
    cases fields.lookup "shape" with
    | none => exact .error _
    | some name => exact relists.useNamed name _
  | _ => exact .error _

/-- A reference of a model stands for twins, or has the same fault in both models. -/
theorem twins (relists : model.Relists other) {reference : Value}
    (mentions : model.Mentions reference) :
    Agree (model.Twins other) (model.use reference) (other.use reference) :=
  (relists.use reference).results.mono fun _ _ told => ⟨reference, mentions, told.2⟩

/-- A reference of a model is one of the other model. -/
theorem mentions (relists : model.Relists other) {reference : Value}
    (mentions : model.Mentions reference) : other.Mentions reference := by
  induction mentions with
  | payload found side here =>
    rw [Model.operation, ← relists.operations] at found
    exact .payload found side here
  | shape found held =>
    obtain ⟨⟨name, entry⟩, found', rfl, relisted⟩ := (relists.shape _).exists_of_ok found
    cases relisted with
    | same => exact .shape found' held
    | required others =>
      refine .shape found' ?_
      cases held with
      | member here listed => exact .member ((others _ (by decide)).trans here) listed
      | item here => exact .item ((others _ (by decide)).trans here)
      | entryValue here => exact .entryValue ((others _ (by decide)).trans here)
  | trait _ held ih => exact .trait ih held

end Relists

/-! ## Twins -/

section Twins

variable {use twin : ShapeUse}

theorem Twins.uses (twins : model.Twins other use twin) : model.Uses use := by
  obtain ⟨reference, mentions, found, -⟩ := twins
  exact ⟨reference, mentions, found⟩

variable (relists : model.Relists other) (twins : model.Twins other use twin)
include relists twins

theorem Twins.uses' : other.Uses twin := by
  obtain ⟨reference, mentions, -, found⟩ := twins
  exact ⟨reference, relists.mentions mentions, found⟩

/-- Twins are made of the same. -/
theorem Twins.matches : model.Matches use twin := by
  obtain ⟨reference, -, found, found'⟩ := twins
  obtain ⟨_, same, matching⟩ := (relists.use reference).exists_of_ok found
  cases found'.symm.trans same
  exact matching

end Twins

namespace Matches

variable {use twin : ShapeUse} (matching : model.Matches use twin)
include matching

theorem type : twin.type = use.type := by
  rw [ShapeUse.type, ShapeUse.type, matching.get? "type" (by decide)]

theorem handler : twin.handler = use.handler := by
  rw [ShapeUse.handler, ShapeUse.handler, matching.type]

theorem enum : twin.enum = use.enum := by
  rw [ShapeUse.enum, ShapeUse.enum, matching.form, matching.get? "enum" (by decide)]

theorem union : twin.union = use.union := by
  rw [ShapeUse.union, ShapeUse.union, matching.name, matching.enum]

end Matches

/-- Leaves of chains that are twins, or the same fragment. -/
inductive LeafTwins (model other : Model) : Leaf → Leaf → Prop
  | named {use twin} (twins : model.Twins other use twin) :
      LeafTwins model other (.named use) (.named twin)
  | plain (fragment) : LeafTwins model other (.plain fragment) (.plain fragment)

/-- Steps along chains that are the same link, or lead to leaves that are twins. -/
inductive StepTwins (model other : Model) : Step → Step → Prop
  | link (link) : StepTwins model other (.link link) (.link link)
  | leaf {leaf leaf'} (twins : model.LeafTwins other leaf leaf') :
      StepTwins model other (.leaf leaf) (.leaf leaf')

/-- Chains with the same links and leaves that are twins. -/
def ChainTwins (model other : Model) (chain chain' : Chain) : Prop :=
  chain'.links = chain.links ∧ model.LeafTwins other chain.leaf chain'.leaf

namespace Relists

variable {use twin : ShapeUse} (relists : model.Relists other) (twins : model.Twins other use twin)
include relists twins

/-- Twins have the same members. -/
theorem members :
    Agree (List.Forall₂ fun entry entry' => entry'.1 = entry.1 ∧
        model.Twins other entry.2 entry'.2)
      (use.members model) (twin.members other) := by
  have matching := twins.matches relists
  rw [ShapeUse.members, ShapeUse.members, matching.form, matching.get? "members" (by decide)]
  split
  · split
    · exact .ok .nil
    · next members here =>
      -- In both models the same references are read.
      have references : List.Forall₂ (fun member member' => member ∈ members ∧ member' = member)
          members members := List.forall₂_same.mpr fun member listed => ⟨listed, rfl⟩
      refine .mapM references ?_
      rintro member _ ⟨listed, rfl⟩
      have mentions := twins.uses.mentions (.member here listed)
      exact (relists.twins mentions).bind fun _ _ twins => .ok ⟨rfl, twins⟩
    · exact .error _
  · exact .error _

/-- Twins hold twins. -/
theorem follow (link : Link) :
    Agree (model.Twins other) (link.follow model use) (link.follow other twin) := by
  have matching := twins.matches relists
  have held {form : ShapeForm} {key : String} (other' : key ≠ "required")
      (holds : ∀ reference, use.entries.lookup key = some reference →
        Holds use.entries reference) :
      Agree (model.Twins other) (use.held model form key) (twin.held other form key) := by
    rw [ShapeUse.held, ShapeUse.held, matching.form, matching.get? key other']
    split
    · split
      · next reference here => exact relists.twins (twins.uses.mentions (holds reference here))
      · exact .error _
    · exact .error _
  cases link with
  | list => exact held (by decide) fun _ here => .item here
  | map => exact held (by decide) fun _ here => .entryValue here

/-- Twins take the same step along a chain. -/
theorem step : Agree (model.StepTwins other) use.step twin.step := by
  have matching := twins.matches relists
  unfold ShapeUse.step
  rw [matching.type, matching.enum]
  split
  · exact .ok (.leaf (.named twins))
  · refine (Agree.eq use.enum).bind ?_
    rintro values _ rfl
    split
    · exact .ok (.leaf (.named twins))
    · exact .ok (.leaf (.plain _))
  · exact .ok (.link _)
  · exact .ok (.link _)
  · exact .ok (.leaf (.plain _))
  · exact (Agree.eq _).bind fun _ _ _ => .ok (.leaf (.plain _))

/-- Within any bound twins have the same chain. -/
theorem chain (bound : Nat) :
    Agree (model.ChainTwins other) (model.chain bound use) (other.chain bound twin) := by
  induction bound generalizing use twin with
  | zero => exact .error _
  | succ bound ih =>
    rw [Model.chain, Model.chain]
    refine (relists.step twins).bind ?_
    rintro _ _ (link | leaves)
    · refine (relists.follow twins link).bind fun next next' onward => ?_
      exact (ih onward).bind fun rest rest' same => .ok ⟨congrArg (link :: ·) same.1, same.2⟩
    · exact .ok ⟨rfl, leaves⟩

/-- So they have within the bounds of the two models, which differ. -/
theorem chain_chainBound :
    Agree (model.ChainTwins other) (model.chain model.chainBound use)
      (other.chain other.chainBound twin) := by
  -- The lists count for the bounds, but neither bound has a say against a larger one.
  have within := relists.chain twins (max model.chainBound other.chainBound)
  rwa [twins.uses.chain_eq (Nat.le_max_left _ _),
    (twins.uses' relists).chain_eq (Nat.le_max_right _ _)] at within

end Relists

end Model

end ElmBindgen
