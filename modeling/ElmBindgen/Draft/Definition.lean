import ElmBindgen.Draft.Render

/-!
# Definitions as drafts

Every definition is a draft whose fields happen to be texts. Rendering the draft
succeeds and gives what rendering the definition gives, so the two renderings
never disagree.

## Main definitions

* `Draft.ofDefinition`: the draft of a definition
* `Draft.render_ofDefinition`: both are rendered alike
-/

namespace ElmBindgen

open Elm (Definition Member Record Union Variant)

namespace DraftVariant

/-- The draft of a variant. -/
def ofVariant (variant : Variant) : DraftVariant := ⟨.text variant.name, .text variant.wire⟩

end DraftVariant

namespace DraftMember

/-- The draft of a member. -/
def ofMember (member : Member) : DraftMember :=
  ⟨.text member.key, .bool member.required, .text member.value.type, .text member.value.decoder⟩

@[simp] theorem typeLine_ofMember (member : Member) :
    (ofMember member).typeLine = member.typeLine := rfl

@[simp] theorem decoderStep_ofMember (member : Member) :
    (ofMember member).decoderStep = .ok member.decoderStep := rfl

end DraftMember

namespace Draft

/-- The draft of a union. -/
def ofUnion (union : Union) : Draft :=
  .union (.text union.type) (union.variants.map .ofVariant)

/-- The draft of a record. -/
def ofRecord (record : Record) : Draft :=
  .record (.text record.type) (.text record.category.word) (record.members.map .ofMember)

/-- The draft of a definition. -/
def ofDefinition : Definition → Draft
  | .union u => ofUnion u
  | .record r => ofRecord r

/-- A check that every item passes passes a list of them. -/
private theorem mapM_ok {α β : Type} (items : List α) (check : α → Except Fault β) (image : α → β)
    (passes : ∀ item, check item = .ok (image item)) :
    items.mapM check = .ok (items.map image) := by
  induction items with
  | nil => rfl
  | cons item rest ih =>
    rw [List.mapM_cons, passes, ih]
    rfl

/-- What a template finds in a variant of a union. -/
def found (variant : Variant) : FoundVariant :=
  ⟨some (.text variant.name), some (.text variant.wire)⟩

theorem foundVariants_ofUnion (union : Union) :
    (ofUnion union).foundVariants = .ok (union.variants.map found) := by
  simp only [foundVariants, ofUnion, List.map_map]
  rfl

theorem unionType_ofUnion (union : Union) :
    (ofUnion union).unionType = .ok union.typeSource := by
  rw [unionType, foundVariants_ofUnion]
  simp only [Union.typeSource, bind, Except.bind, List.map_map]
  rfl

theorem unionDecoder_ofUnion (union : Union) :
    (ofUnion union).unionDecoder = .ok union.decoderSource := by
  have type : (ofUnion union).field "type" = .ok (.text union.type) := rfl
  have branches : (union.variants.map found).mapM (fun variant => do
        return (← quotedWire variant.wire, shown variant.name)) =
      .ok (union.variants.map fun variant => (Elm.quote variant.wire, variant.name)) := by
    rw [List.mapM_map]
    exact mapM_ok _ _ _ fun _ => rfl
  rw [unionDecoder, type, foundVariants_ofUnion]
  simp only [bind, Except.bind, Value.decoderName, Value.sliced, pure, Except.pure] at branches ⊢
  rw [branches]
  rfl

theorem memberTexts_ofRecord (record : Record) (text : MemberText) (image : Member → String)
    (texts : ∀ member, text.of (.ofMember member) = .ok (image member)) :
    (ofRecord record).memberTexts (some text) = .ok (record.members.map image) := by
  simp only [memberTexts, ofRecord, List.mapM_map]
  exact mapM_ok _ _ _ texts

theorem recordType_ofRecord (record : Record) :
    (ofRecord record).recordType (some .typeLine) = .ok record.typeSource := by
  rw [recordType, memberTexts_ofRecord record .typeLine Member.typeLine fun _ => rfl]
  rfl

theorem recordDecoder_ofRecord (record : Record) :
    (ofRecord record).recordDecoder (some .decoderStep) = .ok record.decoderSource := by
  rw [recordDecoder, memberTexts_ofRecord record .decoderStep Member.decoderStep fun _ => rfl]
  rfl

/-- The draft of a definition is rendered like the definition. -/
theorem render_ofDefinition (definition : Definition) :
    (ofDefinition definition).render = .ok definition.render := by
  cases definition with
  | union u =>
    change (ofUnion u).renderUnion = _
    have type : (ofUnion u).field "type" = .ok (.text u.type) := rfl
    rw [renderUnion, type, unionType_ofUnion, unionDecoder_ofUnion]
    rfl
  | record r =>
    change (ofRecord r).renderRecord = _
    have type : (ofRecord r).field "type" = .ok (.text r.type) := rfl
    have category : (ofRecord r).field "category" = .ok (.text r.category.word) := rfl
    rw [renderRecord, category, type, recordType_ofRecord, recordDecoder_ofRecord]
    rcases r with ⟨_, _ | _ | _, _⟩ <;>
      simp [bind, Except.bind, pure, Except.pure, Definition.render, Record.render,
        Value.key?, Value.display, Elm.Category.word]

end Draft

end ElmBindgen
