import ElmBindgen.Model.Metadata
import ElmBindgen.Proofs.EnumTable.TwoWay
import ElmBindgen.Proofs.Needs
import ElmBindgen.Proofs.Service.LastWrite

/-!
# The descriptor of a model

The entries of a model's metadata are checked one after another, so the first one that does not fit
decides the fault. If they all fit, each field of the descriptor is said by an entry of its own, or
by its default where the entry is not there.

## Main definitions

* `EnumTable.Words`: a table of all members of a closed set
* `Metadata`: the entries that a descriptor is made from
* `Metadata.Reads`: the entries that an object has
* `Metadata.needs`: what is checked, in order
* `Metadata.Describes`: the descriptor that the entries stand for, with a region or without one

## Main results

* `EnumTable.Words.fromWire_text`: a text is looked up among the words of a closed set
* `Metadata.Reads.service_answers`: the parts of a descriptor, read one after another
* `Metadata.Describes.unique`: the entries stand for one descriptor
* `Model.service_describes`: the descriptor of a model, or its fault
-/

namespace ElmBindgen

open Need (Answers)

/-! ## Words for the closed sets -/

namespace EnumTable

variable {α : Type} [Lookup α] {wire : α → String} {table : EnumTable α String}

/-- A table of all members of a closed set, with a word for each. -/
structure Words (wire : α → String) (table : EnumTable α String) : Prop where
  built : ofList table.values (fun value => .ok (wire value)) = .ok table
  all : ∀ value, value ∈ table.values

namespace Words

/-- A text is equal to a word only if it is the word. -/
theorem same_text {word other : String} :
    Item.same (.value (.text word)) (Lookup.item other) ↔ other = word := by
  have hashable (text : String) : (Lookup.item text).isHashable := rfl
  change (Lookup.item word).same (Lookup.item other) ↔ _
  rw [Item.same_iff (hashable word) (hashable other)]
  simp [Lookup.item, Item.key?, Item.content?, Value.key?, eq_comm]

/-- A text is looked up among the words: it stands for the value whose word it is, and it is unknown
if it is no word. -/
theorem fromWire_text (words : table.Words wire) (word : String) :
    Answers [⟨∃ value, wire value = word, .unknownEnumValue (.value (.text word))⟩]
      (fun value => wire value = word) (table.fromWire (.value (.text word))) := by
  obtain ⟨twoWay, -⟩ := TwoWay.ofList words.built
  refine .one ?_ fun missing => ?_
  · rintro ⟨value, rfl⟩
    exact ⟨value, twoWay.fromWire_ok_iff.mpr
      ⟨rfl, words.all value, _, rfl, same_text.mpr rfl⟩, rfl⟩
  · refine twoWay.fromWire_unknown_iff.mpr ⟨rfl, ?_⟩
    rintro value - _ ⟨⟩ same
    exact missing ⟨value, same_text.mp same⟩

/-- No two members of a closed set have the same word. -/
theorem injective (words : table.Words wire) : Function.Injective wire := by
  obtain ⟨twoWay, -⟩ := TwoWay.ofList words.built
  have found (value : α) : table.fromWire (.value (.text (wire value))) = .ok value :=
    twoWay.fromWire_ok_iff.mpr ⟨rfl, words.all value, _, rfl, same_text.mpr rfl⟩
  intro value other same
  have back := found other
  rw [← same, found value] at back
  exact Except.ok.inj back

end Words

theorem protocols_words : protocols.Words Protocol.wire :=
  ⟨ofList_protocols, fun protocol => by cases protocol <;> decide⟩

theorem signers_words : signers.Words Signer.wire :=
  ⟨ofList_signers, fun signer => by cases signer <;> decide⟩

theorem timestampFormats_words : timestampFormats.Words TimestampFormat.wire :=
  ⟨ofList_timestampFormats, fun format => by cases format <;> decide⟩

end EnumTable

open EnumTable (protocols_words signers_words timestampFormats_words)

/-! ## Entries -/

/-- The entries of the metadata that a descriptor is made from. -/
structure Metadata where
  endpointPrefix : Option String
  apiVersion : Option String
  protocol : Option String
  protocols : List String
  signatureVersion : Option String
  jsonVersion : Option String
  signingName : Option String
  targetPrefix : Option String
  timestampFormat : Option String
  xmlNamespace : Option String
  hasGlobalEndpoint : Bool

namespace Metadata

/-- An object has these entries. Each is a text or not there, `protocols` is a list of texts, and
a namespace may also be the address within an object. A global endpoint may be anything. -/
structure Reads (metadata : Metadata) (fields : List (String × Value)) : Prop where
  endpointPrefix : fields.lookup "endpointPrefix" = metadata.endpointPrefix.map .text
  apiVersion : fields.lookup "apiVersion" = metadata.apiVersion.map .text
  protocol : fields.lookup "protocol" = metadata.protocol.map .text
  protocols : fields.lookup "protocols" = some (.list (metadata.protocols.map .text)) ∨
    fields.lookup "protocols" = none ∧ metadata.protocols = []
  signatureVersion : fields.lookup "signatureVersion" = metadata.signatureVersion.map .text
  jsonVersion : fields.lookup "jsonVersion" = metadata.jsonVersion.map .text
  signingName : fields.lookup "signingName" = metadata.signingName.map .text
  targetPrefix : fields.lookup "targetPrefix" = metadata.targetPrefix.map .text
  timestampFormat : fields.lookup "timestampFormat" = metadata.timestampFormat.map .text
  xmlNamespace : fields.lookup "xmlNamespace" = metadata.xmlNamespace.map .text ∨
    ∃ address, fields.lookup "xmlNamespace" = some (.object address) ∧
      address.lookup "uri" = metadata.xmlNamespace.map .text
  globalEndpoint : (fields.lookup "globalEndpoint").isSome = metadata.hasGlobalEndpoint

variable (metadata : Metadata)

/-- The words for protocols, in order of preference. -/
def candidates : List String := metadata.protocol.toList ++ metadata.protocols

/-- The first of some words that stands for a protocol stands for this one. -/
def FirstKnown (words : List String) (protocol : Protocol) : Prop :=
  ∃ before after, words = before ++ protocol.wire :: after ∧
    ∀ word ∈ before, ∀ other : Protocol, other.wire ≠ word

/-- The signer that a signature version stands for. Besides the words for the signers there is
another one for that of S3. -/
def SignedBy (version : Option String) (signer : Signer) : Prop :=
  version = some "s3v4" ∧ signer = .s3 ∨ version = some signer.wire

/-- Some protocol has to be known. -/
def protocolNeed : Need where
  holds := ∃ protocol : Protocol, protocol.wire ∈ metadata.candidates
  fault := .unsupportedProtocol (.ofText metadata.protocol)

/-- The signature version has to stand for a signer. -/
def signerNeed : Need where
  holds := metadata.signatureVersion = some "s3v4" ∨
    ∃ signer : Signer, metadata.signatureVersion = some signer.wire
  fault := .unsupportedSigner (.ofText metadata.signatureVersion)

/-- A timestamp format has to be known if there is one. -/
def formatNeed : Need where
  holds := metadata.timestampFormat = none ∨
    ∃ format : TimestampFormat, metadata.timestampFormat = some format.wire
  fault := .unknownEnumValue (.value (.ofText metadata.timestampFormat))

/-- What is checked, in order. -/
def needs : List Need := [
  ⟨metadata.endpointPrefix.isSome, .missingKey "endpointPrefix"⟩,
  ⟨metadata.apiVersion.isSome, .missingKey "apiVersion"⟩,
  metadata.protocolNeed, metadata.signerNeed, metadata.formatNeed]

/-- The descriptor that the entries stand for. It is global without a region and for a service that
has a global endpoint; where there is no entry for a field, the field has its default. -/
structure Describes (region : Option String) (service : Service) : Prop where
  endpointPrefix : metadata.endpointPrefix = some service.endpointPrefix
  apiVersion : metadata.apiVersion = some service.apiVersion
  protocol : FirstKnown metadata.candidates service.protocol
  signer : SignedBy metadata.signatureVersion service.signer
  global : service.endpoint = .global ↔ region = none ∨ metadata.hasGlobalEndpoint
  regional : ∀ name, region = some name → ¬metadata.hasGlobalEndpoint →
    service.endpoint = .regional (.text name)
  targetPrefix : service.targetPrefix = .text (metadata.targetPrefix.getD
    ("AWS" ++ String.ofList (Text.upper service.endpointPrefix.toList) ++ "_" ++
      String.ofList (service.apiVersion.toList.filter (· ≠ '-'))))
  timestampFormat : service.timestampFormat.wire = metadata.timestampFormat.getD
    (if service.protocol = .json ∨ service.protocol = .restJson then "unixTimestamp"
      else "iso8601")
  jsonVersion : service.jsonVersion = .ofText metadata.jsonVersion
  signingName : service.signingName = .ofText metadata.signingName
  xmlNamespace : service.xmlNamespace = .ofText metadata.xmlNamespace
  hostRule : service.hostRule = .standard

/-! ## Protocols and signers -/

variable {metadata}

/-- A word that stands for no protocol is passed over. -/
theorem FirstKnown.cons {word : String} {words : List String} {protocol : Protocol}
    (known : FirstKnown words protocol) (unknown : ∀ other : Protocol, other.wire ≠ word) :
    FirstKnown (word :: words) protocol := by
  obtain ⟨before, after, rfl, passed⟩ := known
  exact ⟨word :: before, after, rfl, List.forall_mem_cons.mpr ⟨unknown, passed⟩⟩

/-- At most one protocol is the first. -/
theorem FirstKnown.unique {words : List String} {protocol other : Protocol}
    (known : FirstKnown words protocol) (known' : FirstKnown words other) : protocol = other := by
  obtain ⟨before, after, rfl, passed⟩ := known
  obtain ⟨before', after', same, passed'⟩ := known'
  -- The words before the one cannot hold the other, so both stand at the same place.
  induction before generalizing before' with
  | nil =>
    cases before' with
    | nil => exact protocols_words.injective (List.cons.inj same).1
    | cons word _ =>
      cases (List.cons.inj same).1
      exact absurd rfl (passed' _ List.mem_cons_self protocol)
  | cons word rest ih =>
    cases before' with
    | nil =>
      cases (List.cons.inj same).1
      exact absurd rfl (passed _ List.mem_cons_self other)
    | cons word' rest' =>
      exact ih (List.forall_mem_cons.mp passed).2 rest' (List.cons.inj same).2
        (List.forall_mem_cons.mp passed').2

theorem SignedBy.unique {version : Option String} {signer other : Signer}
    (signed : SignedBy version signer) (signed' : SignedBy version other) : signer = other := by
  rcases signed with ⟨rfl, rfl⟩ | rfl <;> rcases signed' with ⟨renamed, rfl⟩ | word
  · rfl
  · cases other <;> exact absurd word (by decide)
  · cases signer <;> exact absurd renamed (by decide)
  · exact signers_words.injective (Option.some.inj word)

/-! ## Changes -/

/-- The changes that the entries ask for, in order. -/
def changes (metadata : Metadata) (format : Option TimestampFormat) : List Change :=
  (metadata.jsonVersion.map fun s => .jsonVersion (.text s)).toList ++
    (metadata.signingName.map fun s => .signingName (.text s)).toList ++
    (metadata.targetPrefix.map fun s => .targetPrefix (.text s)).toList ++
    (format.map .timestampFormat).toList ++
    (metadata.xmlNamespace.map fun s => .xmlNamespace (.text s)).toList

/-- What the entries put into a field. -/
def override (metadata : Metadata) (format : Option TimestampFormat) :
    (field : Service.Field) → Option field.Content
  | .jsonVersion => metadata.jsonVersion.map Value.text
  | .signingName => metadata.signingName.map Value.text
  | .targetPrefix => metadata.targetPrefix.map Value.text
  | .timestampFormat => format
  | .xmlNamespace => metadata.xmlNamespace.map Value.text
  | .hostRule => none

/-- Each field is written to by its own entry alone. -/
theorem lastWrite_changes (metadata : Metadata) (format : Option TimestampFormat)
    (field : Service.Field) :
    Service.lastWrite field (metadata.changes format) = metadata.override format field := by
  have entry {α : Type} (text : Option α) (change : α → Change) :
      (text.map change).toList.filterMap (Service.written field) =
        (text.bind fun a => Service.written field (change a)).toList := by
    cases text with
    | none => rfl
    | some a => cases own : Service.written field (change a) <;> simp [own]
  have last {α : Type} (content : Option α) : content.toList.getLast? = content := by
    cases content <;> rfl
  rw [Service.lastWrite, changes]
  simp only [List.filterMap_append, entry]
  cases field with
  | timestampFormat | hostRule => simp [Service.written, override, last]
  | _ =>
    simp only [Service.written, Option.bind_fun_none, Option.toList_none, List.nil_append,
      List.append_nil, last]
    exact Option.map_eq_bind.symm

/-- The defaults that a definition derives. -/
theorem defaultTargetPrefix_eq (endpointPrefix apiVersion : String) :
    Service.defaultTargetPrefix endpointPrefix apiVersion =
      "AWS" ++ String.ofList (Text.upper endpointPrefix.toList) ++ "_" ++
        String.ofList (apiVersion.toList.filter (· ≠ '-')) := by
  have parts (s t : String) (front back : List Char) :
      String.ofList (s.toList ++ front ++ (t.toList ++ back)) =
        s ++ String.ofList front ++ t ++ String.ofList back := by
    refine String.toList_inj.mp ?_
    simp
  exact parts "AWS" "_" _ _

theorem wire_defaultTimestampFormat (protocol : Protocol) :
    (defaultTimestampFormat protocol).wire =
      if protocol = .json ∨ protocol = .restJson then "unixTimestamp" else "iso8601" := by
  cases protocol <;> rfl

/-- Where a descriptor is addressed. -/
def endpoint (metadata : Metadata) : Option String → Endpoint
  | some region => if metadata.hasGlobalEndpoint then .global else .regional (.text region)
  | none => .global

/-- A definition from the entries, changed as the entries ask for, is what they stand for. -/
theorem describes_foldl {endpointPrefix apiVersion : String} {protocol : Protocol}
    {signer : Signer} {format : Option TimestampFormat} (region : Option String)
    (first : metadata.endpointPrefix = some endpointPrefix)
    (second : metadata.apiVersion = some apiVersion)
    (known : FirstKnown metadata.candidates protocol)
    (signed : SignedBy metadata.signatureVersion signer)
    (formatted : metadata.timestampFormat = format.map TimestampFormat.wire) :
    metadata.Describes region ((metadata.changes format).foldl Service.apply
      (.ofParts endpointPrefix apiVersion protocol signer (metadata.endpoint region))) := by
  have fixed := Service.fixed_foldl
    (.ofParts endpointPrefix apiVersion protocol signer (metadata.endpoint region))
    (metadata.changes format)
  have fields := Service.get_foldl
    (.ofParts endpointPrefix apiVersion protocol signer (metadata.endpoint region))
    (metadata.changes format)
  simp only [lastWrite_changes, Service.get_ofParts] at fields
  -- All that is left to know about the descriptor is what these two say.
  generalize (metadata.changes format).foldl Service.apply _ = service at fixed fields ⊢
  obtain ⟨rfl, rfl, rfl, rfl, addressed⟩ :
      service.endpointPrefix = endpointPrefix ∧ service.apiVersion = apiVersion ∧
        service.protocol = protocol ∧ service.signer = signer ∧
        service.endpoint = metadata.endpoint region := by
    simpa [Service.fixed, Service.ofParts] using fixed
  have text (entry : Option String) : (entry.map Value.text).getD .null = .ofText entry := by
    cases entry <;> rfl
  refine ⟨first, second, known, signed, ?_, ?_, ?_, ?_, ?_, ?_, ?_, fields .hostRule⟩
  · rw [addressed]
    cases region <;> simp [endpoint]
  · rintro name rfl none
    rw [addressed]
    simp [endpoint, none]
  · refine (fields .targetPrefix).trans ?_
    rw [override]
    cases metadata.targetPrefix with
    | none => exact congrArg Value.text (defaultTargetPrefix_eq _ _)
    | some own => rfl
  · refine (congrArg TimestampFormat.wire (fields .timestampFormat)).trans ?_
    rw [formatted]
    cases format with
    | none => exact wire_defaultTimestampFormat _
    | some own => rfl
  · exact (fields .jsonVersion).trans (text _)
  · exact (fields .signingName).trans (text _)
  · exact (fields .xmlNamespace).trans (text _)

/-! ## Reading the entries -/

/-- The first word for a protocol is found, whatever stands before it. -/
theorem firstKnown_texts (reported : Value) (words : List String) :
    Answers [⟨∃ protocol : Protocol, protocol.wire ∈ words, .unsupportedProtocol reported⟩]
      (FirstKnown words) (Model.firstKnown reported (words.map .text)) := by
  induction words with
  | nil => exact .one (by simp) fun _ => rfl
  | cons word rest ih =>
    by_cases known : ∃ protocol : Protocol, protocol.wire = word
    · obtain ⟨protocol, rfl⟩ := known
      have found : Model.firstKnown reported (.text protocol.wire :: rest.map .text) =
          .ok protocol := by
        cases protocol <;> rfl
      rw [List.map_cons, found]
      exact .one (fun _ => ⟨protocol, rfl, [], rest, rfl, by simp⟩)
        (absurd ⟨protocol, List.mem_cons_self⟩)
    · -- A blank word is not even looked up, and any other one is unknown.
      have unknown : ∀ other : Protocol, other.wire ≠ word := fun other same => known ⟨other, same⟩
      have passed : Model.firstKnown reported (.text word :: rest.map .text) =
          Model.firstKnown reported (rest.map .text) := by
        have looked := protocols_words.fromWire_text word
        rw [Model.firstKnown, looked.error_iff.mpr (.inl ⟨known, rfl⟩)]
        split <;> rfl
      rw [List.map_cons, passed]
      simpa [unknown] using ih.imp fun _ first => first.cons unknown

section Fields

variable {fields : List (String × Value)} {model : Model}
  (given : model.metadata = .object fields)
include given

/-- An entry that has to be there. -/
theorem text_entry {key : String} {text : Option String}
    (there : fields.lookup key = text.map .text) :
    Answers [⟨text.isSome, .missingKey key⟩] (fun value => ∃ s, text = some s ∧ value = .text s)
      (model.metadata.entry key) := by
  rw [given, Value.entry, there]
  cases text with
  | none => exact .one nofun fun _ => rfl
  | some s => exact .one (fun _ => ⟨_, rfl, s, rfl, rfl⟩) (absurd rfl)

/-- An entry that may be missing. -/
theorem changeOf_text {key : String} {text : Option String}
    (there : fields.lookup key = text.map .text) (change : Value → Change) :
    model.changeOf key (fun value => .ok (change value)) =
      .ok (text.map fun s => change (.text s)).toList := by
  rw [Model.changeOf, given, Value.get?, there]
  cases text <;> rfl

variable (reads : metadata.Reads fields)
include reads

theorem Reads.protocol_answers :
    Answers [metadata.protocolNeed] (FirstKnown metadata.candidates) model.protocol := by
  have others : ((fields.lookup "protocols").getD (.list [])).elements =
      .ok (metadata.protocols.map .text) := by
    rcases reads.protocols with there | ⟨missing, none⟩
    · rw [there]
      rfl
    · rw [missing, none]
      rfl
  have read : model.protocol =
      Model.firstKnown (.ofText metadata.protocol) (metadata.candidates.map .text) := by
    simp only [Model.protocol, given, Value.entry?, reads.protocol, others, bind, Except.bind,
      candidates]
    cases metadata.protocol <;> rfl
  rw [read]
  exact firstKnown_texts _ _

theorem Reads.signer_answers :
    Answers [metadata.signerNeed] (SignedBy metadata.signatureVersion) model.signer := by
  rw [signerNeed]
  simp only [Model.signer, given, Value.entry?, reads.signatureVersion, bind, Except.bind]
  cases metadata.signatureVersion with
  | none => exact .one (by simp) fun _ => rfl
  | some version =>
    by_cases renamed : version = "s3v4"
    · -- The other word for the signer of S3 is not in the table.
      subst renamed
      exact .one (fun _ => ⟨.s3, rfl, .inl ⟨rfl, rfl⟩⟩) (absurd (.inl rfl))
    by_cases known : ∃ signer : Signer, signer.wire = version
    · obtain ⟨signer, rfl⟩ := known
      refine .one (fun _ => ⟨signer, ?_, .inr rfl⟩) (absurd (.inr ⟨signer, rfl⟩))
      cases signer <;> rfl
    · have looked := signers_words.fromWire_text version
      have unknown := looked.error_iff.mpr (.inl ⟨known, rfl⟩)
      refine .one ?_ fun _ => ?_
      · rintro (same | ⟨signer, same⟩)
        · exact absurd (Option.some.inj same) renamed
        · exact absurd ⟨signer, (Option.some.inj same).symm⟩ known
      · simp only [Option.map_some, Option.getD_some, Value.key, Value.key?, Key.text.injEq,
          renamed, if_false, unknown]
        rfl

theorem Reads.timestampFormat_answers :
    Answers [metadata.formatNeed] (fun changes => ∃ format : Option TimestampFormat,
        metadata.timestampFormat = format.map TimestampFormat.wire ∧
          changes = (format.map Change.timestampFormat).toList)
      (model.changeOf "timestampFormat" Model.timestampChange) := by
  rw [formatNeed, Model.changeOf, given, Value.get?, reads.timestampFormat]
  cases metadata.timestampFormat with
  | none => exact .one (fun _ => ⟨[], rfl, none, rfl, rfl⟩) (absurd (.inl rfl))
  | some word =>
    by_cases known : ∃ format : TimestampFormat, format.wire = word
    · obtain ⟨format, rfl⟩ := known
      refine .one (fun _ => ⟨[.timestampFormat format], ?_, some format, rfl, rfl⟩)
        (absurd (.inr ⟨format, rfl⟩))
      cases format <;> rfl
    · have looked := timestampFormats_words.fromWire_text word
      have unknown := looked.error_iff.mpr (.inl ⟨known, rfl⟩)
      refine .one ?_ fun _ => ?_
      · rintro (none | ⟨format, same⟩)
        · cases none
        · exact absurd ⟨format, (Option.some.inj same).symm⟩ known
      · simp only [Option.map_some, Model.timestampChange, unknown]
        rfl

theorem Reads.xmlNamespace_eq : model.xmlNamespace = .ok (.ofText metadata.xmlNamespace) := by
  simp only [Model.xmlNamespace, given, Value.entry?, bind, Except.bind]
  rcases reads.xmlNamespace with there | ⟨address, there, uri⟩
  · rw [there]
    cases metadata.xmlNamespace <;> rfl
  · simp only [there, uri, Option.getD_some]
    cases metadata.xmlNamespace <;> rfl

theorem Reads.changes_answers :
    Answers [metadata.formatNeed] (fun changes => ∃ format : Option TimestampFormat,
        metadata.timestampFormat = format.map TimestampFormat.wire ∧
          changes = metadata.changes format) model.changes := by
  rw [Model.changes, changeOf_text given reads.jsonVersion, changeOf_text given reads.signingName,
    changeOf_text given reads.targetPrefix]
  refine (reads.timestampFormat_answers given).bind_ok ?_
  rintro _ ⟨format, formatted, rfl⟩
  rw [reads.xmlNamespace_eq given]
  refine ⟨metadata.changes format, ?_, format, formatted, rfl⟩
  rw [changes]
  cases metadata.xmlNamespace <;> rfl

/-- The entries are checked in order. If they all fit, the descriptor is what they stand for. -/
theorem Reads.service_answers (region : Option String) :
    Answers metadata.needs (metadata.Describes region) (model.service (.ofText region)) := by
  have addressed : model.hasGlobalEndpoint = .ok metadata.hasGlobalEndpoint := by
    rw [Model.hasGlobalEndpoint, given, Value.contains, reads.globalEndpoint]
  refine (text_entry given reads.endpointPrefix).bind ?_
  rintro _ ⟨endpointPrefix, first, rfl⟩
  refine (text_entry given reads.apiVersion).bind ?_
  rintro _ ⟨apiVersion, second, rfl⟩
  refine (reads.protocol_answers given).bind fun protocol known => ?_
  refine (reads.signer_answers given).bind fun signer signed => ?_
  -- Where the service is found is decided here, and it takes no need of its own.
  rw [addressed]
  refine (reads.changes_answers given).bind_ok ?_
  rintro _ ⟨format, formatted, rfl⟩
  have endpoint : (if (Value.ofText region).isNull || metadata.hasGlobalEndpoint then
      Endpoint.global else .regional (.ofText region)) = metadata.endpoint region := by
    cases region <;> rfl
  rw [endpoint]
  exact ⟨_, rfl, describes_foldl region first second known signed formatted⟩

end Fields

/-! ## The descriptor -/

namespace Describes

variable {region : Option String} {service other : Service}

/-- Entries that stand for a descriptor meet all needs. -/
theorem met (describes : metadata.Describes region service) : Need.Met metadata.needs := by
  obtain ⟨before, after, words, -⟩ := describes.protocol
  have known : service.protocol.wire ∈ metadata.candidates := by simp [words]
  have formatted : metadata.formatNeed.holds := by
    rw [formatNeed]
    have own := describes.timestampFormat
    cases entry : metadata.timestampFormat with
    | none => exact .inl rfl
    | some word =>
      rw [entry] at own
      exact .inr ⟨_, congrArg some own.symm⟩
  simp only [Need.Met, needs, List.forall_mem_cons]
  exact ⟨by simp [describes.endpointPrefix], by simp [describes.apiVersion], ⟨_, known⟩,
    describes.signer.imp And.left fun word => ⟨_, word⟩, formatted, by simp⟩

/-- Entries stand for one descriptor at most. -/
theorem unique (describes : metadata.Describes region service)
    (describes' : metadata.Describes region other) : service = other := by
  have endpointPrefix := describes.endpointPrefix.symm.trans describes'.endpointPrefix
  have apiVersion := describes.apiVersion.symm.trans describes'.apiVersion
  have protocol := describes.protocol.unique describes'.protocol
  have signer := describes.signer.unique describes'.signer
  have endpoint : service.endpoint = other.endpoint := by
    by_cases everywhere : region = none ∨ metadata.hasGlobalEndpoint
    · rw [describes.global.mpr everywhere, describes'.global.mpr everywhere]
    · obtain ⟨pinned, none⟩ := not_or.mp everywhere
      obtain ⟨name, rfl⟩ := Option.ne_none_iff_exists'.mp pinned
      rw [describes.regional name rfl none, describes'.regional name rfl none]
  rw [Option.some.injEq] at endpointPrefix apiVersion
  refine Service.eq_of_get ?_ fun field => ?_
  · rw [Service.fixed, Service.fixed, endpointPrefix, apiVersion, protocol, signer, endpoint]
  cases field with
  | jsonVersion => exact describes.jsonVersion.trans describes'.jsonVersion.symm
  | signingName => exact describes.signingName.trans describes'.signingName.symm
  | xmlNamespace => exact describes.xmlNamespace.trans describes'.xmlNamespace.symm
  | hostRule => exact describes.hostRule.trans describes'.hostRule.symm
  | targetPrefix =>
    refine describes.targetPrefix.trans (.trans ?_ describes'.targetPrefix.symm)
    rw [endpointPrefix, apiVersion]
  | timestampFormat =>
    refine timestampFormats_words.injective
      (describes.timestampFormat.trans (.trans ?_ describes'.timestampFormat.symm))
    rw [protocol]

end Describes

end Metadata

namespace Model

/-- The descriptor of a model is a function of the entries of its metadata and of the region. There
is one exactly if the entries meet all needs, and otherwise the fault is that of the first need, in
order, that they do not meet. The descriptor is the one that the entries stand for. -/
theorem service_describes {model : Model} {fields : List (String × Value)} {metadata : Metadata}
    (given : model.metadata = .object fields) (reads : metadata.Reads fields)
    (region : Option String) :
    ((∃ service, model.service (.ofText region) = .ok service) ↔ Need.Met metadata.needs) ∧
      (∀ fault, model.service (.ofText region) = .error fault ↔
        Need.Fails metadata.needs fault) ∧
      ∀ service, model.service (.ofText region) = .ok service ↔
        metadata.Describes region service := by
  have answers := reads.service_answers given region
  refine ⟨answers.ok_iff, fun fault => answers.error_iff, fun service =>
    ⟨answers.kind_of_ok, fun describes => ?_⟩⟩
  obtain ⟨other, found⟩ := answers.ok_iff.mpr describes.met
  rw [found, describes.unique (answers.kind_of_ok found)]

/-- A vault, whose first protocol is not known. -/
def vault (signatureVersion timestampFormat : String) : Model where
  metadata := .object [("endpointPrefix", .text "vault"), ("apiVersion", .text "2006-03-01"),
    ("protocol", .text "smithy"),
    ("protocols", .list [.text "", .text "rest-xml", .text "json"]),
    ("signatureVersion", .text signatureVersion), ("signingName", .text "s3"),
    ("timestampFormat", .text timestampFormat),
    ("xmlNamespace", .object [("prefix", .text "xsi"), ("uri", .text "urn:vault")]),
    ("globalEndpoint", .null)]
  operations := none
  shapes := .object []

/-- The vault is global although a region is asked for. A signature version that is not known is
reported before a timestamp format that is not. -/
theorem service_vault :
    (vault "s3v4" "rfc822").service (.text "eu-west-1") =
        .ok ⟨"vault", "2006-03-01", .restXml, .s3, .text "AWSVAULT_20060301", .rfc822, .global,
          .null, .text "s3", .text "urn:vault", .standard⟩ ∧
      (vault "v2" "epoch").service .null = .error (.unsupportedSigner (.text "v2")) := by
  have reads (signatureVersion timestampFormat : String) : ∃ fields,
      (vault signatureVersion timestampFormat).metadata = .object fields ∧
        Metadata.Reads ⟨some "vault", some "2006-03-01", some "smithy", ["", "rest-xml", "json"],
          some signatureVersion, none, some "s3", none, some timestampFormat, some "urn:vault",
          true⟩ fields :=
    ⟨_, rfl, rfl, rfl, rfl, .inl rfl, rfl, rfl, rfl, rfl, rfl, .inr ⟨_, rfl, rfl⟩, rfl⟩
  constructor
  · obtain ⟨_, given, reads⟩ := reads "s3v4" "rfc822"
    obtain ⟨-, -, describes⟩ := service_describes given reads (some "eu-west-1")
    refine (describes _).mpr ⟨rfl, rfl, ⟨["smithy", ""], ["json"], rfl, ?_⟩, .inl ⟨rfl, rfl⟩,
      by simp, by simp, ?_, rfl, rfl, rfl, rfl, rfl⟩
    · intro word passed other
      cases other <;> revert word <;> decide
    · have default : Service.defaultTargetPrefix "vault" "2006-03-01" = "AWSVAULT_20060301" := by
        decide
      exact congrArg Value.text default.symm
  · obtain ⟨_, given, reads⟩ := reads "v2" "epoch"
    obtain ⟨-, fails, -⟩ := service_describes given reads none
    have known : ∃ protocol : Protocol, protocol.wire ∈ ["smithy", "", "rest-xml", "json"] :=
      ⟨.restXml, by decide⟩
    refine (fails _).mpr (.inr ⟨rfl, .inr ⟨rfl, .inr ⟨known, .inl ⟨?_, rfl⟩⟩⟩⟩)
    rintro (renamed | ⟨signer, word⟩)
    · exact absurd renamed (by decide)
    · cases signer <;> exact absurd word (by decide)

end Model

end ElmBindgen
