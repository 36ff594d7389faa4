import EdmCommands.Proofs.Doc.Record
import Mathlib.Data.List.Nodup

/-!
# EdmCommands.Proofs.Command.Codec

What is written of a command is read back as the same command.

* `decodeNamed_name`: a value written by its name, where names are distinct.
* `ParameterType.decode_toJson`, `SetMembership.decode_toJson`, `Parameter.decode_toJson`,
  `Command.decode_toJson`: the parts, and the command made of them.
* `ParameterType.nesting`: the levels of collections; those of the tree follow from it.
-/

namespace EdmCommands

/-! ## Names -/

theorem named_name {α : Type} {all : List α} {name : α → String} {a : α} (ha : a ∈ all)
    (distinct : (all.map name).Nodup) : named all name (name a) = some a := by
  unfold named
  obtain ⟨b, hb⟩ : ∃ b, all.find? (fun x => name x == name a) = some b := by
    rw [← Option.isSome_iff_exists, List.find?_isSome]
    exact ⟨a, ha, beq_self_eq_true _⟩
  have hname := List.find?_some hb
  rw [hb, List.inj_on_of_nodup_map distinct (List.mem_of_find?_eq_some hb) ha
    (beq_iff_eq.1 hname)]

theorem decodeNamed_name {α : Type} {all : List α} {name : α → String} {a : α} (ha : a ∈ all)
    (distinct : (all.map name).Nodup) : decodeNamed all name .json (.text (name a)) = .ok a := by
  have hknown : (all.map name).contains (name a) = true :=
    List.contains_iff_mem.2 (List.mem_map_of_mem ha)
  simp only [decodeNamed, Decode.enumeration, Decode.variant, hknown, if_true,
    named_name ha distinct]

theorem OperationKind.decode_name (k : OperationKind) :
    OperationKind.decode .json (.text k.name) = .ok k :=
  decodeNamed_name (by cases k <;> decide) (by decide)

theorem HttpMethod.decode_name (m : HttpMethod) :
    HttpMethod.decode .json (.text m.name) = .ok m :=
  decodeNamed_name (by cases m <;> decide) (by decide)

theorem Verb.decode_name (v : Verb) : Verb.decode .json (.text v.name) = .ok v :=
  decodeNamed_name (by cases v <;> decide) (by decide)

theorem ParameterLocation.decode_name (l : ParameterLocation) :
    ParameterLocation.decode .json (.text l.name) = .ok l :=
  decodeNamed_name (by cases l <;> decide) (by decide)

theorem Edm.Primitive.decode_name (p : Edm.Primitive) :
    Edm.Primitive.decode .json (.text p.name) = .ok p :=
  decodeNamed_name (by cases p <;> decide) (by decide)

/-! ## Lists -/

theorem Decode.list_arr {α : Type} {decode : Decoder α} {toJson : α → Json} {values : List α}
    (h : ∀ a ∈ values, decode .json (toJson a).toDoc = .ok a) :
    Decode.list decode .json (Json.arr (values.map toJson)).toDoc = .ok values := by
  have hitems : Decode.items decode .json (Json.toDocs (values.map toJson)) = .ok values := by
    induction values with
    | nil => rfl
    | cons a rest ih =>
      rw [List.forall_mem_cons] at h
      simp only [List.map_cons, Json.toDocs, Decode.items, h.1, ih h.2]
  exact hitems

theorem Decode.list_texts (names : List String) :
    Decode.list Decode.text .json (Json.texts names).toDoc = .ok names :=
  Decode.list_arr fun _ _ => rfl

/-! ## Alternatives -/

section Variants

variable {α : Type} {known : List String} {choose : String → Option Doc → Except DocFault α}
  {name : String}

theorem Decode.variant_text (h : known.contains name = true) :
    Decode.variant known choose .json (Json.text name).toDoc = choose name none := by
  simp only [Decode.variant, Json.toDoc, h, if_true]

theorem Decode.variant_obj (h : known.contains name = true) (content : Json) :
    Decode.variant known choose .json (Json.obj [(name, content)]).toDoc =
      choose name (some content.toDoc) := by
  simp only [Decode.variant, Json.toDoc, Json.toEntries, Decode.text, Doc.untagged, h, if_true]
  cases choose name (some content.toDoc) <;> rfl

end Variants

/-! ## Sets -/

theorem NameSet.ofList_names (s : NameSet) : NameSet.ofList s.names = s :=
  NameSet.eq_of_mem_iff fun _ => NameSet.mem_ofList

theorem NameSet.decode_texts (s : NameSet) :
    NameSet.decode .json (Json.texts s.names).toDoc = .ok s := by
  unfold NameSet.decode
  rw [Decode.list_texts]
  exact congrArg Except.ok s.ofList_names

theorem SetMembership.decode_toJson (m : SetMembership) :
    SetMembership.decode .json m.toJson.toDoc = .ok m := by
  unfold SetMembership.decode
  cases m with
  | all => exact Decode.variant_text (by decide)
  | only sets =>
    have hsets : Decode.content NameSet.decode .json (some (Json.texts sets.names).toDoc) =
        .ok sets := sets.decode_texts
    rw [toJson, Decode.variant_obj (by decide)]
    simp only [hsets]
    rfl

/-! ## Types -/

/-- How many levels of collections a type has. -/
def ParameterType.nesting : ParameterType → Nat
  | .collection element => element.nesting + 1
  | _ => 0

theorem ParameterType.depth_toJson (t : ParameterType) : t.toJson.toDoc.depth ≤ t.nesting + 2 := by
  induction t with
  | collection element ih =>
    simp only [toJson, nesting, Json.toDoc, Json.toEntries, Doc.depth, Doc.depthOfEntries]
    omega
  | _ => simp [toJson, nesting, Json.toDoc, Json.toEntries, Doc.depth, Doc.depthOfEntries]

theorem ParameterType.depth_pos (t : ParameterType) : 0 < t.toJson.toDoc.depth := by
  cases t <;> simp [toJson, Json.toDoc, Doc.depth]

theorem ParameterType.decodeWithin_toJson (t : ParameterType) (depth : Nat)
    (h : t.toJson.toDoc.depth ≤ depth + 1) :
    decodeWithin (depth + 1) .json t.toJson.toDoc = .ok t := by
  unfold decodeWithin
  induction t generalizing depth with
  | primitive p =>
    rw [toJson, Decode.variant_obj (by decide)]
    exact congrArg (Except.map _) p.decode_name
  | enum name => exact Decode.variant_obj (by decide) _
  | complex name => exact Decode.variant_obj (by decide) _
  | entity name => exact Decode.variant_obj (by decide) _
  | collection element ih =>
    simp only [toJson, Json.toDoc, Json.toEntries, Doc.depth, Doc.depthOfEntries] at h
    obtain ⟨depth, rfl⟩ : ∃ n, depth = n + 1 :=
      ⟨depth - 1, by have := element.depth_pos; omega⟩
    have helement : Decode.content (decodeWithin (depth + 1)) .json (some element.toJson.toDoc) =
        .ok element := by
      rw [Decode.content, decodeWithin]
      exact ih depth (by omega)
    rw [toJson, Decode.variant_obj (by decide)]
    exact congrArg (Except.map _) helement
  | switch => exact Decode.variant_text (by decide)
  | url => exact Decode.variant_text (by decide)
  | object => exact Decode.variant_text (by decide)

theorem ParameterType.decode_toJson (t : ParameterType) :
    ParameterType.decode .json t.toJson.toDoc = .ok t := by
  obtain ⟨depth, hdepth⟩ : ∃ n, t.toJson.toDoc.depth = n + 1 :=
    ⟨t.toJson.toDoc.depth - 1, by have := t.depth_pos; omega⟩
  rw [ParameterType.decode, hdepth]
  exact t.decodeWithin_toJson depth (Nat.le_of_eq hdepth)

/-! ## Parameters -/

theorem Parameter.reads_mandatoryIn (p : Parameter) :
    (Record.defaulted "mandatory_in" NameSet.decode .empty).Reads
      (if p.mandatoryIn.isEmpty then [] else [("mandatory_in", .texts p.mandatoryIn.names)])
      p.mandatoryIn := by
  split
  · rename_i hempty
    have : p.mandatoryIn = .empty := NameSet.ext (List.isEmpty_iff.1 hempty)
    rw [this]
    exact Record.Reads.absent rfl
  · exact Record.Reads.field p.mandatoryIn.decode_texts

theorem Parameter.decode_toJson (p : Parameter) :
    Parameter.decode .json p.toJson.toDoc = .ok p := by
  have reads := Record.Reads.map Parameter.mk (.text "name" p.name)
  have reads := reads.seq (.optText "wire_name" p.wireName) (by decide)
  have reads := reads.seq (.required "param_type" p.type.decode_toJson) (by decide)
  have reads := reads.seq (.spelled "location" p.location.decode_name) (by decide)
  have reads := reads.seq (.flag "mandatory" p.mandatory) (by decide)
  have reads := reads.seq p.reads_mandatoryIn (by decide)
  have reads := reads.seq (.flag "from_pipeline_value" p.fromPipelineValue) (by decide)
  have reads := reads.seq (.flag "from_pipeline_by_name" p.fromPipelineByName) (by decide)
  have reads := reads.seq (.flag "validate_not_null" p.validateNotNull) (by decide)
  have reads := reads.seq (.flag "validate_not_null_or_empty" p.validateNotNullOrEmpty) (by decide)
  have reads := reads.seq (.optText "derived_type_discriminator" p.discriminator) (by decide)
  have reads := reads.seq (.required "membership" p.membership.decode_toJson) (by decide)
  have reads := reads.seq (.optText "description" p.description) (by decide)
  have decoded := Record.decode_of_reads "Parameter" reads
  rw [toJson]
  simp only [List.append_assoc, List.cons_append, List.nil_append] at decoded ⊢
  exact decoded

theorem ParameterSet.decode_toJson (s : ParameterSet) :
    ParameterSet.decode .json s.toJson.toDoc = .ok s := by
  have reads := Record.Reads.map ParameterSet.mk (.text "name" s.name)
  have reads := reads.seq (.flag "is_default" s.isDefault) (by decide)
  have reads := reads.seq (.optText "derived_type" s.derivedType) (by decide)
  exact Record.decode_of_reads "ParameterSet" reads

theorem CommandName.decode_toJson (n : CommandName) :
    CommandName.decode .json n.toJson.toDoc = .ok n := by
  have reads := Record.Reads.map CommandName.mk (.spelled "verb" n.verb.decode_name)
  have reads := reads.seq (.text "noun" n.noun) (by decide)
  exact Record.decode_of_reads "CommandName" reads

/-! ## Commands -/

theorem Command.decode_toJson (c : Command) : Command.decode .json c.toJson.toDoc = .ok c := by
  have sets : Decode.list ParameterSet.decode .json
      (Json.arr (c.sets.map ParameterSet.toJson)).toDoc = .ok c.sets :=
    Decode.list_arr fun s _ => s.decode_toJson
  have parameters : Decode.list Parameter.decode .json
      (Json.arr (c.parameters.map Parameter.toJson)).toDoc = .ok c.parameters :=
    Decode.list_arr fun p _ => p.decode_toJson
  have reads := Record.Reads.map Command.mk (.required "name" c.name.decode_toJson)
  have reads := reads.seq (.spelled "operation" c.operation.decode_name) (by decide)
  have reads := reads.seq (.spelled "http_method" c.httpMethod.decode_name) (by decide)
  have reads := reads.seq (.text "call_url_template" c.urlTemplate) (by decide)
  have reads := reads.seq (.text "route" c.route) (by decide)
  have reads := reads.seq (.optText "resource_type" c.resourceType) (by decide)
  have reads := reads.seq (.required "parameter_sets" sets) (by decide)
  have reads := reads.seq (.required "parameters" parameters) (by decide)
  have reads := reads.seq (.optText "id_parameter" c.idParameter) (by decide)
  have reads := reads.seq (.flag "is_referenceable" c.isReferenceable) (by decide)
  have reads := reads.seq (.optText "reference_target" c.referenceTarget) (by decide)
  have reads := reads.seq (.text "summary" c.summary) (by decide)
  have reads := reads.seq (.optText "description" c.description) (by decide)
  exact Record.decode_of_reads "Command" reads

/-! ## Numbers and levels -/

theorem Json.isNumberless_optText (o : Option String) : (Json.optText o).isNumberless = true := by
  cases o <;> rfl

theorem Json.depth_optText (o : Option String) : (Json.optText o).toDoc.depth = 1 := by
  cases o <;> rfl

theorem Json.allNumberless_map {α : Type} {toJson : α → Json} {values : List α}
    (h : ∀ a ∈ values, (toJson a).isNumberless = true) :
    allNumberless (values.map toJson) = true := by
  induction values with
  | nil => rfl
  | cons a rest ih =>
    rw [List.forall_mem_cons] at h
    rw [List.map_cons, allNumberless, h.1, ih h.2]
    rfl

theorem Json.depthOfItems_map {α : Type} {toJson : α → Json} {values : List α} {depth : Nat}
    (h : ∀ a ∈ values, (toJson a).toDoc.depth ≤ depth) :
    Doc.depthOfItems (toDocs (values.map toJson)) ≤ depth := by
  induction values with
  | nil => exact Nat.zero_le _
  | cons a rest ih =>
    rw [List.forall_mem_cons] at h
    rw [List.map_cons, toDocs, Doc.depthOfItems]
    exact Nat.max_le.2 ⟨h.1, ih h.2⟩

theorem ParameterType.isNumberless_toJson (t : ParameterType) : t.toJson.isNumberless = true := by
  induction t with
  | collection element ih => simp [toJson, Json.isNumberless, Json.allFieldsNumberless, ih]
  | _ => simp [toJson, Json.isNumberless, Json.allFieldsNumberless]

theorem Json.isNumberless_texts (names : List String) :
    (Json.texts names).isNumberless = true :=
  Json.allNumberless_map fun _ _ => rfl

theorem Json.depth_texts (names : List String) : (Json.texts names).toDoc.depth ≤ 2 :=
  Nat.succ_le_succ (Json.depthOfItems_map fun _ _ => Nat.le_refl 1)

theorem SetMembership.isNumberless_toJson (m : SetMembership) : m.toJson.isNumberless = true := by
  cases m <;>
    simp [toJson, Json.isNumberless, Json.allFieldsNumberless, Json.isNumberless_texts]

theorem SetMembership.depth_toJson (m : SetMembership) : m.toJson.toDoc.depth ≤ 3 := by
  cases m with
  | all => decide
  | only sets =>
    have := Json.depth_texts sets.names
    simp only [toJson, Json.toDoc, Json.toEntries, Doc.depth, Doc.depthOfEntries]
    omega

theorem Parameter.isNumberless_toJson (p : Parameter) : p.toJson.isNumberless = true := by
  unfold toJson
  split <;>
    simp [Json.isNumberless, Json.allFieldsNumberless, Json.isNumberless_optText,
      Json.isNumberless_texts, p.type.isNumberless_toJson, p.membership.isNumberless_toJson]

theorem Parameter.depth_toJson (p : Parameter) : p.toJson.toDoc.depth ≤ p.type.nesting + 4 := by
  have htype := p.type.depth_toJson
  have hmembership := p.membership.depth_toJson
  have hmandatory := Json.depth_texts p.mandatoryIn.names
  unfold toJson
  split <;>
    simp [Json.toDoc, Json.toEntries, Doc.depth, Doc.depthOfEntries, Json.depth_optText] <;>
    omega

theorem ParameterSet.isNumberless_toJson (s : ParameterSet) : s.toJson.isNumberless = true := by
  simp [toJson, Json.isNumberless, Json.allFieldsNumberless, Json.isNumberless_optText]

theorem ParameterSet.depth_toJson (s : ParameterSet) : s.toJson.toDoc.depth ≤ 2 := by
  simp [toJson, Json.toDoc, Json.toEntries, Doc.depth, Doc.depthOfEntries, Json.depth_optText]

theorem Command.isNumberless_toJson (c : Command) : c.toJson.isNumberless = true := by
  have hsets := Json.allNumberless_map fun s (_ : s ∈ c.sets) => s.isNumberless_toJson
  have hparameters := Json.allNumberless_map fun p (_ : p ∈ c.parameters) => p.isNumberless_toJson
  simp [toJson, CommandName.toJson, Json.isNumberless, Json.allFieldsNumberless,
    Json.isNumberless_optText, hsets, hparameters]

theorem Command.depth_toJson {c : Command} {depth : Nat}
    (h : ∀ p ∈ c.parameters, p.type.nesting ≤ depth) : c.toJson.toDoc.depth ≤ depth + 6 := by
  have hsets := Json.depthOfItems_map fun s (_ : s ∈ c.sets) => s.depth_toJson
  have hparameters := Json.depthOfItems_map fun p (hp : p ∈ c.parameters) =>
    Nat.le_trans p.depth_toJson (Nat.add_le_add_right (h p hp) 4)
  simp [toJson, CommandName.toJson, Json.toDoc, Json.toEntries, Doc.depth, Doc.depthOfEntries,
    Json.depth_optText]
  omega

end EdmCommands
