import KeyedCoding.Proofs.Generated.Members
import KeyedCoding.Proofs.Record.Fields

/-!
The inclusion policy at work: leaving initialized fields out takes their keys and writes away, and
nothing from decoding.
-/

namespace KeyedCoding

/-- Whether a name is that of a field without a default and without an accessor. -/
def FieldInfo.namesBare (fields : List FieldInfo) (name : Name) : Bool :=
  fields.any fun field => field.name == name && !field.isInitialized

/-- What the encoder for a record writes; nothing where none is generated. -/
def EncodeImpl.writesFor (inspection : Inspection) (mapping : KeyMapping) : List FieldWrite :=
  match ofMapping? inspection mapping with
  | some encode => encode.writes
  | none => []

/-- An encoder writes the mapped fields with storage, unless the record has one already. -/
theorem EncodeImpl.writesFor_eq (inspection : Inspection) (mapping : KeyMapping) :
    writesFor inspection mapping =
      if inspection.record.existing.encoder then [] else writesOf mapping inspection.fields := by
  -- Where no field is written there is no encoder, which comes to the same.
  rw [writesFor, ofMapping?]
  cases inspection.record.existing.encoder with
  | true => rfl
  | false =>
    cases writes : writesOf mapping inspection.fields with
    | nil => rfl
    | cons write rest => rfl

/--
The second mapping is the part of the first one that belongs to fields without an initializer.
Decoding is the same under both, and of the writes just those of these fields are left.
-/
structure Inspection.Narrows (inspection : Inspection) (all only : KeyMapping) : Prop where
  entries : only.entries = all.entries.filter fun entry =>
    FieldInfo.namesBare inspection.fields entry.field
  known : ∃ init, DecodeInitializer.ofMapping inspection all = .ok init
  decoding :
    DecodeInitializer.ofMapping inspection only = DecodeInitializer.ofMapping inspection all
  writes : EncodeImpl.writesFor inspection only =
    (EncodeImpl.writesFor inspection all).filter fun write =>
      FieldInfo.namesBare inspection.fields write.field

section Narrows

variable {inspection : Inspection} {fields : List FieldInfo} {field : FieldInfo}
  {all only : KeyMapping}

/-- Among fields with distinct names, the name of a field tells whether it has an initializer. -/
theorem FieldInfo.namesBare_eq (distinct : (fields.map (·.name.spelling)).Nodup)
    (inside : field ∈ fields) : namesBare fields field.name = !field.isInitialized := by
  -- The owner of the name is the only field that has it.
  rw [Bool.eq_iff_iff, namesBare, List.any_eq_true]
  constructor
  · rintro ⟨owner, known, both⟩
    rw [Bool.and_eq_true, Name.beq_eq_true_iff] at both
    obtain rfl : owner = field := List.inj_on_of_nodup_map distinct known inside both.1
    exact both.2
  · intro bare
    exact ⟨field, inside, by simp [bare]⟩

namespace KeyMapping

/-- The keys of fewer fields differ if those of all included fields do. -/
theorem exists_ofFields_narrow (mapped : ofFields .includeAllExceptExcluded fields = .ok all) :
    ∃ only, ofFields .includeOnlyNonInitialized fields = .ok only := by
  obtain ⟨unique, -⟩ := ofFields_eq_ok_iff.mp mapped
  -- The narrow policy includes a field only if the wide one does.
  have fewer : (fields.filter InclusionPolicy.includeOnlyNonInitialized.includes).Sublist
      (fields.filter InclusionPolicy.includeAllExceptExcluded.includes) := by
    refine List.monotone_filter_right fields fun field included => ?_
    exact (Bool.and_eq_true _ _ ▸ included).1
  refine ⟨⟨(fields.filter InclusionPolicy.includeOnlyNonInitialized.includes).map FieldInfo.entry⟩,
    ofFields_eq_ok_iff.mpr ⟨?_, rfl⟩⟩
  exact unique.sublist (fewer.map FieldInfo.key)

/-- The entries that are left are those of the fields without an initializer. -/
theorem entries_narrow (distinct : (fields.map (·.name.spelling)).Nodup)
    (wide : ofFields .includeAllExceptExcluded fields = .ok all)
    (narrow : ofFields .includeOnlyNonInitialized fields = .ok only) :
    only.entries = all.entries.filter fun entry => FieldInfo.namesBare fields entry.field := by
  rw [(ofFields_eq_ok_iff.mp wide).2, (ofFields_eq_ok_iff.mp narrow).2, List.filter_map,
    List.filter_filter]
  -- For each field the narrow policy asks what the wide one asks, and for no initializer.
  refine congrArg (List.map FieldInfo.entry) (List.filter_congr fun field inside => ?_)
  rw [Function.comp_apply, FieldInfo.entry, FieldInfo.namesBare_eq distinct inside, Bool.and_comm]
  rfl

end KeyMapping

/-- A field is read from the container under the one mapping exactly if it is under the other. -/
theorem DecodeInitializer.isEligible_narrow (distinct : (fields.map (·.name.spelling)).Nodup)
    (wide : KeyMapping.ofFields .includeAllExceptExcluded fields = .ok all)
    (narrow : KeyMapping.ofFields .includeOnlyNonInitialized fields = .ok only)
    (inside : field ∈ fields) : isEligible only field = isEligible all field := by
  -- An initializer keeps a field from being read, whether it is mapped or not.
  rw [isEligible, isEligible, KeyMapping.contains_of_ofFields distinct wide inside,
    KeyMapping.contains_of_ofFields distinct narrow inside]
  cases initialized : field.isInitialized with
  | true => simp
  | false => simp [InclusionPolicy.includes, initialized]

/-- Decoding is the same under both mappings. -/
theorem DecodeInitializer.ofMapping_narrow
    (distinct : (inspection.fields.map (·.name.spelling)).Nodup)
    (wide : KeyMapping.ofFields .includeAllExceptExcluded inspection.fields = .ok all)
    (narrow : KeyMapping.ofFields .includeOnlyNonInitialized inspection.fields = .ok only) :
    (∃ init, ofMapping inspection all = .ok init) ∧
      ofMapping inspection only = ofMapping inspection all := by
  -- Both mappings are made from the fields, so no entry is unknown.
  have knownAll : unknownFields inspection all = [] :=
    unknownFields_eq_nil (KeyMapping.ofFields_eq_ok_iff.mp wide).2 fun field among =>
      List.mem_of_mem_filter among
  have knownOnly : unknownFields inspection only = [] :=
    unknownFields_eq_nil (KeyMapping.ofFields_eq_ok_iff.mp narrow).2 fun field among =>
      List.mem_of_mem_filter among
  -- The same fields are read from the container, and so each field is read in the same way.
  have eligible : ∀ field ∈ inspection.fields, isEligible only field = isEligible all field :=
    fun field inside => isEligible_narrow distinct wide narrow inside
  have any : inspection.fields.any (isEligible only) = inspection.fields.any (isEligible all) := by
    rw [Bool.eq_iff_iff, List.any_eq_true, List.any_eq_true]
    exact exists_congr fun field => and_congr_right fun inside => by rw [eligible field inside]
  have reads : inspection.fields.filterMap (readOf? only) =
      inspection.fields.filterMap (readOf? all) :=
    List.filterMap_congr fun field inside => readOf?_congr (eligible field inside)
  constructor
  · rw [ofMapping, knownAll]
    by_cases absent : (inspection.record.existing.decoder ||
        !inspection.fields.any (isEligible all)) = true
    · exact ⟨_, if_pos absent⟩
    · exact ⟨_, if_neg absent⟩
  · rw [ofMapping, ofMapping, knownAll, knownOnly]
    simp only [any, reads]

/-- The writes that are left are those of the fields without an initializer. -/
theorem EncodeImpl.writesOf_narrow (distinct : (fields.map (·.name.spelling)).Nodup)
    (wide : KeyMapping.ofFields .includeAllExceptExcluded fields = .ok all)
    (narrow : KeyMapping.ofFields .includeOnlyNonInitialized fields = .ok only) :
    writesOf only fields =
      (writesOf all fields).filter fun write => FieldInfo.namesBare fields write.field := by
  rw [writesOf, writesOf, List.filter_map, List.filter_filter]
  refine congrArg (List.map writeOf) (List.filter_congr fun field inside => ?_)
  rw [Function.comp_apply, writeOf, isWritten, isWritten,
    KeyMapping.contains_of_ofFields distinct wide inside,
    KeyMapping.contains_of_ofFields distinct narrow inside, FieldInfo.namesBare_eq distinct inside]
  -- Of the mapped fields the narrow policy drops those with an initializer, written or not.
  cases initialized : field.isInitialized with
  | true => simp [InclusionPolicy.includes, initialized]
  | false => simp [InclusionPolicy.includes, initialized]

/--
The policy changes keys and writes, and never decoding: where fields have a mapping with the
initialized ones, they have one without them, and that narrows the first one.

No name may repeat, and none does among the fields of an inspected declaration.
-/
theorem Inspection.narrows (distinct : (inspection.fields.map (·.name.spelling)).Nodup)
    (mapped : KeyMapping.ofRecord .includeAllExceptExcluded inspection = .ok all) :
    ∃ only, KeyMapping.ofRecord .includeOnlyNonInitialized inspection = .ok only ∧
      inspection.Narrows all only := by
  obtain ⟨unmapped, wide⟩ := KeyMapping.ofRecord_eq_ok_iff.mp mapped
  obtain ⟨only, narrow⟩ := KeyMapping.exists_ofFields_narrow wide
  obtain ⟨known, decoding⟩ := DecodeInitializer.ofMapping_narrow distinct wide narrow
  refine ⟨only, KeyMapping.ofRecord_eq_ok_iff.mpr ⟨unmapped, narrow⟩,
    KeyMapping.entries_narrow distinct wide narrow, known, decoding, ?_⟩
  rw [EncodeImpl.writesFor_eq, EncodeImpl.writesFor_eq]
  -- A record with an encoder of its own gets no writes under either mapping.
  split
  · rfl
  · exact EncodeImpl.writesOf_narrow distinct wide narrow

/--
A declaration with a plain field, one that has a default, one in secure storage, and a skipped one.
-/
def Item.letter : Item :=
  let text : Ty := .path (.ofName ⟨"String", .origin⟩)
  let coded (tokens : List Token) : Attribute :=
    .withList (.ofName ⟨Attribute.codableName, .origin⟩) tokens
  let secure : Attribute := ⟨.origin, false, ⟨.ofName ⟨Attribute.secureName, .origin⟩, .none⟩⟩
  .struct
    { head := ⟨[], [], .origin, ⟨"Letter", .origin⟩, .empty⟩
      fields := .named
        [⟨[], [], ⟨"title", .origin⟩, text⟩,
         ⟨[coded ([Token.word "default"] ++ Token.symbol "=" ++ [Token.word "EMPTY"])], [],
          ⟨"body", .origin⟩, text⟩,
         ⟨[secure], [], ⟨"password", .origin⟩, text⟩,
         ⟨[coded [Token.word "skip"]], [], ⟨"cache", .origin⟩, text⟩] false }

/-- The mapping of that declaration has three entries, of which the policy takes two away. -/
theorem Inspection.narrows_letter : ∃ inspection all only,
    ofItem "codable" Item.letter = .ok inspection ∧
      KeyMapping.ofRecord .includeAllExceptExcluded inspection = .ok all ∧
        KeyMapping.ofRecord .includeOnlyNonInitialized inspection = .ok only ∧
          all.entries.map (·.key) = ["title", "body", "password"] ∧
            only.entries.map (·.key) = ["title"] ∧ inspection.Narrows all only := by
  -- The mapping under the one policy is computed, and the other one is the narrowed mapping.
  obtain ⟨inspection, all, inspected, mapped, entries, bare⟩ : ∃ inspection all,
      ofItem "codable" Item.letter = .ok inspection ∧
        KeyMapping.ofRecord .includeAllExceptExcluded inspection = .ok all ∧
          all.entries.map (·.key) = ["title", "body", "password"] ∧
            (all.entries.filter fun entry =>
              FieldInfo.namesBare inspection.fields entry.field).map (·.key) = ["title"] :=
    ⟨_, _, rfl, rfl, rfl, rfl⟩
  obtain ⟨only, narrowed, narrows⟩ := narrows (fields_nodup inspected) mapped
  refine ⟨inspection, all, only, inspected, mapped, narrowed, entries, ?_, narrows⟩
  rw [narrows.entries, bare]

end Narrows

end KeyedCoding
