import KeyedCoding.Proofs.Generated.Members
import KeyedCoding.Proofs.Transform.SecureStorage

/-!
Completeness of the generated members: every field that stays in the struct is read once, and what
is read is written.
-/

namespace KeyedCoding

namespace Item

/-- A declaration with a required field, an optional one, and one in secure storage. -/
def login : Item :=
  let text : Ty := .path (.ofName ⟨"String", .origin⟩)
  let optional : Ty := .path ⟨none, [⟨⟨"Option", .origin⟩, .angle false [.type text] false⟩]⟩
  let secure : Attribute := ⟨.origin, false, ⟨.ofName ⟨Attribute.secureName, .origin⟩, .none⟩⟩
  .struct
    { head := ⟨[], [], .origin, ⟨"Login", .origin⟩, .empty⟩
      fields := .named
        [⟨[], [], ⟨"user", .origin⟩, text⟩, ⟨[], [], ⟨"nick", .origin⟩, optional⟩,
         ⟨[secure], [], ⟨"password", .origin⟩, optional⟩] false }

end Item

namespace FieldRead

/-- A field that is read from the container, and whether it may be absent there. -/
def decoded? (read : FieldRead) : Option (Name × Bool) :=
  match read.source with
  | .decode _ => some (read.field, false)
  | .decodeIfPresent _ => some (read.field, true)
  | .default _ => none
  | .defaultTrait => none

end FieldRead

namespace FieldWrite

/-- A field that is written, and whether it may be absent. -/
def written (write : FieldWrite) : Name × Bool := (write.field, write.ifPresent)

end FieldWrite

namespace DecodeInitializer

variable {transformer : String} {item : Item} {inspection : Inspection} {mapping : KeyMapping}
  {init : DecodeInitializer}

/-- The declared fields that are not secure are those that are known to have no accessor. -/
theorem stored_described (inspected : Inspection.ofItem transformer item = .ok inspection) :
    List.Forall₂ (fun declared field => FieldInfo.ofField declared = .ok field)
      (inspection.record.fields.filter (!·.isSecure))
        (inspection.fields.filter (!·.isAccessor)) := by
  -- Being secure and having an accessor go together, so both filters keep the same places.
  refine List.rel_filter (fun declared field described => ?_)
    (Inspection.fields_described inspected)
  simp [(FieldInfo.ofField_eq_ok described).2.2]

/-- The stored fields have the names of the declared fields that are not secure. -/
theorem stored_fields (inspected : Inspection.ofItem transformer item = .ok inspection) :
    (inspection.fields.filter (!·.isAccessor)).map (·.name) =
      (inspection.record.fields.filter (!·.isSecure)).map (·.name) := by
  -- Equal lists of names are lists whose items have equal names at every place.
  rw [← List.forall₂_eq_eq_eq, List.forall₂_map_left_iff, List.forall₂_map_right_iff]
  refine (stored_described inspected).flip.imp fun field declared described => ?_
  exact (FieldInfo.ofField_eq_ok described).1

/-- The reads name the fields that are not secure, in their order. -/
theorem reads_fields (inspected : Inspection.ofItem transformer item = .ok inspection)
    (generated : ofMapping inspection mapping = .ok (some init)) :
    init.reads.map (·.field) = (inspection.record.fields.filter (!·.isSecure)).map (·.name) := by
  -- Every read has the name of the field that it is made for.
  rw [← stored_fields inspected, ← List.forall₂_eq_eq_eq, List.forall₂_map_left_iff,
    List.forall₂_map_right_iff]
  refine (reads_of_ofMapping generated).flip.imp fun read field found => ?_
  obtain ⟨source, -, rfl⟩ := Option.map_eq_some_iff.mp found
  rfl

/-- No field is read twice. -/
theorem reads_nodup (inspected : Inspection.ofItem transformer item = .ok inspection)
    (generated : ofMapping inspection mapping = .ok (some init)) :
    (init.reads.map (·.field.spelling)).Nodup := by
  -- The fields that are read are some of those that are known, and these differ.
  have names := congrArg (List.map Name.spelling) (reads_fields inspected generated)
  rw [← stored_fields inspected, List.map_map, List.map_map] at names
  have part : ((inspection.fields.filter (!·.isAccessor)).map (·.name.spelling)).Sublist
      (inspection.fields.map (·.name.spelling)) := List.filter_sublist.map _
  exact names ▸ (Inspection.fields_nodup inspected).sublist part

/-- Every field that is read from the container is written, at the same place among the others. -/
theorem decoded_sublist_written (mapping : KeyMapping) (fields : List FieldInfo) :
    ((fields.filterMap (readOf? mapping)).filterMap FieldRead.decoded?).Sublist
      ((EncodeImpl.writesOf mapping fields).map FieldWrite.written) := by
  -- Reads and writes are made field by field, and a field that is read is written at the same step.
  induction fields with
  | nil => exact .slnil
  | cons field rest ih =>
    cases eligible : isEligible mapping field with
    | true =>
      -- Reader and writer look for the same inner type, so they agree about optional fields.
      have written := EncodeImpl.isWritten_of_isEligible eligible
      cases optional : field.ty.optionInner? with
      | none =>
        simpa [EncodeImpl.writesOf, written, readOf?, sourceOf?, eligible, optional,
          FieldRead.decoded?, EncodeImpl.writeOf, FieldWrite.written, Ty.isOptional] using ih
      | some inner =>
        simpa [EncodeImpl.writesOf, written, readOf?, sourceOf?, eligible, optional,
          FieldRead.decoded?, EncodeImpl.writeOf, FieldWrite.written, Ty.isOptional] using ih
    | false =>
      -- What is not read from the container may still be written.
      have silent : (readOf? mapping field).bind FieldRead.decoded? = none := by
        simp only [readOf?, sourceOf?, eligible]
        cases field.initializer with
        | none => rfl
        | some value => cases value <;> rfl
      have skipped : ((field :: rest).filterMap (readOf? mapping)).filterMap FieldRead.decoded? =
          (rest.filterMap (readOf? mapping)).filterMap FieldRead.decoded? := by
        rw [List.filterMap_filterMap, List.filterMap_cons, silent, List.filterMap_filterMap]
      rw [skipped, EncodeImpl.writesOf, List.filter_cons]
      split
      · rw [List.map_cons, List.map_cons]
        exact ih.cons _
      · exact ih

/-- The writes name the mapped fields that are not secure, in their order. -/
theorem writes_fields (inspected : Inspection.ofItem transformer item = .ok inspection)
    (mapping : KeyMapping) :
    (EncodeImpl.writesOf mapping inspection.fields).map (·.field) =
      (inspection.record.fields.filter fun field =>
        mapping.contains field.name && !field.isSecure).map (·.name) := by
  rw [EncodeImpl.writesOf, List.map_map, ← List.forall₂_eq_eq_eq, List.forall₂_map_left_iff,
    List.forall₂_map_right_iff]
  -- A declared field and what is known of it pass the same test.
  have pairs := List.rel_filter (p := fun field => mapping.contains field.name && !field.isSecure)
    (q := EncodeImpl.isWritten mapping) (fun declared field described => by
      obtain ⟨name, -, secure⟩ := FieldInfo.ofField_eq_ok described
      simp [EncodeImpl.isWritten, name, secure]) (Inspection.fields_described inspected)
  exact pairs.flip.imp fun field declared described => (FieldInfo.ofField_eq_ok described).1

/--
Where an initializer is generated and no encoder exists, an encoder is generated that writes what is
mapped and stored.
-/
theorem exists_encoder (generated : ofMapping inspection mapping = .ok (some init))
    (free : inspection.record.existing.encoder = false) :
    ∃ encode, EncodeImpl.ofMapping? inspection mapping = some encode ∧
      encode.writes = EncodeImpl.writesOf mapping inspection.fields := by
  refine ⟨⟨inspection.record.target, EncodeImpl.writesOf mapping inspection.fields⟩, ?_, rfl⟩
  rw [EncodeImpl.ofMapping?_eq_some_iff]
  refine ⟨free, fun none => ?_, rfl⟩
  -- The field that the initializer reads is written, so there is something to write.
  obtain ⟨-, -, eligible, -⟩ := ofMapping_eq_some_iff.mp generated
  obtain ⟨field, inside, reads⟩ := List.any_eq_true.mp eligible
  have written : field ∈ inspection.fields.filter (EncodeImpl.isWritten mapping) :=
    List.mem_filter.mpr ⟨inside, EncodeImpl.isWritten_of_isEligible reads⟩
  rw [EncodeImpl.writesOf, List.map_eq_nil_iff] at none
  simp [none] at written

/-- An initializer that goes with the struct, with secure storage and with the encoder. -/
structure Complete (item : Item) (inspection : Inspection) (mapping : KeyMapping)
    (init : DecodeInitializer) :
    Prop where
  /-- The fields that are not secure are read, in their order. -/
  fields : init.reads.map (·.field) = (inspection.record.fields.filter (!·.isSecure)).map (·.name)
  /-- No field is read twice. -/
  once : (init.reads.map (·.field.spelling)).Nodup
  /-- The fields that are read are those that secure storage leaves in the struct. -/
  left : ∀ tokens context expansion, SecureStorage.expand tokens item context = .ok expansion →
    ∃ first rest record, expansion.items = first :: rest ∧ first.asRecord = .ok record ∧
      record.fields.map (·.name) = init.reads.map (·.field)
  /-- A read has the source that fits the options and the declared type of its field. -/
  sources : List.Forall₂
    (fun declared read => ∃ field, FieldInfo.ofField declared = .ok field ∧ field.ty = declared.ty ∧
      read.source.Fits mapping field ∧
        (read.isDecoded = true ↔ mapping.contains declared.name = true ∧ field.initializer = none))
    (inspection.record.fields.filter (!·.isSecure)) init.reads
  /--
  Without an encoder of its own, a record gets one that writes the mapped fields which are not
  secure, in their order, and with the same optionality whatever is read from the container.
  -/
  written : inspection.record.existing.encoder = false →
    ∃ encode, EncodeImpl.ofMapping? inspection mapping = some encode ∧
      encode.writes.map (·.field) =
        (inspection.record.fields.filter fun field =>
          mapping.contains field.name && !field.isSecure).map (·.name) ∧
      (init.reads.filterMap FieldRead.decoded?).Sublist (encode.writes.map FieldWrite.written)

/-- Every generated initializer goes with the struct, with secure storage and with the encoder. -/
theorem complete_of_ofMapping (inspected : Inspection.ofItem transformer item = .ok inspection)
    (generated : ofMapping inspection mapping = .ok (some init)) :
    Complete item inspection mapping init := by
  refine ⟨reads_fields inspected generated, reads_nodup inspected generated, ?_, ?_, ?_⟩
  · -- Secure storage keeps the fields that are not secure, which are those that are read.
    intro tokens context expansion expanded
    have found := (Inspection.ofItem_eq_ok_iff.mp inspected).1
    rw [reads_fields inspected generated]
    exact SecureStorage.fields_of_expand found expanded
  · -- Each declared field has its known form, and that one has its read.
    refine (forall₂_through (stored_described inspected) (reads_fit generated)).imp ?_
    rintro declared read ⟨field, described, -, fits⟩
    obtain ⟨name, ty, -⟩ := FieldInfo.ofField_eq_ok described
    exact ⟨field, described, ty, fits, name ▸ fits.isDecoded_iff⟩
  · -- The initializer reads some field, so the encoder has something to write.
    intro free
    obtain ⟨encode, encoder, writes⟩ := exists_encoder generated free
    obtain ⟨-, -, -, rfl⟩ := ofMapping_eq_some_iff.mp generated
    refine ⟨encode, encoder, ?_, ?_⟩
    · rw [writes, writes_fields inspected]
    · rw [writes]
      exact decoded_sublist_written mapping inspection.fields

/--
The initializer of a record with a secure field, whose mapping is written by hand, reads the two
others.
-/
theorem complete_login :
    ∃ inspection init, Inspection.ofItem "codable" Item.login = .ok inspection ∧
      ofMapping inspection ⟨[⟨⟨"nick", .origin⟩, "n"⟩]⟩ = .ok (some init) ∧ init.reads.length = 2 ∧
        Complete Item.login inspection ⟨[⟨⟨"nick", .origin⟩, "n"⟩]⟩ init :=
  ⟨_, _, rfl, rfl, rfl, @complete_of_ofMapping "codable" _ _ _ _ rfl rfl⟩

end DecodeInitializer

end KeyedCoding
