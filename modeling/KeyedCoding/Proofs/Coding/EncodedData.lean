import KeyedCoding.Proofs.Coding.RoundTrip
import KeyedCoding.Proofs.KeyMapping.Bijection

/-!
Encoded data: an object has one entry for each written field that holds a value, and nothing else of
a record reaches it.
-/

namespace KeyedCoding

namespace FieldInfo

/-- The value that a field holds; an optional field may hold none. -/
def held? (values : FieldValues) (field : FieldInfo) : Option Datum :=
  if field.ty.isOptional then (values.get field.name).toOption else some (values.get field.name)

/-- Whether the value that a field holds has a JSON form. -/
def Serializes (values : FieldValues) (field : FieldInfo) : Prop :=
  ∀ value ∈ field.held? values, ∃ json, value.toJson = .ok json

/-- The value that a field holds has no JSON form; the error names the key of the field. -/
def RefusesWrite (mapping : KeyMapping) (values : FieldValues) (error : EncodingError)
    (field : FieldInfo) : Prop :=
  ∃ value ∈ field.held? values, ∃ fault, value.toJson = .error fault ∧
    ∃ key, mapping.keyOf? field.name = some key ∧ error = ⟨key, fault⟩

/-- An entry has the key of a field, and the JSON form of what the field holds. -/
def WritesEntry (mapping : KeyMapping) (values : FieldValues) (field : FieldInfo)
    (entry : String × Json) : Prop :=
  mapping.keyOf? field.name = some entry.1 ∧
    ∃ value ∈ field.held? values, value.toJson = .ok entry.2

end FieldInfo

namespace EncodeImpl

variable {transformer : String} {item : Item} {inspection : Inspection} {mapping : KeyMapping}
  {encode : EncodeImpl} {field : FieldInfo} {values : FieldValues} {error : EncodingError}

/-- The request of a field. -/
def requestOf (mapping : KeyMapping) (values : FieldValues) (field : FieldInfo) : KeyedWrite :=
  (writeOf field).request mapping values

/-- A request is for what its field holds. -/
theorem value?_requestOf : (requestOf mapping values field).value? = field.held? values := by
  -- The type of the field decides how it is written.
  rw [requestOf, FieldWrite.request, FieldInfo.held?, writeOf]
  split <;> rfl

/-- The request of a written field has the key of the field. -/
theorem key_requestOf (written : isWritten mapping field = true) :
    mapping.keyOf? field.name = some (requestOf mapping values field).key := by
  -- A written field is mapped, so the key that is looked up is there.
  obtain ⟨key, found⟩ := KeyMapping.exists_keyOf?_iff.mpr (isWritten_iff.mp written).1
  rw [requestOf, key_request, writeOf, found, Option.getD_some]

/-- The request of a field can be carried out exactly if what it holds has a JSON form. -/
theorem serializes_requestOf :
    (requestOf mapping values field).Serializes ↔ field.Serializes values := by
  -- Both speak of the value that the field holds.
  rw [KeyedWrite.Serializes, value?_requestOf, FieldInfo.Serializes]

/-- The request of a written field fails where the field has no JSON form. -/
theorem refuses_requestOf (written : isWritten mapping field = true) :
    (requestOf mapping values field).Refuses error ↔ field.RefusesWrite mapping values error := by
  -- The request fails with the reason of its value, under the key of the field.
  rw [KeyedWrite.Refuses, value?_requestOf, FieldInfo.RefusesWrite,
    @key_requestOf _ _ values written]
  simp

/-- The requests of an encoder are those of the written fields, in their order. -/
theorem requests_eq (generated : ofMapping? inspection mapping = some encode) :
    encode.requests mapping values =
      (inspection.fields.filter (isWritten mapping)).map (requestOf mapping values) := by
  -- The writes of a generated encoder are the written fields, each with its key.
  obtain ⟨-, -, rfl⟩ := ofMapping?_eq_some_iff.mp generated
  rw [requests, writesOf, List.map_map]
  rfl

/-- An encoder fails exactly at the first written field without a JSON form. -/
theorem run_error_iff (generated : ofMapping? inspection mapping = some encode) :
    encode.run mapping values = .error error ↔
      FailsFirst (·.Serializes values) (·.RefusesWrite mapping values error)
        (inspection.fields.filter (isWritten mapping)) := by
  -- The error is that of the requests, which are made field by field.
  have asked : encode.run mapping values = .error error ↔
      Encoder.writeAll {} (encode.requests mapping values) = .error error := map_eq_error_iff
  rw [asked, Encoder.writeAll_error_iff, requests_eq generated, failsFirst_map]
  refine failsFirst_congr fun field inside => ⟨serializes_requestOf, ?_⟩
  exact refuses_requestOf (List.mem_filter.mp inside).2

/-- The request of a written field puts in the entry of the field, if the field holds a value. -/
theorem pair?_requestOf (written : isWritten mapping field = true)
    (serializes : field.Serializes values) :
    if (field.held? values).isSome then ∃ entry,
      (requestOf mapping values field).pair? = some entry ∧ field.WritesEntry mapping values entry
    else (requestOf mapping values field).pair? = none := by
  rw [KeyedWrite.pair?, KeyedWrite.written?, value?_requestOf]
  cases held : field.held? values with
  | none => rfl
  | some value =>
    -- The value has a JSON form, which stands under the key of the field.
    obtain ⟨json, form⟩ := serializes value held
    refine ⟨((requestOf mapping values field).key, json), ?_, key_requestOf written, value, held,
      form⟩
    simp [form, Except.toOption]

/-- The object that an encoder writes has the entries of the written fields that hold a value. -/
theorem exists_entries_of_run (inspected : Inspection.ofItem transformer item = .ok inspection)
    (distinct : mapping.keys.Nodup) (generated : ofMapping? inspection mapping = some encode)
    {data : Json} (run : encode.run mapping values = .ok data) :
    ∃ entries listed, data = .object entries ∧ (entries.map Prod.fst).Nodup ∧
      entries.Perm listed ∧ List.Forall₂ (FieldInfo.WritesEntry mapping values)
        (inspection.fields.filter fun field =>
          isWritten mapping field && (field.held? values).isSome) listed := by
  obtain ⟨after, ran, rfl⟩ := map_eq_ok_iff.mp run
  -- The object is empty at first, and no key is written twice.
  have apart := @requests_distinct _ _ _ _ _ values inspected distinct generated
  have added := Encoder.perm_writeAll ran apart (by simp)
  have form := run_ok_iff.mp ⟨_, run⟩
  rw [requests_eq generated, List.forall_mem_map] at form
  change after.entries.Perm ((encode.requests mapping values).filterMap _ ++ []) at added
  rw [List.append_nil] at added
  have keys : (after.entries.map Prod.fst).Nodup :=
    (added.map Prod.fst).nodup_iff.mpr (apart.sublist (KeyedWrite.keys_sublist _))
  rw [requests_eq generated, List.filterMap_map] at added
  refine ⟨_, _, rfl, keys, added, ?_⟩
  -- Every written field has a JSON form, so it has an entry unless it holds nothing.
  have entry (field : FieldInfo) (inside : field ∈ inspection.fields.filter (isWritten mapping)) :=
    pair?_requestOf (List.mem_filter.mp inside).2 (serializes_requestOf.mp (form field inside))
  have both : (inspection.fields.filter fun field =>
      isWritten mapping field && (field.held? values).isSome) =
      (inspection.fields.filter (isWritten mapping)).filter (·.held? values |>.isSome) := by
    rw [List.filter_filter]
    exact List.filter_congr fun field _ => Bool.and_comm _ _
  rw [both]
  refine forall₂_filterMap (fun field inside holds => ?_) fun field inside empty => ?_
  · simpa [holds] using entry field inside
  · simpa [empty] using entry field inside

/-- An encoder looks at the written fields alone. -/
theorem run_congr (generated : ofMapping? inspection mapping = some encode) {others : FieldValues}
    (agree : ∀ field ∈ inspection.fields, isWritten mapping field = true →
      values.get field.name = others.get field.name) :
    encode.run mapping values = encode.run mapping others := by
  -- The requests are the same, because each takes the value of its field only.
  have same : encode.requests mapping values = encode.requests mapping others := by
    rw [requests_eq generated, requests_eq generated]
    refine List.map_congr_left fun field inside => ?_
    obtain ⟨among, written⟩ := List.mem_filter.mp inside
    rw [requestOf, requestOf, FieldWrite.request, FieldWrite.request, writeOf,
      agree field among written]
  exact congrArg (fun requests => (Encoder.writeAll {} requests).map Encoder.toJson) same

/--
What an encoder makes of the values of a record: an object with the entries of the mapped stored
fields that hold a value, or else the error of the first of these fields without a JSON form.
-/
structure Exact (inspection : Inspection) (mapping : KeyMapping) (encode : EncodeImpl) : Prop where
  succeeds : ∀ values, (∃ data, encode.run mapping values = .ok data) ↔
    ∀ field ∈ inspection.fields.filter (isWritten mapping), field.Serializes values
  written : ∀ values data, encode.run mapping values = .ok data →
    ∃ entries listed, data = .object entries ∧ (entries.map Prod.fst).Nodup ∧
      entries.Perm listed ∧ List.Forall₂ (FieldInfo.WritesEntry mapping values)
        (inspection.fields.filter fun field =>
          isWritten mapping field && (field.held? values).isSome) listed
  fails : ∀ values error, encode.run mapping values = .error error ↔
    FailsFirst (·.Serializes values) (·.RefusesWrite mapping values error)
      (inspection.fields.filter (isWritten mapping))
  secret : ∀ values others,
    (∀ field ∈ inspection.fields, mapping.contains field.name = true → field.isAccessor = false →
      values.get field.name = others.get field.name) →
    encode.run mapping values = encode.run mapping others

/--
An encoder that is generated under an accepted mapping writes what the mapped stored fields hold,
each under its own key, and nothing that the other fields hold.
-/
theorem exact_of_ofMapping (inspected : Inspection.ofItem transformer item = .ok inspection)
    (accepted : mapping.Accepted) (generated : ofMapping? inspection mapping = some encode) :
    Exact inspection mapping encode where
  -- Every write stands for one mapped stored field.
  succeeds values := by
    rw [run_ok_iff, requests_eq generated, List.forall_mem_map]
    exact forall₂_congr fun field _ => serializes_requestOf
  written values data run :=
    exists_entries_of_run inspected accepted.wellFormed.keys generated run
  fails values error := run_error_iff generated
  secret values others agree :=
    run_congr generated fun field inside written =>
      agree field inside (isWritten_iff.mp written).1 (isWritten_iff.mp written).2

/-- The encoder of a record with a secure field writes what the two others hold. -/
theorem exact_login :
    ∃ inspection mapping encode, Inspection.ofItem "codable" Item.login = .ok inspection ∧
      KeyMapping.ofRecord .standard inspection = .ok mapping ∧ mapping.Accepted ∧
        ofMapping? inspection mapping = some encode ∧ encode.writes.length = 2 ∧
          Exact inspection mapping encode := by
  -- The struct has one secure field, and the mapping is synthesized from the others.
  refine ⟨_, _, _, rfl, rfl, ?_, rfl, rfl, ?_⟩
  · exact @KeyMapping.Accepted.synthesized "codable" Item.login _ .standard _ rfl rfl
  · exact @exact_of_ofMapping "codable" Item.login _ _ _ rfl
      (@KeyMapping.Accepted.synthesized "codable" Item.login _ .standard _ rfl rfl) rfl

end EncodeImpl

end KeyedCoding
