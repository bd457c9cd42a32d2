import KeyedCoding.Proofs.Coding.DecodedData
import KeyedCoding.Proofs.Coding.Encoder

/-!
The round trip of a record: what its generated encoder writes, its generated initializer reads back.
-/

namespace KeyedCoding

namespace Meaning

variable {meaning : Meaning} {ty : Ty} {value : Datum}

/-- A type reads a value back from what the value is written as. -/
def ReadsBack (meaning : Meaning) (ty : Ty) (value : Datum) : Prop :=
  ∀ json, value.toJson = .ok json → meaning.read ty json = .ok value

/--
A value of a type, or of the type inside an optional one, is read back from what it is written as.
-/
def Faithful (meaning : Meaning) (ty : Ty) (value : Datum) : Prop :=
  match ty.optionInner? with
  | none => meaning.ReadsBack ty value
  | some inner => ∃ held, value = Datum.ofOption held ∧ ∀ present ∈ held,
      meaning.ReadsBack inner present

end Meaning

namespace Datum

/-- The value that an optional one comes back as: what is written as null is absent. -/
def withoutNull (value : Datum) : Datum :=
  match value.toJson with
  | .ok .null => absent
  | _ => value

/-- What an optional value holds is what was put into it. -/
@[simp] theorem toOption_ofOption (held : Option Datum) : (ofOption held).toOption = held := by
  -- A value that is not there is put in as an absent one.
  cases held <;> rfl

/-- An absent value comes back as it is. -/
@[simp] theorem withoutNull_absent : absent.withoutNull = absent := by
  -- An absent value has the form null, and comes back as absent.
  simp [withoutNull, toJson]

/-- A value that is written as null comes back as an absent one. -/
theorem withoutNull_of_null {value : Datum} (null : value.toJson = .ok .null) :
    (present value).withoutNull = absent := by
  -- Only the JSON form is looked at, whatever the value is.
  simp [withoutNull, toJson, null]

/-- A value that is not written as null comes back as it is. -/
theorem withoutNull_of_ne_null {value : Datum} (other : value.toJson ≠ .ok .null) :
    (present value).withoutNull = present value := by
  -- Only a value that is written as null would be lost.
  rw [withoutNull, toJson]
  split
  · rename_i null
    exact absurd null other
  · rfl

end Datum

namespace EncodeImpl

variable {transformer : String} {item : Item} {inspection : Inspection} {mapping : KeyMapping}
  {encode : EncodeImpl} {field : FieldInfo} {values : FieldValues} {data : Json}

/-- The requests of an encoder. -/
def requests (encode : EncodeImpl) (mapping : KeyMapping) (values : FieldValues) :
    List KeyedWrite :=
  encode.writes.map (FieldWrite.request mapping values)

/-- A request has the key of its field. -/
theorem key_request (write : FieldWrite) :
    (write.request mapping values).key = (mapping.keyOf? write.field).getD "" := by
  -- An optional write and a required one look up the same key.
  rw [FieldWrite.request]
  split <;> rfl

/-- An encoder succeeds exactly if everything that it writes has a JSON form. -/
theorem run_ok_iff :
    (∃ data, encode.run mapping values = .ok data) ↔
      ∀ request ∈ encode.requests mapping values, request.Serializes := by
  -- The result of a run is the object that its requests leave in an empty encoder.
  have asked : (∃ after, Encoder.writeAll {} (encode.requests mapping values) = .ok after) ↔
      ∀ request ∈ encode.requests mapping values, request.Serializes := Encoder.writeAll_ok_iff
  rw [← asked]
  constructor
  · rintro ⟨data, run⟩
    obtain ⟨after, written, -⟩ := map_eq_ok_iff.mp run
    exact ⟨after, written⟩
  · rintro ⟨after, written⟩
    exact ⟨after.toJson, map_eq_ok_iff.mpr ⟨after, written, rfl⟩⟩

/-- No two fields of a record are written under the same key. -/
theorem requests_distinct (inspected : Inspection.ofItem transformer item = .ok inspection)
    (distinct : mapping.keys.Nodup) (generated : ofMapping? inspection mapping = some encode) :
    ((encode.requests mapping values).map KeyedWrite.key).Nodup := by
  obtain ⟨-, -, rfl⟩ := ofMapping?_eq_some_iff.mp generated
  -- The written fields differ, and in a mapping without repeated keys so do their keys.
  have names : ((inspection.fields.filter (isWritten mapping)).map (·.name.spelling)).Nodup :=
    (Inspection.fields_nodup inspected).sublist (List.filter_sublist.map _)
  simp only [requests, writesOf, List.map_map]
  rw [List.Nodup, List.pairwise_map] at names ⊢
  -- Two fields with one key would have one spelling, and then be the same field twice.
  refine names.imp_of_mem fun {first second} firstInside secondInside apart same => apart ?_
  obtain ⟨firstKey, here⟩ := KeyMapping.exists_keyOf?_iff.mpr
    (isWritten_iff.mp (List.mem_filter.mp firstInside).2).1
  obtain ⟨secondKey, there⟩ := KeyMapping.exists_keyOf?_iff.mpr
    (isWritten_iff.mp (List.mem_filter.mp secondInside).2).1
  simp only [Function.comp_apply, key_request, writeOf, here, there, Option.getD_some] at same
  exact KeyMapping.spelling_eq_of_keyOf? distinct here (same ▸ there)

/--
After a run, the key of a written field holds the JSON form of what was written for it, and nothing
if nothing was.
-/
theorem get?_of_run (inspected : Inspection.ofItem transformer item = .ok inspection)
    (distinct : mapping.keys.Nodup) (generated : ofMapping? inspection mapping = some encode)
    (run : encode.run mapping values = .ok data) (inside : field ∈ inspection.fields)
    (written : isWritten mapping field = true) :
    ∃ (entries : Json.Entries) (key : String), data = .object entries ∧
      mapping.keyOf? field.name = some key ∧
        ((writeOf field).request mapping values).Serializes ∧
          entries.get? key = ((writeOf field).request mapping values).written? := by
  obtain ⟨after, ran, rfl⟩ := map_eq_ok_iff.mp run
  obtain ⟨key, found⟩ := KeyMapping.exists_keyOf?_iff.mpr (isWritten_iff.mp written).1
  -- A written field has its request among those of the run.
  have requested : (writeOf field).request mapping values ∈ encode.requests mapping values := by
    obtain ⟨-, -, rfl⟩ := ofMapping?_eq_some_iff.mp generated
    exact List.mem_map_of_mem (List.mem_map_of_mem (List.mem_filter.mpr ⟨inside, written⟩))
  refine ⟨after.entries, key, rfl, found, Encoder.writeAll_ok_iff.mp ⟨after, ran⟩ _ requested, ?_⟩
  -- The write of the field is the only one under its key, and the object was empty before.
  have ownKey : ((writeOf field).request mapping values).key = key := by
    simp [key_request, writeOf, found]
  have last := Encoder.lastWritten?_of_mem
    (requests_distinct inspected distinct generated) requested
  rw [requests] at last
  rw [Encoder.get?_writeAll ran, ← ownKey, last]
  simp

end EncodeImpl

/-- The values of the stored fields of the sample declaration. -/
def Item.loginValues : FieldValues :=
  [(⟨"user", .origin⟩, .text "ada"), (⟨"nick", .origin⟩, .present (.text "countess"))]

namespace DecodeInitializer

variable {transformer : String} {item : Item} {inspection : Inspection} {policy : InclusionPolicy}
  {mapping : KeyMapping} {init : DecodeInitializer} {encode : EncodeImpl} {field : FieldInfo}
  {meaning : Meaning} {values : FieldValues} {data : Json}

/--
The value that a field has after a round trip: its own if it is read from the container, where an
optional value that is written as null is absent, and otherwise its default.
-/
def restored (meaning : Meaning) (mapping : KeyMapping) (values : FieldValues)
    (field : FieldInfo) : Datum :=
  let value := values.get field.name
  if isEligible mapping field then
    if field.ty.isOptional then value.withoutNull else value
  else
    match field.initializer with
    | some (.value expr) => meaning.evaluate field.name expr
    | _ => meaning.standard field.name

/-- A field that is not read from the container gets its default. -/
theorem run_of_not_isEligible (meaning : Meaning) (values : FieldValues)
    (stored : field.isAccessor = false)
    (ineligible : isEligible mapping field = false) (object : KeyedObject) (keys : KeyMapping) :
    ∃ read, readOf? mapping field = some read ∧
      read.run meaning keys object = .ok (field.name, restored meaning mapping values field) := by
  -- Neither the object nor the keys are looked at.
  rw [readOf?, sourceOf?, restored, ineligible]
  cases initializer : field.initializer with
  | none => exact ⟨_, rfl, rfl⟩
  | some value =>
    cases value with
    | accessor => simp [FieldInfo.isAccessor, initializer] at stored
    | value expr => exact ⟨_, rfl, rfl⟩

/-- A field that is read from the container gets the value that was written for it. -/
theorem run_of_isEligible (eligible : isEligible mapping field = true)
    (faithful : meaning.Faithful field.ty (values.get field.name)) {entries : Json.Entries}
    {key : String}
    (found : mapping.keyOf? field.name = some key)
    (serializes : ((EncodeImpl.writeOf field).request mapping values).Serializes)
    (holds : entries.get? key = ((EncodeImpl.writeOf field).request mapping values).written?) :
    ∃ read, readOf? mapping field = some read ∧
      read.run meaning mapping ⟨mapping.keys, entries⟩ =
        .ok (field.name, restored meaning mapping values field) := by
  -- It is enough that the field reads this value from the entries.
  obtain ⟨source, read, -⟩ := exists_readOf? mapping (not_isAccessor_of_isEligible eligible)
  refine ⟨_, read, (run_readOf?_eq_ok_iff read).mpr ⟨rfl, ?_⟩⟩
  rw [FieldInfo.Gets, if_pos eligible]
  -- The type decides how the field was written and how it is read.
  rw [Meaning.Faithful] at faithful
  cases optional : field.ty.optionInner? with
  | none =>
    -- The value was written whatever it is, so its JSON form is there to be read.
    simp only [optional] at faithful
    have required : field.ty.isOptional = false := by simp [Ty.isOptional, optional]
    have inner (ty : Ty) : ¬field.ty.IsOptionOf ty := by
      simp [← Ty.optionInner?_eq_some_iff, optional]
    simp only [EncodeImpl.writeOf, FieldWrite.request, required, Bool.false_eq_true,
      if_false] at serializes holds
    obtain ⟨json, form⟩ := serializes _ rfl
    have there : entries.get? key = some json := by
      simpa [KeyedWrite.written?, KeyedWrite.value?, form, Except.toOption] using holds
    have own : restored meaning mapping values field = values.get field.name := by
      simp [restored, eligible, required]
    exact own ▸ .required inner found there (faithful json form)
  | some inner =>
    simp only [optional] at faithful
    obtain ⟨held, value, reads⟩ := faithful
    have isOptional : field.ty.isOptional = true := by simp [Ty.isOptional, optional]
    have own : restored meaning mapping values field = (Datum.ofOption held).withoutNull := by
      simp [restored, eligible, isOptional, value]
    rw [Ty.optionInner?_eq_some_iff] at optional
    simp only [EncodeImpl.writeOf, FieldWrite.request, isOptional, if_true, value,
      Datum.toOption_ofOption] at serializes holds
    rw [own]
    cases held with
    | none =>
      -- Nothing was written, and nothing is found.
      rw [Datum.ofOption, Datum.withoutNull_absent]
      exact .absent optional found (.inl holds)
    | some inside =>
      -- The value inside was written as if it were required.
      obtain ⟨json, form⟩ := serializes inside rfl
      have there : entries.get? key = some json := by
        simpa [KeyedWrite.written?, KeyedWrite.value?, form, Except.toOption] using holds
      by_cases null : json = .null
      · -- A null that was written is read as an absent value.
        subst null
        rw [Datum.ofOption, Datum.withoutNull_of_null form]
        exact .absent optional found (.inr there)
      · -- Any other form is the form of the value inside.
        rw [Datum.ofOption, Datum.withoutNull_of_ne_null (by simpa [form] using null)]
        exact .present optional found there null (reads inside rfl json form)

/--
What the generated encoder writes, the generated initializer reads back: every field that is read
from the container has its value, and every other stored field its default.
-/
theorem run_of_encoded (inspected : Inspection.ofItem transformer item = .ok inspection)
    (mapped : KeyMapping.ofRecord policy inspection = .ok mapping)
    (decodes : ofMapping inspection mapping = .ok (some init))
    (encodes : EncodeImpl.ofMapping? inspection mapping = some encode)
    (faithful : ∀ field ∈ inspection.fields, isEligible mapping field = true →
      meaning.Faithful field.ty (values.get field.name)) :
    ((∀ request ∈ encode.requests mapping values, request.Serializes) →
        ∃ data, encode.run mapping values = .ok data) ∧
      ∀ data, encode.run mapping values = .ok data →
        init.run meaning mapping data =
          .ok ((inspection.fields.filter (!·.isAccessor)).map fun field =>
            (field.name, restored meaning mapping values field)) := by
  -- The encoder fails only where a value has no JSON form.
  refine ⟨EncodeImpl.run_ok_iff.mpr, fun data run => ?_⟩
  have distinct := KeyMapping.keys_nodup_of_ofRecord mapped
  obtain ⟨after, ran, rfl⟩ := map_eq_ok_iff.mp run
  refine bind_eq_ok_iff.mpr ⟨⟨mapping.keys, after.entries⟩, rfl, ?_⟩
  -- The initializer does its reads one by one, so each field can be looked at on its own.
  refine mapM_eq_ok_map (reads_of_ofMapping decodes) fun field stored read found => ?_
  obtain ⟨inside, notComputed⟩ := List.mem_filter.mp stored
  cases eligible : isEligible mapping field with
  | false =>
    -- What is not read from the container does not depend on what was written.
    obtain ⟨again, same, value⟩ := run_of_not_isEligible meaning values
      (by simpa using notComputed) eligible
      ⟨mapping.keys, after.entries⟩ mapping
    obtain rfl : read = again := by simpa [found] using same
    exact value
  | true =>
    -- What is read was written under the same key, because the mapping is the same.
    obtain ⟨entries, key, object, ownKey, serializes, holds⟩ :=
      EncodeImpl.get?_of_run inspected distinct encodes run inside
        (EncodeImpl.isWritten_of_isEligible eligible)
    cases object
    obtain ⟨again, same, value⟩ :=
      run_of_isEligible eligible (faithful field inside eligible) ownKey serializes
        holds
    obtain rfl : read = again := by simpa [found] using same
    exact value

/-- A text is read back by the schema of its type. -/
theorem readsBack_text (text : String) :
    (Meaning.ofFields [] []).ReadsBack (.path (.ofName ⟨"String", .origin⟩)) (.text text) := by
  intro json written
  -- The type names a text, so its schema does not depend on the meaning of other types.
  have schema : Schema.ofType? [] (.path (.ofName ⟨"String", .origin⟩)) = some .text := by
    simp [Schema.ofType?, Path.ofName, Schema.ofName?]
  simp only [Datum.toJson, Except.ok.injEq] at written
  subst written
  simp [Meaning.ofFields, schema, Schema.read]

/--
A required and an optional text come back under their keys, next to a field in secure storage.
-/
theorem run_of_encoded_login :
    ∃ inspection mapping init encode data, Inspection.ofItem "codable" Item.login = .ok inspection ∧
      KeyMapping.ofRecord .standard inspection = .ok mapping ∧
        ofMapping inspection mapping = .ok (some init) ∧
          EncodeImpl.ofMapping? inspection mapping = some encode ∧
            encode.run mapping Item.loginValues = .ok data ∧
              init.run (Meaning.ofFields [] []) mapping data = .ok Item.loginValues := by
  refine ⟨_, _, _, _, _, rfl, rfl, rfl, rfl, rfl, ?_⟩
  refine (@run_of_encoded "codable" Item.login _ .standard _ _ _
    (Meaning.ofFields [] []) Item.loginValues
    rfl rfl rfl rfl fun field inside eligible => ?_).2 _ rfl
  -- The two texts are read back, and the field in secure storage is not read.
  cases inside with
  | head => exact readsBack_text "ada"
  | tail _ inside =>
    cases inside with
    | head => exact ⟨some (.text "countess"), rfl, by simpa using readsBack_text "countess"⟩
    | tail _ inside =>
      cases inside with
      | head => cases eligible
      | tail _ inside => cases inside

end DecodeInitializer

end KeyedCoding
