import KeyedCoding.Generated.Decoder
import KeyedCoding.Generated.Encoder
import KeyedCoding.Proofs.KeyMapping.Entries

/-!
Laws of generated members: which fields an initializer reads, which an encoder writes, and from what
source.
-/

namespace KeyedCoding

namespace Ty

/--
A type is optional of another one: its path ends in `Option` with that one as the only argument.
-/
def IsOptionOf (ty inner : Ty) : Prop :=
  ∃ path pos turbofish trailing,
    ty = .path path ∧
      path.lastSegment? = some ⟨⟨"Option", pos⟩, .angle turbofish [.type inner] trailing⟩

/-- The type that is found inside is the one that the type is optional of. -/
theorem optionInner?_eq_some_iff {ty inner : Ty} :
    ty.optionInner? = some inner ↔ ty.IsOptionOf inner := by
  constructor
  · intro found
    -- Only the shape of an optional type gives an inner one.
    unfold optionInner? at found
    split at found
    · rename_i path
      split at found
      · rename_i pos turbofish type trailing last
        cases found
        exact ⟨path, pos, turbofish, trailing, rfl, last⟩
      · cases found
    · cases found
  · -- Conversely, that shape is the one which is looked for.
    rintro ⟨path, pos, turbofish, trailing, rfl, last⟩
    simp [optionInner?, last]

end Ty

namespace FieldInfo

/-- A field has an accessor exactly if that is its initializer. -/
theorem isAccessor_eq_true_iff {field : FieldInfo} :
    field.isAccessor = true ↔ field.initializer = some .accessor := by
  -- An accessor is told by the initializer alone.
  unfold isAccessor
  split
  · rename_i accessor
    simp [accessor]
  · rename_i other
    simpa using other

end FieldInfo

/-- Where the value of a field is to come from under a mapping, by its options and its type. -/
inductive FieldSource.Fits (mapping : KeyMapping) (field : FieldInfo) : FieldSource → Prop
  | decode (mapped : mapping.contains field.name = true) (bare : field.initializer = none)
      (required : ∀ inner, ¬field.ty.IsOptionOf inner) : Fits mapping field (.decode field.ty)
  | decodeIfPresent {inner : Ty} (mapped : mapping.contains field.name = true)
      (bare : field.initializer = none) (optional : field.ty.IsOptionOf inner) :
      Fits mapping field (.decodeIfPresent inner)
  | default {expr : Expr} (given : field.initializer = some (.value expr)) :
      Fits mapping field (.default expr)
  | defaultTrait (unmapped : mapping.contains field.name = false)
    (bare : field.initializer = none) :
      Fits mapping field .defaultTrait

/-- A source is the container exactly if the field is mapped and has no initializer. -/
theorem FieldSource.Fits.isDecoded_iff {mapping : KeyMapping} {field : FieldInfo}
    {source : FieldSource}
    (fits : source.Fits mapping field) :
    source.decodedType?.isSome = true ↔ mapping.contains field.name = true ∧
      field.initializer = none := by
  -- Two of the four sources are the container, and these ask for a mapped field without an
  -- initializer.
  cases fits with
  | decode mapped bare _ => simp [FieldSource.decodedType?, mapped, bare]
  | decodeIfPresent mapped bare _ => simp [FieldSource.decodedType?, mapped, bare]
  | default given => simp [FieldSource.decodedType?, given]
  | defaultTrait unmapped _ => simp [FieldSource.decodedType?, unmapped]

namespace DecodeInitializer

variable {inspection : Inspection} {mapping : KeyMapping} {field : FieldInfo}
    {init : DecodeInitializer}

/-- A field is read from the container exactly if it is mapped and has no initializer. -/
theorem isEligible_iff :
    isEligible mapping field = true ↔ mapping.contains field.name = true ∧
      field.initializer = none := by
  -- Eligibility tests exactly these two things.
  simp [isEligible, FieldInfo.isInitialized]

/-- How a field is read depends on a mapping only by whether it is read from the container. -/
theorem readOf?_congr {other : KeyMapping}
    (same : isEligible mapping field = isEligible other field) :
    readOf? mapping field = readOf? other field := by
  -- The source is chosen by eligibility, and by what the field itself says.
  rw [readOf?, readOf?, sourceOf?, sourceOf?, same]

/-- No entry is unknown exactly if each one names a field. -/
theorem unknownFields_eq_nil_iff :
    unknownFields inspection mapping = [] ↔
      ∀ entry ∈ mapping.entries, ∃ field ∈ inspection.fields,
        field.name.spelling = entry.field.spelling := by
  -- The findings are those about the entries that name no field.
  simp [unknownFields, List.filter_eq_nil_iff]

/-- No entry of a mapping that is made from fields of the record is unknown. -/
theorem unknownFields_eq_nil {included : List FieldInfo}
    (entries : mapping.entries = included.map FieldInfo.entry)
    (known : ∀ field ∈ included, field ∈ inspection.fields) :
    unknownFields inspection mapping = [] := by
  -- Each entry is made of a field that the inspection knows.
  rw [unknownFields_eq_nil_iff, entries, List.forall_mem_map]
  exact fun field among => ⟨field, known field among, rfl⟩

/-- A field that is read from the container has no accessor. -/
theorem not_isAccessor_of_isEligible (eligible : isEligible mapping field = true) :
    field.isAccessor = false := by
  -- An accessor is an initializer, and the field has none.
  rw [← Bool.not_eq_true, FieldInfo.isAccessor_eq_true_iff, (isEligible_iff.mp eligible).2]
  simp

/-- A field with an accessor is never read. -/
theorem readOf?_eq_none (computed : field.isAccessor = true) : readOf? mapping field = none := by
  -- Neither the container nor a default is a source for it.
  have accessor := FieldInfo.isAccessor_eq_true_iff.mp computed
  simp [readOf?, sourceOf?, isEligible, FieldInfo.isInitialized, accessor]

/-- Every other field is read, from the source that fits it. -/
theorem exists_readOf? (mapping : KeyMapping) (stored : field.isAccessor = false) :
    ∃ source, readOf? mapping field = some ⟨field.name, source⟩ ∧ source.Fits mapping field := by
  -- The initializer decides first, then the mapping, then the type.
  cases initializer : field.initializer with
  | some value =>
    cases value with
    | accessor => simp [FieldInfo.isAccessor, initializer] at stored
    | value expr =>
      exact ⟨.default expr,
        by simp [readOf?, sourceOf?, isEligible, FieldInfo.isInitialized, initializer],
        .default initializer⟩
  | none =>
    cases mapped : mapping.contains field.name with
    | false =>
      exact ⟨.defaultTrait, by simp [readOf?, sourceOf?, isEligible, mapped, initializer],
        .defaultTrait mapped initializer⟩
    | true =>
      have eligible : isEligible mapping field = true := isEligible_iff.mpr ⟨mapped, initializer⟩
      cases optional : field.ty.optionInner? with
      | some inner =>
        exact ⟨.decodeIfPresent inner, by simp [readOf?, sourceOf?, eligible, optional],
          .decodeIfPresent mapped initializer (Ty.optionInner?_eq_some_iff.mp optional)⟩
      | none =>
        refine ⟨.decode field.ty, by simp [readOf?, sourceOf?, eligible, optional],
          .decode mapped initializer fun inner isOption => ?_⟩
        rw [Ty.optionInner?_eq_some_iff.mpr isOption] at optional
        cases optional

/-- The read of a field is made of a source that fits the field. -/
theorem fits_of_readOf? {read : FieldRead} (found : readOf? mapping field = some read) :
    read.field = field.name ∧ read.source.Fits mapping field := by
  -- A computed field is not read at all, and any other one has exactly one source.
  cases computed : field.isAccessor with
  | true =>
    rw [readOf?_eq_none computed] at found
    cases found
  | false =>
    obtain ⟨source, same, fits⟩ := exists_readOf? mapping computed
    obtain rfl := Option.some.inj (found.symm.trans same)
    exact ⟨rfl, fits⟩

/-- What is read from the container is a field that is to be read from there. -/
theorem isEligible_of_isDecoded {read : FieldRead} (reads : readOf? mapping field = some read)
    (decoded : read.isDecoded = true) :
    isEligible mapping field = true ∧ read.field = field.name := by
  -- The source that fits tells whether the field is mapped and bare.
  obtain ⟨named, fits⟩ := fits_of_readOf? reads
  exact ⟨isEligible_iff.mpr (fits.isDecoded_iff.mp decoded), named⟩

/-- The reads are those of the fields without an accessor, each at its place. -/
theorem reads_of_fields (mapping : KeyMapping) (fields : List FieldInfo) :
    List.Forall₂ (fun field read => readOf? mapping field = some read)
      (fields.filter (!·.isAccessor)) (fields.filterMap (readOf? mapping)) := by
  -- A field without an accessor gives one read, and any other none.
  refine forall₂_filterMap (fun field _ stored => ?_) fun field _ computed => ?_
  · obtain ⟨source, read, -⟩ := exists_readOf? mapping (by simpa using stored)
    exact ⟨_, read, read⟩
  · exact readOf?_eq_none (by simpa using computed)

/--
An initializer is generated exactly if all entries name fields, none exists, and a field is read.
-/
theorem ofMapping_eq_some_iff :
    ofMapping inspection mapping = .ok (some init) ↔
      unknownFields inspection mapping = [] ∧ inspection.record.existing.decoder = false ∧
        inspection.fields.any (isEligible mapping) = true ∧
          init = ⟨inspection.record.target, inspection.fields.filterMap (readOf? mapping)⟩ := by
  -- Unknown entries are refused first, and then the two conditions are looked at together.
  rw [ofMapping]
  cases unknownFields inspection mapping with
  | cons finding rest => simp
  | nil =>
    cases inspection.record.existing.decoder <;>
      cases inspection.fields.any (isEligible mapping) <;>
      simp [eq_comm]

/-- An initializer reads each field without an accessor, at its place. -/
theorem reads_of_ofMapping (generated : ofMapping inspection mapping = .ok (some init)) :
    List.Forall₂ (fun field read => readOf? mapping field = some read)
      (inspection.fields.filter (!·.isAccessor)) init.reads := by
  -- The reads of a generated initializer are those of all its fields.
  obtain ⟨-, -, -, rfl⟩ := ofMapping_eq_some_iff.mp generated
  exact reads_of_fields mapping inspection.fields

/-- Each read has the name of its field, and a source that fits its options and its type. -/
theorem reads_fit (generated : ofMapping inspection mapping = .ok (some init)) :
    List.Forall₂ (fun field read => read.field = field.name ∧ read.source.Fits mapping field)
      (inspection.fields.filter (!·.isAccessor)) init.reads :=
  (reads_of_ofMapping generated).imp fun _ _ => fits_of_readOf?

/-- The impl of the decoding trait that an initializer is put in. -/
def traitImpl (init : DecodeInitializer) (runtime : Path) : Item :=
  Target.implement ⟨init.target.name, init.boundGenerics init.target.generics runtime⟩
    (some (runtime.extend ["Decodable"])) [init.member runtime]

/--
An initializer is declared in that impl, provided that the runtime and every field can be named.
-/
theorem declaration_eq_ok_iff {runtime : Path} {item : Item} :
    init.declaration runtime = .ok item ↔
      (runtime.fitsType = true ∧ init.fits = true) ∧ init.traitImpl runtime = item := by
  -- The declaration is refused unless both tests pass, and is the impl otherwise.
  rw [declaration, traitImpl]
  split <;> simp_all

end DecodeInitializer

namespace EncodeImpl

variable {inspection : Inspection} {mapping : KeyMapping} {field : FieldInfo} {encode : EncodeImpl}

/-- A field is written exactly if it is mapped and has no accessor. -/
theorem isWritten_iff :
    isWritten mapping field = true ↔ mapping.contains field.name = true ∧
      field.isAccessor = false := by
  -- The encoder tests exactly these two things.
  simp [isWritten]

/-- An encoder is generated exactly if none exists and a field is written. -/
theorem ofMapping?_eq_some_iff :
    ofMapping? inspection mapping = some encode ↔
      inspection.record.existing.encoder = false ∧ writesOf mapping inspection.fields ≠ [] ∧
        encode = ⟨inspection.record.target, writesOf mapping inspection.fields⟩ := by
  -- There are only the two conditions.
  rw [ofMapping?]
  cases inspection.record.existing.encoder <;> cases writesOf mapping inspection.fields <;>
    simp [eq_comm]

/-- A field that is read from the container is also written. -/
theorem isWritten_of_isEligible (eligible : DecodeInitializer.isEligible mapping field = true) :
    isWritten mapping field = true :=
  isWritten_iff.mpr ⟨(DecodeInitializer.isEligible_iff.mp eligible).1,
    DecodeInitializer.not_isAccessor_of_isEligible eligible⟩

/-- The impl of the encoding trait. -/
def traitImpl (encode : EncodeImpl) (runtime : Path) : Item :=
  Target.implement ⟨encode.target.name, encode.boundGenerics encode.target.generics runtime⟩
    (some (runtime.extend ["Encodable"])) [encode.member runtime]

/-- An encoder is declared in that impl, provided that the runtime and every field can be named. -/
theorem declaration_eq_ok_iff {runtime : Path} {item : Item} :
    encode.declaration runtime = .ok item ↔
      (runtime.fitsType = true ∧ encode.fits = true) ∧ encode.traitImpl runtime = item := by
  -- The declaration is refused unless both tests pass, and is the impl otherwise.
  rw [declaration, traitImpl]
  split <;> simp_all

end EncodeImpl

end KeyedCoding
