import KeyedCoding.Coding.Meaning
import KeyedCoding.KeyMapping.Arguments
import KeyedCoding.Proofs.Coding.Reads
import KeyedCoding.Proofs.Generated.Completeness

/-!
Decoded data: which objects a record is read from, which one is refused and why, and that no data
but that of the decoded fields reaches it.
-/

namespace KeyedCoding

/-- A declaration whose only field is marked as skipped. -/
def Item.draft : Item :=
  .struct
    { head := ⟨[], [], .origin, ⟨"Draft", .origin⟩, .empty⟩
      fields := .named
        [⟨[.withList (.ofName ⟨Attribute.codableName, .origin⟩) [Token.word "skip"]], [],
          ⟨"note", .origin⟩, .path (.ofName ⟨"Value", .origin⟩)⟩] false }

/-- The meaning of fields whose types are JSON itself. -/
def Meaning.verbatim : Meaning :=
  ⟨fun _ found => .ok (.json found), fun _ _ => .unit, fun _ => .unit⟩

namespace DecodeInitializer

variable {transformer : String} {item : Item} {inspection : Inspection} {policy : InclusionPolicy}
  {mapping : KeyMapping} {init : DecodeInitializer} {field : FieldInfo} {meaning : Meaning}
  {entries others : Json.Entries} {values : FieldValues} {error : DecodingError} {read : FieldRead}

/-- The read of a field gives what the field gets. -/
theorem run_readOf?_eq_ok_iff (found : readOf? mapping field = some read) {pair : Name × Datum} :
    read.run meaning mapping ⟨mapping.keys, entries⟩ = .ok pair ↔
      field.Fills meaning mapping entries pair := by
  obtain ⟨named, fits⟩ := fits_of_readOf? found
  -- The name is fixed, so both sides come down to the value of the source.
  rw [FieldRead.run, named, map_eq_ok_iff]
  constructor
  · rintro ⟨value, given, rfl⟩
    exact ⟨rfl, fits.run_eq_ok_iff.mp given⟩
  · rintro ⟨same, gets⟩
    exact ⟨pair.2, fits.run_eq_ok_iff.mpr gets, by rw [← same]⟩

/-- The read of a field fails exactly if the field is decoded and refuses the object. -/
theorem run_readOf?_eq_error_iff (found : readOf? mapping field = some read) :
    read.run meaning mapping ⟨mapping.keys, entries⟩ = .error error ↔
      isEligible mapping field = true ∧ field.RefusesRead meaning mapping entries error := by
  -- The read consists of the name and a source that fits, whose errors are known.
  obtain ⟨named, fits⟩ := fits_of_readOf? found
  rw [FieldRead.run, named, map_eq_error_iff, fits.run_eq_error_iff]

/-- An object gives every stored field what it gets, or nothing at all. -/
theorem run_object_eq_ok_iff (generated : ofMapping inspection mapping = .ok (some init)) :
    init.run meaning mapping (.object entries) = .ok values ↔
      List.Forall₂ (FieldInfo.Fills meaning mapping entries)
        (inspection.fields.filter (!·.isAccessor)) values := by
  -- The reads stand beside the fields, and the values beside the reads.
  have reads := reads_of_ofMapping generated
  change init.reads.mapM (FieldRead.run meaning mapping ⟨mapping.keys, entries⟩) = _ ↔ _
  rw [mapM_eq_ok_iff]
  constructor
  · intro given
    refine (forall₂_through reads given).imp ?_
    rintro field pair ⟨read, found, run⟩
    exact (run_readOf?_eq_ok_iff found).mp run
  · intro gets
    refine (forall₂_through reads.flip gets).imp ?_
    rintro read pair ⟨field, found, gets⟩
    exact (run_readOf?_eq_ok_iff found).mpr gets

/-- An object is accepted exactly if every decoded field reads something. -/
theorem exists_run_object_iff (generated : ofMapping inspection mapping = .ok (some init)) :
    (∃ values, init.run meaning mapping (.object entries) = .ok values) ↔
      ∀ field ∈ inspection.fields.filter (isEligible mapping),
        ∃ value, field.Reads meaning mapping entries value := by
  constructor
  · -- What a decoded field gets is what it reads.
    rintro ⟨values, run⟩ field decoded
    obtain ⟨inside, eligible⟩ := List.mem_filter.mp decoded
    have stored : field ∈ inspection.fields.filter (!·.isAccessor) :=
      List.mem_filter.mpr ⟨inside, by simp [not_isAccessor_of_isEligible eligible]⟩
    obtain ⟨pair, -, -, gets⟩ :=
      exists_of_mem_forall₂ ((run_object_eq_ok_iff generated).mp run).flip stored
    rw [FieldInfo.Gets, if_pos eligible] at gets
    exact ⟨pair.2, gets⟩
  · -- Conversely, any other field has its default to get.
    intro reads
    obtain ⟨values, fills⟩ : ∃ values, List.Forall₂ (FieldInfo.Fills meaning mapping entries)
        (inspection.fields.filter (!·.isAccessor)) values := by
      refine exists_forall₂ fun field stored => ?_
      cases eligible : isEligible mapping field with
      | true =>
        obtain ⟨value, read⟩ :=
          reads field (List.mem_filter.mpr ⟨List.mem_of_mem_filter stored, eligible⟩)
        exact ⟨(field.name, value), rfl, by rwa [FieldInfo.Gets, if_pos eligible]⟩
      | false =>
        exact ⟨(field.name, field.fallback meaning), rfl, by simp [FieldInfo.Gets, eligible]⟩
    exact ⟨values, (run_object_eq_ok_iff generated).mpr fills⟩

/-- An object is refused exactly with the error of the first decoded field that refuses it. -/
theorem run_object_eq_error_iff (generated : ofMapping inspection mapping = .ok (some init)) :
    init.run meaning mapping (.object entries) = .error error ↔
      FailsFirst (fun field => ∃ value, field.Reads meaning mapping entries value)
        (·.RefusesRead meaning mapping entries error)
        (inspection.fields.filter (isEligible mapping)) := by
  obtain ⟨-, -, -, rfl⟩ := ofMapping_eq_some_iff.mp generated
  change (inspection.fields.filterMap (readOf? mapping)).mapM
    (FieldRead.run meaning mapping ⟨mapping.keys, entries⟩) = _ ↔ _
  rw [mapM_eq_error_iff]
  refine failsFirst_filterMap (fun field _ eligible => ?_) fun field _ ineligible read found => ?_
  · obtain ⟨source, found, -⟩ := exists_readOf? mapping (not_isAccessor_of_isEligible eligible)
    refine ⟨_, found, ?_, ?_⟩
    · simp [run_readOf?_eq_ok_iff found, FieldInfo.Fills, FieldInfo.Gets, eligible]
    · rw [run_readOf?_eq_error_iff found, and_iff_right eligible]
  · -- A field that is not decoded has its default, whatever the object holds.
    constructor
    · exact ⟨(field.name, field.fallback meaning), (run_readOf?_eq_ok_iff found).mpr
        ⟨rfl, by simp [FieldInfo.Gets, ineligible]⟩⟩
    · simp [run_readOf?_eq_error_iff found, ineligible]

/-- Data that is no object is refused as such, and nothing else is. -/
theorem run_notAnObject_iff (generated : ofMapping inspection mapping = .ok (some init))
    {value : Json} :
    (∃ found, init.run meaning mapping value = .error (.notAnObject found)) ↔
      ∀ entries, value ≠ .object entries := by
  constructor
  · rintro ⟨found, run⟩ entries rfl
    -- A decoded field refuses an object for other reasons.
    obtain ⟨_, _, _, -, -, refuses⟩ := (run_object_eq_error_iff generated).mp run
    cases refuses
  · intro other
    cases value with
    | object entries => exact absurd rfl (other entries)
    | null => exact ⟨_, rfl⟩
    | bool value => exact ⟨_, rfl⟩
    | int value => exact ⟨_, rfl⟩
    | float value => exact ⟨_, rfl⟩
    | string value => exact ⟨_, rfl⟩
    | array items => exact ⟨_, rfl⟩

/-- Objects that agree about the decoded fields give the same. -/
theorem run_object_congr (generated : ofMapping inspection mapping = .ok (some init))
    (agree : ∀ field ∈ inspection.fields, isEligible mapping field = true →
      field.Agrees mapping entries others) :
    init.run meaning mapping (.object entries) = init.run meaning mapping (.object others) := by
  cases run : init.run meaning mapping (.object entries) with
  | ok values =>
    -- What a field gets is read from its key, or is its default.
    rw [run_object_eq_ok_iff generated] at run
    refine ((run_object_eq_ok_iff generated).mpr ?_).symm
    refine ((List.forall₂_and_left _ _).mpr ⟨fun field stored => ?_, run⟩).imp
      fun field pair ⟨agrees, named, gets⟩ => ⟨named, gets.of_agrees agrees⟩
    exact agree field (List.mem_of_mem_filter stored)
  | error error =>
    rw [run_object_eq_error_iff generated] at run
    refine ((run_object_eq_error_iff generated).mpr ?_).symm
    refine (failsFirst_congr fun field inside => ?_).mp run
    have here := agree field (List.mem_of_mem_filter inside) (List.mem_filter.mp inside).2
    exact ⟨⟨fun ⟨value, reads⟩ => ⟨value, reads.of_agrees here⟩,
      fun ⟨value, reads⟩ => ⟨value, reads.of_agrees here.symm⟩⟩,
      fun refuses => refuses.of_agrees here, fun refuses => refuses.of_agrees here.symm⟩

/-- A value that an object gives a field is one that the field gets. -/
theorem gets_of_mem (inspected : Inspection.ofItem transformer item = .ok inspection)
    (generated : ofMapping inspection mapping = .ok (some init))
    (run : init.run meaning mapping (.object entries) = .ok values)
    (inside : field ∈ inspection.fields) {value : Datum} (given : (field.name, value) ∈ values) :
    field.Gets meaning mapping entries value := by
  -- The value is that of a field of the same name, and no other field has that name.
  obtain ⟨owner, stored, named, gets⟩ :=
    exists_of_mem_forall₂ ((run_object_eq_ok_iff generated).mp run) given
  have same : owner = field := List.inj_on_of_nodup_map (Inspection.fields_nodup inspected)
    (List.mem_of_mem_filter stored) inside (congrArg Name.spelling named.symm)
  exact same ▸ gets

/-- A field takes its value from data if two values of data give it different ones. -/
def Takes (init : DecodeInitializer) (meaning : Meaning) (mapping : KeyMapping) (field : Name) :
    Prop :=
  ∃ first second firstValues secondValues, init.run meaning mapping first = .ok firstValues ∧
    init.run meaning mapping second = .ok secondValues ∧
      ∃ here there, (field, here) ∈ firstValues ∧ (field, there) ∈ secondValues ∧ here ≠ there

/-- A field that is not decoded takes nothing from data. -/
theorem not_takes (inspected : Inspection.ofItem transformer item = .ok inspection)
    (generated : ofMapping inspection mapping = .ok (some init))
    (inside : field ∈ inspection.fields) (ineligible : isEligible mapping field = false) :
    ¬init.Takes meaning mapping field.name := by
  rintro ⟨first, second, firstValues, secondValues, firstRun, secondRun, here, there, firstGiven,
    secondGiven, apart⟩
  -- Both values of data are objects, and the field has its default either way.
  have default (data : Json) (values : FieldValues) (value : Datum)
      (run : init.run meaning mapping data = .ok values) (given : (field.name, value) ∈ values) :
      value = field.fallback meaning := by
    obtain ⟨object, opened, rest⟩ := bind_eq_ok_iff.mp run
    cases data with
    | object entries =>
      have gets := gets_of_mem inspected generated run inside given
      rwa [FieldInfo.Gets, ineligible] at gets
    | _ => cases opened
  exact apart ((default _ _ _ firstRun firstGiven).trans (default _ _ _ secondRun secondGiven).symm)

/-- The mapping of a record leaves skipped fields out. -/
theorem not_contains_of_skipped (inspected : Inspection.ofItem transformer item = .ok inspection)
    (mapped : KeyMapping.ofRecord policy inspection = .ok mapping)
    (inside : field ∈ inspection.fields) (skipped : field.skipped = true) :
    mapping.contains field.name = false := by
  -- No policy includes the field.
  rw [KeyMapping.contains_of_ofFields (Inspection.fields_nodup inspected)
    (KeyMapping.ofRecord_eq_ok_iff.mp mapped).2 inside]
  cases policy <;> simp [InclusionPolicy.includes, skipped]

/--
What an initializer makes of data. Data that is no object is refused, and so is an object that some
decoded field refuses, with the error of the first such field. Any other object gives every decoded
field what it reads, and every other stored field its default.
-/
structure Exact (inspection : Inspection) (mapping : KeyMapping) (init : DecodeInitializer)
    (meaning : Meaning) : Prop where
  corrupted : ∀ value, (∃ found, init.run meaning mapping value = .error (.notAnObject found)) ↔
    ∀ entries, value ≠ .object entries
  succeeds : ∀ entries, (∃ values, init.run meaning mapping (.object entries) = .ok values) ↔
    ∀ field ∈ inspection.fields.filter (isEligible mapping),
      ∃ value, field.Reads meaning mapping entries value
  fails : ∀ entries error, init.run meaning mapping (.object entries) = .error error ↔
    FailsFirst (fun field => ∃ value, field.Reads meaning mapping entries value)
      (·.RefusesRead meaning mapping entries error)
      (inspection.fields.filter (isEligible mapping))
  values : ∀ entries values, init.run meaning mapping (.object entries) = .ok values ↔
    List.Forall₂ (FieldInfo.Fills meaning mapping entries)
      (inspection.fields.filter (!·.isAccessor)) values
  absent : ∀ (entries : Json.Entries) values,
    init.run meaning mapping (.object entries) = .ok values →
      ∀ field ∈ inspection.fields.filter (isEligible mapping), ∀ inner key value,
        field.ty.IsOptionOf inner → mapping.keyOf? field.name = some key →
          (field.name, value) ∈ values →
            (value = .absent ↔ entries.get? key = none ∨ entries.get? key = some .null)
  untouched : ∀ field ∈ inspection.fields,
    mapping.contains field.name = false ∨ field.initializer ≠ none →
      ¬init.Takes meaning mapping field.name
  skipped : ∀ policy, KeyMapping.ofRecord policy inspection = .ok mapping →
    ∀ field ∈ inspection.fields, field.skipped = true → ¬init.Takes meaning mapping field.name
  agree : ∀ entries others,
    (∀ field ∈ inspection.fields.filter (isEligible mapping),
      field.Agrees mapping entries others) →
    init.run meaning mapping (.object entries) = init.run meaning mapping (.object others)

/--
A generated initializer reads the decoded fields from their keys and nothing else from anywhere. In
particular it never touches fields with defaults or accessors, and skipped ones only if a mapping
that is written by hand lists them.
-/
theorem reads_exactly (inspected : Inspection.ofItem transformer item = .ok inspection)
    (generated : ofMapping inspection mapping = .ok (some init)) (meaning : Meaning) :
    Exact inspection mapping init meaning where
  corrupted value := run_notAnObject_iff generated
  succeeds entries := exists_run_object_iff generated
  fails entries error := run_object_eq_error_iff generated
  values entries values := run_object_eq_ok_iff generated
  -- A field that is decoded gets what its own source gives.
  absent entries values run field decoded inner key value optional mapped given := by
    obtain ⟨inside, eligible⟩ := List.mem_filter.mp decoded
    have gets := gets_of_mem inspected generated run inside given
    rw [FieldInfo.Gets, if_pos eligible] at gets
    exact gets.absent_iff optional mapped
  untouched field inside excluded := by
    refine not_takes inspected generated inside ?_
    rw [← Bool.not_eq_true, isEligible_iff]
    rintro ⟨mapped, bare⟩
    rcases excluded with unmapped | initialized
    · rw [mapped] at unmapped
      cases unmapped
    · exact initialized bare
  skipped policy mapped field inside skipped := by
    refine not_takes inspected generated inside ?_
    rw [isEligible, not_contains_of_skipped inspected mapped inside skipped, Bool.false_and]
  agree entries others agree := run_object_congr generated fun field inside eligible =>
    agree field (List.mem_filter.mpr ⟨inside, eligible⟩)

/-- The initializer of a record with a secure field reads the two others, whatever types mean. -/
theorem reads_exactly_login :
    ∃ inspection init, Inspection.ofItem "codable" Item.login = .ok inspection ∧
      ofMapping inspection ⟨[⟨⟨"nick", .origin⟩, "n"⟩]⟩ = .ok (some init) ∧
        Exact inspection ⟨[⟨⟨"nick", .origin⟩, "n"⟩]⟩ init
          (Meaning.ofFields [] inspection.fields) :=
  ⟨_, _, rfl, rfl, @reads_exactly "codable" Item.login _ _ _ rfl rfl _⟩

/--
A skipped field does take its value from data under a mapping that is written by hand and lists it.
-/
theorem reads_exactly_fails :
    ∃ tokens args inspection init, MappingArguments.ofTokens tokens = .ok args ∧
      args.mapping.keys.Nodup ∧ Inspection.ofItem "codable" Item.draft = .ok inspection ∧
        ofMapping inspection args.mapping = .ok (some init) ∧
          ∃ field ∈ inspection.fields, field.skipped = true ∧
            init.Takes Meaning.verbatim args.mapping field.name := by
  refine ⟨[Token.word "note"], _, _, _, rfl, by decide, rfl, rfl, _, .head _, rfl, ?_⟩
  -- The field is read as it is, so two values under its key can be told apart.
  exact ⟨.object [("note", .null)], .object [("note", .bool true)], _, _, rfl, rfl, .json .null,
    .json (.bool true), .head _, .head _, fun same => by cases same⟩

end DecodeInitializer

end KeyedCoding
