import KeyedCoding.Proofs.Transform.Conflict

/-!
Coding that is applied twice: an attached mapping refuses the second application, and without one
the second application codes fields that the first one has left out.
-/

namespace KeyedCoding.Codable

namespace Run

variable {codable again : Codable} {tokens more : List Token} {item : Item}
  {context later : Context} (run : Run codable tokens item context)

/-- Where a mapping is attached, coding does not succeed again. -/
theorem expand_first_ne_ok (attached : run.stored.entries ≠ []) (repeated : Expansion) :
    again.expand more run.first later ≠ .ok repeated := by
  -- The attached mapping is found on the first item, and coding refuses a record that has one.
  obtain ⟨⟨attr, bare⟩, detached⟩ :=
    Option.isSome_iff_exists.mp (run.isSome_detach?_first.mpr attached)
  exact (run.refuses_first detached (.coding again) more later).1 repeated

/-- Where no mapping is attached, all fields that are not secure have been left out. -/
theorem not_contains_of_unattached (unattached : run.stored.entries = []) {field : Field}
    (inside : field ∈ run.record.fields) (plain : field.isSecure = false) :
    run.mapping.contains field.name = false := by
  obtain ⟨info, known, described⟩ :=
    exists_of_mem_forall₂ (Inspection.fields_described run.inspected).flip inside
  obtain ⟨name, -, secure⟩ := FieldInfo.ofField_eq_ok described
  -- A mapped field that is not secure would have a stored entry.
  rw [← name, ← run.contains_stored known (secure.trans plain), ← Bool.not_eq_true,
    KeyMapping.contains_iff, unattached]
  simp

/--
What a second application does to a declaration without an attached mapping: the options are gone,
so the policy and the marks of secure storage alone decide, and all fields that are read or written
are fields that the first application has left out.
-/
structure Uncovers (run : Run codable tokens item context)
    (second : Run again more run.first later) : Prop where
  /-- The first application has left out every field that is not secure. -/
  leftOut : ∀ field ∈ run.record.fields, field.isSecure = false →
    run.mapping.contains field.name = false
  /-- The second application maps all fields, or all that are not secure, under their own names. -/
  mapped : second.mapping.entries = (run.record.fields.filter fun field =>
    again.policy second.args later.config = .includeAllExceptExcluded || !field.isSecure).map
      fun field => ⟨field.name, field.name.plain⟩
  /-- A decoder reads every field that is not secure. -/
  read : ∀ init, second.impls.decode = some init →
    init.decodedFields = (run.record.fields.filter (!·.isSecure)).map (·.name)
  /-- An encoder writes every field that is not secure. -/
  written : ∀ encode, second.impls.encode = some encode →
    encode.writes.map (·.field) = (run.record.fields.filter (!·.isSecure)).map (·.name)

variable (second : Run again more run.first later)

/-- The second application finds the fields without their coding options. -/
theorem fields_again : second.record.fields =
    run.record.fields.map (Field.strip [Attribute.codableName]) := by
  -- The first item reads back as the record that the run leaves.
  have record : second.record = run.outcome :=
    Except.ok.inj (second.found.symm.trans run.asRecord_first)
  rw [record, outcome]

/-- So it knows no more of them than their names, their types and their marks. -/
theorem infos_again : second.inspection.fields =
    (run.record.fields.map (Field.strip [Attribute.codableName])).map FieldInfo.ofPlain := by
  -- The second application describes the fields that the first one has put back.
  have known := (Inspection.ofItem_eq_ok_iff.mp second.inspected).2
  change FieldInfo.ofFields second.record.fields = _ at known
  rw [run.fields_again second, run.described_stripped] at known
  exact (Except.ok.inj known).symm

/-- The fields that are not secure are the same as before. -/
theorem plain_again : (second.record.fields.filter (!·.isSecure)).map (·.name) =
    (run.record.fields.filter (!·.isSecure)).map (·.name) := by
  -- Stripping coding options leaves the marks of secure fields, and the names.
  rw [run.fields_again second, List.filter_map, Field.isSecure_comp_strip, List.map_map]
  rfl

/-- The second application maps all fields, or all that are not secure, under their own names. -/
theorem entries_again : second.mapping.entries = (run.record.fields.filter fun field =>
    again.policy second.args later.config = .includeAllExceptExcluded || !field.isSecure).map
      fun field => ⟨field.name, field.name.plain⟩ := by
  rw [second.mapping_entries, run.infos_again second, List.filter_map, List.filter_map,
    List.map_map, List.map_map]
  -- A field is included if all are, or if it has no value of its own.
  have includes : ((again.policy second.args later.config).includes ∘ FieldInfo.ofPlain) ∘
      Field.strip [Attribute.codableName] = fun field =>
        again.policy second.args later.config = .includeAllExceptExcluded || !field.isSecure := by
    funext field
    simp only [Function.comp_apply, FieldInfo.ofPlain, Field.isSecure_strip]
    cases again.policy second.args later.config <;> cases field.isSecure <;> rfl
  rw [includes]
  rfl

/-- A field that is not secure has no value of its own any more, and an entry in any case. -/
theorem eligible_again {info : FieldInfo} (inside : info ∈ second.inspection.fields)
    (plain : info.isAccessor = false) :
    second.mapping.contains info.name = true ∧ info.initializer = none := by
  have among := inside
  rw [run.infos_again second, List.mem_map] at among
  obtain ⟨field, -, rfl⟩ := among
  have bare : (FieldInfo.ofPlain field).initializer = none := by
    cases secure : field.isSecure with
    | false => simp [FieldInfo.ofPlain, secure]
    | true => simp [FieldInfo.isAccessor, FieldInfo.ofPlain, secure] at plain
  -- Neither policy leaves such a field out.
  have included : (again.policy second.args later.config).includes (.ofPlain field) = true := by
    cases again.policy second.args later.config with
    | includeAllExceptExcluded => rfl
    | includeOnlyNonInitialized =>
      rw [InclusionPolicy.includes, FieldInfo.isInitialized, bare]
      rfl
  refine ⟨KeyMapping.contains_iff.mpr ⟨(FieldInfo.ofPlain field).entry, ?_, rfl⟩, bare⟩
  rw [second.mapping_entries]
  exact List.mem_map_of_mem (List.mem_filter.mpr ⟨inside, included⟩)

/-- A second application to a declaration without an attached mapping codes what was left out. -/
theorem uncovers (unattached : run.stored.entries = []) : run.Uncovers second where
  leftOut field inside plain := run.not_contains_of_unattached unattached inside plain
  mapped := run.entries_again second
  read init generated := by
    have made := second.decode_eq_some_iff.mp generated
    -- Every read is one from the container.
    have all : init.reads.filter FieldRead.isDecoded = init.reads := by
      refine List.filter_eq_self.mpr fun read inside => ?_
      obtain ⟨info, known, -, fits⟩ :=
        exists_of_mem_forall₂ (DecodeInitializer.reads_fit made) inside
      obtain ⟨member, plain⟩ := List.mem_filter.mp known
      exact fits.isDecoded_iff.mpr (run.eligible_again second member (by simpa using plain))
    rw [DecodeInitializer.decodedFields, all, DecodeInitializer.reads_fields second.inspected made]
    exact run.plain_again second
  written encode generated := by
    obtain ⟨-, -, rfl⟩ := EncodeImpl.ofMapping?_eq_some_iff.mp generated
    -- Every field that is not secure is written.
    have all : second.inspection.fields.filter (EncodeImpl.isWritten second.mapping) =
        second.inspection.fields.filter (!·.isAccessor) := by
      refine List.filter_congr fun info inside => ?_
      cases computed : info.isAccessor with
      | true => simp [EncodeImpl.isWritten, computed]
      | false =>
        simp [EncodeImpl.isWritten, computed, (run.eligible_again second inside computed).1]
    rw [EncodeImpl.writesOf, List.map_map, all, ← run.plain_again second]
    exact DecodeInitializer.stored_fields second.inspected

end Run

/--
Coding that is applied twice: where the first application attaches a mapping, no second one
succeeds; where it attaches none, a second one codes what the first one has left out.
-/
theorem expand_twice {codable : Codable} {tokens : List Token} {item first : Item}
    {rest : List Item} {context : Context} {expansion : Expansion}
    (expanded : codable.expand tokens item context = .ok expansion)
    (begins : expansion.items = first :: rest) :
    ∃ run : Run codable tokens item context, run.expansion = expansion ∧ run.first = first ∧
      (run.stored.entries ≠ [] → ∀ (again : Codable) more later repeated,
        again.expand more run.first later ≠ .ok repeated) ∧
      (run.stored.entries = [] → ∀ (again : Codable) more later repeated,
        again.expand more run.first later = .ok repeated →
          ∃ second : Run again more run.first later, second.expansion = repeated ∧
            run.Uncovers second) := by
  -- The first application is a run; whether it attaches a mapping decides on the second one.
  obtain ⟨run, rfl⟩ := Run.expand_eq_ok_iff.mp expanded
  obtain ⟨rfl, -⟩ := List.cons.inj begins
  refine ⟨run, rfl, rfl,
    fun attached again more later repeated => run.expand_first_ne_ok attached repeated,
    fun unattached again more later repeated expands => ?_⟩
  obtain ⟨second, same⟩ := Run.expand_eq_ok_iff.mp expands
  exact ⟨second, same, run.uncovers second unattached⟩

/-- A declaration whose only field is left out. -/
def cache : Item :=
  let skip : Attribute := .withList (.ofName ⟨Attribute.codableName, .origin⟩) [Token.word "skip"]
  .struct
    { head := ⟨[], [], .origin, ⟨"Cache", .origin⟩, .empty⟩
      fields := .named
        [⟨[skip], [], ⟨"a", .origin⟩, .path (.ofName ⟨"u8", .origin⟩)⟩] false }

/-- On that declaration both applications succeed, and the second one codes the field. -/
theorem expand_twice_cache : ∃ expansion,
    standard.expand [] cache Mapper.plainContext = .ok expansion ∧
      ∃ run : Run standard [] cache Mapper.plainContext, run.expansion = expansion ∧
        ∃ second : Run standard [] run.first Mapper.plainContext, run.Uncovers second := by
  obtain ⟨first, rest, expansion, expanded, begins, repeated, again⟩ :
      ∃ first rest expansion, standard.expand [] cache Mapper.plainContext = .ok expansion ∧
        expansion.items = first :: rest ∧
          ∃ repeated, standard.expand [] first Mapper.plainContext = .ok repeated :=
    ⟨_, _, _, rfl, rfl, _, rfl⟩
  obtain ⟨run, whole, rfl, fails, codes⟩ := expand_twice expanded begins
  -- No mapping has been attached, because the second application succeeds.
  have unattached : run.stored.entries = [] := by
    by_contra attached
    exact fails attached standard [] Mapper.plainContext repeated again
  obtain ⟨second, -, uncovers⟩ := codes unattached standard [] Mapper.plainContext repeated again
  exact ⟨expansion, expanded, run, whole, second, uncovers⟩

/-- The field that the first application leaves out is mapped, read and written by the second. -/
theorem expand_twice_uncovers :
    ∃ (run : Run standard [] cache Mapper.plainContext)
      (second : Run standard [] run.first Mapper.plainContext),
        run.mapping.contains ⟨"a", .origin⟩ = false ∧
          second.mapping.contains ⟨"a", .origin⟩ = true ∧
          (∃ init, second.impls.decode = some init ∧ init.decodedFields = [⟨"a", .origin⟩]) ∧
          ∃ encode, second.impls.encode = some encode ∧
            encode.writes.map (·.field) = [⟨"a", .origin⟩] :=
  ⟨⟨_, _, _, _, _, _, rfl, rfl, rfl, rfl, rfl, rfl, rfl⟩,
    ⟨_, _, _, _, _, _, rfl, rfl, rfl, rfl, rfl, rfl, rfl⟩, rfl, rfl, ⟨_, rfl, rfl⟩, _, rfl, rfl⟩

end KeyedCoding.Codable
