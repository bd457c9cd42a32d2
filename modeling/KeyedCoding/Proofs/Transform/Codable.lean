import KeyedCoding.Proofs.Generated.Completeness
import KeyedCoding.Proofs.KeyMapping.RoundTrip
import KeyedCoding.Proofs.Record.Detach
import KeyedCoding.Proofs.Record.Directions
import KeyedCoding.Transform.Codable

/-!
Laws of the coding transformer: what a successful expansion has found out, and what it generates.
-/

namespace KeyedCoding

/-- The last name of an extended path is the name that it is extended by. -/
theorem Path.lastName?_extend (path : Path) (last : String) :
    (path.extend [last]).lastName? = some last := by
  -- The name is that of the last segment.
  simp [extend, lastName?, lastSegment?]

/--
A conformance gives an empty impl for each requested trait, provided that an impl can name all of
them, and nothing where nothing is requested.
-/
theorem Conformance.declarations_ofRequest? (record : Record) (traits : List Path)
    (generics : Generics) :
    (((ofRequest? record traits).map (·.withGenerics generics)).map (·.declarations)).getD
        (.ok []) =
      if traits.all Path.fitsType then
        .ok (traits.map fun trait => Target.implement ⟨record.name, generics⟩ (some trait) [])
      else .error .unspliceable := by
  -- An empty request has no conformance, and the conformance of any other one lists its traits.
  cases traits <;> rfl

namespace CodableArguments

open Reader

/-- A path in a string literal is a written path. -/
theorem quotedPath_gives : quotedPath.Gives Path.Written := by
  refine Gives.then fun literal => ?_
  -- The literal is read apart, and its path is taken over as it is.
  unfold ofReading
  split
  · rename_i read
    exact Gives.pure (.literal read)
  · intro scope source path left known read
    cases read

/-- The arguments name at most a written path for the runtime. -/
theorem runtime_written {tokens : List Token} {args : CodableArguments}
    (read : ofTokens tokens = .ok args) :
    ∀ path, args.runtime = some path → path.Written := by
  -- The other arguments leave the path alone, so only the one for the runtime brings something new.
  have gives (g : Grammar) : (Grammar.arguments (readArgument g) {}).Gives
      fun args => ∀ path, args.runtime = some path → path.Written := by
    refine Grammar.arguments_gives (fun args path known => ?_) fun path absent => by cases absent
    unfold readArgument
    split
    · split
      · exact Gives.failAt _ _
      · exact Gives.then fun policy => Gives.pure known
    · split
      · split
        · exact Gives.failAt _ _
        · exact Gives.then fun paths => Gives.pure known
      · split
        · split
          · exact Gives.failAt _ _
          · refine Gives.bind quotedPath_gives fun runtime written => Gives.pure fun path same => ?_
            exact Option.some.inj same ▸ written
        · exact Gives.failAt _ _
  exact Gives.of_run (gives _) read

end CodableArguments

namespace Codable

/-- Whether an impl for a direction is generated. -/
def CodingImpls.codes (impls : CodingImpls) : Direction → Bool
  | .decoding => impls.decode.isSome
  | .encoding => impls.encode.isSome

namespace CodingImpls

variable {impls : CodingImpls} {runtime : Path} {coding : List Item}

/-- The impls of the coding traits: the one that decodes, and behind it the one that encodes. -/
def traitImpls (impls : CodingImpls) (runtime : Path) : List Item :=
  (impls.decode.map (·.traitImpl runtime)).toList ++ (impls.encode.map (·.traitImpl runtime)).toList

/--
The coding impls are declared as these, provided that the runtime and every field can be named in
them.
-/
theorem declarations_eq_ok_iff :
    impls.declarations runtime = .ok coding ↔
      (∀ init ∈ impls.decode, runtime.fitsType = true ∧ init.fits = true) ∧
        (∀ encode ∈ impls.encode, runtime.fitsType = true ∧ encode.fits = true) ∧
          impls.traitImpls runtime = coding := by
  -- The two kinds of impl are declared one after the other.
  rw [declarations]
  simp only [bind_eq_ok_iff, mapM_toList_eq_ok_iff fun _ _ =>
    DecodeInitializer.declaration_eq_ok_iff, mapM_toList_eq_ok_iff fun _ _ =>
      EncodeImpl.declaration_eq_ok_iff]
  constructor
  · rintro ⟨_, ⟨decodes, rfl⟩, _, ⟨encodes, rfl⟩, same⟩
    exact ⟨decodes, encodes, Except.ok.inj same⟩
  · rintro ⟨decodes, encodes, rfl⟩
    exact ⟨_, ⟨decodes, rfl⟩, _, ⟨encodes, rfl⟩, rfl⟩

/-- A decoder is generated exactly if the mapping gives an initializer. -/
theorem decode_ofMapping_eq_some_iff {inspection : Inspection} {mapping : KeyMapping}
    {init : DecodeInitializer} : (ofMapping inspection mapping).decode = some init ↔
      DecodeInitializer.ofMapping inspection mapping = .ok (some init) := by
  -- A mapping with unknown entries gives no decoder.
  rw [ofMapping]
  cases DecodeInitializer.ofMapping inspection mapping <;> simp

end CodingImpls

/-- An attribute of a new name that is put on a struct can be taken off again. -/
theorem detach?_insertBeforeDerive {attr : Attribute} {attributes : List Attribute} {name : String}
    (named : attr.path.lastName? = some name) (absent : Attribute.find? attributes name = none) :
    Attribute.detach? name (insertBeforeDerive attr attributes) = some (attr, attributes) := by
  -- The attribute stands before the first one that derives, and nothing before it has its name.
  induction attributes with
  | nil => simp [insertBeforeDerive, Attribute.detach?, named]
  | cons first rest ih =>
    rw [Attribute.find?, List.find?_cons] at absent
    rw [insertBeforeDerive]
    split at absent
    · cases absent
    · rename_i other
      split
      · simp [Attribute.detach?, named]
      · -- The first attribute has another name, so the search goes on behind it.
        rw [Attribute.detach?, other, ih absent]
        rfl

/--
A successful run of the coding transformer: what it has found out, and that each of its steps has
succeeded.
-/
structure Run (codable : Codable) (tokens : List Token) (item : Item) (context : Context) where
  args : CodableArguments
  inspection : Inspection
  mapping : KeyMapping
  coding : List Item
  traits : List Path
  attributes : List Attribute
  read : codable.readArguments tokens = .ok args
  inspected : Inspection.ofItem codable.name item = .ok inspection
  mapped : KeyMapping.ofRecord (codable.policy args context.config) inspection = .ok mapping
  declared : (CodingImpls.ofMapping inspection mapping).declarations
    (args.runtime.getD context.runtime) = .ok coding
  requests : requested args context (args.runtime.getD context.runtime)
    ((CodingImpls.ofMapping inspection mapping).complete inspection.record) = .ok traits
  conforms : (Conformance.missing inspection.record traits).all Path.fitsType = true
  attached : attributesWith inspection.record.head.attributes (mapping.stored inspection.fields)
    (args.runtime.getD context.runtime) args.runtime.isSome = .ok attributes

namespace Run

variable {codable : Codable} {tokens : List Token} {item : Item} {context : Context}
  (run : Run codable tokens item context)

/-- The record. -/
def record : Record := run.inspection.record

/-- The path of the runtime: the one that is given, else that of the context. -/
def runtime : Path := run.args.runtime.getD context.runtime

/-- The impls that decode and encode. -/
def impls : CodingImpls := .ofMapping run.inspection run.mapping

/-- The entries whose fields are stored. -/
def stored : KeyMapping := run.mapping.stored run.inspection.fields

/-- The requested traits that the record does not implement yet. -/
def missing : List Path := Conformance.missing run.record run.traits

/-- The generated declarations: the coding impls, and an empty impl for each missing trait. -/
def generated : List Item :=
  run.coding ++ run.missing.map fun trait =>
    Target.implement ⟨run.record.name, run.impls.boundGenerics run.record.generics run.runtime⟩
      (some trait) []

/-- A run is determined by what it is a run on. -/
theorem unique (one other : Run codable tokens item context) : one = other := by
  obtain ⟨args, inspection, mapping, coding, traits, attributes, read, inspected, mapped, declared,
    requests, -, attached⟩ := one
  obtain ⟨_, _, _, _, _, _, read', inspected', mapped', declared', requests', -, attached'⟩ := other
  -- Each step has one result, on which the later ones depend.
  obtain rfl := Except.ok.inj (read.symm.trans read')
  obtain rfl := Except.ok.inj (inspected.symm.trans inspected')
  obtain rfl := Except.ok.inj (mapped.symm.trans mapped')
  obtain rfl := Except.ok.inj (declared.symm.trans declared')
  obtain rfl := Except.ok.inj (requests.symm.trans requests')
  obtain rfl := Except.ok.inj (attached.symm.trans attached')
  rfl

/-- The empty impls are those of the conformance that is requested. -/
theorem conforming_eq : (((Conformance.ofRequest? run.record run.missing).map
      (·.withGenerics (run.impls.boundGenerics run.record.generics run.runtime))).map
        (·.declarations)).getD (.ok []) =
    .ok (run.missing.map fun trait =>
      Target.implement ⟨run.record.name, run.impls.boundGenerics run.record.generics run.runtime⟩
        (some trait) []) := by
  -- In a successful run all missing traits can be implemented.
  rw [Conformance.declarations_ofRequest?]
  exact if_pos run.conforms

/-- The declaration that holds the struct with its mapping. -/
def first : Item := run.record.place (stripped run.record run.attributes) run.generated

/-- The same declaration without the mapping. -/
def bare : Item := run.record.place (stripped run.record run.record.head.attributes) run.generated

/-- What a run gives: the struct is put back with its mapping, among what is generated. -/
def expansion : Expansion :=
  ⟨run.first :: run.record.beside run.generated, context.config.apply (run.inspection.diagnostics ++
    run.inspection.defaultDiagnostics ++ CodingImpls.unknownFields run.inspection run.mapping)⟩

/-- An expansion is what a successful run gives. -/
theorem expand_eq_ok_iff {expansion : Expansion} :
    codable.expand tokens item context = .ok expansion ↔
      ∃ run : Run codable tokens item context, run.expansion = expansion := by
  constructor
  · -- The steps are taken apart in the order in which they are done.
    intro expanded
    obtain ⟨args, read, rest⟩ := bind_eq_ok_iff.mp expanded
    obtain ⟨inspection, inspected, rest⟩ := bind_eq_ok_iff.mp rest
    obtain ⟨mapping, mapped, rest⟩ := bind_eq_ok_iff.mp rest
    obtain ⟨coding, declared, rest⟩ := bind_eq_ok_iff.mp rest
    obtain ⟨traits, requests, rest⟩ := bind_eq_ok_iff.mp rest
    obtain ⟨conforming, named, rest⟩ := bind_eq_ok_iff.mp rest
    obtain ⟨attributes, attached, rest⟩ := bind_eq_ok_iff.mp rest
    cases rest
    -- Only traits that an impl can name have been declared.
    rw [Conformance.declarations_ofRequest?, ite_eq_iff'] at named
    have conforms : (Conformance.missing inspection.record traits).all Path.fitsType = true := by
      by_contra refused
      cases named.2 refused
    cases named.1 conforms
    let run : Run codable tokens item context := ⟨args, inspection, mapping, coding, traits,
      attributes, read, inspected, mapped, declared, requests, conforms, attached⟩
    refine ⟨run, ?_⟩
    rw [Run.expansion, first, ← Record.reassemble_eq]
    rfl
  · rintro ⟨run, rfl⟩
    rw [Run.expansion, first, ← Record.reassemble_eq]
    exact bind_eq_ok_iff.mpr ⟨_, run.read, bind_eq_ok_iff.mpr ⟨_, run.inspected,
      bind_eq_ok_iff.mpr ⟨_, run.mapped, bind_eq_ok_iff.mpr ⟨_, run.declared,
        bind_eq_ok_iff.mpr ⟨_, run.requests, bind_eq_ok_iff.mpr ⟨_, run.conforming_eq,
          bind_eq_ok_iff.mpr ⟨_, run.attached, rfl⟩⟩⟩⟩⟩⟩⟩

/-- An expansion is a successful run, and puts back the struct with its mapping. -/
theorem exists_of_expand {expansion : Expansion}
    (expanded : codable.expand tokens item context = .ok expansion) :
    ∃ run : Run codable tokens item context,
      expansion.items = run.first :: run.record.beside run.generated := by
  -- What a run puts in front is the struct with its mapping.
  obtain ⟨run, rfl⟩ := expand_eq_ok_iff.mp expanded
  exact ⟨run, rfl⟩

/-- A path that the arguments name for the runtime is a written one. -/
theorem runtime_written (named : run.args.runtime.isSome = true) : run.runtime.Written := by
  obtain ⟨args, read, rest⟩ := bind_eq_ok_iff.mp run.read
  -- A policy may be refused after the arguments have been read, which does not change them.
  have same : args = run.args := by
    split at rest
    · cases rest
    · exact Except.ok.inj rest
  obtain ⟨path, given⟩ := Option.isSome_iff_exists.mp named
  rw [runtime, given, Option.getD_some]
  exact CodableArguments.runtime_written (mapError_eq_ok_iff.mp read) path (same ▸ given)

/-- The decoder of a run is the one for its mapping. -/
theorem decode_eq_some_iff {init : DecodeInitializer} :
    run.impls.decode = some init ↔
      DecodeInitializer.ofMapping run.inspection run.mapping = .ok (some init) :=
  CodingImpls.decode_ofMapping_eq_some_iff

/-- The impl that decodes is one for the record. -/
theorem traitImpl_decode {init : DecodeInitializer} (generated : run.impls.decode = some init) :
    init.traitImpl run.runtime = Target.implement
      ⟨run.record.name, init.boundGenerics run.record.generics run.runtime⟩
        (some (run.runtime.extend [Direction.decoding.trait])) [init.member run.runtime] := by
  -- The initializer is made for the record.
  obtain ⟨-, -, -, rfl⟩ := DecodeInitializer.ofMapping_eq_some_iff.mp
    (run.decode_eq_some_iff.mp generated)
  rfl

/-- The impl that encodes is one for the record. -/
theorem traitImpl_encode {encode : EncodeImpl} (generated : run.impls.encode = some encode) :
    encode.traitImpl run.runtime = Target.implement
      ⟨run.record.name, encode.boundGenerics run.record.generics run.runtime⟩
        (some (run.runtime.extend [Direction.encoding.trait])) [encode.member run.runtime] := by
  -- A generated encoder is for the record itself.
  obtain ⟨-, -, rfl⟩ := EncodeImpl.ofMapping?_eq_some_iff.mp generated
  rfl

/-- The coding impls are the one that decodes and behind it the one that encodes. -/
theorem coding_eq : run.coding = run.impls.traitImpls run.runtime :=
  (CodingImpls.declarations_eq_ok_iff.mp run.declared).2.2.symm

/-- A coding impl implements the trait of a direction that impls are generated for. -/
theorem coding_implements {other : Item} (inside : other ∈ run.coding) :
    ∃ direction generics members, run.impls.codes direction = true ∧
      other = Target.implement ⟨run.record.name, generics⟩
        (some (run.runtime.extend [direction.trait])) members := by
  rw [coding_eq, CodingImpls.traitImpls, List.mem_append] at inside
  -- A coding impl is that of the decoder or that of the encoder.
  rcases inside with here | here
  · obtain ⟨init, generated, rfl⟩ := Option.map_eq_some_iff.mp (Option.mem_toList.mp here)
    have codes : run.impls.codes .decoding = true := by simp [CodingImpls.codes, generated]
    exact ⟨.decoding, _, _, codes, run.traitImpl_decode generated⟩
  · obtain ⟨encode, generated, rfl⟩ := Option.map_eq_some_iff.mp (Option.mem_toList.mp here)
    have codes : run.impls.codes .encoding = true := by simp [CodingImpls.codes, generated]
    exact ⟨.encoding, _, _, codes, run.traitImpl_encode generated⟩

/-- For such a direction there is a coding impl. -/
theorem exists_mem_coding {direction : Direction} (codes : run.impls.codes direction = true) :
    ∃ generics members, Target.implement ⟨run.record.name, generics⟩
      (some (run.runtime.extend [direction.trait])) members ∈ run.coding := by
  -- The impls are listed for decoding first and for encoding behind it.
  rw [coding_eq, CodingImpls.traitImpls]
  cases direction with
  | decoding =>
    obtain ⟨init, generated⟩ := Option.isSome_iff_exists.mp codes
    rw [generated, Option.map_some, run.traitImpl_decode generated]
    exact ⟨_, _, List.mem_append_left _ (List.mem_singleton_self _)⟩
  | encoding =>
    obtain ⟨encode, generated⟩ := Option.isSome_iff_exists.mp codes
    rw [generated, Option.map_some, run.traitImpl_encode generated]
    exact ⟨_, _, List.mem_append_right _ (List.mem_singleton_self _)⟩

/-- No generated declaration is a struct. -/
theorem generated_not_isStruct : ∀ other ∈ run.generated, ¬other.IsStruct := by
  -- All that is generated are impls.
  rw [generated, List.forall_mem_append, List.forall_mem_map]
  refine ⟨fun other inside => ?_, fun trait _ => Target.implement_not_isStruct⟩
  obtain ⟨direction, generics, members, -, rfl⟩ := run.coding_implements inside
  exact Target.implement_not_isStruct

/-- The declaration is the record. -/
theorem found : item.asRecord = .ok run.record := (Inspection.ofItem_eq_ok_iff.mp run.inspected).1

/-- The struct that is put back is a record with the attributes that it is given. -/
theorem asRecord_stripped (attributes : List Attribute) :
    (run.record.place (stripped run.record attributes) run.generated).asRecord =
      .ok ⟨{ run.record.head with attributes }, run.record.fields.map
        (Field.strip [Attribute.codableName]), run.record.trailing,
          run.record.container.holding (stripped run.record attributes) run.generated,
          Record.existingAmong { run.record.head with attributes }
            (run.record.container.around run.generated)⟩ :=
  Record.asRecord_place run.found run.generated_not_isStruct _ _ _

/-- The record that is put back: it has its mapping, and its fields have lost their options. -/
def outcome : Record :=
  ⟨{ run.record.head with attributes := run.attributes },
    run.record.fields.map (Field.strip [Attribute.codableName]), run.record.trailing,
      run.record.container.holding (stripped run.record run.attributes) run.generated,
      Record.existingAmong { run.record.head with attributes := run.attributes }
        (run.record.container.around run.generated)⟩

/-- What is put back is that record. -/
theorem asRecord_first : run.first.asRecord = .ok run.outcome :=
  run.asRecord_stripped run.attributes

/-- A generated declaration is a key mapping exactly if a missing trait has the name of one. -/
theorem mapsKeys_generated :
    (∀ other ∈ run.generated, other.mapsKeys run.record.name = false) ↔
      ∀ trait ∈ run.missing, trait.lastName? ≠ some "KeyMapped" := by
  -- The coding traits have other names.
  have coding : ∀ other ∈ run.coding, other.mapsKeys run.record.name = false := by
    intro other inside
    obtain ⟨direction, generics, members, -, rfl⟩ := run.coding_implements inside
    rw [Target.mapsKeys_implement, Path.lastName?_extend]
    cases direction <;> rfl
  rw [generated, List.forall_mem_append, List.forall_mem_map, and_iff_right coding]
  refine forall₂_congr fun trait _ => ?_
  rw [Target.mapsKeys_implement, beq_eq_false_iff_ne]

/-- The entries of the mapping are those of the included fields, in their order. -/
theorem mapping_entries : run.mapping.entries =
    (run.inspection.fields.filter (codable.policy run.args context.config).includes).map
      FieldInfo.entry :=
  (KeyMapping.ofFields_eq_ok_iff.mp (KeyMapping.ofRecord_eq_ok_iff.mp run.mapped).2).2

/-- The record has no key mapping of its own. -/
theorem unmapped : run.record.existing.keyMapping = none :=
  (KeyMapping.ofRecord_eq_ok_iff.mp run.mapped).1

/-- The record has no attribute with a key mapping. -/
theorem no_attribute :
    Attribute.find? run.record.head.attributes KeyMapping.attributeName = none := by
  -- An attribute with a mapping would have been found with the record.
  have unmapped := run.unmapped
  rw [(Item.asRecord_eq_ok_iff.mp run.found).1, Record.existingAmong,
    ExistingMembers.keyMapping_foldl_withItem] at unmapped
  exact Option.map_eq_none_iff.mp unmapped.1

/-- The mapping is put on the record exactly if it has stored entries. -/
theorem attributes_eq :
    (run.stored.entries = [] ∧ run.attributes = run.record.head.attributes) ∨
      (run.stored.entries ≠ [] ∧ ∃ attr,
        run.stored.toAttribute run.runtime run.args.runtime.isSome = .ok attr ∧
        run.attributes = insertBeforeDerive attr run.record.head.attributes) := by
  -- An empty mapping is not attached.
  have attached := run.attached
  rw [attributesWith] at attached
  split at attached
  · rename_i empty
    exact .inl ⟨List.isEmpty_iff.mp empty, (Except.ok.inj attached).symm⟩
  · rename_i holds
    obtain ⟨attr, fits, same⟩ := bind_eq_ok_iff.mp attached
    exact .inr ⟨fun empty => holds (List.isEmpty_iff.mpr empty), attr, fits,
      (Except.ok.inj same).symm⟩

/-- What is taken off is the attribute of the stored mapping, and nothing if there is none. -/
theorem detach?_first :
    (run.stored.entries = [] ∧ run.first.detach? KeyMapping.attributeName = none) ∨
      (run.stored.entries ≠ [] ∧ ∃ attr,
        run.stored.toAttribute run.runtime run.args.runtime.isSome = .ok attr ∧
        run.first.detach? KeyMapping.attributeName = some (attr, run.bare)) := by
  -- The record has no such attribute, so the only one is that which has been put on.
  have absent := run.no_attribute
  rw [first, Record.detach?_place run.found run.generated_not_isStruct, Struct.detach?, stripped]
  rcases run.attributes_eq with ⟨empty, same⟩ | ⟨holds, attr, fits, same⟩
  · rw [same, Attribute.detach?_eq_none_iff.mpr absent]
    exact .inl ⟨empty, rfl⟩
  · refine .inr ⟨holds, attr, fits, ?_⟩
    have named : attr.path.lastName? = some KeyMapping.attributeName := by
      rw [(KeyMapping.toAttribute_eq_ok_iff.mp fits).2]
      exact Path.lastName?_extend _ _
    rw [same, detach?_insertBeforeDerive named absent]
    rfl

/-- A field of the record is the only one of its name. -/
theorem eq_of_spelling {field other : FieldInfo} (here : field ∈ run.inspection.fields)
    (there : other ∈ run.inspection.fields) (same : field.name.spelling = other.name.spelling) :
    field = other :=
  List.inj_on_of_nodup_map (Inspection.fields_nodup run.inspected) here there same

/-- An entry names an accessor exactly if its field has one. -/
theorem namesAccessor_entry {field : FieldInfo} (inside : field ∈ run.inspection.fields) :
    KeyMapping.namesAccessor run.inspection.fields field.entry = field.isAccessor := by
  -- The name of the entry is that of one field only.
  rw [Bool.eq_iff_iff, KeyMapping.namesAccessor, List.any_eq_true]
  constructor
  · rintro ⟨other, among, both⟩
    rw [Bool.and_eq_true, Name.beq_eq_true_iff] at both
    rw [← run.eq_of_spelling among inside both.1]
    exact both.2
  · intro computed
    exact ⟨field, inside, by rw [Bool.and_eq_true, Name.beq_eq_true_iff]; exact ⟨rfl, computed⟩⟩

/-- The stored entries are those of the included fields without an accessor, in their order. -/
theorem stored_entries : run.stored.entries = (run.inspection.fields.filter fun field =>
    (codable.policy run.args context.config).includes field &&
      !field.isAccessor).map FieldInfo.entry := by
  -- The accessors are left out of the entries of the included fields.
  rw [stored, KeyMapping.stored, run.mapping_entries, List.filter_map, List.filter_filter]
  refine congrArg (List.map FieldInfo.entry) (List.filter_congr fun field inside => ?_)
  rw [Function.comp_apply, run.namesAccessor_entry inside, Bool.and_comm]

/-- The stored mapping repeats no field, and its keys differ. -/
theorem stored_wellFormed : run.stored.WellFormed := by
  -- A part of a well-formed mapping is well-formed.
  obtain ⟨fields, keys⟩ := KeyMapping.wellFormed_of_ofRecord run.inspected run.mapped
  have part : run.stored.entries.Sublist run.mapping.entries := List.filter_sublist
  exact ⟨fields.sublist (part.map _), keys.sublist (part.map _)⟩

/-- A stored entry names a declared field that is not secure. -/
theorem exists_field_of_stored {entry : KeyEntry} (inside : entry ∈ run.stored.entries) :
    ∃ field ∈ run.record.fields, field.isSecure = false ∧ field.name = entry.field := by
  rw [run.stored_entries] at inside
  obtain ⟨info, among, rfl⟩ := List.mem_map.mp inside
  obtain ⟨known, both⟩ := List.mem_filter.mp among
  rw [Bool.and_eq_true] at both
  -- The fields without an accessor are known by name to be the declared ones that are not secure.
  have named : info.name ∈ (run.inspection.fields.filter (!·.isAccessor)).map (·.name) :=
    List.mem_map_of_mem (List.mem_filter.mpr ⟨known, both.2⟩)
  rw [DecodeInitializer.stored_fields run.inspected] at named
  obtain ⟨field, declared, same⟩ := List.mem_map.mp named
  obtain ⟨member, plain⟩ := List.mem_filter.mp declared
  exact ⟨field, member, by simpa using plain, same⟩

/-- A field that is written has a stored entry. -/
theorem entry_mem_stored {field : FieldInfo} (inside : field ∈ run.inspection.fields)
    (written : EncodeImpl.isWritten run.mapping field = true) :
    field.entry ∈ run.stored.entries := by
  -- A written field is mapped, so it has an entry, and it has no accessor.
  obtain ⟨mapped, plain⟩ := EncodeImpl.isWritten_iff.mp written
  obtain ⟨entry, among, same⟩ := KeyMapping.contains_iff.mp mapped
  rw [run.mapping_entries] at among
  obtain ⟨other, included, rfl⟩ := List.mem_map.mp among
  obtain ⟨known, includes⟩ := List.mem_filter.mp included
  -- The entry is that of a field of the same name, which is the field itself.
  obtain rfl := run.eq_of_spelling known inside same
  rw [run.stored_entries]
  exact List.mem_map_of_mem (List.mem_filter.mpr ⟨inside, by rw [includes, plain]; rfl⟩)

/-- A field that is not secure is mapped exactly if it has a stored entry. -/
theorem contains_stored {field : FieldInfo} (inside : field ∈ run.inspection.fields)
    (plain : field.isAccessor = false) :
    run.stored.contains field.name = run.mapping.contains field.name := by
  rw [Bool.eq_iff_iff]
  constructor
  · -- The stored entries are some of the entries.
    intro stored
    obtain ⟨entry, among, same⟩ := KeyMapping.contains_iff.mp stored
    exact KeyMapping.contains_iff.mpr ⟨entry, List.mem_of_mem_filter among, same⟩
  · intro mapped
    exact KeyMapping.contains_iff.mpr
      ⟨field.entry, run.entry_mem_stored inside (EncodeImpl.isWritten_iff.mpr ⟨mapped, plain⟩), rfl⟩

/-- The decoder is one for the record, and what it reads from the container has a stored entry. -/
theorem decoded_mem_stored {init : DecodeInitializer} (generated : run.impls.decode = some init) :
    init.target = run.record.target ∧ ∀ name ∈ init.decodedFields, ∃ entry ∈ run.stored.entries,
      entry.field = name := by
  obtain ⟨-, -, -, rfl⟩ := DecodeInitializer.ofMapping_eq_some_iff.mp
    (run.decode_eq_some_iff.mp generated)
  refine ⟨rfl, fun name inside => ?_⟩
  obtain ⟨read, decoded, rfl⟩ := List.mem_map.mp inside
  obtain ⟨among, isDecoded⟩ := List.mem_filter.mp decoded
  -- What is read from the container is eligible, and what is eligible is written.
  obtain ⟨field, member, reads⟩ := List.mem_filterMap.mp among
  obtain ⟨eligible, same⟩ := DecodeInitializer.isEligible_of_isDecoded reads isDecoded
  exact ⟨field.entry, run.entry_mem_stored member (EncodeImpl.isWritten_of_isEligible eligible),
    same.symm⟩

/-- The encoder is one for the record, and what it writes has a stored entry. -/
theorem written_mem_stored {encode : EncodeImpl} (generated : run.impls.encode = some encode) :
    encode.target = run.record.target ∧ ∀ write ∈ encode.writes, ∃ entry ∈ run.stored.entries,
      entry.field = write.field := by
  obtain ⟨-, -, rfl⟩ := EncodeImpl.ofMapping?_eq_some_iff.mp generated
  -- There is one write for each written field.
  rw [EncodeImpl.writesOf, List.forall_mem_map]
  refine ⟨rfl, fun field inside => ?_⟩
  obtain ⟨member, written⟩ := List.mem_filter.mp inside
  exact ⟨field.entry, run.entry_mem_stored member written, rfl⟩

/-- Where a coding impl is generated, there are stored entries. -/
theorem stored_ne_nil (coded : run.impls.decode.isSome = true ∨ run.impls.encode.isSome = true) :
    run.stored.entries ≠ [] := by
  -- Either impl exists only for some field that is written.
  rcases coded with decodes | encodes
  · obtain ⟨init, generated⟩ := Option.isSome_iff_exists.mp decodes
    obtain ⟨-, -, eligible, -⟩ := DecodeInitializer.ofMapping_eq_some_iff.mp
      (run.decode_eq_some_iff.mp generated)
    obtain ⟨field, inside, reads⟩ := List.any_eq_true.mp eligible
    exact List.ne_nil_of_mem
      (run.entry_mem_stored inside (EncodeImpl.isWritten_of_isEligible reads))
  · obtain ⟨encode, generated⟩ := Option.isSome_iff_exists.mp encodes
    obtain ⟨-, some, -⟩ := EncodeImpl.ofMapping?_eq_some_iff.mp generated
    obtain ⟨write, among⟩ := List.exists_mem_of_ne_nil _ some
    obtain ⟨field, inside, -⟩ := List.mem_map.mp among
    obtain ⟨member, written⟩ := List.mem_filter.mp inside
    exact List.ne_nil_of_mem (run.entry_mem_stored member written)

end Run

end Codable

end KeyedCoding
