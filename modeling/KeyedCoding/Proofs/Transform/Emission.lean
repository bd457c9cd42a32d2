import KeyedCoding.Proofs.Record.Detection
import KeyedCoding.Proofs.Transform.Codable

/-!
Emission: exactly which declarations the coding transformer puts behind the others of a record, and
in what order.
-/

namespace KeyedCoding

/--
A trait is taken for implemented exactly if next to the struct there is an impl of a trait with the
same last name.
-/
theorem Conformance.isImplemented_iff {item : Item} {record : Record} {trait : Path}
    (found : item.asRecord = .ok record) :
    isImplemented record trait = true ↔ ∃ last, trait.lastName? = some last ∧
      ∃ other ∈ record.container.around [], other.ImplFor record.name last := by
  rw [isImplemented, (Record.detects found).conformances]
  -- A path without a last name is never taken for implemented.
  cases trait.lastName? with
  | none => simp
  | some last => simp [List.mem_filterMap, Item.traitFor?_eq_some_iff]

namespace Codable

/--
Traits are those that are requested: the given ones, else the configured ones, else the marker of
what is decoded and encoded, else none.
-/
inductive Requests (args : CodableArguments) (config : Config) (runtime : Path) (complete : Bool) :
    List Path → Prop
  | given {traits : List Path} (asked : args.conform = some traits) :
      Requests args config runtime complete traits
  | configured {texts : List String} {traits : List Path} (unasked : args.conform = none)
      (set : config.conformances = some texts)
      (read : List.Forall₂ (fun text trait => Path.ofSetting text = .ok trait) texts traits) :
      Requests args config runtime complete traits
  | marker (unasked : args.conform = none) (unset : config.conformances = none)
      (coded : complete = true) : Requests args config runtime complete [runtime.extend ["Codable"]]
  | nothing (unasked : args.conform = none) (unset : config.conformances = none)
      (uncoded : complete = false) : Requests args config runtime complete []

/-- The requested traits are found as the request says. -/
theorem requested_eq_ok_iff {args : CodableArguments} {context : Context} {runtime : Path}
    {complete : Bool} {traits : List Path} :
    requested args context runtime complete = .ok traits ↔
      Requests args context.config runtime complete traits := by
  rw [requested]
  -- What is given comes first, what is set second, and the marker last.
  cases asked : args.conform with
  | some paths =>
    -- What is given is requested as it stands, and nothing that is set is looked at.
    constructor
    · rintro ⟨⟩
      exact .given asked
    · intro requests
      cases requests with
      | given given => rw [Option.some.inj (asked.symm.trans given)]
      | configured unasked | marker unasked | nothing unasked => simp [asked] at unasked
  | none =>
    cases set : context.config.conformances with
    | some texts =>
      -- The traits that are set are read from their texts.
      simp only [Option.isSome_some, if_true, Context.conformances, set, mapM_eq_ok_iff]
      constructor
      · intro read
        exact .configured asked set read
      · intro requests
        cases requests with
        | given given => simp [asked] at given
        | configured _ same read => rwa [Option.some.inj (set.symm.trans same)]
        | marker _ unset | nothing _ unset => simp [set] at unset
    | none =>
      -- Nothing is given or set, so the marker depends on whether both impls are there.
      simp only [Option.isSome_none, Bool.false_eq_true, if_false]
      constructor
      · rintro ⟨⟩
        cases complete with
        | true => exact .marker asked set rfl
        | false => exact .nothing asked set rfl
      · intro requests
        cases requests with
        | given given => simp [asked] at given
        | configured _ same => simp [set] at same
        | marker _ _ coded => simp [coded, Context.marker]
        | nothing _ _ uncoded => simp [uncoded]

namespace Run

variable {codable : Codable} {tokens : List Token} {item : Item} {context : Context}
  (run : Run codable tokens item context)

/-- Whether a field of the record is mapped: whether the policy of the run includes it. -/
def maps (field : FieldInfo) : Bool := (codable.policy run.args context.config).includes field

/-- The fields that have an entry are those that the policy includes. -/
theorem contains_eq_maps {field : FieldInfo} (inside : field ∈ run.inspection.fields) :
    run.mapping.contains field.name = run.maps field :=
  KeyMapping.contains_of_ofFields (Inspection.fields_nodup run.inspected)
    (KeyMapping.ofRecord_eq_ok_iff.mp run.mapped).2 inside

/-- Every entry names a field. -/
theorem unknownFields_eq_nil : DecodeInitializer.unknownFields run.inspection run.mapping = [] :=
  DecodeInitializer.unknownFields_eq_nil run.mapping_entries fun _ included =>
    List.mem_of_mem_filter included

/--
A decoder is generated exactly if the record has none and some mapped field has no initializer.
-/
theorem decode_isSome_iff :
    run.impls.decode.isSome = true ↔ run.record.existing.decoder = false ∧
      ∃ field ∈ run.inspection.fields, run.maps field = true ∧ field.initializer = none := by
  -- A field is read from the container if it is mapped, that is included by the policy.
  have reads : run.inspection.fields.any (DecodeInitializer.isEligible run.mapping) = true ↔
      ∃ field ∈ run.inspection.fields, run.maps field = true ∧ field.initializer = none := by
    rw [List.any_eq_true]
    refine exists_congr fun field => and_congr_right fun inside => ?_
    rw [DecodeInitializer.isEligible_iff, run.contains_eq_maps inside]
  rw [Option.isSome_iff_exists, ← reads]
  constructor
  · rintro ⟨init, generated⟩
    obtain ⟨-, absent, some, -⟩ := DecodeInitializer.ofMapping_eq_some_iff.mp
      (run.decode_eq_some_iff.mp generated)
    exact ⟨absent, some⟩
  · rintro ⟨absent, some⟩
    exact ⟨_, run.decode_eq_some_iff.mpr (DecodeInitializer.ofMapping_eq_some_iff.mpr
      ⟨run.unknownFields_eq_nil, absent, some, rfl⟩)⟩

/-- An encoder is generated exactly if the record has none and some mapped field has no accessor. -/
theorem encode_isSome_iff :
    run.impls.encode.isSome = true ↔ run.record.existing.encoder = false ∧
      ∃ field ∈ run.inspection.fields, run.maps field = true ∧ field.isAccessor = false := by
  -- Every mapped field that has storage is written.
  have writes : EncodeImpl.writesOf run.mapping run.inspection.fields ≠ [] ↔
      ∃ field ∈ run.inspection.fields, run.maps field = true ∧ field.isAccessor = false := by
    simp only [EncodeImpl.writesOf, ne_eq, List.map_eq_nil_iff, List.filter_eq_nil_iff, not_forall,
      not_not, exists_prop]
    refine exists_congr fun field => and_congr_right fun inside => ?_
    rw [EncodeImpl.isWritten_iff, run.contains_eq_maps inside]
  rw [Option.isSome_iff_exists, ← writes]
  constructor
  · rintro ⟨encode, generated⟩
    obtain ⟨absent, some, -⟩ := EncodeImpl.ofMapping?_eq_some_iff.mp generated
    exact ⟨absent, some⟩
  · rintro ⟨absent, some⟩
    exact ⟨_, EncodeImpl.ofMapping?_eq_some_iff.mpr ⟨absent, some, rfl⟩⟩

/-- Whether the record is decoded and encoded tells whether the two impls complete it. -/
theorem complete_eq : run.impls.complete run.record =
    ((run.record.existing.decoder || (run.impls.decode.map (·.traitImpl run.runtime)).isSome) &&
      (run.record.existing.encoder ||
        (run.impls.encode.map (·.traitImpl run.runtime)).isSome)) := by
  -- An impl is there if it is generated or has been found.
  rw [CodingImpls.complete, Option.isSome_map, Option.isSome_map]

/--
The declarations that a run puts behind the others of its record are emitted exactly: at most one
impl that decodes, at most one that encodes, and an impl of each requested trait that the record
does not implement yet.
-/
structure Emits (decode encode : Option Item) (conforming : List Item) : Prop where
  items : run.expansion.items = run.record.reassemble (stripped run.record run.attributes)
    (decode.toList ++ encode.toList ++ conforming)
  detected : run.record.Detects (run.record.container.around [])
  decodes : decode.isSome = true ↔ run.record.existing.decoder = false ∧
    ∃ field ∈ run.inspection.fields, run.maps field = true ∧ field.initializer = none
  decodable : ∀ other ∈ decode, ∃ generics members, other =
    Target.implement ⟨run.record.name, generics⟩ (some (run.runtime.extend ["Decodable"])) members
  encodes : encode.isSome = true ↔ run.record.existing.encoder = false ∧
    ∃ field ∈ run.inspection.fields, run.maps field = true ∧ field.isAccessor = false
  encodable : ∀ other ∈ encode, ∃ generics members, other =
    Target.implement ⟨run.record.name, generics⟩ (some (run.runtime.extend ["Encodable"])) members
  requests : Requests run.args context.config run.runtime
    ((run.record.existing.decoder || decode.isSome) &&
      (run.record.existing.encoder || encode.isSome)) run.traits
  conforms : ∃ (generics : Generics) (implemented : Path → Bool),
    (∀ trait, implemented trait = true ↔ ∃ last, trait.lastName? = some last ∧
      ∃ other ∈ run.record.container.around [], other.ImplFor run.record.name last) ∧
    conforming = (run.traits.filter fun trait => !implemented trait).map fun trait =>
      Target.implement ⟨run.record.name, generics⟩ (some trait) []
  unmapped : (∀ field ∈ run.inspection.fields, run.maps field = false) →
    decode = none ∧ encode = none ∧ run.attributes = run.record.head.attributes ∧
      ∀ attr ∈ run.attributes, attr.path.lastName? ≠ some KeyMapping.attributeName

/-- Without a mapped field the attributes stay as they are, and none of them is a mapping. -/
theorem attributes_of_unmapped
    (unmapped : ∀ field ∈ run.inspection.fields, run.maps field = false) :
    run.attributes = run.record.head.attributes ∧
      ∀ attr ∈ run.attributes, attr.path.lastName? ≠ some KeyMapping.attributeName := by
  -- There are no stored entries, so no mapping is put on the struct.
  have none : run.stored.entries = [] := by
    rw [run.stored_entries, List.map_eq_nil_iff, List.filter_eq_nil_iff]
    intro field inside
    have excluded : (codable.policy run.args context.config).includes field = false :=
      unmapped field inside
    simp [excluded]
  -- A record that is expanded had no mapping before.
  rcases run.attributes_eq with ⟨-, same⟩ | ⟨holds, -⟩
  · have absent := List.find?_eq_none.mp run.no_attribute
    rw [same]
    exact ⟨rfl, fun attr inside named => absent attr inside (beq_iff_eq.mpr named)⟩
  · exact absurd none holds

/-- Without a mapped field there is neither a decoder nor an encoder. -/
theorem impls_of_unmapped (unmapped : ∀ field ∈ run.inspection.fields, run.maps field = false) :
    run.impls.decode = none ∧ run.impls.encode = none := by
  constructor
  · -- A decoder needs a mapped field, and so does an encoder.
    rw [← Option.not_isSome_iff_eq_none, run.decode_isSome_iff]
    rintro ⟨-, field, inside, maps, -⟩
    rw [unmapped field inside] at maps
    cases maps
  · rw [← Option.not_isSome_iff_eq_none, run.encode_isSome_iff]
    rintro ⟨-, field, inside, maps, -⟩
    rw [unmapped field inside] at maps
    cases maps

/-- A run emits its two coding impls, and an empty impl for each missing trait. -/
theorem emits : run.Emits (run.impls.decode.map (·.traitImpl run.runtime))
    (run.impls.encode.map (·.traitImpl run.runtime))
    (run.missing.map fun trait =>
      Target.implement ⟨run.record.name, run.impls.boundGenerics run.record.generics run.runtime⟩
        (some trait) []) where
  items := by
    -- What is generated are the coding impls, and behind them those of the missing traits.
    rw [expansion, first, ← Record.reassemble_eq, generated, run.coding_eq, CodingImpls.traitImpls]
  detected := Record.detects run.found
  decodes := by rw [Option.isSome_map, run.decode_isSome_iff]
  decodable := by
    intro other inside
    obtain ⟨init, generated, rfl⟩ := Option.map_eq_some_iff.mp inside
    exact ⟨_, _, run.traitImpl_decode generated⟩
  encodes := by rw [Option.isSome_map, run.encode_isSome_iff]
  encodable := by
    intro other inside
    obtain ⟨encode, generated, rfl⟩ := Option.map_eq_some_iff.mp inside
    exact ⟨_, _, run.traitImpl_encode generated⟩
  requests := by
    rw [← run.complete_eq]
    exact requested_eq_ok_iff.mp run.requests
  conforms :=
    ⟨_, Conformance.isImplemented run.record, fun _ => Conformance.isImplemented_iff run.found, rfl⟩
  unmapped := by
    intro unmapped
    obtain ⟨decodes, encodes⟩ := run.impls_of_unmapped unmapped
    rw [decodes, encodes]
    exact ⟨rfl, rfl, run.attributes_of_unmapped unmapped⟩

end Run

/-- A successful expansion emits exactly these declarations, behind all others of the record. -/
theorem expand_emits {codable : Codable} {tokens : List Token} {item : Item} {context : Context}
    {expansion : Expansion} (expanded : codable.expand tokens item context = .ok expansion) :
    ∃ run : Run codable tokens item context, run.expansion = expansion ∧
      ∃ decode encode conforming, run.Emits decode encode conforming := by
  -- What is emitted is told by the run that has succeeded.
  obtain ⟨run, rfl⟩ := Run.expand_eq_ok_iff.mp expanded
  exact ⟨run, rfl, _, _, _, run.emits⟩

/-- Arguments that request two traits. -/
def conformArguments : List Token :=
  [Token.word "conform", Token.parens ([Token.word "Marker"] ++ Token.symbol "," ++
    [Token.word "Other"])]

/-- A module whose struct is coded by what stands next to it; one of the two traits is there, too. -/
def codedModule : Item := .mod ⟨[], [Token.word "mod"], ⟨"books", .origin⟩, some Module.ledger⟩

set_option maxRecDepth 4000 in
/-- Two traits are requested for that module, and it gets neither a decoder nor an encoder. -/
theorem expand_emits_ledger : ∃ expansion,
    standard.expand conformArguments codedModule ⟨{}, Context.standardRuntime⟩ = .ok expansion ∧
      ∃ run : Run standard conformArguments codedModule ⟨{}, Context.standardRuntime⟩,
        run.expansion = expansion ∧ run.traits.map Path.lastName? = [some "Marker", some "Other"] ∧
          ∃ decode encode conforming, run.Emits decode encode conforming ∧
            decode.isSome = false ∧ encode.isSome = false := by
  let known : Run standard conformArguments codedModule ⟨{}, Context.standardRuntime⟩ :=
    ⟨_, _, _, _, _, _, rfl, rfl, rfl, rfl, rfl, rfl, rfl⟩
  have expanded := Run.expand_eq_ok_iff.mpr ⟨known, rfl⟩
  obtain ⟨run, whole, decode, encode, conforming, emits⟩ := expand_emits expanded
  obtain rfl : run = known := Run.unique _ _
  refine ⟨_, expanded, known, rfl, rfl, decode, encode, conforming, emits, ?_, ?_⟩
  · -- The record has both directions already.
    rw [Bool.eq_false_iff, ne_eq, emits.decodes]
    rintro ⟨absent, -⟩
    cases absent
  · rw [Bool.eq_false_iff, ne_eq, emits.encodes]
    rintro ⟨absent, -⟩
    cases absent

end Codable

end KeyedCoding
