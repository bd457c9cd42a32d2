import KeyedCoding.Proofs.Generated.Bounds
import KeyedCoding.Proofs.Transform.Emission

/-!
Bounds on generated impls: what the coding transformer adds to the where clause of a record, in the
coding impls and in the empty impls behind them.
-/

namespace KeyedCoding

namespace Codable

namespace CodingImpls

/-- The type parameters that a generated decoder bounds. -/
def decodingParams (impls : CodingImpls) (generics : Generics) : List Name :=
  match impls.decode with
  | some init => generics.usedTypeParams init.decodedTypes
  | none => []

/-- The type parameters that a generated encoder bounds. -/
def encodingParams (impls : CodingImpls) (generics : Generics) : List Name :=
  match impls.encode with
  | some encode => generics.usedTypeParams (encode.writes.map (·.ty))
  | none => []

/-- All bounds together are those of the decoder, and behind them those of the encoder. -/
theorem boundGenerics_extends (impls : CodingImpls) (generics : Generics) (runtime : Path) :
    (impls.boundGenerics generics runtime).Extends generics
      ((impls.decodingParams generics).map
          (Generics.boundPredicate (DecodeInitializer.bound runtime)) ++
        (impls.encodingParams generics).map
          (Generics.boundPredicate (EncodeImpl.bound runtime))) := by
  obtain ⟨_ | init, _ | encode⟩ := impls
  · exact .refl generics
  · exact Generics.withFieldBounds_extends generics _ _
  · rw [encodingParams, List.map_nil, List.append_nil]
    exact Generics.withFieldBounds_extends generics _ _
  · -- The encoder finds the same parameters where the generics are bounded for the decoder already.
    have first : (init.boundGenerics generics runtime).Extends generics _ :=
      Generics.withFieldBounds_extends generics _ _
    have second := Generics.withFieldBounds_extends (init.boundGenerics generics runtime)
      (encode.writes.map (·.ty)) (EncodeImpl.bound runtime)
    rw [first.usedTypeParams_eq] at second
    exact first.trans second

end CodingImpls

namespace Run

variable {codable : Codable} {tokens : List Token} {item : Item} {context : Context}
  (run : Run codable tokens item context)

/-- The types that a generated decoder reads belong to the mapped fields without an initializer. -/
theorem mem_decodedTypes_iff {init : DecodeInitializer} (generated : run.impls.decode = some init)
    {ty : Ty} :
    ty ∈ init.decodedTypes ↔ ∃ field ∈ run.inspection.fields,
      (run.maps field = true ∧ field.initializer = none) ∧ field.ty.present = ty := by
  rw [DecodeInitializer.mem_decodedTypes_iff (run.decode_eq_some_iff.mp generated)]
  -- Being mapped is being included by the policy, since no two fields share a name.
  refine exists_congr fun field => and_congr_right fun inside => ?_
  rw [DecodeInitializer.isEligible_iff, run.contains_eq_maps inside]

/-- The types that a generated encoder writes belong to the mapped fields without an accessor. -/
theorem mem_writtenTypes_iff {encode : EncodeImpl} (generated : run.impls.encode = some encode)
    {ty : Ty} :
    ty ∈ encode.writes.map (·.ty) ↔ ∃ field ∈ run.inspection.fields,
      (run.maps field = true ∧ field.isAccessor = false) ∧ field.ty = ty := by
  obtain ⟨-, -, rfl⟩ := EncodeImpl.ofMapping?_eq_some_iff.mp generated
  -- There is one write for each mapped field that has storage.
  rw [EncodeImpl.writesOf, List.map_map, List.mem_map]
  refine exists_congr fun field => ?_
  rw [List.mem_filter, and_assoc]
  refine and_congr_right fun inside => ?_
  rw [EncodeImpl.isWritten_iff, run.contains_eq_maps inside]
  rfl

/-- The type parameters that a generated decoder bounds are those that some type it reads uses. -/
theorem decodingParams_where : run.record.generics.TypeParamsWhere
    (fun name => run.impls.decode.isSome = true ∧ ∃ field ∈ run.inspection.fields,
      (run.maps field = true ∧ field.initializer = none) ∧ field.ty.present.Uses name)
    (run.impls.decodingParams run.record.generics) := by
  rw [CodingImpls.decodingParams]
  cases generated : run.impls.decode with
  -- Without a decoder there is nothing to bound.
  | none => exact Generics.typeParamsWhere_nil fun name both => by cases both.1
  | some init =>
    refine (Generics.usedTypeParams_of_fields fun _ => run.mem_decodedTypes_iff generated).congr
      fun name => ?_
    simp

/-- The type parameters that a generated encoder bounds are those that some type it writes uses. -/
theorem encodingParams_where : run.record.generics.TypeParamsWhere
    (fun name => run.impls.encode.isSome = true ∧ ∃ field ∈ run.inspection.fields,
      (run.maps field = true ∧ field.isAccessor = false) ∧ field.ty.Uses name)
    (run.impls.encodingParams run.record.generics) := by
  -- Without an encoder there is nothing to bound.
  rw [CodingImpls.encodingParams]
  cases generated : run.impls.encode with
  | none => exact Generics.typeParamsWhere_nil fun name both => by cases both.1
  | some encode =>
    refine (Generics.usedTypeParams_of_fields fun _ => run.mem_writtenTypes_iff generated).congr
      fun name => ?_
    simp

/-- A declaration is an impl of a trait for the record, with some predicates behind its own ones. -/
def ImplsWith (trait : Path) (added : List (List Token)) (other : Item) : Prop :=
  ∃ generics members,
    other = Target.implement ⟨run.record.name, generics⟩ (some trait) members ∧
      generics.Extends run.record.generics added

/--
The generated impls have the predicates of the record and, behind them, bounds on type parameters.

A decoder bounds those parameters that are used by a type which it reads: that of a mapped field
without an initializer, or the one that this type is optional of. An encoder bounds those that are
used by the type of a mapped field without an accessor. Every other impl has the bounds of both.
What only other fields use is not bounded.
-/
structure Bounds (decode encode : Option Item) (conforming : List Item)
    (decoding encoding : List Name) : Prop where
  emits : run.Emits decode encode conforming
  decoded : run.record.generics.TypeParamsWhere
    (fun name => decode.isSome = true ∧ ∃ field ∈ run.inspection.fields,
      (run.maps field = true ∧ field.initializer = none) ∧ field.ty.present.Uses name) decoding
  encoded : run.record.generics.TypeParamsWhere
    (fun name => encode.isSome = true ∧ ∃ field ∈ run.inspection.fields,
      (run.maps field = true ∧ field.isAccessor = false) ∧ field.ty.Uses name) encoding
  decoder : ∀ other ∈ decode, run.ImplsWith (run.runtime.extend ["Decodable"])
    (decoding.map (Generics.boundPredicate (run.runtime.extend ["__private", "DeserializeOwned"])))
    other
  encoder : ∀ other ∈ encode, run.ImplsWith (run.runtime.extend ["Encodable"])
    (encoding.map (Generics.boundPredicate (run.runtime.extend ["__private", "Serialize"]))) other
  conforms : ∀ other ∈ conforming, ∃ trait, run.ImplsWith trait
    (decoding.map (Generics.boundPredicate (run.runtime.extend ["__private", "DeserializeOwned"]))
      ++ encoding.map (Generics.boundPredicate (run.runtime.extend ["__private", "Serialize"])))
    other
  undecoded : ∀ param, (∀ field ∈ run.inspection.fields, field.ty.Uses param.spelling →
    field.skipped = true ∨ field.initializer.isSome = true) → param ∉ decoding
  unencoded : ∀ param, (∀ field ∈ run.inspection.fields, field.ty.Uses param.spelling →
    field.skipped = true ∨ field.isAccessor = true) → param ∉ encoding

/-- The impl that decodes is bounded by what it reads. -/
theorem implsWith_decode {init : DecodeInitializer} (generated : run.impls.decode = some init) :
    run.ImplsWith (run.runtime.extend ["Decodable"])
      ((run.impls.decodingParams run.record.generics).map
        (Generics.boundPredicate (run.runtime.extend ["__private", "DeserializeOwned"])))
      (init.traitImpl run.runtime) := by
  -- The parameters that are decoded are those of the types that this initializer reads.
  rw [CodingImpls.decodingParams, generated]
  exact ⟨_, _, run.traitImpl_decode generated, Generics.withFieldBounds_extends _ _ _⟩

/-- The impl that encodes is bounded by what it writes. -/
theorem implsWith_encode {encode : EncodeImpl} (generated : run.impls.encode = some encode) :
    run.ImplsWith (run.runtime.extend ["Encodable"])
      ((run.impls.encodingParams run.record.generics).map
        (Generics.boundPredicate (run.runtime.extend ["__private", "Serialize"])))
      (encode.traitImpl run.runtime) := by
  -- The parameters that are encoded are those of the types that this encoder writes.
  rw [CodingImpls.encodingParams, generated]
  exact ⟨_, _, run.traitImpl_encode generated, Generics.withFieldBounds_extends _ _ _⟩

/-- What only skipped and initialized fields use is not bounded for decoding. -/
theorem not_mem_decodingParams {param : Name} (others : ∀ field ∈ run.inspection.fields,
    field.ty.Uses param.spelling → field.skipped = true ∨ field.initializer.isSome = true) :
    param ∉ run.impls.decodingParams run.record.generics := by
  intro bounded
  obtain ⟨-, -, field, inside, ⟨maps, bare⟩, uses⟩ := run.decodingParams_where.mem_iff.mp bounded
  -- The field that is read uses the parameter, and it is neither skipped nor initialized.
  rcases others field inside (uses.of_inside field.ty.present_inside) with skipped | initialized
  · rw [InclusionPolicy.not_skipped_of_includes maps] at skipped
    cases skipped
  · rw [bare] at initialized
    cases initialized

/-- What only skipped fields and accessors use is not bounded for encoding. -/
theorem not_mem_encodingParams {param : Name} (others : ∀ field ∈ run.inspection.fields,
    field.ty.Uses param.spelling → field.skipped = true ∨ field.isAccessor = true) :
    param ∉ run.impls.encodingParams run.record.generics := by
  -- A bounded parameter is used by a field that is written, and that is neither skipped nor
  -- computed.
  intro bounded
  obtain ⟨-, -, field, inside, ⟨maps, plain⟩, uses⟩ := run.encodingParams_where.mem_iff.mp bounded
  rcases others field inside uses with skipped | accessor
  · rw [InclusionPolicy.not_skipped_of_includes maps] at skipped
    cases skipped
  · rw [plain] at accessor
    cases accessor

end Run

/-- A successful expansion generates impls that are bounded like this. -/
theorem expand_bounds {codable : Codable} {tokens : List Token} {item : Item} {context : Context}
    {expansion : Expansion} (expanded : codable.expand tokens item context = .ok expansion) :
    ∃ run : Run codable tokens item context, run.expansion = expansion ∧
      ∃ decode encode conforming decoding encoding,
        run.Bounds decode encode conforming decoding encoding := by
  obtain ⟨run, rfl⟩ := Run.expand_eq_ok_iff.mp expanded
  refine ⟨run, rfl, _, _, _, run.impls.decodingParams run.record.generics,
    run.impls.encodingParams run.record.generics, run.emits, ?_, ?_, ?_, ?_, ?_, ?_, ?_⟩
  · simp only [Option.isSome_map]
    exact run.decodingParams_where
  · simp only [Option.isSome_map]
    exact run.encodingParams_where
  · intro other inside
    obtain ⟨init, generated, rfl⟩ := Option.map_eq_some_iff.mp inside
    exact run.implsWith_decode generated
  · intro other inside
    obtain ⟨encode, generated, rfl⟩ := Option.map_eq_some_iff.mp inside
    exact run.implsWith_encode generated
  · -- An impl for a conformance carries the bounds of both.
    intro other inside
    obtain ⟨trait, -, rfl⟩ := List.mem_map.mp inside
    exact ⟨trait, _, _, rfl, run.impls.boundGenerics_extends _ _⟩
  · exact fun param others => run.not_mem_decodingParams others
  · exact fun param others => run.not_mem_encodingParams others

/-- A struct of three type parameters with a where clause, one of whose fields is skipped. -/
def wrapper : Item :=
  let param (name : String) : GenericParam := ⟨[], .type, ⟨name, .origin⟩, [], []⟩
  let named (name : String) : Ty := .path (.ofName ⟨name, .origin⟩)
  let skip : Attribute := .withList (.ofName ⟨Attribute.codableName, .origin⟩) [Token.word "skip"]
  .struct
    { head := ⟨[], [], .origin, ⟨"Wrapper", .origin⟩,
        ⟨[param "T", param "U", param "V"], false,
          some ⟨[[Token.word "V"] ++ Token.symbol ":" ++ [Token.word "Send"]], false⟩⟩⟩
      fields := .named
        [⟨[], [], ⟨"next", .origin⟩,
            .path ⟨none, [⟨⟨"Option", .origin⟩, .angle false [.type (named "U")] false⟩]⟩⟩,
         ⟨[], [], ⟨"values", .origin⟩, .slice (named "T")⟩,
         ⟨[skip], [], ⟨"cache", .origin⟩, named "V"⟩] false }

set_option maxRecDepth 4000 in
/-- For that struct both coding impls bound the two parameters that are not only skipped. -/
theorem expand_bounds_wrapper : ∃ expansion,
    standard.expand [] wrapper ⟨{}, Context.standardRuntime⟩ = .ok expansion ∧
      ∃ run : Run standard [] wrapper ⟨{}, Context.standardRuntime⟩, run.expansion = expansion ∧
        ∃ decode encode conforming decoding encoding,
          run.Bounds decode encode conforming decoding encoding ∧
            decode.isSome = true ∧ encode.isSome = true ∧
              decoding.map (·.spelling) = ["T", "U"] ∧ encoding.map (·.spelling) = ["T", "U"] := by
  let known : Run standard [] wrapper ⟨{}, Context.standardRuntime⟩ :=
    ⟨_, _, _, _, _, _, rfl, rfl, rfl, rfl, rfl, rfl, rfl⟩
  have expanded := Run.expand_eq_ok_iff.mpr ⟨known, rfl⟩
  obtain ⟨run, whole, decode, encode, conforming, decoding, encoding, bounds⟩ :=
    expand_bounds expanded
  obtain rfl : run = known := Run.unique _ _
  -- Both impls are generated, so that the bounds are those of the fields that they code.
  have decodes : decode.isSome = true :=
    bounds.emits.decodes.mpr ((Run.decode_isSome_iff known).mp rfl)
  have encodes : encode.isSome = true :=
    bounds.emits.encodes.mpr ((Run.encode_isSome_iff known).mp rfl)
  have decoded := bounds.decoded
  have encoded := bounds.encoded
  rw [decodes] at decoded
  rw [encodes] at encoded
  refine ⟨_, expanded, known, rfl, decode, encode, conforming, decoding, encoding, bounds, decodes,
    encodes, ?_, ?_⟩
  · rw [decoded.unique (Run.decodingParams_where known)]
    rfl
  · rw [encoded.unique (Run.encodingParams_where known)]
    rfl

/-- A struct with a field whose type ends in `Option`, but belongs to a type parameter. -/
def projected : Item :=
  .struct
    { head := ⟨[], [], .origin, ⟨"A", .origin⟩,
        ⟨[⟨[], .type, ⟨"T", .origin⟩, [], []⟩], false, none⟩⟩
      fields := .named
        [⟨[], [], ⟨"a", .origin⟩, .path ⟨none, [⟨⟨"T", .origin⟩, .none⟩,
          ⟨⟨"Option", .origin⟩, .angle false [.type (.path (.ofName ⟨"u8", .origin⟩))] false⟩]⟩⟩]
        false }

/--
The type of a field alone does not tell what is bounded: of a type that is taken for an optional one
only the inner type is read, and the parameter in front of it is left without a bound.
-/
theorem expand_bounds_fails : ∃ run : Run standard [] projected ⟨{}, Context.standardRuntime⟩,
    ∃ field ∈ run.inspection.fields, run.maps field = true ∧ field.initializer = none ∧
      run.record.generics.typeParams.map (·.spelling) = ["T"] ∧ field.ty.Uses "T" ∧
        ∃ decl, run.expansion.items[1]? = some (.impl decl) ∧
          decl.trait.bind (·.path.lastName?) = some "Decodable" ∧ decl.whereTokens = [] :=
  ⟨⟨_, _, _, _, _, _, rfl, rfl, rfl, rfl, rfl, rfl, rfl⟩, _, .head _, rfl, rfl, rfl,
    Ty.mem_heads_iff.mp (.head _), _, rfl, rfl, rfl⟩

end Codable

end KeyedCoding
