import KeyedCoding.Coding.GeneratedCode
import KeyedCoding.Proofs.Generated.Members
import KeyedCoding.Proofs.KeyMapping.Bijection
import KeyedCoding.Proofs.Record.Surroundings
import KeyedCoding.Proofs.Store.AccessorCode

/-!
The code of generated decoders and encoders: it is read back as the reads and the writes that it has
been generated from, and it does what they do.
-/

namespace KeyedCoding

variable {inspection : Inspection} {mapping : KeyMapping} {field : FieldInfo} {keys : Name}

/-- A generated variant is one of the key type. -/
theorem Token.isVariant_self (keys field : Name) :
    isVariant keys field ([keys.token] ++ symbol "::" ++ [field.token]) = true := by
  -- The pattern compares the spellings of the two names and the colons between them.
  change (keys.spelling == keys.spelling && [':', ':'] == [':', ':'] &&
    field.spelling == field.spelling) = true
  simp only [beq_self_eq_true, Bool.and_self]

/-- In the table of a mapping the keys of all variants are its keys. -/
theorem KeyTable.keys_ofMapping (wellFormed : mapping.WellFormed) :
    (ofMapping mapping).keys = mapping.keys := by
  have variants : (ofMapping mapping).variants = mapping.entries.map (·.field) := rfl
  -- Each variant has the key of its entry.
  have alike : ∀ entry ∈ mapping.entries,
      (ofMapping mapping).keyOf? entry.field = some entry.key := by
    intro entry inside
    rw [keyOf?_ofMapping, KeyMapping.keyOf?_of_mem wellFormed inside]
  rw [keys, variants, List.filterMap_map, KeyMapping.keys, ← List.filterMap_eq_map]
  exact List.filterMap_congr alike

namespace DecoderCode

/-- A generated call is read back if its method reads the source from a field of that type. -/
theorem callOf?_readTokens {method : String} {source : FieldSource} {ty : Ty}
    (reads : sourceOf? method field.ty = some source) (decodes : source.decodedType? = some ty)
    (rest : List Token) :
    callOf? keys field (FieldSource.readTokens method ty keys field.name ++ rest) =
      some (source, rest) := by
  let behind := Token.symbol ">" ++
    [Token.parens ([keys.token] ++ Token.symbol "::" ++ [field.name.token])] ++ Token.symbol "?" ++ rest
  -- The type ends where its own tokens end, and the variant stands right behind it.
  have ends : Token.after? ty.tokens (ty.tokens ++ behind) = some behind := Token.after?_append ..
  have variant : afterCall? keys field.name behind = some rest :=
    if_pos (Token.isVariant_self keys field.name)
  have order : FieldSource.readTokens method ty keys field.name ++ rest =
      [Token.word "container"] ++ Token.symbol "." ++ [Token.word method] ++ Token.symbol "::" ++
        Token.symbol "<" ++ (ty.tokens ++ behind) := by
    simp only [FieldSource.readTokens, behind, List.append_assoc]
  rw [order]
  change (sourceOf? method field.ty).bind (fun source => source.decodedType?.bind fun ty' =>
    (Token.after? ty'.tokens (ty.tokens ++ behind)).bind fun rest =>
      (afterCall? keys field.name rest).bind fun rest => some (source, rest)) = _
  rw [reads, Option.bind_some, decodes, Option.bind_some, ends, Option.bind_some, variant]
  rfl

/-- The expression of a source that fits a field is read back, and what follows it is left. -/
theorem valueOf?_tokens {source : FieldSource} (fits : source.Fits mapping field) (rest : List Token) :
    valueOf? keys field (source.tokens keys field.name ++ rest) = some (source, rest) := by
  -- The initializer of the field decides which expressions are expected.
  cases fits with
  | decode mapped bare required =>
    simp only [valueOf?, bare, FieldSource.tokens]
    have reads : sourceOf? "decode" field.ty = some (.decode field.ty) := rfl
    rw [callOf?_readTokens reads rfl]
    rfl
  | @decodeIfPresent inner mapped bare optional =>
    have reads : sourceOf? "decode_if_present" field.ty = some (.decodeIfPresent inner) := by
      rw [sourceOf?, Ty.optionInner?_eq_some_iff.mpr optional]
      rfl
    simp only [valueOf?, bare, FieldSource.tokens]
    rw [callOf?_readTokens reads rfl]
    rfl
  | default given =>
    simp only [valueOf?, given, FieldSource.tokens, Token.after?_append, Option.map_some]
  | defaultTrait unmapped bare =>
    -- A path with leading colons is no call of a method.
    have apart : callOf? keys field (FieldSource.defaultTrait.tokens keys field.name ++ rest) = none :=
      rfl
    simp only [valueOf?, bare, apart, Token.after?_append, Option.none_or, Option.map_some]

/-- A field is read up to the comma behind its expression. -/
theorem readsOf?_cons {source : FieldSource} {tokens rest : List Token} {more : List FieldInfo}
    (value : valueOf? keys field tokens = some (source, Token.symbol "," ++ rest)) :
    readsOf? keys (field :: more) ([field.name.token] ++ Token.symbol ":" ++ tokens) =
      (readsOf? keys more rest).map (⟨field.name, source⟩ :: ·) := by
  -- The name is that of the field, and a colon stands behind it.
  have named : (field.name.spelling == field.name.spelling && ':' == ':') = true := by
    simp only [beq_self_eq_true, Bool.and_self]
  change readsOf? keys (field :: more) (.name field.name.spelling field.name.pos ::
    .punct ':' false .origin :: tokens) = _
  rw [readsOf?, if_pos named, value]
  rfl

/-- The fields of the initialized value are read back, each with its source. -/
theorem readsOf?_tokens {fields : List FieldInfo} {reads : List FieldRead}
    (fitting : List.Forall₂ (fun field read => read.field = field.name ∧
      read.source.Fits mapping field) fields reads) :
    readsOf? keys fields (reads.flatMap (FieldRead.tokens keys)) = some reads := by
  induction fitting with
  | nil => rfl
  | @cons field read fields reads first _ ih =>
    -- The first read fits its field, and the hypothesis reads the others back.
    obtain ⟨name, source⟩ := read
    obtain ⟨rfl, fits⟩ := first
    let rest := reads.flatMap (FieldRead.tokens keys)
    -- A name and a colon stand before the expression, and a comma behind it.
    have order : (⟨field.name, source⟩ :: reads).flatMap (FieldRead.tokens keys) =
        [field.name.token] ++ Token.symbol ":" ++
          (source.tokens keys field.name ++ (Token.symbol "," ++ rest)) := by
      simp only [List.flatMap_cons, FieldRead.tokens, List.append_assoc, rest]
    rw [order, readsOf?_cons (valueOf?_tokens fits _), ih]
    rfl

/-- The body of a generated initializer is read back as what it has been generated from. -/
theorem ofBody?_bodyTokens {init : DecodeInitializer}
    (generated : DecodeInitializer.ofMapping inspection mapping = .ok (some init)) :
    ofBody? inspection.fields init.bodyTokens = some init.code := by
  -- In front of the literal stand an opening and a middle, with the name of the keys between them.
  have order : init.bodyTokens = opening ++ (init.target.keysName.token ::
      (middle ++ [Token.parens init.literalTokens])) := by
    simp only [DecodeInitializer.bodyTokens, opening, middle, List.append_assoc, List.cons_append,
      List.nil_append]
  -- The literal holds the reads, each of which fits its field.
  have reads : (readsOf? init.target.keysName (inspection.fields.filter (!·.isAccessor))
      (init.reads.flatMap (FieldRead.tokens init.target.keysName))).map
        (DecoderCode.mk init.target.keysName) = some init.code := by
    rw [readsOf?_tokens (DecodeInitializer.reads_fit generated)]
    rfl
  simp only [ofBody?, order, Token.after?_append, Name.token]
  exact reads

/-- So is the impl that a record is decoded by. -/
theorem ofImpl?_declaration {init : DecodeInitializer} {runtime : Path} {item : Item}
    (generated : DecodeInitializer.ofMapping inspection mapping = .ok (some init))
    (declared : init.declaration runtime = .ok item) :
    ∃ decl, item = .impl decl ∧ ofImpl? inspection.fields decl = some init.code := by
  obtain ⟨-, rfl⟩ := DecodeInitializer.declaration_eq_ok_iff.mp declared
  -- The only member is the initializer, and its body stands last.
  have body : (init.member runtime).body? = some init.bodyTokens := by
    rw [Member.body?, DecodeInitializer.member, List.getLast?_concat]
    rfl
  refine ⟨_, rfl, ?_⟩
  change (init.member runtime).body?.bind (ofBody? inspection.fields) = _
  rw [body, Option.bind_some, ofBody?_bodyTokens generated]

/-- What the code of an initializer does under the keys of a mapping is what the initializer does. -/
theorem run_ofMapping (wellFormed : mapping.WellFormed) (init : DecodeInitializer) (meaning : Meaning)
    (value : Json) :
    init.code.run (KeyTable.ofMapping mapping) meaning value = init.run meaning mapping value := by
  -- Both run the same reads, and the table knows the keys of the mapping.
  simp only [run, DecodeInitializer.run, KeyTable.keys_ofMapping wellFormed, KeyTable.keyOf?_ofMapping]
  rfl

end DecoderCode

namespace EncoderCode

/-- The arguments of a generated write are read back as the write. -/
theorem writeOf?_arguments (keys : Name) (write : FieldWrite) :
    writeOf? keys (if write.ifPresent then "encode_if_present" else "encode")
      ([keys.token] ++ Token.symbol "::" ++ [write.field.token] ++ Token.symbol "," ++
        write.valueTokens) = some write.code := by
  obtain ⟨field, ty, ifPresent⟩ := write
  have variant : (keys.spelling == keys.spelling && [':', ':', ','] == [':', ':', ',']) = true := by
    simp only [beq_self_eq_true, Bool.and_self]
  -- The method and the form of the value go together.
  cases ifPresent with
  | false =>
    refine (if_pos variant).trans (if_pos ?_)
    show ("encode" == "encode" && ['&', '.'] == ['&', '.'] &&
      ["self", field.spelling] == ["self", field.spelling]) = true
    simp only [beq_self_eq_true, Bool.and_self]
  | true =>
    refine (if_pos variant).trans (if_pos ?_)
    show ("encode_if_present" == "encode_if_present" && ['.', '.'] == ['.', '.'] &&
      ["self", field.spelling, "as_ref"] == ["self", field.spelling, "as_ref"]) = true
    simp only [beq_self_eq_true, Bool.and_self]

/-- The statements of the encoding member are read back as the writes. -/
theorem writesOf?_tokens (keys : Name) (writes : List FieldWrite) :
    writesOf? keys (writes.flatMap (FieldWrite.tokens keys) ++
      ((Path.absolute ["core", "result", "Result", "Ok"]).tokens ++
        [Token.parens [Token.parens []]])) = some (writes.map FieldWrite.code) := by
  induction writes with
  | nil => rfl
  | cons write rest ih =>
    let behind := rest.flatMap (FieldWrite.tokens keys) ++
      ((Path.absolute ["core", "result", "Result", "Ok"]).tokens ++ [Token.parens [Token.parens []]])
    rw [List.flatMap_cons, List.append_assoc]
    -- A statement is a call of a method of the container, and its arguments are read on their own.
    change ((writeOf? keys (if write.ifPresent then "encode_if_present" else "encode")
      ([keys.token] ++ Token.symbol "::" ++ [write.field.token] ++ Token.symbol "," ++
        write.valueTokens)).bind fun write => (writesOf? keys behind).map (write :: ·)) = _
    rw [writeOf?_arguments, Option.bind_some, ih]
    rfl

/-- The body of a generated encoding member is read back as what it has been generated from. -/
theorem ofBody?_bodyTokens (encode : EncodeImpl) : ofBody? encode.bodyTokens = some encode.code := by
  -- Behind the key type stand the statements, up to the result.
  let rest := encode.writes.flatMap (FieldWrite.tokens encode.target.keysName) ++
    ((Path.absolute ["core", "result", "Result", "Ok"]).tokens ++ [Token.parens [Token.parens []]])
  have order : encode.bodyTokens = opening ++ (encode.target.keysName.token ::
      (Token.symbol ">" ++ [Token.parens []] ++ Token.symbol ";" ++ rest)) := by
    simp only [EncodeImpl.bodyTokens, opening, rest, List.append_assoc, List.cons_append,
      List.nil_append]
  rw [order, ofBody?, Token.after?_append]
  change (Token.after? _ (_ ++ rest)).bind (fun rest =>
    (writesOf? encode.target.keysName rest).map (EncoderCode.mk encode.target.keysName ·)) = _
  rw [Token.after?_append, Option.bind_some, writesOf?_tokens]
  rfl

/-- So is the impl that a record is encoded by. -/
theorem ofImpl?_declaration {encode : EncodeImpl} {runtime : Path} {item : Item}
    (declared : encode.declaration runtime = .ok item) :
    ∃ decl, item = .impl decl ∧ ofImpl? decl = some encode.code := by
  obtain ⟨-, rfl⟩ := EncodeImpl.declaration_eq_ok_iff.mp declared
  -- The only member is the encoding one, and its body stands last.
  have body : (encode.member runtime).body? = some encode.bodyTokens := by
    rw [Member.body?, EncodeImpl.member, List.getLast?_concat]
    rfl
  refine ⟨_, rfl, ?_⟩
  change (encode.member runtime).body?.bind ofBody? = _
  rw [body, Option.bind_some, ofBody?_bodyTokens]

/-- What the code of an encoding impl does under the keys of a mapping is what the impl does. -/
theorem run_ofMapping (encode : EncodeImpl) (mapping : KeyMapping) (values : FieldValues) :
    encode.code.run (KeyTable.ofMapping mapping) values = encode.run mapping values := by
  -- Each write finds its key in the table, and the key is the one of the mapping.
  have requests (write : FieldWrite) :
      write.code.request (KeyTable.ofMapping mapping) values = write.request mapping values := by
    simp only [WriteCode.request, FieldWrite.request, KeyTable.keyOf?_ofMapping]
    rfl
  rw [run, EncodeImpl.run, EncodeImpl.code, List.map_map]
  exact congrArg (fun writes => (Encoder.writeAll {} writes).map Encoder.toJson)
    (List.map_congr_left fun write _ => requests write)

end EncoderCode

/-- The impl of a key type is for the type whose variants the coding impls of the record name. -/
theorem KeyMapping.name?_codingKeyImpl {record : Record} {runtime : Path} {keyImpl : Impl}
    (keyed : mapping.codingKeyImpl record runtime = .impl keyImpl) :
    keyImpl.target.name? = some record.target.keysName.spelling := by
  -- The type is a path of that one name.
  cases keyed
  exact Target.name?_self

/--
A generated initializer decodes as its declaration and the one of the key type say: both are read back
as code, the container is opened for that key type, and the code gives the same values and the same
errors.
-/
theorem DecodeInitializer.run_eq_of_declared {init : DecodeInitializer} {runtime : Path} {item : Item}
    {keyImpl : Impl} (accepted : mapping.Accepted)
    (generated : ofMapping inspection mapping = .ok (some init))
    (declared : init.declaration runtime = .ok item)
    (keyed : mapping.codingKeyImpl inspection.record runtime = .impl keyImpl) :
    ∃ decl code table, item = .impl decl ∧ DecoderCode.ofImpl? inspection.fields decl = some code ∧
      KeyTable.ofImpl? keyImpl = some table ∧ keyImpl.target.name? = some code.keys.spelling ∧
        ∀ meaning value, code.run table meaning value = init.run meaning mapping value := by
  -- The impl and the key type are read back each on its own, and both belong to the record.
  obtain ⟨decl, rfl, code⟩ := DecoderCode.ofImpl?_declaration generated declared
  obtain ⟨-, -, -, rfl⟩ := ofMapping_eq_some_iff.mp generated
  exact ⟨decl, _, _, rfl, code, KeyTable.ofImpl?_of_declared keyed,
    KeyMapping.name?_codingKeyImpl keyed, DecoderCode.run_ofMapping accepted.wellFormed _⟩

/-- So it is with a generated encoder. -/
theorem EncodeImpl.run_eq_of_declared {encode : EncodeImpl} {runtime : Path} {item : Item}
    {keyImpl : Impl} (generated : ofMapping? inspection mapping = some encode)
    (declared : encode.declaration runtime = .ok item)
    (keyed : mapping.codingKeyImpl inspection.record runtime = .impl keyImpl) :
    ∃ decl code table, item = .impl decl ∧ EncoderCode.ofImpl? decl = some code ∧
      KeyTable.ofImpl? keyImpl = some table ∧ keyImpl.target.name? = some code.keys.spelling ∧
        ∀ values, code.run table values = encode.run mapping values := by
  -- As for the decoder, the impl and the key type are read back each on its own.
  obtain ⟨decl, rfl, code⟩ := EncoderCode.ofImpl?_declaration declared
  obtain ⟨-, -, rfl⟩ := ofMapping?_eq_some_iff.mp generated
  exact ⟨decl, _, _, rfl, code, KeyTable.ofImpl?_of_declared keyed,
    KeyMapping.name?_codingKeyImpl keyed, EncoderCode.run_ofMapping _ mapping⟩

end KeyedCoding
