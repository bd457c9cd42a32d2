import KeyedCoding.Proofs.KeyMapping.Arguments

/-!
Mappings through their attribute: when a mapping that is attached to a record is read back as the
same mapping.
-/

namespace KeyedCoding

variable {item : Item} {record : Record} {inspection : Inspection} {transformer : String}

/-- The blank name opens no argument. -/
theorem Name.opensArgument_blank {name : Name} (blank : name.spelling = "_") :
    name.opensArgument = false := by
  -- The word is reserved, and no reserved word but one opens an argument.
  obtain ⟨spelling, pos⟩ := name
  simp only at blank
  subst blank
  rfl

/-- A name that a field can have opens an argument exactly if it is not the blank name. -/
theorem Name.opensArgument_iff {name : Name} (named : name.namesField = true) :
    name.opensArgument = true ↔ name.spelling ≠ "_" := by
  constructor
  · intro opens blank
    rw [opensArgument_blank blank] at opens
    cases opens
  · intro plain
    have blank : (name.spelling == "_") = false := beq_false_of_ne plain
    rw [namesField, blank, Bool.false_or, Bool.not_eq_true'] at named
    -- A name that is not reserved opens an argument.
    rw [opensArgument, Grammar.opensPlainSegment, Name.token, Look.name, named, Bool.not_false,
      Bool.true_or, Bool.or_true]

/--
A name that a field can have can be listed among arguments exactly if it is not the blank name.
-/
theorem Name.listsField_iff {name : Name} (named : name.namesField = true) :
    name.listsField = true ↔ name.spelling ≠ "_" := by
  -- The word for the runtime is reserved, so no field has it.
  have other : name.spelling ≠ "crate" := by
    intro same
    rw [namesField, same] at named
    exact absurd named (by decide)
  rw [listsField, Bool.and_eq_true, bne_iff_ne, opensArgument_iff named]
  exact and_iff_left other

/-- The fields of a record have names that a field can have, if those of its declaration do. -/
theorem Item.names_of_asRecord (named : item.FieldsNamed) (found : item.asRecord = .ok record) :
    ∀ field ∈ record.fields, field.name.namesField = true := by
  -- The fields of the struct are those of the record.
  have direct (decl : Struct) (here : decl = record.decl) (known : decl.FieldsNamed) :
      ∀ field ∈ record.fields, field.name.namesField = true := by
    subst here
    exact known record.fields record.trailing rfl
  obtain ⟨-, ⟨rfl, -⟩ | ⟨attributes, head, name, items, index, rfl, -, only⟩⟩ :=
    asRecord_eq_ok_iff.mp found
  · exact direct record.decl rfl named
  · -- The only struct of the module is one of its declarations.
    obtain ⟨offset, -, stands⟩ := Module.getElem?_of_mem_structsFrom
      (show (index, record.decl) ∈ Module.structsFrom 0 items by simp [only])
    exact direct record.decl rfl (named record.decl (List.mem_of_getElem? stands))

/--
The fields of an inspected declaration have names that a field can have, if those of the declaration
do.
-/
theorem Inspection.names_of_ofItem (named : item.FieldsNamed)
    (inspected : Inspection.ofItem transformer item = .ok inspection) :
    ∀ info ∈ inspection.fields, info.name.namesField = true := by
  intro info inside
  -- What is known of a field keeps the declared name.
  have among : info.name ∈ inspection.record.fields.map (·.name) := by
    rw [← Inspection.fields_names inspected]
    exact List.mem_map_of_mem inside
  obtain ⟨field, member, same⟩ := List.mem_map.mp among
  rw [← same]
  exact Item.names_of_asRecord named (Inspection.ofItem_eq_ok_iff.mp inspected).1 field member

namespace KeyMapping

variable {mapping : KeyMapping} {policy : InclusionPolicy} {runtime : Path} {namesRuntime : Bool}

/-- The mapping of a record is well-formed: it repeats no field, and its keys differ. -/
theorem wellFormed_of_ofRecord (inspected : Inspection.ofItem transformer item = .ok inspection)
    (mapped : ofRecord policy inspection = .ok mapping) : mapping.WellFormed := by
  obtain ⟨-, entries⟩ := ofFields_eq_ok_iff.mp (ofRecord_eq_ok_iff.mp mapped).2
  constructor
  · -- The fields are some of those of the record, in their order.
    have fields : mapping.entries.map (·.field.spelling) =
        (inspection.fields.filter policy.includes).map (·.name.spelling) := by
      rw [entries, List.map_map]
      rfl
    rw [fields]
    exact (Inspection.fields_nodup inspected).sublist (List.filter_sublist.map _)
  · exact keys_nodup_of_ofRecord mapped

/-- The mapping of a record has fields with names that a field can have. -/
theorem names_of_ofRecord (named : item.FieldsNamed)
    (inspected : Inspection.ofItem transformer item = .ok inspection)
    (mapped : ofRecord policy inspection = .ok mapping) :
    ∀ entry ∈ mapping.entries, entry.field.namesField = true := by
  -- Every entry is that of an inspected field.
  obtain ⟨-, entries⟩ := ofFields_eq_ok_iff.mp (ofRecord_eq_ok_iff.mp mapped).2
  rw [entries, List.forall_mem_map]
  exact fun info inside => Inspection.names_of_ofItem named inspected info
    (List.mem_of_mem_filter inside)

/--
A mapping is given back by the arguments of its attribute, with the path of the runtime if they name
it.
-/
def RoundTrips (mapping : KeyMapping) (runtime : Path) (namesRuntime : Bool) : Prop :=
  ∃ attr, mapping.toAttribute runtime namesRuntime = .ok attr ∧
    MappingArguments.ofTokens attr.arguments = .ok ⟨mapping,
      if namesRuntime then some runtime.unplaced else none⟩

/--
A well-formed mapping is given back exactly if its fields can be listed and the path can name an
attribute.
-/
theorem roundTrips_iff (wellFormed : mapping.WellFormed) (named : runtime.Named) :
    mapping.RoundTrips runtime namesRuntime ↔ mapping.Listable ∧ runtime.fitsAttribute = true := by
  constructor
  · -- What is read back is what arguments give, and that can be listed.
    rintro ⟨attr, attached, read⟩
    exact ⟨(MappingArguments.wellFormed_of_ofTokens read).2, (toAttribute_eq_ok_iff.mp attached).1⟩
  · -- Conversely, the attribute exists and its arguments are read back.
    rintro ⟨listed, fits⟩
    refine ⟨_, toAttribute_eq_ok_iff.mpr ⟨fits, rfl⟩, ?_⟩
    exact MappingArguments.ofTokens_argumentTokens wellFormed listed fun _ => named

/--
A plain path can name an attribute exactly if it has no segment with the one word that stands in
other paths only.
-/
theorem fitsAttribute_iff (plain : runtime.isPlain = true) :
    runtime.fitsAttribute = true ↔ ∀ segment ∈ runtime.segments, segment.name.spelling ≠ "try" := by
  -- The test is made for each segment, and compares its name with the word.
  rw [Path.fitsAttribute, plain, Bool.true_and, List.all_eq_true]
  exact forall₂_congr fun segment _ => bne_iff_ne

/-- A mapping that is synthesized for a declaration which some tokens are read as. -/
def Synthesized (mapping : KeyMapping) : Prop :=
  ∃ tokens close item transformer policy inspection, Grammar.read (·.item) tokens close = .ok item ∧
    Inspection.ofItem transformer item = .ok inspection ∧ ofRecord policy inspection = .ok mapping

/--
The attribute of a mapping gives the mapping back, with the path of the runtime if its arguments
name it.

For a synthesized mapping this is so exactly if no field is the blank name, and no segment of the
path is the one word that no attribute can be named with. What arguments give never has the blank
name.
-/
theorem attribute_round_trip (written : runtime.Written) (plain : runtime.isPlain = true)
    (namesRuntime : Bool) :
    (∀ mapping : KeyMapping, mapping.Synthesized → (mapping.RoundTrips runtime namesRuntime ↔
      (∀ entry ∈ mapping.entries, entry.field.spelling ≠ "_") ∧
        ∀ segment ∈ runtime.segments, segment.name.spelling ≠ "try")) ∧
    ∀ tokens args, MappingArguments.ofTokens tokens = .ok args →
      (args.mapping.RoundTrips runtime namesRuntime ↔ ∀ segment ∈ runtime.segments,
        segment.name.spelling ≠ "try") := by
  have named := written.named plain
  constructor
  · rintro mapping ⟨tokens, close, item, transformer, policy, inspection, read, inspected, mapped⟩
    have names := names_of_ofRecord (Grammar.fieldsNamed_of_read read) inspected mapped
    -- The fields of a declaration are names, so only the blank one cannot be listed.
    have listable : mapping.Listable ↔ ∀ entry ∈ mapping.entries, entry.field.spelling ≠ "_" :=
      forall₂_congr fun entry inside => Name.listsField_iff (names entry inside)
    rw [roundTrips_iff (wellFormed_of_ofRecord inspected mapped) named, listable,
      fitsAttribute_iff plain]
  · -- What arguments give can be listed, so only the path decides.
    intro tokens args read
    obtain ⟨wellFormed, listed⟩ := MappingArguments.wellFormed_of_ofTokens read
    rw [roundTrips_iff wellFormed named, fitsAttribute_iff plain]
    exact ⟨And.right, And.intro listed⟩

/-- A mapping with a bare key and a raw name with a key of its own. -/
def labelled : KeyMapping := ⟨[⟨⟨"id", .origin⟩, "id"⟩, ⟨⟨"r#type", .origin⟩, "kind"⟩]⟩

/-- The mapping is given by arguments. -/
theorem ofTokens_labelled :
    MappingArguments.ofTokens (labelled.argumentTokens Context.standardRuntime false) =
      .ok ⟨labelled, none⟩ :=
  MappingArguments.ofTokens_argumentTokens ⟨by decide, by decide⟩ (by decide) fun _ =>
    Path.Written.standard.named rfl

/--
The attribute of a mapping with a raw name gives the mapping back, with the path of the runtime.
-/
theorem attribute_round_trip_labelled :
    Context.standardRuntime.Written ∧ Context.standardRuntime.isPlain = true ∧
      labelled.RoundTrips Context.standardRuntime true :=
  ⟨.standard, rfl, ((attribute_round_trip .standard rfl true).2 _ _ ofTokens_labelled).mpr
    (by decide)⟩

/-- The tokens of a struct whose only field has the blank name. -/
def blankTokens : List Token :=
  [Token.word "struct", Token.word "A", Token.braces [Token.word "_", .punct ':' false .origin,
    Token.word "u8"]]

/-- The mapping of that struct. -/
def blank : KeyMapping := ⟨[⟨⟨"_", .origin⟩, "_"⟩]⟩

/-- The path of the one word that no attribute can be named with. -/
def tryPath : Path := .ofName ⟨"try", .origin⟩

/--
Neither the synthesized mapping of a blank field is given back, nor any mapping behind a path of
that word.
-/
theorem attribute_round_trip_fails :
    (blank.Synthesized ∧ ¬blank.RoundTrips Context.standardRuntime false) ∧
      (∃ tokens, MappingArguments.ofTokens tokens = .ok ⟨labelled, none⟩) ∧ tryPath.Written ∧
        tryPath.isPlain = true ∧ ¬labelled.RoundTrips tryPath false := by
  have named : tryPath.Named :=
    @Path.Named.intro none ⟨"try", .origin⟩ []
      (List.forall_mem_singleton.mpr (.inl ⟨'t', "ry".toList, rfl, by decide, by decide⟩))
        (by decide)
  -- Both refusals follow from the exact condition.
  refine ⟨⟨?_, ?_⟩, ⟨_, ofTokens_labelled⟩, .literal named.ofLiteral, rfl, ?_⟩
  · exact ⟨blankTokens, .origin, _, "", .standard, _, rfl, rfl, rfl⟩
  · rw [roundTrips_iff ⟨by decide, by decide⟩ (Path.Written.standard.named rfl)]
    exact fun both => absurd both.1 (by decide)
  · rw [roundTrips_iff ⟨by decide, by decide⟩ named]
    exact fun both => absurd both.2 (by decide)

end KeyMapping

end KeyedCoding
