import KeyedCoding.Proofs.Grammar.Splice
import KeyedCoding.Proofs.Transform.Codable
import KeyedCoding.Proofs.Transform.KeyType
import KeyedCoding.Proofs.Transform.SecureStorage

/-!
The two steps of coding: the key type that the second step makes is the one that the first step
refers to.
-/

namespace KeyedCoding.Codable

/--
What stands in the place of a declaration when its keys are expanded: itself, or what secure storage
makes of it.
-/
def Follows (bare : Item) (context : Context) (next : Item) : Prop :=
  next = bare ∨ ∃ tokens expansion rest, SecureStorage.expand tokens bare context = .ok expansion ∧
    expansion.items = next :: rest

namespace Run

variable {codable : Codable} {tokens : List Token} {item next : Item} {context : Context}
  (run : Run codable tokens item context)

/--
A record that the second step finds: all that the first step has promised about fields and
surroundings holds.
-/
structure Prepared (left : Record) : Prop where
  head : left.head = run.record.head
  keyMapping : left.existing.keyMapping = none ↔
    run.record.container = .bare ∨ ∀ trait ∈ run.missing, trait.lastName? ≠ some "KeyMapped"
  fields : ∃ keep names, (∀ field : Field, field.isSecure = false → keep field = true) ∧
    left.fields = ((run.record.fields.map (Field.strip [Attribute.codableName])).filter keep).map
      (Field.strip names)

/--
The declaration without its mapping, and what secure storage makes of it, are prepared for the
second step.
-/
theorem prepared_of_follows (follows : Follows run.bare context next) :
    ∃ left, next.asRecord = .ok left ∧ run.Prepared left := by
  have found := run.asRecord_stripped run.record.head.attributes
  have unmapped := @Record.keyMapping_existingAmong _ _ run.generated run.found
  rw [run.mapsKeys_generated, and_iff_right run.unmapped] at unmapped
  -- Neither way strips anything from the fields that are kept.
  have same (fields : List Field) : fields.map (Field.strip []) = fields :=
    (List.map_congr_left fun field _ => Field.strip_nil).trans (List.map_id' _)
  rcases follows with rfl | ⟨tokens, expansion, rest, expanded, items⟩
  · -- Nothing has happened in between, so all fields are kept.
    exact ⟨_, found, rfl, unmapped, fun _ => true, [], fun _ _ => rfl, by
      rw [List.filter_true, same]⟩
  · -- Secure storage keeps the fields that are not secure, and brings no key mapping.
    obtain ⟨first, others, left, again, is, head, mapped, fields⟩ :=
      SecureStorage.asRecord_of_expand found expanded
    obtain ⟨rfl, -⟩ := List.cons.inj (items.symm.trans again)
    exact ⟨left, is, head, mapped.trans unmapped, _, [], fun field plain => by simp [plain],
      fields.trans (same _).symm⟩

variable {left : Record}

/-- The fields of a prepared record have no coding options, so they can be described. -/
theorem Prepared.described (prepared : run.Prepared left) :
    ∃ infos, FieldInfo.ofFields left.fields = .ok infos := by
  obtain ⟨keep, names, -, fields⟩ := prepared.fields
  refine ⟨_, FieldInfo.ofFields_plain (fun field inside attr among => ?_) ?_⟩
  · -- Whatever else is stripped, the coding options are gone before.
    rw [fields] at inside
    obtain ⟨kept, member, rfl⟩ := List.mem_map.mp inside
    obtain ⟨declared, -, rfl⟩ := List.mem_map.mp (List.mem_of_mem_filter member)
    exact Field.isName_of_mem_strip (Field.attributes_strip_subset among)
  · -- The names are some of those of the record, in their order.
    have part : (((run.record.fields.map (Field.strip [Attribute.codableName])).filter keep).map
        (·.name.spelling)).Sublist
          ((run.record.fields.map (Field.strip [Attribute.codableName])).map (·.name.spelling)) :=
      List.filter_sublist.map _
    rw [fields, Field.spellings_strip]
    rw [Field.spellings_strip] at part
    exact (Inspection.declared_nodup run.inspected).sublist part

/-- A prepared record has the field of every stored entry. -/
theorem Prepared.declares (prepared : run.Prepared left) :
    ∀ entry ∈ run.stored.entries, ∃ field ∈ left.fields, field.name = entry.field := by
  intro entry inside
  obtain ⟨keep, names, keeps, fields⟩ := prepared.fields
  obtain ⟨field, declared, plain, named⟩ := run.exists_field_of_stored inside
  -- The field of the entry is not secure, so it has stayed.
  let bare := Field.strip [Attribute.codableName] field
  have stays : keep bare = true := keeps bare (Field.isSecure_strip.trans plain)
  refine ⟨Field.strip names bare, ?_, named⟩
  rw [fields]
  exact List.mem_map_of_mem (List.mem_filter.mpr ⟨List.mem_map_of_mem declared, stays⟩)

/--
What the second step is told: the stored mapping, and the path of the runtime where the first step
was told one.
-/
def keyArguments : MappingArguments :=
  ⟨run.stored, if run.args.runtime.isSome then some run.runtime.unplaced else none⟩

/-- The second step refers to the runtime by the same path, up to the places of its names. -/
theorem runtime_keyArguments :
    (run.keyArguments.runtime.getD context.runtime).unplaced = run.runtime.unplaced := by
  -- A path that is not passed on is that of the context, in both steps.
  rw [keyArguments, runtime]
  cases run.args.runtime with
  | none => rfl
  | some path => simp [Path.unplaced, Name.unplaced, Function.comp_def]

/-- What is attached is read back, unless the blank name is among the stored fields. -/
theorem ofTokens_attached (named : item.FieldsNamed)
    (plain : ∀ entry ∈ run.stored.entries, entry.field.spelling ≠ "_") {attr : Attribute}
    (attached : run.stored.toAttribute run.runtime run.args.runtime.isSome = .ok attr) :
    MappingArguments.ofTokens attr.arguments = .ok run.keyArguments := by
  obtain ⟨fits, rfl⟩ := KeyMapping.toAttribute_eq_ok_iff.mp attached
  -- The fields of the declaration are names, and only the blank one cannot be listed.
  have listed : run.stored.Listable := by
    intro entry inside
    have among : entry ∈ run.mapping.entries := List.mem_of_mem_filter inside
    exact (Name.listsField_iff
      (KeyMapping.names_of_ofRecord named run.inspected run.mapped entry among)).mpr
      (plain entry inside)
  -- A path that fits an attribute is plain, and the arguments of the first step have brought it as
  -- a text.
  have plainPath : run.runtime.isPlain = true := by
    rw [Path.fitsAttribute, Bool.and_eq_true] at fits
    exact fits.1
  exact MappingArguments.ofTokens_argumentTokens run.stored_wellFormed listed fun given =>
    (run.runtime_written given).named plainPath

/-- The second step gives the key type, unless the prepared record has a mapping. -/
theorem expand_of_prepared (named : item.FieldsNamed)
    (plain : ∀ entry ∈ run.stored.entries, entry.field.spelling ≠ "_")
    (holds : run.stored.entries ≠ []) {attr : Attribute}
    (attached : run.stored.toAttribute run.runtime run.args.runtime.isSome = .ok attr)
    (found : next.asRecord = .ok left) (prepared : run.Prepared left) :
    KeyType.expand attr.arguments next context = match left.existing.keyMapping with
      | some pos => .error (.conflictingMapping run.record.name.spelling pos)
      | none => .ok ⟨left.reassemble left.decl
        (KeyType.generated run.keyArguments run.record context), []⟩ := by
  have read := run.ofTokens_attached named plain attached
  -- All conditions of the second step hold on the prepared record.
  have known : ∀ entry ∈ run.keyArguments.mapping.entries,
      ∃ field ∈ left.fields, field.name = entry.field :=
    Prepared.declares run prepared
  -- The path that names the attribute opens types, too.
  have opens : (run.keyArguments.runtime.getD context.runtime).fitsType = true := by
    rw [← Path.fitsType_unplaced, run.runtime_keyArguments, Path.fitsType_unplaced]
    exact Path.fitsType_of_fitsAttribute (KeyMapping.toAttribute_eq_ok_iff.mp attached).1
  have step := @KeyType.expand_eq _ _ context _ _ read found
    (Prepared.described run prepared) known holds opens
  have name : left.name = run.record.name := congrArg TypeHead.name prepared.head
  rw [KeyType.generated_congr prepared.head, name] at step
  exact step

/-- With the blank name among the stored fields, the second step fails. -/
theorem expand_ne_ok (blank : ¬∀ entry ∈ run.stored.entries, entry.field.spelling ≠ "_")
    {attr : Attribute} (expansion : Expansion)
    (attached : run.stored.toAttribute run.runtime run.args.runtime.isSome = .ok attr) :
    KeyType.expand attr.arguments next context ≠ .ok expansion := by
  intro expanded
  obtain ⟨-, rfl⟩ := KeyMapping.toAttribute_eq_ok_iff.mp attached
  -- The arguments are the first thing that the second step reads.
  obtain ⟨args, read, -⟩ := bind_eq_ok_iff.mp expanded
  simp only [not_forall, not_not] at blank
  obtain ⟨entry, inside, spelled⟩ := blank
  exact MappingArguments.ofTokens_ne_ok ⟨entry, inside, Name.opensArgument_blank spelled⟩ read

/-- How the second step agrees with the first one. -/
structure Coherent : Prop where
  /-- A mapping is attached exactly if a mapped field is stored. -/
  attached : (run.first.detach? KeyMapping.attributeName).isSome = true ↔
    ∃ field ∈ run.inspection.fields,
      (codable.policy run.args context.config).includes field = true ∧ field.isAccessor = false
  /-- A mapping is attached wherever a decoder or an encoder is generated. -/
  coded : run.impls.decode.isSome = true ∨ run.impls.encode.isSome = true →
    (run.first.detach? KeyMapping.attributeName).isSome = true
  /-- The attached mapping has the mapped stored fields, in their order and under their keys. -/
  stored : run.stored.entries = (run.inspection.fields.filter fun field =>
    (codable.policy run.args context.config).includes field &&
      !field.isAccessor).map FieldInfo.entry
  /-- What the decoder names of the key type is a variant of it. -/
  decoded : ∀ init, run.impls.decode = some init → init.target = run.record.target ∧
    ∀ name ∈ init.decodedFields, ∃ entry ∈ run.stored.entries, entry.field = name
  /-- What the encoder names of the key type is a variant of it. -/
  written : ∀ encode, run.impls.encode = some encode → encode.target = run.record.target ∧
    ∀ write ∈ encode.writes, ∃ entry ∈ run.stored.entries, entry.field = write.field
  /--
  The second step succeeds unless it meets the blank name, or a key mapping among what has been
  generated.
  -/
  succeeds : ∀ attr bare, run.first.detach? KeyMapping.attributeName = some (attr, bare) →
    ∀ next, Follows bare context next →
      ((∃ expansion, KeyType.expand attr.arguments next context = .ok expansion) ↔
        (∀ entry ∈ run.stored.entries, entry.field.spelling ≠ "_") ∧
          (run.record.container = .bare ∨ ∀ trait ∈ run.missing,
            trait.lastName? ≠ some "KeyMapped"))
  /--
  The second step gives the key type of the attached mapping, below the same path of the runtime.
  -/
  gives : ∀ attr bare, run.first.detach? KeyMapping.attributeName = some (attr, bare) →
    ∀ next, Follows bare context next → ∀ expansion,
      KeyType.expand attr.arguments next context = .ok expansion →
        ∃ left runtime, next.asRecord = .ok left ∧ left.head = run.record.head ∧
          attr.path = run.runtime.extend [KeyMapping.attributeName] ∧
          runtime.unplaced = run.runtime.unplaced ∧
          expansion = ⟨left.reassemble left.decl [run.stored.keyEnum run.record,
            run.stored.codingKeyImpl run.record runtime,
            KeyMapping.keyMappedImpl run.record runtime], []⟩

/-- A mapping is attached exactly if there are stored entries. -/
theorem isSome_detach?_first :
    (run.first.detach? KeyMapping.attributeName).isSome = true ↔ run.stored.entries ≠ [] := by
  -- The first item has an attribute exactly in the second case.
  rcases run.detach?_first with ⟨empty, none⟩ | ⟨holds, attr, -, some⟩
  · simp [empty, none]
  · simp [holds, some]

/-- What is taken off is the attribute of the stored mapping. -/
theorem attached_of_detach? {attr : Attribute} {bare : Item}
    (detached : run.first.detach? KeyMapping.attributeName = some (attr, bare)) :
    run.stored.entries ≠ [] ∧ bare = run.bare ∧
      run.stored.toAttribute run.runtime run.args.runtime.isSome = .ok attr := by
  -- The run tells which attribute is taken off, if there is one.
  rcases run.detach?_first with ⟨-, none⟩ | ⟨holds, other, attached, some⟩
  · rw [none] at detached
    cases detached
  · rw [some] at detached
    cases detached
    exact ⟨holds, rfl, attached⟩

/-- The steps of a run on a declaration whose fields have names are coherent. -/
theorem coherent (named : item.FieldsNamed) : run.Coherent where
  attached := by
    -- A mapping is attached exactly if some entry is stored.
    rw [run.isSome_detach?_first, run.stored_entries, ne_eq, List.map_eq_nil_iff,
      List.filter_eq_nil_iff]
    simp
  coded coded := run.isSome_detach?_first.mpr (run.stored_ne_nil coded)
  stored := run.stored_entries
  decoded _ generated := run.decoded_mem_stored generated
  written _ generated := run.written_mem_stored generated
  succeeds attr bare detached next follows := by
    -- The attribute that is taken off is the attached one, and the record behind it is prepared.
    obtain ⟨holds, rfl, attached⟩ := run.attached_of_detach? detached
    obtain ⟨left, found, prepared⟩ := run.prepared_of_follows follows
    by_cases plain : ∀ entry ∈ run.stored.entries, entry.field.spelling ≠ "_"
    · -- Only a mapping that stands next to the struct can be in the way.
      rw [and_iff_right plain, ← prepared.keyMapping,
        run.expand_of_prepared named plain holds attached found prepared]
      cases left.existing.keyMapping <;> simp
    · have fails : ¬∃ expansion, KeyType.expand attr.arguments next context = .ok expansion :=
        not_exists.mpr fun expansion => run.expand_ne_ok plain expansion attached
      exact ⟨fun expands => absurd expands fails, fun both => absurd both.1 plain⟩
  gives attr bare detached next follows expansion expanded := by
    obtain ⟨holds, rfl, attached⟩ := run.attached_of_detach? detached
    obtain ⟨left, found, prepared⟩ := run.prepared_of_follows follows
    -- A blank name would have made the step fail.
    have plain : ∀ entry ∈ run.stored.entries, entry.field.spelling ≠ "_" := by
      by_contra blank
      exact run.expand_ne_ok blank expansion attached expanded
    have path : attr.path = run.runtime.extend [KeyMapping.attributeName] := by
      rw [(KeyMapping.toAttribute_eq_ok_iff.mp attached).2]
      rfl
    rw [run.expand_of_prepared named plain holds attached found prepared] at expanded
    refine ⟨left, _, found, prepared.head, path, run.runtime_keyArguments, ?_⟩
    -- The step has succeeded, so the prepared record has no mapping.
    cases mapped : left.existing.keyMapping with
    | some pos =>
      rw [mapped] at expanded
      cases expanded
    | none =>
      rw [mapped] at expanded
      cases expanded
      rfl

end Run

/--
The two steps of coding agree wherever the first step succeeds on a declaration that some tokens are
read as.

The second step is the key type transformer on the declaration without its mapping, or on what
secure storage makes of it. It succeeds unless a stored field has the blank name, or the first step
has put an impl with the name of the key mapping trait next to the struct; then it gives the key
type that the first step refers to.
-/
theorem expand_coherent {codable : Codable} {source tokens : List Token} {close : Position}
    {item : Item} {context : Context} {expansion : Expansion}
    (read : Grammar.read (·.item) source close = .ok item)
    (expanded : codable.expand tokens item context = .ok expansion) :
    ∃ run : Run codable tokens item context,
      expansion.items = run.first :: run.record.beside run.generated ∧ run.Coherent := by
  -- The run is coherent because the fields of whatever is read have names.
  obtain ⟨run, items⟩ := Run.exists_of_expand expanded
  exact ⟨run, items, run.coherent (Grammar.fieldsNamed_of_read read)⟩

/-- The tokens of a module that starts with a struct of one field. -/
def moduleTokens (field : String) (others : List Token) : List Token :=
  [Token.word "mod", Token.word "m", Token.braces ([Token.word "struct", Token.word "A",
    Token.braces [Token.word field, .punct ':' false .origin, Token.word "u8"]] ++ others)]

/-- The tokens of an empty impl for that struct. -/
def implTokens (trait : String) : List Token :=
  [Token.word "impl", Token.word trait, Token.word "for", Token.word "A", Token.braces []]

/-- The steps agree on a module. -/
theorem expand_coherent_module : ∃ item expansion,
    Grammar.read (·.item) (moduleTokens "id" []) = .ok item ∧
      standard.expand [] item ⟨{}, Context.standardRuntime⟩ = .ok expansion ∧
        ∃ run : Run standard [] item ⟨{}, Context.standardRuntime⟩,
          expansion.items = run.first :: run.record.beside run.generated ∧ run.Coherent :=
  ⟨_, _, rfl, rfl, expand_coherent (rfl : Grammar.read (·.item) (moduleTokens "id" []) = .ok _) rfl⟩

/-- The second step fails on what the first step makes of a declaration. -/
def Fails (source tokens : List Token) : Prop :=
  ∃ item expansion first rest attr bare fault, Grammar.read (·.item) source = .ok item ∧
    standard.expand tokens item ⟨{}, Context.standardRuntime⟩ = .ok expansion ∧
      expansion.items = first :: rest ∧ first.detach? KeyMapping.attributeName = some (attr, bare) ∧
        KeyType.expand attr.arguments bare ⟨{}, Context.standardRuntime⟩ = .error fault

set_option maxRecDepth 8000 in
/--
The second step fails where the first step makes the struct of a module key mapped, and on the blank
name.
-/
theorem expand_coherent_fails :
    Fails (moduleTokens "id" []) [Token.word "conform", Token.parens [Token.word "KeyMapped"]] ∧
      Fails (moduleTokens "_" (implTokens "Decodable" ++ implTokens "Encodable")) [] :=
  ⟨⟨_, _, _, _, _, _, _, rfl, rfl, rfl, rfl, rfl⟩, ⟨_, _, _, _, _, _, _, rfl, rfl, rfl, rfl, rfl⟩⟩

end KeyedCoding.Codable
