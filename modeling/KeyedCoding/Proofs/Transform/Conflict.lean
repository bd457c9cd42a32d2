import KeyedCoding.Proofs.Transform.Mapper
import KeyedCoding.Proofs.Transform.Pipeline

/-!
Conflicts of key mappings: a mapping is never overwritten, and one that a transformer attaches is
seen by every later one.
-/

namespace KeyedCoding

/-- In a module, a record with its key type refuses every transformer. -/
theorem KeyType.refuses_generated {args : MappingArguments} {item : Item} {record : Record}
    {context : Context} (found : item.asRecord = .ok record)
    (described : ∃ infos, FieldInfo.ofFields record.fields = .ok infos)
    (inside : record.container ≠ .bare) :
    (record.place record.decl (generated args record context)).Refuses record.name.spelling := by
  have again := Record.asRecord_place found
    (@generated_not_isStruct context args record) record.head record.fields record.trailing
  have refuses := Item.refuses_of_mapped again described
  refine refuses fun unmapped => ?_
  -- The key type stands next to the struct, and is a mapping for it.
  obtain ⟨-, bare | others⟩ := (Record.keyMapping_existingAmong found).mp unmapped
  · exact inside bare
  · have none := others _ (.head _)
    rw [mapsKeys_keyEnum] at none
    cases none

/--
A module becomes another one where the attribute of its struct is expanded on the struct, and the
declarations that this gives take the place of the struct.
-/
def Item.ExpandsInside (context : Context) (item next : Item) : Prop :=
  ∃ attributes head name before after decl attr bare expansion,
    item = .mod ⟨attributes, head, name, some (before ++ .struct decl :: after)⟩ ∧
      decl.detach? KeyMapping.attributeName = some (attr, bare) ∧
        KeyType.expand attr.arguments (.struct bare) context = .ok expansion ∧
          next = .mod ⟨attributes, head, name, some (before ++ expansion.items ++ after)⟩

namespace Codable.Run

variable {codable : Codable} {tokens : List Token} {item next : Item} {context later : Context}
  (run : Run codable tokens item context) {attr : Attribute} {bare : Item}

/-- The fields that are put back have no coding options, so they can be described. -/
theorem described_stripped :
    FieldInfo.ofFields (run.record.fields.map (Field.strip [Attribute.codableName])) =
      .ok ((run.record.fields.map (Field.strip [Attribute.codableName])).map
        FieldInfo.ofPlain) := by
  -- Nothing is left for coding to read, and the names still differ.
  refine FieldInfo.ofFields_plain ?_ ?_
  · rw [List.forall_mem_map]
    exact fun field _ attr => Field.isName_of_mem_strip
  · rw [Field.spellings_strip]
    exact Inspection.declared_nodup run.inspected

/-- What a successful run puts back refuses every transformer, if it carries the attribute. -/
theorem refuses_first (detached : run.first.detach? KeyMapping.attributeName = some (attr, bare)) :
    run.first.Refuses run.record.name.spelling := by
  have found := run.asRecord_stripped run.attributes
  have refuses := Item.refuses_of_mapped found ⟨_, run.described_stripped⟩
  refine refuses fun unmapped => ?_
  -- The attribute is the mapping that the record carries.
  have absent : Attribute.find? run.attributes KeyMapping.attributeName = none :=
    Option.map_eq_none_iff.mp (ExistingMembers.keyMapping_foldl_withItem.mp unmapped).1
  have none : (stripped run.record run.attributes).detach? KeyMapping.attributeName = none :=
    Option.map_eq_none_iff.mpr (Attribute.detach?_eq_none_iff.mpr absent)
  rw [first, Record.detach?_place run.found run.generated_not_isStruct, none] at detached
  cases detached

/-- Where the arguments of the attached attribute can be read, they are the stored mapping. -/
theorem eq_keyArguments (named : item.FieldsNamed)
    (attached : run.stored.toAttribute run.runtime run.args.runtime.isSome = .ok attr)
    {args : MappingArguments} (read : MappingArguments.ofTokens attr.arguments = .ok args) :
    args = run.keyArguments := by
  by_cases plain : ∀ entry ∈ run.stored.entries, entry.field.spelling ≠ "_"
  · exact Except.ok.inj (read.symm.trans (run.ofTokens_attached named plain attached))
  · -- The blank name cannot be read.
    obtain ⟨-, rfl⟩ := KeyMapping.toAttribute_eq_ok_iff.mp attached
    simp only [not_forall, not_not] at plain
    obtain ⟨entry, inside, spelled⟩ := plain
    exact absurd read
      (MappingArguments.ofTokens_ne_ok ⟨entry, inside, Name.opensArgument_blank spelled⟩)

/-- An expansion of the attached attribute gives the key type of a record without a mapping. -/
theorem exists_of_expand_attached (named : item.FieldsNamed)
    (detached : run.first.detach? KeyMapping.attributeName = some (attr, bare))
    {expansion : Expansion} (expanded : KeyType.expand attr.arguments next later = .ok expansion) :
    ∃ record, next.asRecord = .ok record ∧
      (∃ infos, FieldInfo.ofFields record.fields = .ok infos) ∧
        expansion.items =
          record.reassemble record.decl (KeyType.generated run.keyArguments record later) := by
  -- The attribute that is expanded is the one that the run has attached.
  obtain ⟨holds, -, attached⟩ := run.attached_of_detach? detached
  obtain ⟨args, record, read, found, -, described, gives⟩ := KeyType.exists_of_expand expanded
  obtain rfl := run.eq_keyArguments named attached read
  exact ⟨record, found, described, by rw [gives, KeyType.additions_eq holds]⟩

/-- In a module, what the attached attribute is expanded to refuses every transformer as well. -/
theorem refuses_keyed (named : item.FieldsNamed)
    (detached : run.first.detach? KeyMapping.attributeName = some (attr, bare))
    (inside : run.record.container ≠ .bare) {expansion : Expansion}
    (expanded : KeyType.expand attr.arguments bare later = .ok expansion) :
    ∃ keyed, expansion.items = [keyed] ∧ keyed.Refuses run.record.name.spelling := by
  obtain ⟨record, found, described, items⟩ :=
    run.exists_of_expand_attached named detached expanded
  obtain ⟨-, rfl, -⟩ := run.attached_of_detach? detached
  -- The record is the one without the attribute, which still stands in the module.
  have again := run.asRecord_stripped run.record.head.attributes
  have same := Except.ok.inj (found.symm.trans again)
  have still : record.container ≠ .bare := by
    rw [same]
    exact fun bare => inside (Container.holding_eq_bare_iff.mp bare)
  have name : record.name = run.record.name := by rw [same]; rfl
  rw [items, Record.reassemble_eq, Record.beside_eq_nil still]
  exact ⟨_, rfl, name ▸ KeyType.refuses_generated found described still⟩

/-- So does a module in which the attribute is expanded on its struct, in place. -/
theorem refuses_of_expandsInside (named : item.FieldsNamed)
    (expands : run.first.ExpandsInside later next) : next.Refuses run.record.name.spelling := by
  obtain ⟨attributes, modHead, name, before, after, decl, attr, bare, expansion, module, detached,
    expanded, rfl⟩ := expands
  -- The struct of the module is the one that was put back.
  have found := run.asRecord_stripped run.attributes
  change run.first.asRecord = _ at found
  rw [module] at found
  obtain ⟨-, ⟨struct, -⟩ | ⟨_, _, _, items, index, same, -, only⟩⟩ :=
    Item.asRecord_eq_ok_iff.mp found
  · cases struct
  cases same
  obtain ⟨front, back, stands⟩ := Module.structsFrom_append_cons_eq_singleton_iff.mp only
  obtain rfl : decl = stripped run.record run.attributes := (Prod.mk.inj stands).2.symm
  -- So the attribute is the one that the first step has attached.
  have taken : run.first.detach? KeyMapping.attributeName = some (attr,
      run.record.place bare run.generated) := by
    rw [first, Record.detach?_place run.found run.generated_not_isStruct, detached]
    rfl
  obtain ⟨record, bareFound, described, items⟩ :=
    run.exists_of_expand_attached named taken expanded
  obtain ⟨-, ⟨bareIs, alone⟩ | ⟨_, _, _, _, _, struct, -⟩⟩ := Item.asRecord_eq_ok_iff.mp bareFound
  · -- The struct comes back with its key type, which now stands next to it.
    have name : record.name = run.record.name := by
      obtain ⟨found, -, rest⟩ := Option.map_eq_some_iff.mp detached
      obtain ⟨-, rfl⟩ := Prod.mk.inj rest
      exact (congrArg (·.head.name) (Item.struct.inj bareIs)).symm
    have split : before ++ expansion.items ++ after = before ++ .struct record.decl ::
        (KeyType.generated run.keyArguments record later ++ after) := by
      rw [items, Record.reassemble_eq, Record.place, Record.beside, alone]
      simp
    rw [split, ← name]
    refine Item.refuses_of_mod front ?_ described
      ⟨_, ?_, KeyType.mapsKeys_keyEnum run.keyArguments.mapping record⟩
    · exact List.forall_mem_append.mpr ⟨KeyType.generated_not_isStruct, back⟩
    · simp [KeyType.generated]
  · cases struct

end Codable.Run

/--
What a transformer leaves of a declaration of a type refuses all transformers, and in a module it
does so still once the attached mapping is expanded, on the module or on its struct.
-/
structure Codable.Run.Lasting {codable : Codable} {tokens : List Token} {item : Item}
    {context : Context} (run : Run codable tokens item context) (attr : Attribute) (bare : Item) :
    Prop where
  first : run.first.Refuses run.record.name.spelling
  keyed : (∃ decl, item = .mod decl) → ∀ later expansion,
    KeyType.expand attr.arguments bare later = .ok expansion →
      ∃ keyed, expansion.items = [keyed] ∧ keyed.Refuses run.record.name.spelling
  keyedInside : ∀ later next, run.first.ExpandsInside later next →
    next.Refuses run.record.name.spelling

/--
A mapping is never overwritten. No transformer succeeds on a record that carries one, and with
accepted arguments and fields that can be described each one reports the conflict. In particular
the declaration that a coding transformer has attached a mapping to refuses all of them.
-/
theorem Mapper.never_overwrites :
    (∀ (item : Item) (record : Record), item.asRecord = .ok record → record.CarriesMapping →
      ∀ (mapper : Mapper) tokens context,
        (∀ expansion, mapper.transformer.expand tokens item context ≠ .ok expansion) ∧
          (mapper.Accepts tokens → Field.Describable record.fields → ∃ pos,
            mapper.transformer.expand tokens item context =
              .error (.conflictingMapping record.name.spelling pos))) ∧
    ∀ (codable : Codable) source close tokens item context expansion,
      Grammar.read (·.item) source close = .ok item →
        codable.expand tokens item context = .ok expansion →
          ∃ run : Codable.Run codable tokens item context,
            expansion.items = run.first :: run.record.beside run.generated ∧
              ∀ attr bare, run.first.detach? KeyMapping.attributeName = some (attr, bare) →
                run.Lasting attr bare := by
  constructor
  · intro item record found carries mapper tokens context
    obtain ⟨pos, mapped⟩ := (Record.carriesMapping_iff found).mp carries
    refine ⟨fun expansion expanded => ?_, fun accepted describable => ⟨pos, ?_⟩⟩
    · rw [mapper.unmapped_of_expand found expanded] at mapped
      cases mapped
    · exact mapper.expand_conflict accepted found
        (FieldInfo.exists_ofFields_of_describable describable) mapped
  · intro codable source close tokens item context expansion read expanded
    obtain ⟨run, items⟩ := Codable.Run.exists_of_expand expanded
    have named := Grammar.fieldsNamed_of_read read
    refine ⟨run, items, fun attr bare detached => ⟨run.refuses_first detached, ?_, ?_⟩⟩
    · -- The record of a module stands in a module.
      rintro ⟨decl, rfl⟩ later expansion expanded
      refine run.refuses_keyed named detached (fun alone => ?_) expanded
      obtain ⟨-, ⟨struct, -⟩ | ⟨_, _, _, _, _, -, inside, -⟩⟩ :=
        Item.asRecord_eq_ok_iff.mp run.found
      · cases struct
      · rw [alone] at inside
        cases inside
    · exact fun later next expands => run.refuses_of_expandsInside named expands

namespace Mapper

open Codable (standard moduleTokens)

/-- The tokens of an enum of keys. -/
def keysTokens : List Token :=
  [Token.word "enum", Token.word "CodingKeys", Token.braces [Token.word "id"]]

/-- The context without settings. -/
def plainContext : Context := ⟨{}, Context.standardRuntime⟩

/--
An enum of keys in a module is not overwritten, and neither is a mapping that is attached to the
struct of a module.
-/
theorem never_overwrites_module :
    (∃ item record, Grammar.read (·.item) (moduleTokens "id" keysTokens) = .ok item ∧
      item.asRecord = .ok record ∧ record.CarriesMapping ∧ Field.Describable record.fields ∧
        keyType.Accepts [] ∧ ∃ pos, keyType.transformer.expand [] item plainContext =
          .error (.conflictingMapping record.name.spelling pos)) ∧
    ∃ item expansion, Grammar.read (·.item) (moduleTokens "id" []) = .ok item ∧
      standard.expand [] item plainContext = .ok expansion ∧
        ∃ run : Codable.Run standard [] item plainContext, ∃ attr bare,
          run.first.detach? KeyMapping.attributeName = some (attr, bare) ∧
            run.Lasting attr bare := by
  constructor
  · -- The only field has no options.
    have describable (field : Field) (plain : field.attributes = []) :
        Field.Describable [field] := by
      refine ⟨fun other inside => ?_, List.nodup_singleton _⟩
      obtain rfl := List.mem_singleton.mp inside
      exact ⟨{}, by rw [plain]; rfl, fun _ => rfl⟩
    refine ⟨_, _, rfl, rfl, .inr ⟨_, .tail _ (.head _), rfl⟩, describable _ rfl, ⟨_, rfl⟩, ?_⟩
    exact (never_overwrites.1 _ _ rfl (.inr ⟨_, .tail _ (.head _), rfl⟩) keyType [] _).2
      ⟨_, rfl⟩ (describable _ rfl)
  · obtain ⟨run, items, lasting⟩ := never_overwrites.2 standard (moduleTokens "id" []) .origin [] _
      plainContext _ rfl rfl
    -- The declaration is known, so the attribute can be taken off it.
    obtain ⟨same, -⟩ := List.cons.inj items
    have taken : (run.first.detach? KeyMapping.attributeName).isSome = true := by
      rw [← same]
      rfl
    obtain ⟨⟨attr, bare⟩, detached⟩ := Option.isSome_iff_exists.mp taken
    exact ⟨_, _, rfl, rfl, run, attr, bare, detached, lasting attr bare detached⟩

/-- The tokens of a struct of one name that carries a mapping. -/
def carrierTokens (fields : List Token) : List Token :=
  [.punct '#' false .origin,
    Token.brackets [Token.word "coding_keys", Token.parens [Token.word "a"]],
    Token.word "struct", Token.word "A", Token.braces fields]

/--
A record that carries a mapping and whose options can all be read, and yet another fault is reported
for it than the conflict.
-/
def ReportsOther (source : List Token) : Prop :=
  ∃ item record fault pos, Grammar.read (·.item) source = .ok item ∧ item.asRecord = .ok record ∧
    record.CarriesMapping ∧
      (∀ field ∈ record.fields, ∃ options,
        FieldOptions.ofAttributes field.attributes = .ok options) ∧
      (coding standard).Accepts [] ∧ (coding standard).transformer.expand [] item plainContext =
        .error (.invalidAttribute fault pos)

/--
The conflict is not reported for a field that is declared twice, nor for a secure field with a
default: the fields are looked at before the mapping.
-/
theorem never_overwrites_fails :
    ReportsOther (carrierTokens [Token.word "a", .punct ':' false .origin, Token.word "u8",
      .punct ',' false .origin, Token.word "a", .punct ':' false .origin, Token.word "u8"]) ∧
    ReportsOther (carrierTokens [.punct '#' false .origin, Token.brackets [Token.word "secure"],
      .punct '#' false .origin, Token.brackets [Token.word "codable",
        Token.parens [Token.word "default", .punct '=' false .origin, .literal "1" .origin]],
      Token.word "a", .punct ':' false .origin, Token.word "u8"]) := by
  -- Two structs: one with a repeated name, and one with a secure field that has a default.
  constructor
  · refine ⟨_, _, _, _, rfl, rfl, .inl ⟨_, .head _, rfl⟩, ?_, ⟨_, rfl⟩, rfl⟩
    exact List.forall_mem_cons.mpr ⟨⟨_, rfl⟩, List.forall_mem_singleton.mpr ⟨_, rfl⟩⟩
  · refine ⟨_, _, _, _, rfl, rfl, .inl ⟨_, .head _, rfl⟩, ?_, ⟨_, rfl⟩, rfl⟩
    exact List.forall_mem_singleton.mpr ⟨_, rfl⟩

end Mapper

end KeyedCoding
