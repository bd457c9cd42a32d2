import KeyedCoding.Proofs.KeyMapping.Arguments
import KeyedCoding.Proofs.Record.Surroundings
import KeyedCoding.Transform.KeyType

/-!
Laws of the key type transformer: a mapping of known fields gives the key type, unless the record
has a mapping.
-/

namespace KeyedCoding

/-- Whether a record has a field of a name. -/
def Record.Declares (record : Record) (name : Name) : Prop :=
  ∃ field ∈ record.fields, field.name.spelling = name.spelling

namespace KeyType

variable {tokens : List Token} {item : Item} {context : Context} {args : MappingArguments}
    {record : Record}

/-- What the key type transformer generates for a record. -/
def generated (args : MappingArguments) (record : Record) (context : Context) : List Item :=
  [args.mapping.keyEnum record,
    args.mapping.codingKeyImpl record (args.runtime.getD context.runtime),
    KeyMapping.keyMappedImpl record (args.runtime.getD context.runtime)]

/-- What is generated depends on the head of the record alone. -/
theorem generated_congr {other : Record} (same : other.head = record.head) :
    generated args other context = generated args record context := by
  -- Names, generics and visibility are all in the head.
  simp only [generated, KeyMapping.keyEnum, KeyMapping.codingKeyImpl, KeyMapping.keyMappedImpl,
    KeyMapping.keysMember, Record.target, Record.name, Record.generics, same]

/-- The key type of a mapping is a mapping for its record. -/
theorem mapsKeys_keyEnum (mapping : KeyMapping) (record : Record) :
    -- The key type has the name that the keys of the record are looked for by.
    (mapping.keyEnum record).mapsKeys record.name = true := by
  simp [KeyMapping.keyEnum, Item.mapsKeys, Target.keysName, Record.target, Name.beq_eq_true_iff]

/-- No declaration of a key type is a struct. -/
theorem generated_not_isStruct : ∀ other ∈ generated args record context, ¬other.IsStruct := by
  -- There are three declarations: an enum and two impls.
  simp only [generated, List.forall_mem_cons, List.not_mem_nil, false_imp_iff, implies_true,
    and_true]
  refine ⟨?_, Target.implement_not_isStruct, Target.implement_not_isStruct⟩
  rintro ⟨decl, struct⟩
  cases struct

/-- What an expansion adds to a record: the key type, and nothing for an empty mapping. -/
def additions (args : MappingArguments) (record : Record) (context : Context) : List Item :=
  if args.mapping.isEmpty then [] else generated args record context

/-- A mapping with an entry adds the key type. -/
theorem additions_eq (holds : args.mapping.entries ≠ []) :
    additions args record context = generated args record context := by
  -- Only an empty mapping adds nothing.
  rw [additions, KeyMapping.isEmpty, List.isEmpty_eq_false_iff.mpr holds, if_neg Bool.false_ne_true]

/-! The checks, one after the other. -/

/-- A record passes the first check exactly if it has no mapping. -/
theorem checkUnmapped_eq_ok_iff :
    checkUnmapped record = .ok () ↔ record.existing.keyMapping = none := by
  -- The check looks for a mapping and refuses any.
  rw [checkUnmapped]
  cases record.existing.keyMapping <;> simp

/-- Whether a field is known is told by its spelling. -/
theorem any_fields_iff {inspection : Inspection} {field : Name} :
    inspection.fields.any (·.name == field) = true ↔
      ∃ info ∈ inspection.fields, info.name.spelling = field.spelling := by
  -- Two names are equal exactly if their spellings are.
  rw [List.any_eq_true]
  exact exists_congr fun info => and_congr_right fun _ => Name.beq_eq_true_iff

/-- Of fields that are not known the first one is reported. -/
theorem checkFields_eq_error {inspection : Inspection} {mapping : KeyMapping}
    {before after : List KeyEntry} {entry : KeyEntry}
    (entries : mapping.entries = before ++ entry :: after)
    (known : ∀ other ∈ before,
      ∃ info ∈ inspection.fields, info.name.spelling = other.field.spelling)
    (unknown : ¬∃ info ∈ inspection.fields, info.name.spelling = entry.field.spelling) :
    checkFields inspection mapping = .error
      (.unknownField inspection.record.name.spelling entry.field.plain entry.field.pos) := by
  -- The search stops at the first entry whose field is not among those known.
  have first : mapping.entries.find? (fun other => !inspection.fields.any (·.name == other.field)) =
      some entry := by
    rw [List.find?_eq_some_iff_append]
    refine ⟨?_, before, after, entries, fun other inside => ?_⟩
    · rw [Bool.not_eq_true', ← Bool.not_eq_true, any_fields_iff]
      exact unknown
    · rw [Bool.not_not, any_fields_iff]
      exact known other inside
  rw [checkFields, first]

/-- A mapping passes the second check exactly if the record has all its fields. -/
theorem checkFields_eq_ok_iff {inspection : Inspection} {mapping : KeyMapping} :
    checkFields inspection mapping = .ok () ↔ ∀ entry ∈ mapping.entries,
      ∃ field ∈ inspection.fields, field.name.spelling = entry.field.spelling := by
  have known (entry : KeyEntry) : (!inspection.fields.any (·.name == entry.field)) = false ↔
      ∃ field ∈ inspection.fields, field.name.spelling = entry.field.spelling := by
    rw [Bool.not_eq_false', any_fields_iff]
  rw [checkFields]
  split
  · -- The entry that is found has no field.
    rename_i entry found
    refine iff_of_false (fun impossible => by cases impossible) fun all => ?_
    have unknown := List.find?_some found
    rw [(known entry).mpr (all entry (List.mem_of_find?_eq_some found))] at unknown
    cases unknown
  · rename_i none
    refine iff_of_true rfl fun entry inside => (known entry).mp ?_
    exact Bool.eq_false_iff.mpr (List.find?_eq_none.mp none entry inside)

/-- The fields of a record that are known are those that it has. -/
theorem exists_info_iff {inspection : Inspection}
    (inspected : Inspection.ofItem name item = .ok inspection) (field : Name) :
    (∃ info ∈ inspection.fields, info.name.spelling = field.spelling) ↔
      inspection.record.Declares field := by
  -- What is known of the fields lists them by their names, in their order.
  have spellings := congrArg (List.map Name.spelling) (Inspection.fields_names inspected)
  rw [List.map_map, List.map_map] at spellings
  have same : field.spelling ∈ inspection.fields.map (Name.spelling ∘ FieldInfo.name) ↔
      field.spelling ∈ inspection.record.fields.map (Name.spelling ∘ Field.name) := by
    rw [spellings]
  rwa [List.mem_map, List.mem_map] at same

/-- Fields that can be listed can name variants. -/
theorem fitsVariants_of_listable {mapping : KeyMapping} (listed : mapping.Listable) :
    mapping.fitsVariants = true := by
  rw [KeyMapping.fitsVariants, List.all_eq_true]
  intro entry inside
  rw [bne_iff_ne]
  intro blank
  -- The blank name opens no argument.
  have lists := listed entry inside
  rw [Name.listsField, Name.opensArgument, Grammar.opensPlainSegment, Name.token, Look.name,
    blank] at lists
  cases lists

/-- A key type is declared exactly below a path that can open a type. -/
theorem declarations_eq_ok_iff {runtime : Path} {items : List Item}
    (listed : args.mapping.Listable) :
    declarations args.mapping record runtime = .ok items ↔ runtime.fitsType = true ∧
      items = [args.mapping.keyEnum record, args.mapping.codingKeyImpl record runtime,
        KeyMapping.keyMappedImpl record runtime] := by
  -- The variants fit because the mapping can be listed, so only the path is left.
  rw [declarations, KeyMapping.declarations, if_pos (fitsVariants_of_listable listed)]
  cases runtime.fitsType with
  | true => simp [eq_comm]
  | false => simp

/-- Behind all checks the key type is declared, unless the mapping is empty. -/
theorem finish_eq_ok_iff {expansion : Expansion} (found : item.asRecord = .ok record)
    (listed : args.mapping.Listable) :
    (if args.mapping.isEmpty then return ⟨[item], []⟩
      else do
        let generated ← declarations args.mapping record (args.runtime.getD context.runtime)
        return ⟨record.reassemble record.decl generated, []⟩ : Synthesis Expansion) = .ok expansion ↔
      (args.mapping.entries ≠ [] → (args.runtime.getD context.runtime).fitsType = true) ∧
        expansion = ⟨record.reassemble record.decl (additions args record context), []⟩ := by
  -- Without entries nothing is declared, and the item stays as it is.
  rw [additions, KeyMapping.isEmpty]
  cases args.mapping.entries with
  | nil =>
    simp only [List.isEmpty_nil, if_true, Record.reassemble_decl found, ne_eq, not_true_eq_false,
      false_imp_iff, true_and]
    exact ⟨fun same => (Except.ok.inj same).symm, fun same => congrArg Except.ok same.symm⟩
  | cons entry rest =>
    simp only [List.isEmpty_cons, Bool.false_eq_true, if_false, bind_eq_ok_iff,
      declarations_eq_ok_iff listed]
    constructor
    · rintro ⟨_, ⟨opens, rfl⟩, ⟨⟩⟩
      exact ⟨fun _ => opens, rfl⟩
    · rintro ⟨opens, rfl⟩
      exact ⟨_, ⟨opens (List.cons_ne_nil _ _), rfl⟩, rfl⟩

/--
An expansion succeeds exactly if the arguments are read, the declaration is a record without a mapping
whose fields can be described, it has all listed fields, and the path of the runtime opens what is
generated. What is generated is added to the record.
-/
theorem expand_eq_ok_iff {expansion : Expansion} : expand tokens item context = .ok expansion ↔
    ∃ args record, MappingArguments.ofTokens tokens = .ok args ∧ item.asRecord = .ok record ∧
      record.existing.keyMapping = none ∧
        (∃ infos, FieldInfo.ofFields record.fields = .ok infos) ∧
          (∀ entry ∈ args.mapping.entries, record.Declares entry.field) ∧
            (args.mapping.entries ≠ [] → (args.runtime.getD context.runtime).fitsType = true) ∧
              expansion = ⟨record.reassemble record.decl (additions args record context), []⟩ := by
  constructor
  · intro expanded
    -- The steps are taken apart in the order in which they are done.
    obtain ⟨args, read, rest⟩ := bind_eq_ok_iff.mp expanded
    obtain ⟨inspection, inspected, rest⟩ := bind_eq_ok_iff.mp rest
    obtain ⟨_, unmapped, rest⟩ := bind_eq_ok_iff.mp rest
    obtain ⟨_, known, rest⟩ := bind_eq_ok_iff.mp rest
    obtain ⟨found, described⟩ := Inspection.ofItem_eq_ok_iff.mp inspected
    have listed := (MappingArguments.wellFormed_of_ofTokens read).2
    refine ⟨args, inspection.record, read, found, checkUnmapped_eq_ok_iff.mp unmapped,
      ⟨_, described⟩, fun entry inside => ?_, (finish_eq_ok_iff found listed).mp rest⟩
    exact (exists_info_iff inspected entry.field).mp (checkFields_eq_ok_iff.mp known entry inside)
  · rintro ⟨args, record, read, found, unmapped, ⟨infos, described⟩, known, finished⟩
    have inspected : Inspection.ofItem name item = .ok ⟨record, infos⟩ :=
      Inspection.ofItem_eq_ok_iff.mpr ⟨found, described⟩
    have fields : checkFields ⟨record, infos⟩ args.mapping = .ok () :=
      checkFields_eq_ok_iff.mpr fun entry inside =>
        (exists_info_iff inspected entry.field).mpr (known entry inside)
    have listed := (MappingArguments.wellFormed_of_ofTokens read).2
    refine bind_eq_ok_iff.mpr ⟨args, read, bind_eq_ok_iff.mpr ⟨_, inspected, ?_⟩⟩
    refine bind_eq_ok_iff.mpr ⟨(), checkUnmapped_eq_ok_iff.mpr unmapped, ?_⟩
    exact bind_eq_ok_iff.mpr ⟨(), fields, (finish_eq_ok_iff found listed).mpr finished⟩

/-- An expansion has found a record without a mapping, to which the key type is added. -/
theorem exists_of_expand {expansion : Expansion}
    (expanded : expand tokens item context = .ok expansion) :
    ∃ args record, MappingArguments.ofTokens tokens = .ok args ∧ item.asRecord = .ok record ∧
      record.existing.keyMapping = none ∧ (∃ infos, FieldInfo.ofFields record.fields = .ok infos) ∧
        expansion.items = record.reassemble record.decl (additions args record context) := by
  -- What has been checked in between is forgotten.
  obtain ⟨args, record, read, found, unmapped, described, -, -, rfl⟩ := expand_eq_ok_iff.mp expanded
  exact ⟨args, record, read, found, unmapped, described, rfl⟩

/--
A mapping of fields that a record has gives the key type, unless the record has a mapping already.
-/
theorem expand_eq (parsed : MappingArguments.ofTokens tokens = .ok args)
    (found : item.asRecord = .ok record)
    (described : ∃ infos, FieldInfo.ofFields record.fields = .ok infos)
    (known : ∀ entry ∈ args.mapping.entries, ∃ field ∈ record.fields, field.name = entry.field)
    (holds : args.mapping.entries ≠ [])
    (opens : (args.runtime.getD context.runtime).fitsType = true) :
    expand tokens item context = match record.existing.keyMapping with
      | some pos => .error (.conflictingMapping record.name.spelling pos)
      | none => .ok ⟨record.reassemble record.decl (generated args record context), []⟩ := by
  cases unmapped : record.existing.keyMapping with
  | none =>
    refine expand_eq_ok_iff.mpr ⟨args, record, parsed, found, unmapped, described,
      fun entry inside => ?_, fun _ => opens, by rw [additions_eq holds]⟩
    obtain ⟨field, declared, same⟩ := known entry inside
    exact ⟨field, declared, congrArg Name.spelling same⟩
  | some pos =>
    -- The mapping is found before anything else is checked.
    obtain ⟨infos, described⟩ := described
    have inspected : Inspection.ofItem name item = .ok ⟨record, infos⟩ :=
      Inspection.ofItem_eq_ok_iff.mpr ⟨found, described⟩
    rw [expand]
    simp only [parsed, inspected, bind, Except.bind, checkUnmapped, unmapped]

end KeyType

end KeyedCoding
