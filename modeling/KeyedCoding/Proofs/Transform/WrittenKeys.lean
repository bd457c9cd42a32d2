import KeyedCoding.Proofs.KeyMapping.Bijection
import KeyedCoding.Proofs.KeyMapping.Written
import KeyedCoding.Proofs.Transform.Failure
import KeyedCoding.Proofs.Transform.KeyType

/-!
Key types of written mappings: which arguments are accepted for which declaration, which field is
reported where one is unknown, and what is generated.
-/

namespace KeyedCoding

/--
A declaration with others added to it: a module takes them behind its own, and any other declaration
stands before them.
-/
def Item.followedBy (item : Item) (added : List Item) : List Item :=
  match item with
  | .mod ⟨attributes, head, name, some items⟩ => [.mod ⟨attributes, head, name, some (items ++ added)⟩]
  | _ => item :: added

namespace Record

/-- Where the struct of a record takes its own place, declarations are only added. -/
theorem reassemble_decl_eq {item : Item} {record : Record} {added : List Item}
    (found : item.asRecord = .ok record) :
    record.reassemble record.decl added = item.followedBy added := by
  obtain ⟨-, ⟨rfl, bare⟩ | ⟨attributes, head, name, items, index, rfl, inside, only⟩⟩ :=
    Item.asRecord_eq_ok_iff.mp found
  · rw [reassemble, bare, Item.followedBy]
    rintro _ _ _ _ ⟨⟩
  · -- The struct stands at its index already.
    simp only [reassemble, inside, Option.map_some, Module.set_only only, Item.followedBy]

end Record

namespace KeyType

open MappingArguments

/--
Arguments are written for a record: no field and no key repeats among them, the fields of the record
can be described, and it carries no mapping. Whether it has the listed fields is left open.
-/
structure WrittenFor (tokens : List Token) (item : Item) (arguments : List WrittenArgument)
    (record : Record) : Prop where
  written : Written arguments tokens
  fields : ((entriesOf arguments).map (·.field.spelling)).Nodup
  keys : ((entriesOf arguments).map (·.key)).Nodup
  found : item.asRecord = .ok record
  describable : Field.Describable record.fields
  unmapped : ¬record.CarriesMapping

/-- The path of the runtime can open a type, unless there is nothing to generate. -/
def Opens (arguments : List WrittenArgument) (context : Context) : Prop :=
  entriesOf arguments ≠ [] → ((runtimeOf arguments).getD context.runtime).fitsType = true

/--
A key type for entries: an enum as visible as the record with a variant for each entry, an impl with
an arm for each variant, and an impl for the record, with its parameters, that names the enum.
-/
structure KeysFor (entries : List KeyEntry) (record : Record) (runtime : Path) (keys : Enum)
    (codes mapped : Impl) : Prop where
  visibility : keys.head.visibility = record.head.visibility
  name : keys.head.name = Target.keysNameOf record.name
  plain : keys.head.generics = .empty
  variants : keys.variants = entries.map fun entry => ⟨[], entry.field, .unit, []⟩
  codesParams : codes.head = [Token.word "impl"]
  codesWhere : codes.whereTokens = []
  codesTrait : codes.trait = some ⟨false, runtime.extend ["CodingKey"]⟩
  codesTarget : codes.target = .path (.ofName keys.head.name)
  table : KeyTable.ofImpl? codes =
    some ⟨entries.map fun entry => (entry.field, entry.key), entries.map (·.field)⟩
  mappedTrait : mapped.trait = some ⟨false, runtime.extend ["KeyMapped"]⟩
  mappedTarget : mapped.target = record.target.self
  params : mapped.head = Token.word "impl" :: record.generics.forImpl
  whereClause : mapped.whereTokens = record.generics.whereTokens
  members : mapped.members.map (·.tokens) =
    [[Token.word "type", Token.word "CodingKeys"] ++ Token.symbol "=" ++ [keys.head.name.token] ++
      Token.symbol ";"]

variable {tokens : List Token} {item : Item} {context : Context} {args : MappingArguments}
  {record : Record} {expansion : Expansion} {arguments : List WrittenArgument}

/-- What is generated for a mapping is a key type for its entries. -/
theorem exists_keysFor (args : MappingArguments) (record : Record) (context : Context) :
    ∃ keys codes mapped, generated args record context = [.enum keys, .impl codes, .impl mapped] ∧
      KeysFor args.mapping.entries record (args.runtime.getD context.runtime) keys codes mapped := by
  -- The parts are read off the definitions, and the table is read back from the second impl.
  refine ⟨_, _, _, rfl, rfl, rfl, rfl, rfl, rfl, rfl, rfl, rfl, ?_, rfl, rfl, rfl, rfl, rfl⟩
  exact @KeyTable.ofImpl?_of_declared args.mapping record (args.runtime.getD context.runtime) _ rfl

/-- Arguments that are written for a record are read. -/
theorem WrittenFor.ofTokens (fits : WrittenFor tokens item arguments record) :
    MappingArguments.ofTokens tokens = .ok ⟨⟨entriesOf arguments⟩, runtimeOf arguments⟩ :=
  fits.written.ofTokens_eq_ok_iff.mpr ⟨⟨fits.fields, fits.keys⟩, rfl, rfl⟩

/-- Of written arguments with an unknown field the first one is reported. -/
theorem WrittenFor.expand_eq_error (fits : WrittenFor tokens item arguments record)
    (context : Context) {before after : List KeyEntry} {entry : KeyEntry}
    (entries : entriesOf arguments = before ++ entry :: after)
    (known : ∀ other ∈ before, record.Declares other.field)
    (unknown : ¬record.Declares entry.field) :
    expand tokens item context =
      .error (.unknownField record.name.spelling entry.field.plain entry.field.pos) := by
  obtain ⟨infos, described⟩ := Field.describable_iff.mp fits.describable
  have inspected : Inspection.ofItem name item = .ok ⟨record, infos⟩ :=
    Inspection.ofItem_eq_ok_iff.mpr ⟨fits.found, described⟩
  have unmapped := (Record.not_carriesMapping_iff fits.found).mp fits.unmapped
  -- The fields of the record are those that are looked up.
  have failed : checkFields ⟨record, infos⟩ ⟨entriesOf arguments⟩ =
      .error (.unknownField record.name.spelling entry.field.plain entry.field.pos) := by
    refine checkFields_eq_error entries (fun other inside => ?_) fun found => unknown ?_
    · exact (exists_info_iff inspected other.field).mpr (known other inside)
    · exact (exists_info_iff inspected entry.field).mp found
  refine bind_eq_error_iff.mpr (.inr ⟨_, fits.ofTokens, ?_⟩)
  refine bind_eq_error_iff.mpr (.inr ⟨_, inspected, ?_⟩)
  refine bind_eq_error_iff.mpr (.inr ⟨(), checkUnmapped_eq_ok_iff.mpr unmapped, ?_⟩)
  exact bind_eq_error_iff.mpr (.inl failed)

/--
What the key type transformer does with written arguments: where it succeeds, which field it reports
where that is in the way, and what it adds to the declaration.
-/
structure SettlesWritten (tokens : List Token) (item : Item) (context : Context) : Prop where
  succeeds : (∃ expansion, expand tokens item context = .ok expansion) ↔
    ∃ arguments record, WrittenFor tokens item arguments record ∧
      (∀ entry ∈ entriesOf arguments, record.Declares entry.field) ∧ Opens arguments context
  unknown : ∀ arguments record, WrittenFor tokens item arguments record →
    ∀ before entry after, entriesOf arguments = before ++ entry :: after →
      (∀ other ∈ before, record.Declares other.field) → ¬record.Declares entry.field →
        expand tokens item context =
          .error (.unknownField record.name.spelling entry.field.plain entry.field.pos)
  nothing : ∀ arguments expansion, Written arguments tokens → entriesOf arguments = [] →
    expand tokens item context = .ok expansion → expansion = ⟨[item], []⟩
  adds : ∀ arguments record expansion, WrittenFor tokens item arguments record →
    entriesOf arguments ≠ [] → expand tokens item context = .ok expansion →
      ∃ keys codes mapped,
        expansion = ⟨item.followedBy [.enum keys, .impl codes, .impl mapped], []⟩ ∧
          KeysFor (entriesOf arguments) record ((runtimeOf arguments).getD context.runtime) keys
            codes mapped

/-- The transformer does so with every list of arguments and every declaration. -/
theorem expand_written (tokens : List Token) (item : Item) (context : Context) :
    SettlesWritten tokens item context := by
  refine ⟨⟨?_, ?_⟩, fun arguments record fits before entry after => fits.expand_eq_error context,
    ?_, ?_⟩
  · -- A success has read the arguments, found the record and seen no mapping.
    rintro ⟨expansion, expanded⟩
    obtain ⟨args, record, read, found, unmapped, described, known, opens, -⟩ :=
      expand_eq_ok_iff.mp expanded
    -- The arguments that are read are the written ones, with their fields and keys apart.
    obtain ⟨arguments, written, wellFormed, entries, runtime⟩ := ofTokens_eq_ok_iff_written.mp read
    obtain ⟨fields, keys⟩ := wellFormed
    rw [entries] at fields keys known opens
    rw [runtime] at opens
    exact ⟨arguments, record, ⟨written, fields, keys, found, Field.describable_iff.mpr described,
      (Record.not_carriesMapping_iff found).mpr unmapped⟩, known, opens⟩
  · -- Conversely every condition is that of one stage.
    rintro ⟨arguments, record, fits, known, opens⟩
    exact ⟨_, expand_eq_ok_iff.mpr ⟨_, record, fits.ofTokens, fits.found,
      (Record.not_carriesMapping_iff fits.found).mp fits.unmapped,
      Field.describable_iff.mp fits.describable, known, opens, rfl⟩⟩
  · -- Without entries nothing is added, and the record is put together as it was.
    intro arguments expansion written none expanded
    obtain ⟨args, record, read, found, -, -, -, -, rfl⟩ := expand_eq_ok_iff.mp expanded
    obtain ⟨-, entries, -⟩ := written.ofTokens_eq_ok_iff.mp read
    rw [additions, KeyMapping.isEmpty, entries, none, List.isEmpty_nil, if_pos rfl,
      Record.reassemble_decl found]
  · intro arguments record expansion fits some expanded
    obtain ⟨args, again, read, found, -, -, -, -, rfl⟩ := expand_eq_ok_iff.mp expanded
    -- Neither the arguments nor the record are found in another way.
    obtain rfl := Except.ok.inj (fits.ofTokens.symm.trans read)
    obtain rfl := Except.ok.inj (fits.found.symm.trans found)
    -- With entries, what is added are the keys and the two impls.
    obtain ⟨keys, codes, mapped, same, made⟩ :=
      exists_keysFor ⟨⟨entriesOf arguments⟩, runtimeOf arguments⟩ record context
    exact ⟨keys, codes, mapped, by rw [additions_eq some, same, Record.reassemble_decl_eq found], made⟩

/-- A struct with three fields. -/
def parcel : Item :=
  .struct
    { head := ⟨[], [], .origin, ⟨"Parcel", .origin⟩, .empty⟩
      fields := .named (["id", "weight", "note"].map fun spelling =>
        ⟨[], [], ⟨spelling, .origin⟩, .path (.ofName ⟨"u8", .origin⟩)⟩) false }

/-- A mapping may list some of the fields, in an order of its own. -/
theorem expand_written_parcel :
    ∃ record keys codes mapped, parcel.asRecord = .ok record ∧
      expand [Token.word "weight", .punct ',' false .origin, Token.word "id"] parcel
          ⟨{}, Context.standardRuntime⟩ =
        .ok ⟨parcel.followedBy [.enum keys, .impl codes, .impl mapped], []⟩ ∧
        KeysFor [⟨⟨"weight", .origin⟩, "weight"⟩, ⟨⟨"id", .origin⟩, "id"⟩] record
          Context.standardRuntime keys codes mapped := by
  have settles := expand_written
    [Token.word "weight", .punct ',' false .origin, Token.word "id"] parcel
    ⟨{}, Context.standardRuntime⟩
  -- The struct has three fields, of which the tokens list two.
  obtain ⟨record, found, fields⟩ : ∃ record, parcel.asRecord = .ok record ∧
      record.fields.map (·.name.spelling) = ["id", "weight", "note"] := ⟨_, rfl, rfl⟩
  -- The two listed fields are written with a comma between them.
  have fits : WrittenFor [Token.word "weight", .punct ',' false .origin, Token.word "id"] parcel
      [.plain ⟨"weight", .origin⟩ rfl, .plain ⟨"id", .origin⟩ rfl] record := by
    cases found
    refine ⟨⟨false, .more [Token.word "weight"] false .origin (.last [Token.word "id"])⟩,
      by decide, by decide, rfl, ⟨?_, by decide⟩, ?_⟩
    · simp only [List.forall_mem_map]
      exact fun _ _ => ⟨{}, rfl, fun impossible => by cases impossible⟩
    · rintro (⟨attr, inside, -⟩ | ⟨other, inside, -⟩) <;> cases inside
  have declared (spelling : String) (inside : spelling ∈ ["id", "weight", "note"]) :
      record.Declares ⟨spelling, .origin⟩ := List.mem_map.mp (fields ▸ inside)
  -- Both are declared, and no serde attribute or mapping stands in the way.
  obtain ⟨expansion, expanded⟩ := settles.succeeds.mpr ⟨_, record, fits,
    List.forall_mem_cons.mpr ⟨declared "weight" (by decide),
      List.forall_mem_singleton.mpr (declared "id" (by decide))⟩, fun _ => rfl⟩
  obtain ⟨keys, codes, mapped, rfl, made⟩ :=
    settles.adds _ _ _ fits (List.cons_ne_nil _ _) expanded
  exact ⟨record, keys, codes, mapped, found, expanded, made⟩

/-! Where nothing but the fields themselves is in the way. -/

/--
A record whose fields have valid options, for which arguments are written that list only fields of it,
and for which there is no key type all the same.
-/
def RefusesValid (tokens : List Token) (item : Item) (context : Context) : Prop :=
  (∃ arguments record, Written arguments tokens ∧
    ((entriesOf arguments).map (·.field.spelling)).Nodup ∧
      ((entriesOf arguments).map (·.key)).Nodup ∧ item.asRecord = .ok record ∧
        (∀ field ∈ record.fields, ∃ options,
          FieldOptions.ofAttributes field.attributes = .ok options ∧ options.secure = false) ∧
          ¬record.CarriesMapping ∧ (∀ entry ∈ entriesOf arguments, record.Declares entry.field) ∧
            ((runtimeOf arguments).getD context.runtime).isPlain = true) ∧
    ∀ expansion, expand tokens item context ≠ .ok expansion

/-- A struct with a repeated field. -/
def repeated : Item :=
  .struct
    { head := ⟨[], [], .origin, ⟨"Repeated", .origin⟩, .empty⟩
      fields := .named [⟨[], [], ⟨"a", .origin⟩, .path (.ofName ⟨"u8", .origin⟩)⟩,
        ⟨[], [], ⟨"a", .origin⟩, .path (.ofName ⟨"u8", .origin⟩)⟩] false }

/--
Valid options are not enough: a repeated field is refused, and one reserved word is a path with a plain
segment that opens no impl.
-/
theorem expand_written_fails :
    RefusesValid [Token.word "a"] repeated ⟨{}, Context.standardRuntime⟩ ∧
      RefusesValid [Token.word "id"] Codable.ticket ⟨{}, .ofName ⟨"try", .origin⟩⟩ := by
  -- Both structs have no attributes and stand alone, and one field is listed on its own.
  have valid (field : Name) (runtime : Path) (item : Item) (record : Record)
      (opens : field.listsField = true) (found : item.asRecord = .ok record)
      (bare : record.container = .bare) (plain : record.head.attributes = [])
      (fields : ∀ other ∈ record.fields, other.attributes = [])
      (known : record.Declares field) (path : runtime.isPlain = true)
      (refused : ∀ expansion, expand [field.token] item ⟨{}, runtime⟩ ≠ .ok expansion) :
      RefusesValid [field.token] item ⟨{}, runtime⟩ := by
    refine ⟨⟨[.plain field opens], record,
      ⟨false, .last [field.token]⟩, List.nodup_singleton _, List.nodup_singleton _, found,
      fun other inside => ⟨{}, ?_, rfl⟩, ?_, ?_, path⟩, refused⟩
    · -- A field without attributes is describable.
      rw [fields other inside]
      rfl
    · -- There is no attribute on the struct and no module around it.
      rw [Record.CarriesMapping, plain, bare]
      simp [Container.around]
    · -- The one entry is the field itself.
      intro entry inside
      rw [List.mem_singleton.mp inside]
      exact known
  -- The first struct has the field twice, and in the second case the runtime cannot be an
  -- attribute.
  refine ⟨valid ⟨"a", .origin⟩ _ _ _ rfl rfl rfl rfl (by simp) ⟨_, .head _, rfl⟩ rfl ?_,
    valid ⟨"id", .origin⟩ _ _ _ rfl rfl rfl rfl (by simp) ⟨_, .head _, rfl⟩ rfl ?_⟩
  · rintro expansion ⟨⟩
  · rintro expansion ⟨⟩

end KeyType

end KeyedCoding
