import KeyedCoding.Proofs.Grammar.Splice
import KeyedCoding.Proofs.KeyMapping.Clash
import KeyedCoding.Proofs.Transform.Findings

/-!
Failure: when the coding transformer refuses a declaration, and with which error. The conditions are
looked at in a fixed order, and the first one that does not hold is reported.
-/

namespace KeyedCoding

namespace Item

/--
A declaration that holds a struct with named fields: the struct itself, or a module with a body of
which it is the only struct.
-/
def HoldsStruct (item : Item) (head : TypeHead) (fields : List Field) : Prop :=
  (∃ trailing, item = .struct ⟨head, .named fields trailing⟩) ∨
    ∃ attributes words name items trailing, item = .mod ⟨attributes, words, name, some items⟩ ∧
      items.filterMap struct? = [⟨head, .named fields trailing⟩]

/-- The declarations that hold such a struct are those that are records. -/
theorem exists_asRecord_iff {item : Item} {head : TypeHead} {fields : List Field} :
    (∃ record, item.asRecord = .ok record ∧ record.head = head ∧ record.fields = fields) ↔
      item.HoldsStruct head fields := by
  constructor
  · rintro ⟨record, found, rfl, rfl⟩
    obtain ⟨-, ⟨rfl, -⟩ | ⟨attributes, words, name, items, index, rfl, -, only⟩⟩ :=
      asRecord_eq_ok_iff.mp found
    · exact .inl ⟨record.trailing, rfl⟩
    · exact .inr ⟨attributes, words, name, items, record.trailing, rfl,
        Module.exists_asRecord_mod_iff.mp ⟨record, found, rfl⟩⟩
  · rintro (⟨trailing, rfl⟩ | ⟨attributes, words, name, items, trailing, rfl, only⟩)
    · exact ⟨_, rfl, rfl, rfl⟩
    · obtain ⟨record, found, decl⟩ := Module.exists_asRecord_mod_iff.mpr only
      -- The struct of the record tells its head and its fields.
      rw [Record.decl, Struct.mk.injEq, FieldList.named.injEq] at decl
      exact ⟨record, found, decl.1, decl.2.1⟩

end Item

namespace Field

/--
What is wrong with a field behind others whose names are given: it repeats one of these names, or
its options cannot be read, or it is in secure storage and has a default all the same.
-/
inductive Faulty (earlier : List Name) (field : Field) : SynthesisError → Prop
  | repeated (known : ∃ name ∈ earlier, name.spelling = field.name.spelling) :
      Faulty earlier field
        (.invalidAttribute (.fieldTwice field.name.spelling) field.name.pos)
  | unreadable {fault : Fault} (new : ∀ name ∈ earlier, name.spelling ≠ field.name.spelling)
      (read : FieldOptions.ofAttributes field.attributes = .error fault) :
      Faulty earlier field (.ofFault fault)
  | contradictory {options : FieldOptions} {default : Expr}
      (new : ∀ name ∈ earlier, name.spelling ≠ field.name.spelling)
      (read : FieldOptions.ofAttributes field.attributes = .ok options)
      (secure : options.secure = true) (given : options.default = some default) :
      Faulty earlier field (.invalidAttribute .accessorWithDefault default.pos)

/-- The first field that is faulty, behind fields that can all be described. -/
def FirstFaulty (fields : List Field) (error : SynthesisError) : Prop :=
  ∃ before field after, fields = before ++ field :: after ∧ Describable before ∧
    Faulty (before.map (·.name)) field error

/-- Fields can be described exactly if what is known of them can be told. -/
theorem describable_iff {fields : List Field} :
    Describable fields ↔ ∃ infos, FieldInfo.ofFields fields = .ok infos := by
  constructor
  · exact FieldInfo.exists_ofFields_of_describable
  · rintro ⟨infos, described⟩
    obtain ⟨pairs, distinct, -⟩ := FieldInfo.ofFieldsAfter_eq_ok_iff.mp described
    refine ⟨fun field inside => ?_, distinct⟩
    obtain ⟨info, -, known⟩ := exists_of_mem_forall₂ pairs.flip inside
    obtain ⟨options, read, rest⟩ := bind_eq_ok_iff.mp known
    obtain ⟨initializer, found, -⟩ := bind_eq_ok_iff.mp rest
    refine ⟨options, mapError_eq_ok_iff.mp read, fun secure => ?_⟩
    -- A secure field with a default would have been refused.
    cases given : options.default with
    | none => rfl
    | some default =>
      rw [FieldInfo.initializerOf, secure, given] at found
      cases found

end Field

namespace FieldInfo

variable {field : Field} {error : SynthesisError}

/-- Only a secure field with a default has no initializer that could be told. -/
theorem initializerOf_eq_error_iff {options : FieldOptions} :
    initializerOf options = .error error ↔ options.secure = true ∧
      ∃ default, options.default = some default ∧
        error = .invalidAttribute .accessorWithDefault default.pos := by
  -- There are four cases, of which only the one with both is refused.
  rw [initializerOf]
  cases options.secure <;> cases options.default <;> simp [eq_comm]

/-- What is known of a field behind others whose names are given. -/
def ofFieldAfter (seen : List Name) (field : Field) : Synthesis FieldInfo :=
  if seen.contains field.name then
    .error (.invalidAttribute (.fieldTwice field.name.spelling) field.name.pos)
  else ofField field

/-- Fields are looked at one by one, and each of them joins the names that have been seen. -/
theorem ofFieldsAfter_cons (seen : List Name) (first : Field) (rest : List Field) :
    ofFieldsAfter seen (first :: rest) = do
      let info ← ofFieldAfter seen first
      let infos ← ofFieldsAfter (first.name :: seen) rest
      return info :: infos := by
  rw [ofFieldsAfter, ofFieldAfter]
  -- A repeated name ends the search in either form.
  split <;> rfl

/-- There is nothing to tell of a field exactly if it is faulty. -/
theorem ofFieldAfter_eq_error_iff {seen : List Name} :
    ofFieldAfter seen field = .error error ↔ Field.Faulty seen field error := by
  -- Names are compared by their spelling.
  have taken : seen.contains field.name = true ↔
      ∃ name ∈ seen, name.spelling = field.name.spelling := by
    rw [List.contains_eq_any_beq, List.any_eq_true]
    exact exists_congr fun name => and_congr_right fun _ => by rw [Name.beq_eq_true_iff, eq_comm]
  rw [ofFieldAfter]
  by_cases known : ∃ name ∈ seen, name.spelling = field.name.spelling
  · rw [if_pos (taken.mpr known)]
    constructor
    · intro same
      cases same
      exact .repeated known
    · obtain ⟨name, inside, same⟩ := known
      intro faulty
      -- Everything but the repeated name is said of new fields only.
      cases faulty with
      | repeated => rfl
      | unreadable new | contradictory new => exact absurd same (new name inside)
  · rw [if_neg (mt taken.mp known), ofField, bind_eq_error_iff]
    -- Of a new field the options are read, and then the initializer is taken from them.
    have new : ∀ name ∈ seen, name.spelling ≠ field.name.spelling :=
      fun name inside same => known ⟨name, inside, same⟩
    constructor
    · rintro (failed | ⟨options, read, failed⟩)
      · obtain ⟨fault, read, rfl⟩ := mapError_eq_error_iff.mp failed
        exact .unreadable new read
      · rcases bind_eq_error_iff.mp failed with refused | ⟨initializer, -, impossible⟩
        · obtain ⟨secure, default, given, rfl⟩ := initializerOf_eq_error_iff.mp refused
          exact .contradictory new (mapError_eq_ok_iff.mp read) secure given
        · cases impossible
    · intro faulty
      cases faulty with
      | repeated again => exact absurd again known
      | unreadable _ read => exact .inl (mapError_eq_error_iff.mpr ⟨_, read, rfl⟩)
      | contradictory _ read secure given =>
        refine .inr ⟨_, mapError_eq_ok_iff.mpr read, bind_eq_error_iff.mpr (.inl ?_)⟩
        exact initializerOf_eq_error_iff.mpr ⟨secure, _, given, rfl⟩

/-- Fields that are looked at one by one fail exactly at the first faulty one. -/
theorem ofFieldsAfter_eq_error_iff {seen : List Name} {fields : List Field} :
    ofFieldsAfter seen fields = .error error ↔
      ∃ before field after, fields = before ++ field :: after ∧
        (∃ infos, ofFieldsAfter seen before = .ok infos) ∧
          Field.Faulty ((before.map (·.name)).reverse ++ seen) field error := by
  -- The names of the fields that have been described stand before those seen at the start.
  induction fields generalizing seen with
  | nil =>
    constructor
    · -- Among no fields there is none that could fail.
      intro failed
      cases failed
    · rintro ⟨before, field, after, split, -⟩
      simp at split
  | cons first rest ih =>
    have onward (info : FieldInfo) : (do
        let infos ← ofFieldsAfter (first.name :: seen) rest
        return info :: infos) = Except.error error ↔
          ofFieldsAfter (first.name :: seen) rest = .error error := by
      rw [bind_eq_error_iff]
      refine or_iff_left ?_
      rintro ⟨infos, -, impossible⟩
      cases impossible
    rw [ofFieldsAfter_cons, bind_eq_error_iff, ofFieldAfter_eq_error_iff]
    simp only [onward, ih]
    constructor
    · -- The first field fails, or it is described and another one fails.
      rintro (faulty | ⟨info, told, before, field, after, rfl, ⟨infos, described⟩, faulty⟩)
      · exact ⟨[], first, rest, rfl, ⟨[], rfl⟩, faulty⟩
      · refine ⟨first :: before, field, after, rfl, ⟨info :: infos, ?_⟩, by simpa using faulty⟩
        rw [ofFieldsAfter_cons]
        exact bind_eq_ok_iff.mpr ⟨info, told, bind_eq_ok_iff.mpr ⟨infos, described, rfl⟩⟩
    · rintro ⟨before, field, after, split, ⟨infos, described⟩, faulty⟩
      cases before with
      | nil =>
        obtain ⟨rfl, -⟩ := List.cons.inj split
        exact .inl faulty
      | cons head more =>
        obtain ⟨rfl, tail⟩ := List.cons.inj split
        rw [ofFieldsAfter_cons] at described
        obtain ⟨info, told, others⟩ := bind_eq_ok_iff.mp described
        obtain ⟨infos, described, -⟩ := bind_eq_ok_iff.mp others
        exact .inr ⟨info, told, more, field, after, tail, ⟨infos, described⟩, by simpa using faulty⟩

/-- The fields of a struct fail exactly at the first faulty one. -/
theorem ofFields_eq_error_iff {fields : List Field} :
    ofFields fields = .error error ↔ Field.FirstFaulty fields error := by
  -- The order of the names before a field does not matter to it.
  have turned (names : List Name) (field : Field) :
      Field.Faulty names.reverse field error ↔ Field.Faulty names field error := by
    rw [← ofFieldAfter_eq_error_iff, ← ofFieldAfter_eq_error_iff, ofFieldAfter,
      List.contains_reverse, ofFieldAfter]
  rw [ofFields, ofFieldsAfter_eq_error_iff]
  simp only [List.append_nil, turned, Field.FirstFaulty, Field.describable_iff, ofFields]

end FieldInfo

/-- Fields have no mapping exactly from the first clash of the keys that the policy includes. -/
theorem KeyMapping.ofFields_eq_error_iff {policy : InclusionPolicy} {fields : List FieldInfo}
    {error : SynthesisError} :
    ofFields policy fields = .error error ↔
      ∃ first second, FirstClash ((fields.filter policy.includes).map FieldInfo.key) first second ∧
        ∃ earlier later, (fields.filter policy.includes)[first]? = some earlier ∧
          (fields.filter policy.includes)[second]? = some later ∧
            error = .invalidAttribute
              (.keyClash later.key earlier.name.plain later.name.plain) later.pos := by
  -- A mapping is built by inserting the included fields one after the other.
  rw [ofFields_eq_insertAll]
  exact insertAll_eq_error_iff

namespace Codable

variable {codable : Codable} {tokens : List Token} {item : Item} {context : Context}

/-- Arguments are taken if they can be read, and if no policy is given where one is fixed. -/
def Takes (codable : Codable) (tokens : List Token) (args : CodableArguments) : Prop :=
  CodableArguments.ofTokens tokens = .ok args ∧
    (codable.fixedPolicy.isSome = true → args.policy = none)

/-- The keys of those fields that the policy of some arguments includes. -/
def includedKeys (codable : Codable) (args : CodableArguments) (config : Config)
    (infos : List FieldInfo) : List String :=
  (infos.filter (codable.policy args config).includes).map FieldInfo.key

/-- The conformances that settings ask for are paths, or arguments ask for others. -/
def ConformsToPaths (args : CodableArguments) (config : Config) : Prop :=
  args.conform = none → ∀ texts, config.conformances = some texts →
    ∀ text ∈ texts, ∃ trait, Path.ofSetting text = .ok trait

/-- A record of which coding has nothing to refuse, under given arguments. -/
structure Accepts (codable : Codable) (tokens : List Token) (item : Item) (config : Config)
    (args : CodableArguments) (record : Record) (infos : List FieldInfo) : Prop where
  takes : codable.Takes tokens args
  found : item.asRecord = .ok record
  described : FieldInfo.ofFields record.fields = .ok infos
  unmapped : ¬record.CarriesMapping
  distinct : (codable.includedKeys args config infos).Nodup
  paths : ConformsToPaths args config

/--
What coding refuses, and the error that it reports: in each case the conditions before it hold, and
this one is the first that does not.
-/
inductive Rejects (codable : Codable) (tokens : List Token) (item : Item) (config : Config) :
    SynthesisError → Prop
  | unreadable {fault : Fault} (read : CodableArguments.ofTokens tokens = .error fault) :
      Rejects codable tokens item config (.ofFault fault)
  | policyGiven {args : CodableArguments} (read : CodableArguments.ofTokens tokens = .ok args)
      (fixed : codable.fixedPolicy.isSome = true) (given : args.policy.isSome = true) :
      Rejects codable tokens item config
        (.invalidAttribute (.policyNotTaken codable.name) .origin)
  | noRecord {args : CodableArguments} {kind : UnsupportedKind} {pos : Position}
      (takes : codable.Takes tokens args) (other : item.asRecord = .error ⟨kind, pos⟩) :
      Rejects codable tokens item config (.unsupported codable.name kind pos)
  | faultyField {args : CodableArguments} {record : Record} {error : SynthesisError}
      (takes : codable.Takes tokens args) (found : item.asRecord = .ok record)
      (faulty : Field.FirstFaulty record.fields error) : Rejects codable tokens item config error
  | mapped {args : CodableArguments} {record : Record} {pos : Position}
      (takes : codable.Takes tokens args) (found : item.asRecord = .ok record)
      (describable : Field.Describable record.fields) (carries : record.CarriesMapping)
      (place : record.existing.keyMapping = some pos) :
      Rejects codable tokens item config (.conflictingMapping record.name.spelling pos)
  | keyClash {args : CodableArguments} {record : Record} {infos : List FieldInfo}
      {first second : Nat} {earlier later : FieldInfo} (takes : codable.Takes tokens args)
      (found : item.asRecord = .ok record)
      (described : FieldInfo.ofFields record.fields = .ok infos)
      (unmapped : ¬record.CarriesMapping)
      (clash : FirstClash (codable.includedKeys args config infos) first second)
      (here : (infos.filter (codable.policy args config).includes)[first]? = some earlier)
      (there : (infos.filter (codable.policy args config).includes)[second]? = some later) :
      Rejects codable tokens item config
        (.invalidAttribute (.keyClash later.key earlier.name.plain later.name.plain) later.pos)
  | noPath {args : CodableArguments} {record : Record} {infos : List FieldInfo}
      {texts : List String} {error : SynthesisError} (takes : codable.Takes tokens args)
      (found : item.asRecord = .ok record)
      (described : FieldInfo.ofFields record.fields = .ok infos)
      (unmapped : ¬record.CarriesMapping)
      (distinct : (codable.includedKeys args config infos).Nodup) (unasked : args.conform = none)
      (set : config.conformances = some texts)
      (refused : FailsFirst (fun text => ∃ trait, Path.ofSetting text = .ok trait)
        (fun text => Path.ofSetting text = .error error) texts) :
      Rejects codable tokens item config error

/--
Names and paths that generated code can hold: no field has the blank name, the path of the runtime
can name an attribute, and the traits that the arguments or the settings ask for can open a type.
-/
structure Writable (tokens : List Token) (item : Item) (context : Context) : Prop where
  names : ∀ record, item.asRecord = .ok record → ∀ field ∈ record.fields, field.name.spelling ≠ "_"
  runtime : ∀ args, CodableArguments.ofTokens tokens = .ok args →
    (args.runtime.getD context.runtime).fitsAttribute = true
  given : ∀ args traits, CodableArguments.ofTokens tokens = .ok args →
    args.conform = some traits → ∀ trait ∈ traits, trait.fitsType = true
  configured : ∀ texts, context.config.conformances = some texts → ∀ text ∈ texts, ∀ trait,
    Path.ofSetting text = .ok trait → trait.fitsType = true

/-- A declaration is accepted, or it is rejected with some error. -/
theorem accepts_or_rejects (codable : Codable) (tokens : List Token) (item : Item)
    (config : Config) :
    (∃ args record infos, codable.Accepts tokens item config args record infos) ∨
      ∃ error, codable.Rejects tokens item config error := by
  -- The conditions are looked at one after the other.
  -- Arguments that cannot be read, or that name a policy which is fixed.
  cases read : CodableArguments.ofTokens tokens with
  | error fault => exact .inr ⟨_, .unreadable read⟩
  | ok args =>
  by_cases refused : codable.fixedPolicy.isSome = true ∧ args.policy.isSome = true
  · exact .inr ⟨_, .policyGiven read refused.1 refused.2⟩
  have takes : codable.Takes tokens args := by
    refine ⟨read, fun fixed => ?_⟩
    rw [← Option.not_isSome_iff_eq_none]
    exact fun given => refused ⟨fixed, given⟩
  cases found : item.asRecord with
  | error other => exact .inr ⟨_, .noRecord takes found⟩
  | ok record =>
  cases described : FieldInfo.ofFields record.fields with
  | error error =>
    exact .inr ⟨error, .faultyField takes found (FieldInfo.ofFields_eq_error_iff.mp described)⟩
  | ok infos =>
  -- A mapping of its own is looked at behind the fields.
  by_cases carries : record.CarriesMapping
  · obtain ⟨pos, place⟩ := (Record.carriesMapping_iff found).mp carries
    exact .inr ⟨_, .mapped takes found (Field.describable_iff.mpr ⟨infos, described⟩) carries place⟩
  cases mapped : KeyMapping.ofFields (codable.policy args config) infos with
  | error error =>
    obtain ⟨first, second, clash, earlier, later, here, there, -⟩ :=
      KeyMapping.ofFields_eq_error_iff.mp mapped
    exact .inr ⟨_, .keyClash takes found described carries clash here there⟩
  | ok mapping =>
  have distinct := (KeyMapping.ofFields_eq_ok_iff.mp mapped).1
  by_cases paths : ConformsToPaths args config
  · exact .inl ⟨args, record, infos, takes, found, described, carries, distinct, paths⟩
  · -- Some configured conformance is no path, so there is a first one.
    simp only [ConformsToPaths, not_forall] at paths
    obtain ⟨unasked, texts, set, text, inside, none⟩ := paths
    cases traits : texts.mapM Path.ofSetting with
    | error error =>
      exact .inr ⟨error, .noPath takes found described carries distinct unasked set
        (mapM_eq_error_iff.mp traits)⟩
    | ok paths =>
      obtain ⟨trait, -, path⟩ := exists_of_mem_forall₂ (mapM_eq_ok_iff.mp traits).flip inside
      exact absurd ⟨trait, path⟩ none

/-- Arguments that are taken are what is read. -/
theorem readArguments_eq_ok_iff {args : CodableArguments} :
    codable.readArguments tokens = .ok args ↔ codable.Takes tokens args := by
  -- A transformer with a fixed policy refuses arguments that name one.
  rw [readArguments, Takes]
  constructor
  · intro taken
    obtain ⟨found, read, rest⟩ := bind_eq_ok_iff.mp taken
    split at rest
    · cases rest
    · rename_i free
      cases rest
      refine ⟨mapError_eq_ok_iff.mp read, fun fixed => ?_⟩
      simpa [fixed] using free
  · rintro ⟨read, free⟩
    refine bind_eq_ok_iff.mpr ⟨args, mapError_eq_ok_iff.mpr read, if_neg ?_⟩
    rw [Bool.and_eq_true]
    rintro ⟨fixed, given⟩
    rw [free fixed] at given
    cases given

section Accepted

variable {args : CodableArguments} {record : Record} {infos : List FieldInfo}

/-- Without a mapping of its own and without a clash, a record has a mapping. -/
theorem exists_mapping (policy : InclusionPolicy) (found : item.asRecord = .ok record)
    (unmapped : ¬record.CarriesMapping)
    (distinct : ((infos.filter policy.includes).map FieldInfo.key).Nodup) :
    ∃ mapping, KeyMapping.ofRecord policy ⟨record, infos⟩ = .ok mapping := by
  -- The record has no mapping, so the included fields are inserted, and their keys differ.
  exact ⟨⟨_⟩, KeyMapping.ofRecord_eq_ok_iff.mpr ⟨(Record.not_carriesMapping_iff found).mp unmapped,
    KeyMapping.ofFields_eq_ok_iff.mpr ⟨distinct, rfl⟩⟩⟩

/-- Where no field has the blank name, the coding impls can be declared. -/
theorem exists_declarations {mapping : KeyMapping} {runtime : Path}
    (fits : runtime.fitsType = true) (named : ∀ info ∈ infos, info.name.spelling ≠ "_") :
    ∃ coding, (CodingImpls.ofMapping ⟨record, infos⟩ mapping).declarations runtime = .ok coding := by
  refine ⟨_, CodingImpls.declarations_eq_ok_iff.mpr ⟨fun init generated => ⟨fits, ?_⟩,
    fun encode generated => ⟨fits, ?_⟩, rfl⟩⟩
  · -- What is read are fields of the record.
    have made := CodingImpls.decode_ofMapping_eq_some_iff.mp generated
    obtain ⟨-, -, -, rfl⟩ := DecodeInitializer.ofMapping_eq_some_iff.mp made
    rw [DecodeInitializer.fits, List.all_eq_true]
    intro read inside
    obtain ⟨info, member, reads⟩ := List.mem_filterMap.mp inside
    obtain ⟨source, -, rfl⟩ := Option.map_eq_some_iff.mp reads
    exact bne_iff_ne.mpr (named info member)
  · -- What is written are fields of the record, too.
    obtain ⟨-, -, rfl⟩ := EncodeImpl.ofMapping?_eq_some_iff.mp generated
    rw [EncodeImpl.fits, List.all_eq_true, EncodeImpl.writesOf, List.forall_mem_map]
    exact fun info inside => bne_iff_ne.mpr (named info (List.mem_of_mem_filter inside))

/-- What is known of the fields has their names, none of which is blank. -/
theorem Writable.named (writable : Writable tokens item context)
    (found : item.asRecord = .ok record)
    (described : FieldInfo.ofFields record.fields = .ok infos) :
    ∀ info ∈ infos, info.name.spelling ≠ "_" := by
  -- Each description is that of a field, and the names of the fields are known.
  intro info inside
  obtain ⟨field, member, known⟩ := exists_of_mem_forall₂
    (FieldInfo.ofFieldsAfter_eq_ok_iff.mp described).1 inside
  rw [(FieldInfo.ofField_eq_ok known).1]
  exact writable.names record found field member

/-- Where all conformances are paths, the requested traits are found, and impls can name them. -/
theorem exists_requested (writable : Writable tokens item context)
    (takes : codable.Takes tokens args) (paths : ConformsToPaths args context.config)
    (complete : Bool) :
    ∃ traits, requested args context (args.runtime.getD context.runtime) complete = .ok traits ∧
      ∀ trait ∈ traits, trait.fitsType = true := by
  -- Traits are given, set or requested by default, in this order.
  simp only [requested_eq_ok_iff]
  cases asked : args.conform with
  | some traits => exact ⟨traits, .given asked, writable.given args traits takes.1 asked⟩
  | none =>
    cases set : context.config.conformances with
    | some texts =>
      obtain ⟨traits, read⟩ := exists_forall₂ (paths asked texts set)
      refine ⟨traits, .configured asked set read, fun trait inside => ?_⟩
      obtain ⟨text, among, path⟩ := exists_of_mem_forall₂ read inside
      exact writable.configured texts set text among trait path
    | none =>
      cases coded : complete with
      | true =>
        refine ⟨_, .marker asked set rfl, ?_⟩
        rw [List.forall_mem_singleton]
        exact Path.fitsType_extend
          (Path.fitsType_of_fitsAttribute (writable.runtime args takes.1)) (by decide)
      | false => exact ⟨[], .nothing asked set rfl, by simp⟩

/-- A mapping can be attached under a path that can name an attribute. -/
theorem exists_attributesWith {runtime : Path} (fits : runtime.fitsAttribute = true)
    (attributes : List Attribute) (mapping : KeyMapping) (namesRuntime : Bool) :
    ∃ attached, attributesWith attributes mapping runtime namesRuntime = .ok attached := by
  rw [attributesWith]
  -- An empty mapping is not attached at all.
  split
  · exact ⟨attributes, rfl⟩
  · exact ⟨_, bind_eq_ok_iff.mpr ⟨_, KeyMapping.toAttribute_eq_ok_iff.mpr ⟨fits, rfl⟩, rfl⟩⟩

/-- A declaration that is accepted has an expansion, if code can be written for it. -/
theorem Accepts.expands (accepts : codable.Accepts tokens item context.config args record infos)
    (writable : Writable tokens item context) :
    ∃ expansion, codable.expand tokens item context = .ok expansion := by
  obtain ⟨takes, found, described, unmapped, distinct, paths⟩ := accepts
  -- Every step of a run has its result.
  -- The record is inspected, mapped, and declared; then the traits are known.
  have inspected : Inspection.ofItem codable.name item = .ok ⟨record, infos⟩ :=
    Inspection.ofItem_eq_ok_iff.mpr ⟨found, described⟩
  obtain ⟨mapping, mapped⟩ := exists_mapping (codable.policy args context.config) found unmapped
    distinct
  obtain ⟨coding, declared⟩ := @exists_declarations record infos mapping
    (args.runtime.getD context.runtime)
    (Path.fitsType_of_fitsAttribute (writable.runtime args takes.1)) (writable.named found described)
  obtain ⟨traits, requests, fits⟩ := exists_requested writable takes paths
    ((CodingImpls.ofMapping ⟨record, infos⟩ mapping).complete record)
  have conforms : (Conformance.missing record traits).all Path.fitsType = true := by
    rw [List.all_eq_true]
    exact fun trait inside => fits trait (List.mem_of_mem_filter inside)
  obtain ⟨attributes, attached⟩ := exists_attributesWith (writable.runtime args takes.1)
    record.head.attributes (mapping.stored infos) args.runtime.isSome
  let run : Run codable tokens item context := ⟨args, ⟨record, infos⟩, mapping, coding, traits,
    attributes, readArguments_eq_ok_iff.mpr takes, inspected, mapped, declared, requests, conforms,
    attached⟩
  exact ⟨run.expansion, Run.expand_eq_ok_iff.mpr ⟨run, rfl⟩⟩

end Accepted

/-- A declaration is inspected with the first fault of its record, if it is one. -/
theorem ofItem_eq_error {record : Record} {error : SynthesisError}
    (found : item.asRecord = .ok record) (faulty : Field.FirstFaulty record.fields error) :
    Inspection.ofItem codable.name item = .error error := by
  -- The record is found, and describing its fields fails with their first fault.
  have failed := FieldInfo.ofFields_eq_error_iff.mpr faulty
  rw [Inspection.ofItem, found]
  exact bind_eq_error_iff.mpr (.inl failed)

/-- What is rejected has that error, if code could be written for it. -/
theorem Rejects.expands {error : SynthesisError}
    (rejects : codable.Rejects tokens item context.config error)
    (writable : Writable tokens item context) :
    codable.expand tokens item context = .error error := by
  -- Each step before the one that fails is known to succeed.
  have onward {args : CodableArguments} {next : CodableArguments → Synthesis Expansion}
      (takes : codable.Takes tokens args) (failed : next args = .error error) :
      (codable.readArguments tokens >>= next) = .error error :=
    bind_eq_error_iff.mpr (.inr ⟨args, readArguments_eq_ok_iff.mpr takes, failed⟩)
  -- What is rejected behind the record has been inspected.
  have inspected {record : Record} {infos : List FieldInfo} (found : item.asRecord = .ok record)
      (described : FieldInfo.ofFields record.fields = .ok infos) :
      Inspection.ofItem codable.name item = .ok ⟨record, infos⟩ :=
    Inspection.ofItem_eq_ok_iff.mpr ⟨found, described⟩
  cases rejects with
  | unreadable read =>
    refine bind_eq_error_iff.mpr (.inl (bind_eq_error_iff.mpr (.inl ?_)))
    exact mapError_eq_error_iff.mpr ⟨_, read, rfl⟩
  | @policyGiven args read fixed given =>
    refine bind_eq_error_iff.mpr (.inl (bind_eq_error_iff.mpr (.inr ⟨args, ?_, if_pos ?_⟩)))
    · exact mapError_eq_ok_iff.mpr read
    · rw [fixed, given]
      rfl
  | noRecord takes other =>
    refine onward takes (bind_eq_error_iff.mpr (.inl ?_))
    rw [Inspection.ofItem, other]
  | faultyField takes found faulty =>
    exact onward takes (bind_eq_error_iff.mpr (.inl (ofItem_eq_error found faulty)))
  | mapped takes found describable carries place =>
    obtain ⟨infos, described⟩ := Field.describable_iff.mp describable
    refine onward takes (bind_eq_error_iff.mpr (.inr ⟨_, inspected found described, ?_⟩))
    refine bind_eq_error_iff.mpr (.inl ?_)
    rw [KeyMapping.ofRecord, place]
  | @keyClash args record infos _ _ _ _ takes found described unmapped clash here there =>
    refine onward takes (bind_eq_error_iff.mpr (.inr ⟨_, inspected found described, ?_⟩))
    refine bind_eq_error_iff.mpr (.inl ?_)
    rw [KeyMapping.ofRecord, (Record.not_carriesMapping_iff found).mp unmapped]
    exact KeyMapping.ofFields_eq_error_iff.mpr ⟨_, _, clash, _, _, here, there, rfl⟩
  | @noPath args record infos texts _ takes found described unmapped distinct unasked set refused =>
    -- Everything up to the impls succeeds, and the requested traits fail.
    refine onward takes (bind_eq_error_iff.mpr (.inr ⟨_, inspected found described, ?_⟩))
    obtain ⟨mapping, mapped⟩ := exists_mapping (codable.policy args context.config) found unmapped
      distinct
    obtain ⟨coding, declared⟩ := @exists_declarations record infos mapping
      (args.runtime.getD context.runtime)
      (Path.fitsType_of_fitsAttribute (writable.runtime args takes.1))
      (writable.named found described)
    refine bind_eq_error_iff.mpr (.inr ⟨mapping, mapped, ?_⟩)
    refine bind_eq_error_iff.mpr (.inr ⟨coding, declared, bind_eq_error_iff.mpr (.inl ?_)⟩)
    -- The configured conformances are read one by one.
    rw [requested, unasked]
    simp only [set, Option.isSome_some, if_true, Context.conformances]
    exact mapM_eq_error_iff.mpr refused

/--
When coding succeeds, and with what it fails otherwise: it has an expansion exactly if a declaration
is accepted, and else reports exactly the error of the first condition that does not hold. Only
declarations that hold a struct with named fields are records. A mapping that is made of the fields
never has an entry that the decoder does not know, so no such finding is part of an expansion.
-/
structure Settles (codable : Codable) (tokens : List Token) (item : Item) (context : Context) :
    Prop where
  succeeds : (∃ expansion, codable.expand tokens item context = .ok expansion) ↔
    ∃ args record infos, codable.Accepts tokens item context.config args record infos
  fails : ∀ error, codable.expand tokens item context = .error error ↔
    codable.Rejects tokens item context.config error
  records : (∃ record, item.asRecord = .ok record) ↔ ∃ head fields, item.HoldsStruct head fields
  decodes : ∀ run : Run codable tokens item context,
    ∃ init, DecodeInitializer.ofMapping run.inspection run.mapping = .ok init
  knows : ∀ expansion, codable.expand tokens item context = .ok expansion →
    ∀ diagnostic ∈ expansion.diagnostics, diagnostic.code = "CS001" ∨ diagnostic.code = "CS002"

/-- What is said at the declared fields is one of two kinds. -/
theorem code_of_mem_findings {declared : List OptedField} {diagnostic : Diagnostic}
    (inside : diagnostic ∈ OptedField.findings declared) :
    diagnostic.code = "CS001" ∨ diagnostic.code = "CS002" := by
  -- The findings are those about defaults, and those about options without use.
  rcases List.mem_append.mp inside with here | there
  · obtain ⟨opted, -, found⟩ := List.mem_filterMap.mp here
    rw [OptedField.unusedOption?, Option.ite_none_right_eq_some, Option.some.injEq] at found
    rw [← found.2]
    exact .inr rfl
  · obtain ⟨opted, -, found⟩ := List.mem_filterMap.mp there
    rw [OptedField.immutableDefault?, Option.ite_none_right_eq_some, Option.some.injEq] at found
    rw [← found.2]
    exact .inl rfl

/-- Where code can be written for a declaration, this settles what coding does with it. -/
theorem expand_settles (codable : Codable) (writable : Writable tokens item context) :
    Settles codable tokens item context := by
  -- A declaration is accepted or rejected, and either one decides what is given.
  have decided := accepts_or_rejects codable tokens item context.config
  refine ⟨?_, fun error => ?_, ?_, Run.exists_ofMapping, ?_⟩
  · -- Success is acceptance, as what is rejected fails.
    constructor
    · rintro ⟨expansion, expanded⟩
      rcases decided with accepted | ⟨error, rejects⟩
      · exact accepted
      · rw [rejects.expands writable] at expanded
        cases expanded
    · rintro ⟨args, record, infos, accepts⟩
      exact accepts.expands writable
  · constructor
    · intro failed
      rcases decided with ⟨args, record, infos, accepts⟩ | ⟨other, rejects⟩
      · obtain ⟨expansion, expanded⟩ := accepts.expands writable
        rw [expanded] at failed
        cases failed
      · rw [rejects.expands writable] at failed
        exact Except.error.inj failed ▸ rejects
    · exact fun rejects => rejects.expands writable
  · constructor
    · -- The shape of the declaration decides whether there is a record.
      rintro ⟨record, found⟩
      exact ⟨record.head, record.fields, Item.exists_asRecord_iff.mp ⟨record, found, rfl, rfl⟩⟩
    · rintro ⟨head, fields, holds⟩
      obtain ⟨record, found, -⟩ := Item.exists_asRecord_iff.mpr holds
      exact ⟨record, found⟩
  · rintro expansion expanded diagnostic inside
    obtain ⟨run, rfl⟩ := Run.expand_eq_ok_iff.mp expanded
    obtain ⟨declared, -, reported⟩ := run.exists_findings
    -- The settings drop findings and change their severity, but not their code.
    rw [reported, Config.apply] at inside
    obtain ⟨found, kept, rfl⟩ := List.mem_map.mp inside
    have code := code_of_mem_findings (List.mem_of_mem_filter kept)
    exact code

/-- Code can be written for any record without a blank name, under the usual path of the runtime. -/
theorem Writable.of_names {record : Record} (found : item.asRecord = .ok record)
    (names : ∀ field ∈ record.fields, field.name.spelling ≠ "_") :
    Writable [] item ⟨{}, Context.standardRuntime⟩ where
  names other again := by
    rw [Except.ok.inj (again.symm.trans found)]
    exact names
  runtime args read := by
    -- Without arguments the path is that of the context.
    cases read
    decide
  given args traits read asked := by
    cases read
    cases asked
  configured texts set := by cases set

/-- Of a struct with a raw name that clashes with a plain one the clash is reported. -/
theorem expand_settles_twins :
    Writable [] KeyMapping.twins ⟨{}, Context.standardRuntime⟩ ∧
      Settles standard [] KeyMapping.twins ⟨{}, Context.standardRuntime⟩ ∧
        standard.Rejects [] KeyMapping.twins {}
          (.invalidAttribute (.keyClash "id" "id" "id") .origin) := by
  -- The names of the struct are fine, so the settled statement can be used.
  have writable : Writable [] KeyMapping.twins ⟨{}, Context.standardRuntime⟩ :=
    .of_names rfl (by decide)
  have settles := expand_settles standard writable
  exact ⟨writable, settles, (settles.fails _).mp rfl⟩

/-- A struct with one field. -/
def ticket : Item :=
  .struct
    { head := ⟨[], [], .origin, ⟨"Ticket", .origin⟩, .empty⟩
      fields := .named [⟨[], [], ⟨"id", .origin⟩, .path (.ofName ⟨"u8", .origin⟩)⟩] false }

/--
A struct of which coding has nothing to refuse, under a path of the runtime with plain segments, and
for which no code can be written all the same.
-/
def RefusesAccepted (tokens : List Token) (context : Context) : Prop :=
  ∃ args record infos, standard.Accepts tokens ticket context.config args record infos ∧
    (args.runtime.getD context.runtime).isPlain = true ∧
      (∀ field ∈ record.fields, field.name.spelling = "id") ∧
        standard.expand tokens ticket context = .error .unspliceable

/--
One reserved word is a path with a plain segment, and neither an attribute nor an impl can be
written with it: not as the path of the runtime, and not as a trait.
-/
theorem expand_settles_fails :
    RefusesAccepted [] ⟨{}, .ofName ⟨"try", .origin⟩⟩ ∧
      RefusesAccepted [Token.word "conform", Token.parens [Token.word "try"]]
        ⟨{}, Context.standardRuntime⟩ := by
  -- The struct has no attributes and stands alone, so it carries no mapping.
  have accepts (tokens : List Token) (config : Config) (args : CodableArguments)
      (read : CodableArguments.ofTokens tokens = .ok args) (unset : config.conformances = none) :
      ∃ record infos, standard.Accepts tokens ticket config args record infos ∧
        ∀ field ∈ record.fields, field.name.spelling = "id" := by
    refine ⟨_, _, ⟨⟨read, fun fixed => by cases fixed⟩, rfl, rfl, ?_, ?_, ?_⟩, by decide⟩
    · rintro (⟨attr, inside, -⟩ | ⟨other, inside, -⟩) <;> cases inside
    · exact (List.nodup_singleton _).sublist (List.filter_sublist.map _)
    · intro _ texts set
      rw [unset] at set
      cases set
  constructor
  · obtain ⟨record, infos, accepted, named⟩ := accepts [] {} _ rfl rfl
    exact ⟨_, record, infos, accepted, rfl, named, rfl⟩
  · obtain ⟨record, infos, accepted, named⟩ := accepts
      [Token.word "conform", Token.parens [Token.word "try"]] {} _ rfl rfl
    exact ⟨_, record, infos, accepted, rfl, named, rfl⟩

end Codable

end KeyedCoding
