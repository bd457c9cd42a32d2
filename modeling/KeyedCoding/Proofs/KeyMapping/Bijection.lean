import Mathlib.Data.List.Find
import KeyedCoding.Coding.KeyTable
import KeyedCoding.Proofs.Generated.Completeness
import KeyedCoding.Proofs.Json.Entries
import KeyedCoding.Proofs.KeyMapping.RoundTrip

/-!
Keys of accepted mappings: no field and no key repeats, so in the generated key type each variant
has its own key, and a key leads back to its variant.
-/

namespace KeyedCoding

/-- A mapping that is accepted: synthesized for a declaration, or given by arguments. -/
inductive KeyMapping.Accepted : KeyMapping → Prop
  | synthesized {transformer : String} {item : Item} {inspection : Inspection}
      {policy : InclusionPolicy} {mapping : KeyMapping}
      (inspected : Inspection.ofItem transformer item = .ok inspection)
      (mapped : ofRecord policy inspection = .ok mapping) : Accepted mapping
  | given {tokens : List Token} {args : MappingArguments}
      (read : MappingArguments.ofTokens tokens = .ok args) : Accepted args.mapping

/-- Both ways to a mapping refuse repeated fields and repeated keys. -/
theorem KeyMapping.Accepted.wellFormed {mapping : KeyMapping} (accepted : mapping.Accepted) :
    mapping.WellFormed := by
  -- Both insert one entry after the other, and refuse what is there already.
  cases accepted with
  | synthesized inspected mapped => exact wellFormed_of_ofRecord inspected mapped
  | given read => exact (MappingArguments.wellFormed_of_ofTokens read).1

namespace KeyMapping

variable {mapping : KeyMapping} {entry : KeyEntry}

/-- The key of an entry is found by its field. -/
theorem keyOf?_of_mem (wellFormed : mapping.WellFormed) (inside : entry ∈ mapping.entries) :
    mapping.keyOf? entry.field = some entry.key := by
  -- Some entry is found, and no other one has the field.
  obtain ⟨key, given⟩ := exists_keyOf?_iff.mpr (contains_iff.mpr ⟨entry, inside, rfl⟩)
  obtain ⟨found, looked, rfl⟩ := Option.map_eq_some_iff.mp given
  obtain ⟨among, spelled⟩ := mem_of_entry? looked
  rw [given, List.inj_on_of_nodup_map wellFormed.fields among inside spelled]

/-- The field of an entry is found by its key. -/
theorem fieldOf?_of_mem (wellFormed : mapping.WellFormed) (inside : entry ∈ mapping.entries) :
    mapping.fieldOf? entry.key = some entry.field := by
  -- No other entry has the key, so the search ends at this one.
  rw [fieldOf?, entryForKey?_of_mem wellFormed.keys inside]
  rfl

/-- Every field can name a variant exactly if none is the blank name. -/
theorem fitsVariants_iff :
    mapping.fitsVariants = true ↔ ∀ entry ∈ mapping.entries, entry.field.spelling ≠ "_" := by
  -- The test is made for each entry.
  rw [fitsVariants, List.all_eq_true]
  exact forall₂_congr fun entry _ => bne_iff_ne

end KeyMapping

namespace KeyTable

/-- The table that a mapping has: an arm and a variant for each entry, in order. -/
def ofMapping (mapping : KeyMapping) : KeyTable :=
  ⟨mapping.entries.map fun entry => (entry.field, entry.key), mapping.fields⟩

/-- The arms that are generated for entries are read back. -/
theorem armsOf?_keyArm (entries : List KeyEntry) :
    armsOf? (entries.flatMap KeyMapping.keyArm) =
      some (entries.map fun entry => (entry.field, entry.key)) := by
  induction entries with
  | nil => rfl
  | cons entry rest ih =>
    -- An arm is eight tokens, of which one is the key as a literal.
    have step : armsOf? (KeyMapping.keyArm entry ++ rest.flatMap KeyMapping.keyArm) =
        (Text.Quoted.value? (Text.Quoted.literal entry.key)).bind fun key =>
          (armsOf? (rest.flatMap KeyMapping.keyArm)).map ((entry.field, key) :: ·) := rfl
    rw [List.flatMap_cons, step, Text.Quoted.value?_literal, ih]
    rfl

/-- The variants that are generated for entries are read back. -/
theorem variantsOf?_selfVariant (entries : List KeyEntry) :
    variantsOf? (commaSeparated false (entries.map KeyMapping.selfVariant)) =
      some (entries.map (·.field)) := by
  induction entries with
  | nil => rfl
  | cons entry rest ih =>
    cases rest with
    | nil => rfl
    | cons next others =>
      -- A variant that is not the last one is followed by a comma.
      have step : variantsOf? (commaSeparated false
          ((entry :: next :: others).map KeyMapping.selfVariant)) =
          (variantsOf? (commaSeparated false
            ((next :: others).map KeyMapping.selfVariant))).map (entry.field :: ·) := rfl
      rw [step, ih]
      rfl

/-- The impl of a key type is read back as the table of its mapping. -/
theorem ofImpl?_of_declared {mapping : KeyMapping} {record : Record} {runtime : Path} {decl : Impl}
    (declared : mapping.codingKeyImpl record runtime = .impl decl) :
    ofImpl? decl = some (ofMapping mapping) := by
  cases declared
  -- The bodies of the two members are the arms and the variants.
  change ((armsOf? (mapping.entries.flatMap KeyMapping.keyArm)).bind fun arms =>
    (variantsOf? (commaSeparated false (mapping.entries.map KeyMapping.selfVariant))).map
      fun variants => KeyTable.mk arms variants) = some (ofMapping mapping)
  rw [armsOf?_keyArm, variantsOf?_selfVariant]
  rfl

variable {mapping : KeyMapping} {entry : KeyEntry}

/-- The key of a variant is that of its field. -/
theorem keyOf?_ofMapping (mapping : KeyMapping) (variant : Name) :
    (ofMapping mapping).keyOf? variant = mapping.keyOf? variant := by
  -- The arms are looked through in the order of the entries.
  rw [keyOf?, ofMapping, List.find?_map, Option.map_map]
  rfl

/-- The variant that a text leads to is the field that is found under the text as a key. -/
theorem variantOf?_ofMapping (wellFormed : mapping.WellFormed) (text : String) :
    (ofMapping mapping).variantOf? text = mapping.fieldOf? text := by
  -- The variants are looked through in the order of the entries, and each has the key of its entry.
  have alike : ∀ entry ∈ mapping.entries,
      ((ofMapping mapping).keyOf? entry.field == some text) = (entry.key == text) := by
    intro entry inside
    rw [keyOf?_ofMapping, KeyMapping.keyOf?_of_mem wellFormed inside]
    rfl
  rw [variantOf?, ofMapping, KeyMapping.fields, List.find?_map]
  exact congrArg _ (List.find?_congr alike)

/-- The variants that are present are those whose keys the object has entries of. -/
theorem presentVariants_ofMapping (wellFormed : mapping.WellFormed) (object : KeyedObject) :
    (ofMapping mapping).presentVariants object =
      (mapping.entries.filter (object.contains ·.key)).map (·.field) := by
  -- Each variant has the key of its entry, which is what is looked up.
  have alike : ∀ entry ∈ mapping.entries,
      ((ofMapping mapping).keyOf? entry.field).any object.contains = object.contains entry.key := by
    intro entry inside
    rw [keyOf?_ofMapping, KeyMapping.keyOf?_of_mem wellFormed inside]
    rfl
  rw [presentVariants, ofMapping, KeyMapping.fields, List.filter_map]
  exact congrArg _ (List.filter_congr alike)

/-- A table gives each field of a mapping a variant with its own key, which leads back to it. -/
structure Bijective (mapping : KeyMapping) (table : KeyTable) : Prop where
  variants : table.variants = mapping.fields
  listedOnce : (table.variants.map (·.spelling)).Nodup
  keys : ∀ entry ∈ mapping.entries, table.keyOf? entry.field = some entry.key
  injective : ∀ first ∈ table.variants, ∀ second ∈ table.variants,
    table.keyOf? first = table.keyOf? second → first = second
  back : ∀ variant ∈ table.variants, ∀ key, table.keyOf? variant = some key →
    table.variantOf? key = some variant
  found : ∀ text variant, table.variantOf? text = some variant →
    variant ∈ table.variants ∧ table.keyOf? variant = some text
  unknown : ∀ text, text ∉ mapping.keys → table.variantOf? text = none
  present : ∀ entries object, KeyedObject.ofJson mapping.keys (.object entries) = .ok object →
    table.presentVariants object = (mapping.entries.filter fun entry =>
      entry.key ∈ entries.map Prod.fst).map (·.field) ∧
    (table.presentVariants object).map table.keyOf? = object.presentKeys.map some

/-- The table of a mapping without repetitions leads back and forth. -/
theorem bijective_ofMapping (wellFormed : mapping.WellFormed) :
    Bijective mapping (ofMapping mapping) := by
  have keys : ∀ entry ∈ mapping.entries,
      (ofMapping mapping).keyOf? entry.field = some entry.key := by
    intro entry inside
    rw [keyOf?_ofMapping, KeyMapping.keyOf?_of_mem wellFormed inside]
  -- Every variant comes from an entry, so what is said of variants is shown of entries.
  have back : ∀ entry ∈ mapping.entries,
      (ofMapping mapping).variantOf? entry.key = some entry.field := by
    intro entry inside
    rw [variantOf?_ofMapping wellFormed, KeyMapping.fieldOf?_of_mem wellFormed inside]
  have variants : (ofMapping mapping).variants = mapping.entries.map (·.field) := rfl
  refine ⟨rfl, ?_, keys, ?_, ?_, ?_, ?_, ?_⟩
  · rw [variants, List.map_map]
    exact wellFormed.fields
  · -- The key of a variant leads back to it, so it is the key of no other one.
    rw [variants]
    simp only [List.forall_mem_map]
    intro first firstInside second secondInside same
    rw [keys first firstInside, keys second secondInside, Option.some.injEq] at same
    have leads := back first firstInside
    rw [same, back second secondInside] at leads
    exact (Option.some.inj leads).symm
  · rw [variants, List.forall_mem_map]
    intro entry inside key given
    obtain rfl : entry.key = key := Option.some.inj ((keys entry inside).symm.trans given)
    exact back entry inside
  · -- The key of the variant that is found has been compared with the text.
    intro text variant leads
    exact ⟨List.mem_of_find?_eq_some leads, by simpa using List.find?_some leads⟩
  · intro text free
    rw [variantOf?_ofMapping wellFormed, KeyMapping.fieldOf?,
      KeyMapping.entryForKey?_eq_none_iff.mpr free, Option.map_none]
  · -- A key is contained, even with null, exactly if there is an entry of it.
    intro entries object opened
    cases opened
    rw [presentVariants_ofMapping wellFormed]
    constructor
    · refine congrArg _ (List.filter_congr fun entry _ => ?_)
      rw [KeyedObject.contains, Bool.eq_iff_iff, Json.Entries.isSome_get?_iff, decide_eq_true_iff]
    · rw [KeyedObject.presentKeys, KeyMapping.keys, List.filter_map, List.map_map, List.map_map]
      exact List.map_congr_left fun entry inside => keys entry (List.mem_of_mem_filter inside)

/--
The declarations of a key type whose table goes back and forth between the fields of a mapping and
their keys: an enum with a variant for each field, an impl with the table, and one for the record.
-/
def DeclaredBy (mapping : KeyMapping) (items : List Item) : Prop :=
  ∃ keys impl mapped table, items = [.enum keys, .impl impl, mapped] ∧
    keys.variants.map (·.name) = mapping.fields ∧ ofImpl? impl = some table ∧
      Bijective mapping table

/--
An accepted mapping repeats neither a field nor a key, so its key type goes back and forth between
variants and keys. It can be declared exactly if no field is the blank name.
-/
theorem bijective_of_accepted (accepted : mapping.Accepted) :
    (mapping.fields.map (·.spelling)).Nodup ∧ mapping.keys.Nodup ∧ ∀ record runtime,
      ((∃ items, mapping.declarations record runtime = .ok items) ↔
        ∀ entry ∈ mapping.entries, entry.field.spelling ≠ "_") ∧
      ∀ items, mapping.declarations record runtime = .ok items → DeclaredBy mapping items := by
  have wellFormed := accepted.wellFormed
  refine ⟨?_, wellFormed.keys, fun record runtime => ⟨?_, fun items declared => ?_⟩⟩
  · rw [KeyMapping.fields, List.map_map]
    exact wellFormed.fields
  · -- The blank name is the only one that no variant can have.
    rw [KeyMapping.declarations, ← KeyMapping.fitsVariants_iff]
    split <;> simp [*]
  · rw [KeyMapping.declarations] at declared
    split at declared
    · cases declared
      refine ⟨_, _, _, _, rfl, ?_, ofImpl?_of_declared rfl, bijective_ofMapping wellFormed⟩
      rw [KeyMapping.fields, List.map_map]
      rfl
    · cases declared

/-- The key type of a mapping that is given by arguments leads from a key to a raw name and back. -/
theorem bijective_labelled :
    KeyMapping.labelled.Accepted ∧ ∃ record items, Item.login.asRecord = .ok record ∧
      KeyMapping.labelled.declarations record Context.standardRuntime = .ok items ∧
        DeclaredBy KeyMapping.labelled items :=
  ⟨.given KeyMapping.ofTokens_labelled, _, _, rfl, rfl,
    ((bijective_of_accepted (.given KeyMapping.ofTokens_labelled)).2.2 _ _).2 _ rfl⟩

end KeyTable

end KeyedCoding
