import Mathlib.Data.List.Nodup
import KeyedCoding.KeyMapping.Keys
import KeyedCoding.Proofs.Success

/-!
Laws of key mappings: which entries a list of fields gives, and that no key stands for two fields.
-/

namespace KeyedCoding

/-- Names are compared by their spelling. -/
@[simp] theorem Name.beq_eq_true_iff {a b : Name} : (a == b) = true ↔ a.spelling = b.spelling := by
  -- The comparison is defined so.
  change (a.spelling == b.spelling) = true ↔ _
  exact beq_iff_eq

/-- The entry of a field. -/
def FieldInfo.entry (field : FieldInfo) : KeyEntry := ⟨field.name, field.key⟩

namespace KeyMapping

variable {mapping after : KeyMapping} {field other : Name} {key : String}

/-- A mapping is no more than its entries. -/
theorem ext_entries {first second : KeyMapping} (same : first.entries = second.entries) :
    first = second := by
  -- The entries are the only field.
  cases first
  cases second
  exact congrArg KeyMapping.mk same

/-- The entry that is found for a field is one of the mapping, and spelled as the field. -/
theorem mem_of_entry? {entry : KeyEntry} (found : mapping.entry? field = some entry) :
    entry ∈ mapping.entries ∧ entry.field.spelling = field.spelling :=
  ⟨List.mem_of_find?_eq_some found, by simpa using List.find?_some found⟩

/-- A field is in a mapping exactly if an entry is spelled as the field. -/
theorem contains_iff :
    mapping.contains field = true ↔ ∃ entry ∈ mapping.entries,
      entry.field.spelling = field.spelling := by
  -- An entry is looked up by the spelling of its field.
  simp [contains, entry?]

/-- A field has a key exactly if it is in the mapping. -/
theorem exists_keyOf?_iff :
    (∃ key, mapping.keyOf? field = some key) ↔ mapping.contains field = true := by
  -- Both look for the first entry of the field.
  simp [keyOf?, contains, Option.isSome_iff_exists]

/-- Without a repeated key, fields that share their key share their spelling. -/
theorem spelling_eq_of_keyOf? (distinct : mapping.keys.Nodup)
    (here : mapping.keyOf? field = some key)
    (there : mapping.keyOf? other = some key) : field.spelling = other.spelling := by
  -- Both fields lead to an entry with the key, and there is only one such entry.
  obtain ⟨first, foundFirst, keyFirst⟩ := Option.map_eq_some_iff.mp here
  obtain ⟨second, foundSecond, keySecond⟩ := Option.map_eq_some_iff.mp there
  obtain ⟨insideFirst, spelledFirst⟩ := mem_of_entry? foundFirst
  obtain ⟨insideSecond, spelledSecond⟩ := mem_of_entry? foundSecond
  have same : first = second :=
    List.inj_on_of_nodup_map distinct insideFirst insideSecond (keyFirst.trans keySecond.symm)
  rw [← spelledFirst, ← spelledSecond, same]

/-- No key is taken exactly if no entry is found under it. -/
theorem entryForKey?_eq_none_iff : mapping.entryForKey? key = none ↔ key ∉ mapping.keys := by
  -- A search that finds nothing has seen every entry.
  simp [entryForKey?, keys]

/-- Without a repeated key, every entry is found under its key. -/
theorem entryForKey?_of_mem {entry : KeyEntry} (distinct : mapping.keys.Nodup)
    (inside : entry ∈ mapping.entries) : mapping.entryForKey? entry.key = some entry := by
  -- Some entry is found, and no other one has the key.
  have taken : mapping.entryForKey? entry.key ≠ none := by
    intro free
    exact entryForKey?_eq_none_iff.mp free (List.mem_map_of_mem inside)
  obtain ⟨found, looked⟩ := Option.ne_none_iff_exists'.mp taken
  have same : found.key = entry.key := by simpa using List.find?_some looked
  rw [looked, List.inj_on_of_nodup_map distinct (List.mem_of_find?_eq_some looked) inside same]

/-- An entry can be added exactly if its key is free, and then it is added at the end. -/
theorem insert_eq_ok_iff {pos : Position} :
    mapping.insert field key pos = .ok after ↔
      key ∉ mapping.keys ∧ after = mapping.push field key := by
  -- A key is free where no entry is found under it.
  rw [← entryForKey?_eq_none_iff, insert]
  cases mapping.entryForKey? key with
  | none => simp [eq_comm]
  | some first => simp

/-- An added entry brings its key. -/
@[simp] theorem keys_push : (mapping.push field key).keys = mapping.keys ++ [key] := by
  -- The new entry stands behind the others.
  simp [keys, push]

/-- A key that is taken is refused, and the fault names the first entry under it. -/
theorem insert_eq_error_iff {pos : Position} {fault : SynthesisError} :
    mapping.insert field key pos = .error fault ↔
      ∃ taken, mapping.entryForKey? key = some taken ∧
        fault = .invalidAttribute (.keyClash key taken.field.plain field.plain) pos := by
  -- Nothing but a taken key is in the way.
  rw [insert]
  cases mapping.entryForKey? key with
  | none => simp
  | some first => simp [eq_comm]

section InsertAll

variable {α : Type} {entry : α → KeyEntry} {pos : α → Position} {items : List α}

/-- Adds the entries of some items one by one, each of them at a position of its own. -/
def insertAll (entry : α → KeyEntry) (pos : α → Position) (items : List α)
    (mapping : KeyMapping) : Synthesis KeyMapping :=
  items.foldlM (fun mapping item => mapping.insert (entry item).field (entry item).key (pos item))
    mapping

/-- The mapping of some fields has the entries of those that the policy includes, one by one. -/
theorem ofFields_eq_insertAll (policy : InclusionPolicy) (fields : List FieldInfo) :
    ofFields policy fields =
      insertAll FieldInfo.entry FieldInfo.pos (fields.filter policy.includes) {} := rfl

/-- Entries can be added one by one exactly if no key repeats, and they are added in their order. -/
theorem insertAll_eq_ok_iff (distinct : mapping.keys.Nodup) :
    insertAll entry pos items mapping = .ok after ↔
      (mapping.keys ++ items.map fun item => (entry item).key).Nodup ∧
        after.entries = mapping.entries ++ items.map entry := by
  -- Each entry needs a key that the mapping and the entries before it have left free.
  induction items generalizing mapping with
  | nil =>
    simp only [insertAll, List.foldlM_nil, List.map_nil, List.append_nil, distinct, true_and]
    constructor
    · intro run
      cases run
      rfl
    · intro same
      rw [ext_entries same]
      rfl
  | cons first rest ih =>
    rw [insertAll, List.foldlM_cons, bind_eq_ok_iff]
    -- The key of the first entry joins the keys that are taken.
    have shift : mapping.keys ++ (first :: rest).map (fun item => (entry item).key) =
        (mapping.keys ++ [(entry first).key]) ++ rest.map fun item => (entry item).key := by simp
    constructor
    · rintro ⟨next, added, others⟩
      obtain ⟨free, rfl⟩ := insert_eq_ok_iff.mp added
      -- What the induction needs is that the grown mapping repeats no key, either.
      have grown : (mapping.push (entry first).field (entry first).key).keys.Nodup := by
        rw [keys_push, List.nodup_append]
        refine ⟨distinct, by simp, fun key inside last single same => free ?_⟩
        rwa [← List.mem_singleton.mp single, ← same]
      obtain ⟨unique, entries⟩ := (ih grown).mp others
      rw [keys_push] at unique
      exact ⟨shift ▸ unique, by simp [entries, push]⟩
    · rintro ⟨unique, entries⟩
      rw [shift] at unique
      -- Conversely, what is distinct in the end is so after the first entry.
      have started : (mapping.keys ++ [(entry first).key]).Nodup := (List.nodup_append.mp unique).1
      have free : (entry first).key ∉ mapping.keys := fun inside =>
        (List.nodup_append.mp started).2.2 _ inside _ (by simp) rfl
      refine ⟨mapping.push (entry first).field (entry first).key,
        insert_eq_ok_iff.mpr ⟨free, rfl⟩, ?_⟩
      refine (ih (by simpa using started)).mpr ?_
      exact ⟨by simpa using unique, by simp [entries, push]⟩

end InsertAll

/--
The fields that a policy includes have a mapping exactly if their keys differ: one entry each, in
order.
-/
theorem ofFields_eq_ok_iff {policy : InclusionPolicy} {fields : List FieldInfo} :
    ofFields policy fields = .ok mapping ↔
      ((fields.filter policy.includes).map FieldInfo.key).Nodup ∧
        mapping.entries = (fields.filter policy.includes).map FieldInfo.entry := by
  -- The mapping that the first field is added to is empty.
  rw [ofFields_eq_insertAll, insertAll_eq_ok_iff (by simp [keys])]
  simp [keys, FieldInfo.entry]

/-- Among fields with distinct names, those that the policy includes are in the mapping. -/
theorem contains_of_ofFields {policy : InclusionPolicy} {fields : List FieldInfo}
    {field : FieldInfo} (distinct : (fields.map (·.name.spelling)).Nodup)
    (mapped : ofFields policy fields = .ok mapping) (inside : field ∈ fields) :
    mapping.contains field.name = policy.includes field := by
  obtain ⟨-, entries⟩ := ofFields_eq_ok_iff.mp mapped
  rw [Bool.eq_iff_iff, contains_iff, entries]
  constructor
  · -- The entry is that of an included field, and no other one has the name.
    rintro ⟨entry, among, named⟩
    obtain ⟨owner, included, rfl⟩ := List.mem_map.mp among
    obtain ⟨known, includes⟩ := List.mem_filter.mp included
    obtain rfl : owner = field := List.inj_on_of_nodup_map distinct known inside named
    exact includes
  · intro includes
    exact ⟨field.entry, List.mem_map_of_mem (List.mem_filter.mpr ⟨inside, includes⟩), rfl⟩

/-- A record has a mapping exactly if it has none of its own and its fields have one. -/
theorem ofRecord_eq_ok_iff {policy : InclusionPolicy} {inspection : Inspection} :
    ofRecord policy inspection = .ok mapping ↔
      inspection.record.existing.keyMapping = none ∧
        ofFields policy inspection.fields = .ok mapping := by
  -- A mapping of its own is the only thing that is looked at before the fields.
  rw [ofRecord]
  cases inspection.record.existing.keyMapping <;> simp

/-- The mapping of a record repeats no key. -/
theorem keys_nodup_of_ofRecord {policy : InclusionPolicy} {inspection : Inspection}
    (mapped : ofRecord policy inspection = .ok mapping) : mapping.keys.Nodup := by
  -- The keys are those of the included fields, which differ because the mapping was built.
  obtain ⟨unique, entries⟩ := ofFields_eq_ok_iff.mp (ofRecord_eq_ok_iff.mp mapped).2
  have same : mapping.keys = (inspection.fields.filter policy.includes).map FieldInfo.key := by
    rw [keys, entries, List.map_map]
    rfl
  exact same ▸ unique

end KeyMapping

end KeyedCoding
