import KeyedCoding.KeyMapping.Arguments
import KeyedCoding.Proofs.Grammar.Argument
import KeyedCoding.Proofs.Grammar.Item
import KeyedCoding.Proofs.Grammar.Path
import KeyedCoding.Proofs.KeyMapping.Entries
import KeyedCoding.Proofs.Record.Fields
import KeyedCoding.Proofs.Record.Reassembly
import KeyedCoding.Proofs.Token.TextLiteral
import KeyedCoding.Tree.Detach

/-!
Mappings as arguments: a mapping that can be given as arguments is read back from its attribute.
-/

namespace KeyedCoding

open Reader

/--
Whether a name can be a field among the arguments of a mapping; one word gives the path of the
runtime there.
-/
def Name.listsField (name : Name) : Bool := name.opensArgument && name.spelling != "crate"

/-- An entry as an argument: its field, and its key as a literal if that is not the plain name. -/
def KeyEntry.argument (entry : KeyEntry) : Name × Option String :=
  (entry.field,
    if entry.key = entry.field.plain then none else some (Text.Quoted.literal entry.key))

/--
An argument lists an entry: it opens with the field, and a literal behind that denotes the key.
Without a literal the key is the plain name.
-/
def KeyEntry.ListedAs (entry : KeyEntry) (argument : Name × Option String) : Prop :=
  argument.1 = entry.field ∧
    match argument.2 with
    | none => entry.key = entry.field.plain
    | some written => Text.Quoted.value? written = some entry.key

/-- The argument of an entry lists the entry. -/
theorem KeyEntry.listedAs_argument (entry : KeyEntry) : entry.ListedAs entry.argument := by
  refine ⟨rfl, ?_⟩
  -- The literal is left out exactly where the plain name says as much.
  simp only [argument]
  by_cases plain : entry.key = entry.field.plain
  · simp [plain]
  · simpa [plain] using Text.Quoted.value?_literal entry.key

namespace KeyMapping

/--
No field and no key of a mapping repeats, as is so for every mapping that is built entry by entry.
-/
structure WellFormed (mapping : KeyMapping) : Prop where
  fields : (mapping.entries.map (·.field.spelling)).Nodup
  keys : (mapping.entries.map (·.key)).Nodup

/-- Every field of a mapping can be listed among its arguments. -/
def Listable (mapping : KeyMapping) : Prop :=
  ∀ entry ∈ mapping.entries, entry.field.listsField = true

instance (mapping : KeyMapping) : Decidable mapping.Listable :=
  inferInstanceAs (Decidable (∀ entry ∈ mapping.entries, entry.field.listsField = true))

variable {mapping after : KeyMapping} {field : Name} {key : String}

/-- The empty mapping is well-formed. -/
theorem WellFormed.empty : WellFormed {} := ⟨List.nodup_nil, List.nodup_nil⟩

/--
A mapping is well-formed exactly if the last entry is new and those before it are well-formed.
-/
theorem wellFormed_push_iff :
    (mapping.push field key).WellFormed ↔
      mapping.WellFormed ∧ mapping.contains field = false ∧ key ∉ mapping.keys := by
  -- A field is contained if some entry has its spelling.
  have absent : mapping.contains field = false ↔
      field.spelling ∉ mapping.entries.map (·.field.spelling) := by
    rw [← Bool.not_eq_true, contains_iff, List.mem_map]
  -- The new entry stands last, where distinctness is easy to take apart.
  have last (names : List String) (name : String) :
      (names ++ [name]).Nodup ↔ names.Nodup ∧ name ∉ names := by
    rw [List.nodup_append_comm, List.singleton_append, List.nodup_cons, and_comm]
  constructor
  · rintro ⟨fields, keys⟩
    simp only [push, List.map_append, List.map_cons, List.map_nil, last] at fields keys
    exact ⟨⟨fields.1, keys.1⟩, absent.mpr fields.2, keys.2⟩
  · rintro ⟨⟨fields, keys⟩, newField, newKey⟩
    constructor
    · simpa only [push, List.map_append, List.map_cons, List.map_nil, last] using
        ⟨fields, absent.mp newField⟩
    · simpa only [push, List.map_append, List.map_cons, List.map_nil, last] using ⟨keys, newKey⟩

/-- The argument for the path of the runtime: its name, and its text as a literal. -/
def runtimeEntry (runtime : Path) : Name × Option String :=
  (⟨"crate", .origin⟩, some (Text.Quoted.literal (Token.renderAll runtime.tokens)))

/-- The arguments of a mapping are its entries, and the path of the runtime if it is named. -/
theorem argumentTokens_eq (runtime : Path) (namesRuntime : Bool) :
    mapping.argumentTokens runtime namesRuntime =
      commaSeparated false ((mapping.entries.map KeyEntry.argument ++ if namesRuntime then
        [runtimeEntry runtime] else []).map Grammar.argumentTokens) := by
  -- A key is written exactly if it differs from the plain name, for entry and argument alike.
  have entries : mapping.entries.map KeyEntry.tokens =
      (mapping.entries.map KeyEntry.argument).map Grammar.argumentTokens := by
    rw [List.map_map]
    refine List.map_congr_left fun entry _ => ?_
    rw [Function.comp_apply, KeyEntry.tokens, Grammar.argumentTokens, KeyEntry.argument]
    split
    · rfl
    · rfl
  rw [argumentTokens, List.map_append, entries]
  cases namesRuntime <;> rfl

/--
A mapping is attached exactly below a path that can name an attribute, and its arguments are the
list.
-/
theorem toAttribute_eq_ok_iff {runtime : Path} {namesRuntime : Bool} {attr : Attribute} :
    mapping.toAttribute runtime namesRuntime = .ok attr ↔ runtime.fitsAttribute = true ∧
      attr = .withList (runtime.extend [attributeName])
        (mapping.argumentTokens runtime namesRuntime) := by
  -- The path is all that can be in the way.
  rw [toAttribute]
  cases runtime.fitsAttribute with
  | true => simp [eq_comm]
  | false => simp

end KeyMapping

namespace MappingArguments

open KeyMapping

variable {mapping : KeyMapping} {args after : MappingArguments} {entry : KeyEntry}

/-- The argument of an entry with a new field adds the entry, or says why that is not possible. -/
theorem add_listed {argument : Name × Option String} (listed : entry.ListedAs argument)
    (other : entry.field.spelling ≠ "crate")
    (newField : args.mapping.contains entry.field = false) :
    args.add (Grammar.argumentMeta argument) =
      (args.mapping.insert entry.field entry.key entry.field.pos).map fun mapping =>
        { args with mapping } := by
  obtain ⟨name, value⟩ := argument
  obtain ⟨rfl, key⟩ := listed
  -- The argument does not name the runtime, so it is an entry.
  have entryOnly : (Path.ofName entry.field).isName "crate" = false := by
    simpa [Path.isName_ofName] using other
  -- Whatever the key is written as, it is only the mapping that can refuse it.
  have add (literal : Option Token)
      (denoted : (literal.map Token.textValue).getD entry.field.plain = entry.key) :
      args.addEntry (.ofName entry.field) literal =
        (args.mapping.insert entry.field entry.key entry.field.pos).map fun mapping =>
          { args with mapping } := by
    simp only [addEntry, Path.ofName, Path.singleName?, newField, Bool.false_eq_true, if_false,
      denoted]
    rfl
  cases value with
  | none =>
    have plain := add none (Eq.symm key)
    simp only [MappingArguments.add, Grammar.argumentMeta, keyOf, entryOnly]
    exact plain
  | some written =>
    have denotes : Text.Quoted.value? written = some entry.key := key
    have literal := add (some (.literal written .origin)) (by simp [Token.textValue, denotes])
    simp only [MappingArguments.add, Grammar.argumentMeta, keyOf, keyLiteral?,
      Look.isText_of_value? denotes, if_true, entryOnly]
    exact literal

/-- The arguments of entries with new fields add all entries, or say which key cannot be added. -/
theorem foldlM_listed {entries : List KeyEntry} {arguments : List (Name × Option String)}
    (listed : List.Forall₂ KeyEntry.ListedAs entries arguments)
    (other : ∀ entry ∈ entries, entry.field.spelling ≠ "crate")
    (distinct : ((args.mapping.entries ++ entries).map (·.field.spelling)).Nodup) :
    (arguments.map Grammar.argumentMeta).foldlM MappingArguments.add args =
      (insertAll id (·.field.pos) entries args.mapping).map fun mapping =>
        { args with mapping } := by
  -- Both runs go on from the same mapping, which holds no field that is still to come.
  induction listed generalizing args with
  | nil => rfl
  | @cons entry argument entries arguments pair _ ih =>
    rw [List.forall_mem_cons] at other
    have shift : (args.mapping.entries ++ entry :: entries).map (·.field.spelling) =
        ((args.mapping.push entry.field entry.key).entries ++ entries).map (·.field.spelling) := by
      simp [push]
    have newField : args.mapping.contains entry.field = false := by
      rw [← Bool.not_eq_true, contains_iff]
      rintro ⟨taken, inside, same⟩
      rw [List.map_append, List.nodup_append] at distinct
      exact distinct.2.2 _ (List.mem_map_of_mem inside) _ (by simp) same
    rw [List.map_cons, List.foldlM_cons, add_listed pair other.1 newField, insertAll,
      List.foldlM_cons]
    -- The key is refused on both sides, or the entry is added on both.
    cases inserted : args.mapping.insert entry.field entry.key entry.field.pos with
    | error fault => simp [inserted, bind, Except.bind, Except.map]
    | ok mapping =>
      obtain ⟨-, rfl⟩ := insert_eq_ok_iff.mp inserted
      rw [shift] at distinct
      simp only [id_eq, inserted]
      exact @ih { args with mapping := args.mapping.push entry.field entry.key } other.2 distinct

/-- The argument for the runtime gives its path. -/
theorem add_runtime {runtime : Path} (named : runtime.Named) :
    args.add (Grammar.argumentMeta (runtimeEntry runtime)) =
      .ok { args with runtime := some runtime.unplaced } := by
  -- The argument is recognized by its name, and its literal holds the path.
  have crate : (Path.ofName ⟨"crate", .origin⟩).isName "crate" = true := rfl
  simp only [add, runtimeEntry, Grammar.argumentMeta, keyOf, keyLiteral?, Look.isText_literal, if_true,
    crate, bind, Except.bind, addRuntime, named.ofLiteral, Synthesis.ofReading, Except.mapError]
  rfl

/-- A well-formed mapping whose fields can be listed is read back from its arguments. -/
theorem ofTokens_argumentTokens {runtime : Path} {namesRuntime : Bool}
    (wellFormed : mapping.WellFormed)
    (listed : mapping.Listable) (named : namesRuntime = true → runtime.Named) :
    ofTokens (mapping.argumentTokens runtime namesRuntime) =
      .ok ⟨mapping, if namesRuntime then some runtime.unplaced else none⟩ := by
  -- Every argument opens with a name that can open one, the word for the runtime included.
  have opens : ∀ argument ∈ mapping.entries.map KeyEntry.argument ++
      (if namesRuntime then [runtimeEntry runtime] else []), argument.1.opensArgument = true := by
    intro argument inside
    rcases List.mem_append.mp inside with among | last
    · obtain ⟨entry, member, rfl⟩ := List.mem_map.mp among
      have both := listed entry member
      rw [Name.listsField, Bool.and_eq_true] at both
      exact both.1
    · cases namesRuntime with
      | true =>
        rw [List.mem_singleton.mp last]
        rfl
      | false => cases last
  -- To the empty mapping all entries are added, as no field and no key repeats.
  have inserted : insertAll id (·.field.pos) mapping.entries {} = .ok mapping :=
    (insertAll_eq_ok_iff (by simp [keys])).mpr ⟨by simpa [keys] using wellFormed.keys, by simp⟩
  have entries : ((mapping.entries.map KeyEntry.argument).map Grammar.argumentMeta).foldlM add {} =
      .ok { mapping } := by
    rw [@foldlM_listed {} mapping.entries _ _ _ (by simpa using wellFormed.fields), inserted]
    · rfl
    · rw [List.forall₂_map_right_iff, List.forall₂_same]
      exact fun entry _ => entry.listedAs_argument
    · intro entry inside
      have both := listed entry inside
      rw [Name.listsField, Bool.and_eq_true, bne_iff_ne] at both
      exact both.2
  -- The entries come first, and the runtime after all of them.
  rw [ofTokens, argumentTokens_eq, Grammar.read_arguments opens, List.map_append]
  refine bind_eq_ok_iff.mpr ⟨_, rfl, ?_⟩
  rw [List.foldlM_append, entries]
  cases namesRuntime with
  | false => rfl
  | true => exact bind_eq_ok_iff.mpr ⟨_, rfl, bind_eq_ok_iff.mpr ⟨_, add_runtime (named rfl), rfl⟩⟩

/-- Arguments of which one cannot open with its field are refused. -/
theorem ofTokens_ne_ok_of_closed {arguments : List (Name × Option String)}
    (closed : ∃ argument ∈ arguments, argument.1.opensArgument = false) :
    ofTokens (commaSeparated false (arguments.map Grammar.argumentTokens)) ≠ .ok args := by
  intro read
  -- That argument stops the reader.
  obtain ⟨entries, parsed, -⟩ := bind_eq_ok_iff.mp read
  exact Grammar.read_arguments_ne_ok closed (mapError_eq_ok_iff.mp parsed)

/-- A mapping with a field that cannot open an argument is refused. -/
theorem ofTokens_ne_ok {runtime : Path} {namesRuntime : Bool}
    (closed : ∃ entry ∈ mapping.entries, entry.field.opensArgument = false) :
    ofTokens (mapping.argumentTokens runtime namesRuntime) ≠ .ok args := by
  -- The entry is among the arguments that are written, so one of them cannot be read.
  obtain ⟨entry, among, opens⟩ := closed
  rw [argumentTokens_eq]
  exact ofTokens_ne_ok_of_closed
    ⟨entry.argument, List.mem_append_left _ (List.mem_map_of_mem among), opens⟩

/-- An argument names the path of the runtime, or it adds an entry with a new field and a new key. -/
theorem add_cases {inside : Meta} (added : args.add inside = .ok after) :
    (inside.path.isName "crate" = true ∧ ∃ literal path, keyOf inside = .ok (some literal) ∧
      Path.ofLiteral literal = .ok path ∧ after = { args with runtime := some path }) ∨
    (inside.path.isName "crate" = false ∧ ∃ field key, inside.path.singleName? = some field ∧
      args.mapping.contains field = false ∧ key ∉ args.mapping.keys ∧
      after = { args with mapping := args.mapping.push field key }) := by
  -- The name of the runtime is looked for first, so no field can have it.
  obtain ⟨literal, given, taken⟩ := bind_eq_ok_iff.mp added
  split at taken
  · rename_i named
    cases literal with
    | none => cases taken
    | some literal =>
      obtain ⟨path, read, same⟩ := bind_eq_ok_iff.mp taken
      cases same
      exact .inl ⟨named, literal, path, given, mapError_eq_ok_iff.mp read, rfl⟩
  · rename_i other
    rw [addEntry] at taken
    split at taken
    · cases taken
    · rename_i field single
      split at taken
      · cases taken
      -- The field is new, and so must be its key.
      · rename_i fresh
        obtain ⟨mapping, inserted, same⟩ := bind_eq_ok_iff.mp taken
        cases same
        obtain ⟨newKey, rfl⟩ := insert_eq_ok_iff.mp inserted
        exact .inr ⟨by simpa using other, field, _, single, by simpa using fresh, newKey, rfl⟩

/-- An argument keeps a mapping well-formed, and adds no field that cannot be listed. -/
theorem add_keeps {inside : Meta}
    (opens : ∀ name, inside.path.singleName? = some name → name.opensArgument = true)
    (known : args.mapping.WellFormed ∧ args.mapping.Listable)
    (added : args.add inside = .ok after) :
    after.mapping.WellFormed ∧ after.mapping.Listable := by
  rcases add_cases added with ⟨-, _, path, -, -, rfl⟩ | ⟨other, field, key, single, fresh, newKey, rfl⟩
  · -- The path of the runtime leaves the mapping alone.
    exact known
  · -- The field is new, and so is its key.
    refine ⟨wellFormed_push_iff.mpr ⟨known.1, fresh, newKey⟩, fun entry inside => ?_⟩
    rcases List.mem_append.mp inside with old | new
    · exact known.2 entry old
    · rw [List.mem_singleton.mp new, Name.listsField, opens field single, Bool.true_and,
        bne_iff_ne]
      simpa [Path.isName, single] using other

/-- What arguments give is well-formed, and its fields can be listed. -/
theorem wellFormed_of_ofTokens {tokens : List Token} (read : ofTokens tokens = .ok args) :
    args.mapping.WellFormed ∧ args.mapping.Listable := by
  obtain ⟨entries, parsed, added⟩ := bind_eq_ok_iff.mp read
  -- Only names that can open an argument come out of the reader.
  have opens : ∀ inside ∈ entries.1, ∀ name, inside.path.singleName? = some name →
      name.opensArgument = true :=
    Gives.of_run (Gives.listUntil (Grammar.metaInside_gives _)) (mapError_eq_ok_iff.mp parsed)
  -- The invariant holds of the empty mapping, and every argument keeps it.
  refine foldlM_keeps (fun state item after among known step =>
    add_keeps (opens item among) known step) ?_ added
  exact ⟨WellFormed.empty, fun entry inside => by cases inside⟩

end MappingArguments

end KeyedCoding
