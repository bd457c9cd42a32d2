import KeyedCoding.Proofs.KeyMapping.RoundTrip

/-!
When a mapping exists: the first two entries that clash stop it, whether it is synthesized for a
record or written as arguments.
-/

namespace KeyedCoding

/--
The first clash of some keys, as places in their list: the second key repeats the first one, and
none before it repeats another.
-/
structure FirstClash (keys : List String) (first second : Nat) : Prop where
  order : first < second
  same : ∃ key, keys[first]? = some key ∧ keys[second]? = some key
  distinct : (keys.take second).Nodup

/-- An entry apart from where it stands: how its field is spelled, and its key. -/
def KeyEntry.spelled (entry : KeyEntry) : String × String := (entry.field.spelling, entry.key)

namespace KeyMapping

section Builds

variable {α : Type} {entry : α → KeyEntry} {pos : α → Position} {items : List α}

/-- The fault of two items whose entries have the same key; it lies at the second one. -/
def clashFault (entry : α → KeyEntry) (pos : α → Position) (first second : α) : SynthesisError :=
  .invalidAttribute
    (.keyClash (entry second).key (entry first).field.plain (entry second).field.plain)
    (pos second)

/-- Adding entries one by one fails exactly at the first clash of their keys. -/
theorem insertAll_eq_error_iff {fault : SynthesisError} :
    insertAll entry pos items {} = .error fault ↔
      ∃ first second, FirstClash (items.map fun item => (entry item).key) first second ∧
        ∃ earlier later, items[first]? = some earlier ∧ items[second]? = some later ∧
          fault = clashFault entry pos earlier later := by
  have empty : ({} : KeyMapping).keys.Nodup := List.nodup_nil
  constructor
  · intro failed
    -- The items before the one that fails have made a mapping, so their keys differ.
    obtain ⟨before, later, after, mapping, rfl, run, refused⟩ := foldlM_eq_error_iff.mp failed
    obtain ⟨distinct, entries⟩ := (insertAll_eq_ok_iff empty).mp run
    obtain ⟨taken, found, rfl⟩ := insert_eq_error_iff.mp refused
    -- The entry with the taken key is that of one of them.
    have among : taken ∈ before.map entry := by
      rw [← List.nil_append (before.map entry), ← show mapping.entries = _ from entries]
      exact List.mem_of_find?_eq_some found
    obtain ⟨earlier, inside, rfl⟩ := List.mem_map.mp among
    obtain ⟨first, place⟩ := List.getElem?_of_mem inside
    have same : (entry earlier).key = (entry later).key := by simpa using List.find?_some found
    obtain ⟨order, -⟩ := List.getElem?_eq_some_iff.mp place
    refine ⟨first, before.length, ⟨order, ⟨(entry later).key, ?_, ?_⟩, ?_⟩, earlier, later, ?_, ?_,
      rfl⟩
    · rw [List.getElem?_map, List.getElem?_append_left order, place, Option.map_some, same]
    · simp
    · simpa [keys] using distinct
    · rwa [List.getElem?_append_left order]
    · simp
  · rintro ⟨first, second, clash, earlier, later, here, there, rfl⟩
    -- The items before the second one make a mapping, whose keys differ.
    obtain ⟨_, stands⟩ := List.getElem?_eq_some_iff.mp there
    have split : items = items.take second ++ later :: items.drop (second + 1) := by
      rw [← stands, List.getElem_cons_drop, List.take_append_drop]
    have distinct : ((items.take second).map fun item => (entry item).key).Nodup := by
      rw [List.map_take]
      exact clash.distinct
    have run : insertAll entry pos (items.take second) {} =
        .ok ⟨(items.take second).map entry⟩ := (insertAll_eq_ok_iff empty).mpr ⟨distinct, rfl⟩
    -- The key of the second item is found at the first one there.
    have same : (entry earlier).key = (entry later).key := by
      obtain ⟨key, one, other⟩ := clash.same
      rw [List.getElem?_map, here] at one
      rw [List.getElem?_map, there] at other
      exact Option.some.inj (one.trans other.symm)
    have inside : entry earlier ∈ (items.take second).map entry := by
      refine List.mem_map_of_mem (List.mem_of_getElem? (i := first) ?_)
      rwa [List.getElem?_take_of_lt clash.order]
    have known : (KeyMapping.mk ((items.take second).map entry)).keys.Nodup := by
      rwa [keys, List.map_map]
    have taken := entryForKey?_of_mem known inside
    rw [same] at taken
    refine foldlM_eq_error_iff.mpr ⟨_, later, _, _, split, run, ?_⟩
    exact insert_eq_error_iff.mpr ⟨_, taken, rfl⟩

/--
A mapping is built of some items: it exists exactly if the keys of their entries differ, it has just
these entries, and if there is none, the first clash is what is reported.
-/
structure Builds (entry : α → KeyEntry) (pos : α → Position) (items : List α)
    (result : Synthesis KeyMapping) : Prop where
  succeeds : (∃ mapping, result = .ok mapping) ↔ (items.map fun item => (entry item).key).Nodup
  entries : ∀ mapping, result = .ok mapping → mapping.entries = items.map entry
  fails : ∀ fault, result = .error fault ↔
    ∃ first second, FirstClash (items.map fun item => (entry item).key) first second ∧
      ∃ earlier later, items[first]? = some earlier ∧ items[second]? = some later ∧
        fault = clashFault entry pos earlier later

/-- Entries that are added one by one build a mapping. -/
theorem builds_insertAll : Builds entry pos items (insertAll entry pos items {}) := by
  -- Nothing is in the way at first, so the keys of the items are all that matters.
  have empty : ({} : KeyMapping).keys.Nodup := List.nodup_nil
  refine ⟨?_, ?_, fun fault => insertAll_eq_error_iff⟩
  · constructor
    · rintro ⟨mapping, built⟩
      exact ((insertAll_eq_ok_iff empty).mp built).1
    · intro distinct
      exact ⟨⟨items.map entry⟩, (insertAll_eq_ok_iff empty).mpr ⟨distinct, rfl⟩⟩
  · intro mapping built
    exact ((insertAll_eq_ok_iff empty).mp built).2

end Builds

/-- What comes of a mapping, apart from where: its entries as they are spelled, or a message. -/
def outcome (result : Synthesis KeyMapping) : Except String (List (String × String)) :=
  (result.map fun mapping => mapping.entries.map KeyEntry.spelled).mapError
    SynthesisError.message

section Agree

variable {α β : Type} {entry : α → KeyEntry} {entry' : β → KeyEntry} {pos : α → Position}
  {pos' : β → Position} {items : List α} {items' : List β} {result result' : Synthesis KeyMapping}

/--
Two ways to a mapping agree: both give the same entries or report the same message, and then the
items at which they fail stand at the same place of their lists.
-/
structure Agree (pos : α → Position) (items : List α) (result : Synthesis KeyMapping)
    (pos' : β → Position) (items' : List β) (result' : Synthesis KeyMapping) : Prop where
  outcome : outcome result = outcome result'
  place : ∀ fault fault', result = .error fault → result' = .error fault' →
    ∃ (place : Nat) (item : α) (item' : β), items[place]? = some item ∧
      items'[place]? = some item' ∧ fault.pos = pos item ∧ fault'.pos = pos' item'

/-- Items whose entries are spelled alike have faults that say the same. -/
theorem message_clashFault_congr {earlier later : α} {earlier' later' : β}
    (first : (entry earlier).spelled = (entry' earlier').spelled)
    (second : (entry later).spelled = (entry' later').spelled) :
    (clashFault entry pos earlier later).message =
      (clashFault entry' pos' earlier' later').message := by
  -- A message has only the key and the plain names.
  have firstField : (entry earlier).field.spelling = (entry' earlier').field.spelling :=
    congrArg Prod.fst first
  have secondField : (entry later).field.spelling = (entry' later').field.spelling :=
    congrArg Prod.fst second
  have secondKey : (entry later).key = (entry' later').key := congrArg Prod.snd second
  have plain {name name' : Name} (spelled : name.spelling = name'.spelling) :
      name.plain = name'.plain := congrArg plainSpelling spelled
  change AttributeFault.message (.keyClash ..) = AttributeFault.message (.keyClash ..)
  rw [plain firstField, plain secondField, secondKey]

/-- Mappings that are built of items whose entries are spelled alike agree. -/
theorem Builds.agree (builds : Builds entry pos items result)
    (builds' : Builds entry' pos' items' result')
    (same : (items.map fun item => (entry item).spelled) =
      items'.map fun item => (entry' item).spelled) :
    Agree pos items result pos' items' result' := by
  have keys : (items.map fun item => (entry item).key) =
      items'.map fun item => (entry' item).key := by
    have known := congrArg (List.map Prod.snd) same
    rwa [List.map_map, List.map_map] at known
  -- Items at the same place have entries that are spelled alike.
  have alike {place : Nat} {item : α} (here : items[place]? = some item) :
      ∃ item', items'[place]? = some item' ∧ (entry item).spelled = (entry' item').spelled := by
    have known := congrArg (·[place]?) same
    simp only [List.getElem?_map, here, Option.map_some] at known
    obtain ⟨item', there, equal⟩ := Option.map_eq_some_iff.mp known.symm
    exact ⟨item', there, equal.symm⟩
  cases built : result with
  | ok mapping =>
    -- The keys differ, so both succeed, and with the entries of their items.
    obtain ⟨mapping', built'⟩ := builds'.succeeds.mpr (keys ▸ builds.succeeds.mp ⟨mapping, built⟩)
    refine ⟨?_, fun fault fault' failed => by cases failed⟩
    have entries := builds.entries mapping built
    have entries' := builds'.entries mapping' built'
    simp only [outcome, built', Except.map, Except.mapError, entries, entries', List.map_map,
      Function.comp_def, same]
  | error fault =>
    -- Both fail at the first clash of the same keys.
    obtain ⟨first, second, clash, earlier, later, here, there, rfl⟩ := (builds.fails fault).mp built
    obtain ⟨earlier', here', sameFirst⟩ := alike here
    obtain ⟨later', there', sameSecond⟩ := alike there
    have built' : result' = .error (clashFault entry' pos' earlier' later') :=
      (builds'.fails _).mpr ⟨first, second, keys ▸ clash, earlier', later', here', there', rfl⟩
    refine ⟨?_, fun found found' failed failed' => ?_⟩
    · rw [built']
      exact congrArg Except.error (message_clashFault_congr sameFirst sameSecond)
    · cases failed
      rw [built'] at failed'
      cases failed'
      exact ⟨second, later, later', there, there', rfl, rfl⟩

end Agree

/-- A record without a mapping of its own gets one that is built of the included fields. -/
theorem builds_ofRecord {policy : InclusionPolicy} {inspection : Inspection}
    (unmapped : inspection.record.existing.keyMapping = none) :
    Builds FieldInfo.entry FieldInfo.pos (inspection.fields.filter policy.includes)
      (ofRecord policy inspection) := by
  -- The included fields are inserted one by one, each with its entry and its place.
  rw [ofRecord, unmapped]
  exact builds_insertAll

/--
Arguments that list entries with distinct fields give a mapping that is built of the entries, if all
fields can open an argument.
-/
theorem builds_ofTokens {entries : List KeyEntry} {arguments : List (Name × Option String)}
    (listed : List.Forall₂ KeyEntry.ListedAs entries arguments)
    (distinct : (entries.map (·.field.spelling)).Nodup)
    (other : ∀ entry ∈ entries, entry.field.spelling ≠ "crate")
    (opens : ∀ entry ∈ entries, entry.field.opensArgument = true) :
    ∃ result, MappingArguments.ofTokens
        (commaSeparated false (arguments.map Grammar.argumentTokens)) =
          result.map (fun mapping => ⟨mapping, none⟩) ∧
      Builds id (·.field.pos) entries result := by
  refine ⟨insertAll id (·.field.pos) entries {}, ?_, builds_insertAll⟩
  -- An argument opens with the field of its entry.
  have opened : ∀ argument ∈ arguments, argument.1.opensArgument = true := by
    intro argument inside
    obtain ⟨entry, among, sameField, -⟩ := exists_of_mem_forall₂ listed inside
    rw [sameField]
    exact opens entry among
  rw [MappingArguments.ofTokens, Grammar.read_arguments opened]
  exact @MappingArguments.foldlM_listed {} entries arguments listed other (by simpa using distinct)

/--
A mapping exists exactly if no two of its keys clash, and it is the same whichever way it is given.

For a record the included fields decide, and the others take no part. For arguments the listed
entries decide, as long as each of their fields can open an argument; of the names that a field can
have all can but the blank one, and with that one no arguments are accepted.
-/
theorem builds_both_ways {policy : InclusionPolicy} {inspection : Inspection}
    (unmapped : inspection.record.existing.keyMapping = none) {entries : List KeyEntry}
    {arguments : List (Name × Option String)}
    (listed : List.Forall₂ KeyEntry.ListedAs entries arguments)
    (distinct : (entries.map (·.field.spelling)).Nodup)
    (other : ∀ entry ∈ entries, entry.field.spelling ≠ "crate") :
    Builds FieldInfo.entry FieldInfo.pos (inspection.fields.filter policy.includes)
        (ofRecord policy inspection) ∧
      ((∀ entry ∈ entries, entry.field.opensArgument = true) →
        ∃ result, MappingArguments.ofTokens
            (commaSeparated false (arguments.map Grammar.argumentTokens)) =
              result.map (fun mapping => ⟨mapping, none⟩) ∧
          Builds id (·.field.pos) entries result ∧
            ((inspection.fields.filter policy.includes).map (·.entry.spelled) =
                entries.map KeyEntry.spelled →
              Agree FieldInfo.pos (inspection.fields.filter policy.includes)
                (ofRecord policy inspection) (·.field.pos) entries result)) ∧
      ((∃ entry ∈ entries, entry.field.opensArgument = false) →
        ∀ args, MappingArguments.ofTokens
          (commaSeparated false (arguments.map Grammar.argumentTokens)) ≠ .ok args) ∧
      ∀ entry ∈ entries, entry.field.namesField = true →
        (entry.field.opensArgument = true ↔ entry.field.spelling ≠ "_") := by
  have record := @builds_ofRecord policy inspection unmapped
  refine ⟨record, ?_, ?_, fun entry _ => Name.opensArgument_iff⟩
  · intro opens
    obtain ⟨result, read, given⟩ := builds_ofTokens listed distinct other opens
    exact ⟨result, read, given, record.agree given⟩
  · -- The argument of the entry opens with its field, so it is not read.
    rintro ⟨entry, among, closed⟩ args
    obtain ⟨argument, inside, sameField, -⟩ := exists_of_mem_forall₂ listed.flip among
    exact MappingArguments.ofTokens_ne_ok_of_closed ⟨argument, inside, by rwa [sameField]⟩

/-- A struct with a field that has the plain name of another one. -/
def twins : Item :=
  let field (spelling : String) : Field :=
    ⟨[], [], ⟨spelling, .origin⟩, .path (.ofName ⟨"u8", .origin⟩)⟩
  .struct
    { head := ⟨[], [], .origin, ⟨"Twins", .origin⟩, .empty⟩
      fields := .named [field "id", field "kind", field "r#id"] false }

/-- The entries of that struct. -/
def twinEntries : List KeyEntry :=
  [⟨⟨"id", .origin⟩, "id"⟩, ⟨⟨"kind", .origin⟩, "kind"⟩, ⟨⟨"r#id", .origin⟩, "id"⟩]

/-- The same entries as arguments: one key is written although it is the plain name. -/
def twinArguments : List (Name × Option String) :=
  [(⟨"id", .origin⟩, none), (⟨"kind", .origin⟩, some (Text.Quoted.literal "kind")),
    (⟨"r#id", .origin⟩, none)]

/-- The raw name clashes with the plain one, in the record and in the arguments alike. -/
theorem builds_both_ways_twins : ∃ inspection,
    Inspection.ofItem "codable" twins = .ok inspection ∧
      inspection.record.existing.keyMapping = none ∧
        List.Forall₂ KeyEntry.ListedAs twinEntries twinArguments ∧
          outcome (ofRecord .standard inspection) =
            .error "serialization key `id` is used by both `id` and `id`" ∧
          ∃ result, MappingArguments.ofTokens
              (commaSeparated false (twinArguments.map Grammar.argumentTokens)) =
                result.map (fun mapping => ⟨mapping, none⟩) ∧
            Agree FieldInfo.pos inspection.fields (ofRecord .standard inspection) (·.field.pos)
              twinEntries result := by
  have listed : List.Forall₂ KeyEntry.ListedAs twinEntries twinArguments :=
    .cons ⟨rfl, rfl⟩ (.cons ⟨rfl, Text.Quoted.value?_literal _⟩ (.cons ⟨rfl, rfl⟩ .nil))
  -- All three fields are included, and spelled as the entries.
  obtain ⟨inspection, inspected, unmapped, all, spelled, message⟩ : ∃ inspection,
      Inspection.ofItem "codable" twins = .ok inspection ∧
        inspection.record.existing.keyMapping = none ∧
          inspection.fields.filter InclusionPolicy.standard.includes = inspection.fields ∧
            inspection.fields.map (·.entry.spelled) = twinEntries.map KeyEntry.spelled ∧
              outcome (ofRecord .standard inspection) =
                .error "serialization key `id` is used by both `id` and `id`" :=
    ⟨_, rfl, rfl, rfl, rfl, rfl⟩
  obtain ⟨-, given, -⟩ := @builds_both_ways .standard inspection unmapped _ _ listed (by decide)
    (by decide)
  obtain ⟨result, read, -, agree⟩ := given (by decide)
  rw [all] at agree
  exact ⟨inspection, inspected, unmapped, listed, message, result, read, agree spelled⟩

/--
The blank name is one that a field can have, and the record of such a field has a mapping; the same
entry is not accepted as an argument.
-/
theorem builds_both_ways_fails :
    blank.Synthesized ∧ List.Forall₂ KeyEntry.ListedAs blank.entries [(⟨"_", .origin⟩, none)] ∧
      (∀ entry ∈ blank.entries, entry.field.namesField = true ∧ entry.field.spelling ≠ "crate") ∧
        (blank.entries.map (·.field.spelling)).Nodup ∧ (blank.entries.map (·.key)).Nodup ∧
          ∀ args, MappingArguments.ofTokens
            (commaSeparated false ([(⟨"_", .origin⟩, none)].map Grammar.argumentTokens)) ≠
              .ok args := by
  -- A field may be called by the blank name, which no argument may begin with.
  refine ⟨⟨blankTokens, .origin, _, "", .standard, _, rfl, rfl, rfl⟩, .cons ⟨rfl, rfl⟩ .nil,
    by decide, by decide, by decide, fun args => ?_⟩
  exact MappingArguments.ofTokens_ne_ok_of_closed ⟨_, List.mem_singleton_self _, rfl⟩

end KeyMapping

end KeyedCoding
