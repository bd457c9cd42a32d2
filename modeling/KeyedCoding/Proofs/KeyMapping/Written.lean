import KeyedCoding.Proofs.Grammar.TextValue
import KeyedCoding.Proofs.KeyMapping.Arguments
import KeyedCoding.Proofs.Token.Separated

/-!
Written mappings: which tokens are read as the arguments of a mapping, and what they give.
-/

namespace KeyedCoding.MappingArguments

open Reader

/-- What one argument says: an entry of the mapping, or the path of the runtime. -/
inductive Argument where
  | entry (listed : KeyEntry)
  | runtime (path : Path)

namespace Argument

/-- The entry that an argument gives. -/
def entry? : Argument → Option KeyEntry
  | .entry listed => some listed
  | .runtime _ => none

/-- The path of the runtime that an argument gives. -/
def runtime? : Argument → Option Path
  | .entry _ => none
  | .runtime path => some path

/--
Tokens that say an argument: a field on its own, a field with a string literal as its key, or the word
for the runtime with a string literal that holds a path.
-/
inductive Writes : Argument → List Token → Prop
  | plain {field : Name} (opens : field.listsField = true) :
      Writes (.entry ⟨field, field.plain⟩) [field.token]
  | keyed {field : Name} {written : String} (joint : Bool) (place pos : Position)
      (opens : field.listsField = true) (text : Look.isText written = true) :
      Writes (.entry ⟨field, (Token.literal written pos).textValue⟩)
        [field.token, .punct '=' joint place, .literal written pos]
  | runtime {path : Path} {written : String} (start : Position) (joint : Bool)
      (place pos : Position) (text : Look.isText written = true)
      (read : Path.ofLiteral (.literal written pos) = .ok path) :
      Writes (.runtime path)
        [.name "crate" start, .punct '=' joint place, .literal written pos]

end Argument

/-- An argument as it is written, with what it says. -/
structure WrittenArgument where
  tokens : List Token
  argument : Argument
  writes : argument.Writes tokens

/-- A field on its own as an argument. -/
def WrittenArgument.plain (field : Name) (opens : field.listsField = true) : WrittenArgument :=
  ⟨[field.token], .entry ⟨field, field.plain⟩, .plain opens⟩

/-- The entries that written arguments give, in their order. -/
def entriesOf (arguments : List WrittenArgument) : List KeyEntry :=
  arguments.filterMap (·.argument.entry?)

/-- The path of the runtime that written arguments give: the last one holds. -/
def runtimeOf (arguments : List WrittenArgument) : Option Path :=
  (arguments.filterMap (·.argument.runtime?)).getLast?

/-- Tokens that write arguments: commas stand between them, and one may stand behind the last. -/
def Written (arguments : List WrittenArgument) (tokens : List Token) : Prop :=
  ∃ trailing, Token.Separated trailing (arguments.map (·.tokens)) tokens

variable {g : Grammar} {args after : MappingArguments} {inside : Meta} {tokens : List Token}
  {argument : Argument}

/-! What arguments add. -/

/-- The arguments with one more; a field and a key may be given once. -/
def give? (args : MappingArguments) : Argument → Option MappingArguments
  | .entry listed =>
    if args.mapping.contains listed.field then none
    else if listed.key ∈ args.mapping.keys then none
    else some { args with mapping := args.mapping.push listed.field listed.key }
  | .runtime path => some { args with runtime := some path }

/-- Arguments can be given one after the other exactly if no field and no key repeats. -/
theorem foldlM_give?_iff {arguments : List Argument} (wellFormed : args.mapping.WellFormed) :
    arguments.foldlM give? args = some after ↔ after.mapping.WellFormed ∧
      after.mapping.entries = args.mapping.entries ++ arguments.filterMap Argument.entry? ∧
        after.runtime = (arguments.filterMap Argument.runtime?).getLast?.or args.runtime := by
  -- The induction goes on from a mapping that is well-formed, as all entries so far are new.
  obtain ⟨last, path⟩ := after
  induction arguments generalizing args with
  | nil =>
    simp only [List.foldlM_nil, List.filterMap_nil, List.append_nil, List.getLast?_nil,
      Option.none_or]
    constructor
    · rintro ⟨⟩
      exact ⟨wellFormed, rfl, rfl⟩
    · rintro ⟨-, entries, rfl⟩
      rw [KeyMapping.ext_entries entries]
      rfl
  | cons argument rest ih =>
    rw [List.foldlM_cons]
    cases argument with
    | runtime given =>
      refine (@ih { args with runtime := some given } wellFormed).trans ?_
      -- A later path of the runtime takes the place of this one.
      have entries : (Argument.runtime given :: rest).filterMap Argument.entry? =
          rest.filterMap Argument.entry? := List.filterMap_cons_none rfl
      have paths : (Argument.runtime given :: rest).filterMap Argument.runtime? =
          given :: rest.filterMap Argument.runtime? := List.filterMap_cons_some rfl
      rw [entries, paths, List.getLast?_cons]
      cases (rest.filterMap Argument.runtime?).getLast? <;> rfl
    | entry listed =>
      by_cases fits : (args.mapping.push listed.field listed.key).WellFormed
      · -- The entry is new, and the others are added to it.
        obtain ⟨-, field, key⟩ := KeyMapping.wellFormed_push_iff.mp fits
        have added : args.give? (.entry listed) =
            some { args with mapping := args.mapping.push listed.field listed.key } := by
          simp [give?, field, key]
        rw [added]
        refine (@ih { args with mapping := args.mapping.push listed.field listed.key } fits).trans ?_
        simp [KeyMapping.push, Argument.entry?, Argument.runtime?, List.filterMap_cons]
      · -- What repeats a field or a key does so whatever else is added.
        have refused : args.give? (.entry listed) = none := by
          simp only [give?]
          split
          · rfl
          · rename_i field
            rw [if_pos (not_not.mp fun key => fits
              (KeyMapping.wellFormed_push_iff.mpr ⟨wellFormed, by simpa using field, key⟩))]
        rw [refused]
        refine iff_of_false (fun impossible => by cases impossible) ?_
        rintro ⟨⟨fields, keys⟩, entries, -⟩
        have begins : (args.mapping.push listed.field listed.key).entries.Sublist last.entries := by
          rw [entries, KeyMapping.push]
          simp [Argument.entry?]
        exact fits ⟨fields.sublist (begins.map _), keys.sublist (begins.map _)⟩

/-- An argument that is read means what is written if adding it has the same effect. -/
def Means (inside : Meta) (argument : Argument) : Prop :=
  ∀ args after, add args inside = .ok after ↔ args.give? argument = some after

/-- An argument of a field adds its entry. -/
theorem means_entry {field : Name} {literal : Option Token}
    (other : inside.path.isName "crate" = false) (single : inside.path.singleName? = some field)
    (key : keyOf inside = .ok literal) :
    Means inside (.entry ⟨field, (literal.map Token.textValue).getD field.plain⟩) := by
  intro args after
  have entry : add args inside = args.addEntry inside.path literal := by
    rw [add, key]
    simp only [bind, Except.bind, other, Bool.false_eq_true, if_false]
  -- Both ask first for the field and then for the key.
  rw [entry, addEntry, single]
  simp only [give?]
  split
  · simp
  · rw [bind_eq_ok_iff]
    simp only [KeyMapping.insert_eq_ok_iff]
    split
    · rename_i taken
      simp [taken]
    · rename_i fresh
      simp [fresh, pure, Except.pure]

/-- An argument of the runtime gives its path. -/
theorem means_runtime {literal : Token} {path : Path} (named : inside.path.isName "crate" = true)
    (key : keyOf inside = .ok (some literal)) (read : Path.ofLiteral literal = .ok path) :
    Means inside (.runtime path) := by
  -- The argument is read as the path whatever has been added before.
  intro args after
  have runtime : add args inside = .ok { args with runtime := some path } := by
    rw [add, key]
    simp only [bind, Except.bind, named, if_true, addRuntime, read]
    rfl
  rw [runtime, give?, Except.ok.injEq, Option.some.injEq]

/-- Arguments that say what is written are added with the same effect, one after the other. -/
theorem foldlM_add_iff {entries : List Meta} {arguments : List Argument}
    (alike : List.Forall₂ Means entries arguments) :
    entries.foldlM add args = .ok after ↔ arguments.foldlM give? args = some after := by
  -- The two lists have the same length, and their heads have the same effect on every start.
  induction alike generalizing args with
  | nil => simp [pure, Except.pure]
  | cons first _ ih =>
    rw [List.foldlM_cons, List.foldlM_cons, bind_eq_ok_iff, Option.bind_eq_bind,
      Option.bind_eq_some_iff]
    exact exists_congr fun next => and_congr (first args next) ih

/-! Arguments that are written are read. -/

/-- A tail ends an argument. -/
theorem endsArgument_tail (tail : Tail) : Look.endsArgument tail.tokens := by
  -- A tail is empty or begins with a comma.
  obtain ⟨_ | ⟨token, more⟩, comma⟩ := tail
  · exact .inl rfl
  · obtain ⟨joint, pos, rfl⟩ := comma token rfl
    exact .inr ⟨joint, pos, more, rfl⟩

/-- A key that is a string literal is taken from an argument. -/
theorem keyOf_value {path : Path} {place pos : Position} {written : String} {heads : List String}
    (text : Look.isText written = true) :
    keyOf ⟨path, .value place ⟨[.literal written pos], heads⟩⟩ =
      .ok (some (.literal written pos)) := by
  -- The value is one token, and that token is a string literal.
  simp only [keyOf, keyLiteral?, text, if_true]

/-- A written argument is read before every tail as one that says the same. -/
theorem Argument.Writes.exists_meta {written : List Token} (writes : argument.Writes written)
    (g : Grammar) : ∃ inside, Means inside argument ∧ ∀ tail : Tail,
      (Grammar.metaInside (Grammar.layer (Grammar.layer g))).Reads (written ++ tail.tokens) inside
        tail.tokens := by
  -- The three forms of an argument: a name, a name with a key, and the path of the runtime.
  cases writes with
  | @plain field opens =>
    rw [Name.listsField, Bool.and_eq_true, bne_iff_ne] at opens
    refine ⟨⟨.ofName field, .none⟩, ?_, fun tail => ?_⟩
    · exact @means_entry ⟨.ofName field, .none⟩ field none
        (by rw [Path.isName_ofName]; exact beq_false_of_ne opens.2) rfl rfl
    · exact Grammar.metaInside_reads_name _ opens.1 (endsArgument_tail tail)
  | @keyed field text joint place pos opens isText =>
    rw [Name.listsField, Bool.and_eq_true, bne_iff_ne] at opens
    refine ⟨⟨.ofName field, .value place ⟨[.literal text pos], []⟩⟩, ?_, fun tail => ?_⟩
    · exact @means_entry ⟨.ofName field, .value place ⟨[.literal text pos], []⟩⟩ field
        (some (.literal text pos)) (by rw [Path.isName_ofName]; exact beq_false_of_ne opens.2) rfl
        (keyOf_value isText)
    · exact Grammar.metaInside_reads_literal _ opens.1 (endsArgument_tail tail)
  | @runtime path text start joint place pos isText read =>
    refine ⟨⟨.ofName ⟨"crate", start⟩, .value place ⟨[.literal text pos], []⟩⟩, ?_, fun tail => ?_⟩
    · exact means_runtime rfl (keyOf_value isText) read
    · exact @Grammar.metaInside_reads_literal _ ⟨"crate", start⟩ _ _ _ _ _ rfl
        (endsArgument_tail tail)

/-- No argument is written without tokens. -/
theorem Argument.Writes.ne_nil {written : List Token} (writes : argument.Writes written) :
    written ≠ [] := by
  -- Every argument starts with a token of its field.
  cases writes <;> exact List.cons_ne_nil _ _

/-- Written arguments are read as arguments that say the same. -/
theorem Written.exists_read {arguments : List WrittenArgument} (written : Written arguments tokens) :
    ∃ entries ends, Grammar.read (fun g => commaList g.metaInside) tokens = .ok (entries, ends) ∧
      List.Forall₂ Means entries (arguments.map (·.argument)) := by
  obtain ⟨trailing, separated⟩ := written
  -- Two layers of the grammar are enough for a literal, and here there are more.
  have each := exists_forall₂ fun (argument : WrittenArgument) (_ : argument ∈ arguments) =>
    argument.writes.exists_meta (Grammar.ofDepth (6 * Token.weightAll tokens + 10))
  obtain ⟨entries, each⟩ := each
  obtain ⟨ends, reads⟩ := separated.reads (List.forall₂_map_left_iff.mpr
    (each.imp fun argument inside known => ⟨argument.writes.ne_nil, known.2⟩))
  refine ⟨entries, ends, reads.run _, ?_⟩
  exact List.forall₂_map_right_iff.mpr (each.flip.imp fun _ _ known => known.1)

/-! What is read as arguments is written. -/

/-- A key that is taken from an argument is a string literal behind its name. -/
theorem exists_written_of_keyOf {literal : Option Token} (key : keyOf inside = .ok literal) :
    (inside.content = .none ∧ literal = none) ∨
      ∃ place value written pos, inside.content = .value place value ∧
        value.tokens = [.literal written pos] ∧ Look.isText written = true ∧
          literal = some (.literal written pos) := by
  -- The content is nothing, or a value that is a single literal.
  rw [keyOf] at key
  split at key
  · rename_i content
    cases key
    exact .inl ⟨content, rfl⟩
  · rename_i place value content
    -- A value can only be a key if it is one text.
    rw [keyLiteral?] at key
    split at key
    · rename_i found literal given
      cases key
      split at given
      · rename_i written pos tokens
        rw [Option.ite_none_right_eq_some] at given
        obtain ⟨text, same⟩ := given
        exact .inr ⟨place, value, written, pos, content, tokens, text, same.symm⟩
      · cases given
    · cases key
  · cases key

/-- An argument that is read and can be added is written. -/
theorem exists_written {scope : Position} {source left : Source} (known : g.TellsLiterals)
    (read : g.metaInside scope source = .ok (inside, left)) (added : args.add inside = .ok after) :
    ∃ written, source.rest = written ++ left.rest ∧
      ∃ argument : Argument, argument.Writes written := by
  obtain ⟨literal, key, taken⟩ := bind_eq_ok_iff.mp added
  have exact := Grammar.metaInside_exact known source.rest rfl read
  -- Behind the single name stands what the key has been taken from.
  have behind (name : Name) (single : inside.path.singleName? = some name) :
      (literal = none ∧ source.rest = name.token :: left.rest) ∨
        ∃ joint place written pos, Look.isText written = true ∧
          literal = some (.literal written pos) ∧
            source.rest =
              name.token :: .punct '=' joint place :: .literal written pos :: left.rest := by
    obtain ⟨none, value⟩ := exact name single
    rcases exists_written_of_keyOf key with ⟨content, rfl⟩ | ⟨place, given, written, pos, content,
      tokens, text, rfl⟩
    · exact .inl ⟨rfl, none content⟩
    · obtain ⟨joint, begins⟩ := value place given content ⟨written, pos, tokens⟩
      rw [tokens] at begins
      exact .inr ⟨joint, place, written, pos, text, rfl, begins⟩
  -- The word for the runtime needs a literal, and any other single name is a field.
  cases named : inside.path.isName "crate" with
  | true =>
    rw [named, if_pos rfl] at taken
    obtain ⟨start, single⟩ := Path.isName_iff.mp named
    rcases behind _ single with ⟨rfl, -⟩ | ⟨joint, place, written, pos, text, rfl, begins⟩
    · cases taken
    · obtain ⟨path, read, -⟩ := bind_eq_ok_iff.mp taken
      exact ⟨_, begins, _, .runtime start joint place pos text (mapError_eq_ok_iff.mp read)⟩
  | false =>
    rw [named, if_neg Bool.false_ne_true, addEntry] at taken
    cases single : inside.path.singleName? with
    | none =>
      rw [single] at taken
      cases taken
    | some field =>
      have opens : field.listsField = true := by
        rw [Name.listsField, Grammar.metaInside_gives g trivial read field single,
          Bool.true_and, bne_iff_ne]
        rw [Path.singleName?_eq_some_iff.mp single, Path.isName_ofName] at named
        exact ne_of_beq_false named
      rcases behind _ single with ⟨rfl, begins⟩ | ⟨joint, place, written, pos, text, rfl, begins⟩
      · exact ⟨_, begins, _, .plain opens⟩
      · exact ⟨_, begins, _, .keyed joint place pos opens text⟩

/-- What can be added one after the other can each be added to something. -/
theorem exists_add_of_foldlM {entries : List Meta} (added : entries.foldlM add args = .ok after) :
    ∀ inside ∈ entries, ∃ before next : MappingArguments, before.add inside = .ok next := by
  -- The first one is added to the start, and the others to what comes out of that.
  induction entries generalizing args with
  | nil => simp
  | cons entry rest ih =>
    obtain ⟨next, first, others⟩ := bind_eq_ok_iff.mp added
    exact List.forall_mem_cons.mpr ⟨⟨args, next, first⟩, ih others⟩

/-- Chunks that each write an argument are those of written arguments. -/
theorem exists_arguments {chunks : List (List Token)}
    (each : ∀ chunk ∈ chunks, ∃ argument : Argument, argument.Writes chunk) :
    ∃ arguments : List WrittenArgument, chunks = arguments.map (·.tokens) := by
  -- One argument is chosen for each chunk.
  induction chunks with
  | nil => exact ⟨[], rfl⟩
  | cons chunk rest ih =>
    rw [List.forall_mem_cons] at each
    obtain ⟨⟨argument, writes⟩, others⟩ := each
    obtain ⟨arguments, rfl⟩ := ih others
    exact ⟨⟨chunk, argument, writes⟩ :: arguments, rfl⟩

/-- What is read as the arguments of a mapping is written. -/
theorem exists_written_of_ofTokens (read : ofTokens tokens = .ok args) :
    ∃ arguments, Written arguments tokens := by
  obtain ⟨⟨entries, ends⟩, parsed, added⟩ := bind_eq_ok_iff.mp read
  obtain ⟨noted, whole⟩ := run_eq_ok_iff.mp (mapError_eq_ok_iff.mp parsed)
  -- An argument that could not be added would not be written, so the run is needed for the chunks.
  have each := exists_add_of_foldlM added
  obtain ⟨trailing, chunks, separated, taken⟩ := Token.Separated.exists_of_read
    (fun scope source left inside read among => by
      obtain ⟨before, next, one⟩ := each inside among
      exact exists_written (Grammar.ofDepth_tellsLiterals _) read one) whole
  obtain ⟨arguments, rfl⟩ := exists_arguments fun chunk among => by
    obtain ⟨inside, -, writes⟩ := exists_of_mem_forall₂ taken.flip among
    exact writes
  exact ⟨arguments, trailing, separated⟩

/-- Written arguments are read exactly if no field and no key repeats. -/
theorem Written.ofTokens_eq_ok_iff {arguments : List WrittenArgument}
    (written : Written arguments tokens) :
    ofTokens tokens = .ok args ↔ args.mapping.WellFormed ∧
      args.mapping.entries = entriesOf arguments ∧ args.runtime = runtimeOf arguments := by
  -- They are read, and added as they are given.
  obtain ⟨entries, ends, read, alike⟩ := written.exists_read
  have added := (foldlM_add_iff alike).trans
    (@foldlM_give?_iff {} args _ KeyMapping.WellFormed.empty)
  simp only [List.filterMap_map, List.nil_append, Option.or_none] at added
  rw [ofTokens, read]
  exact added

/--
The arguments of a mapping are read exactly where they are written with commas between them and no
field and no key repeats; their entries are the mapping.
-/
theorem ofTokens_eq_ok_iff_written : ofTokens tokens = .ok args ↔
    ∃ arguments, Written arguments tokens ∧ args.mapping.WellFormed ∧
      args.mapping.entries = entriesOf arguments ∧ args.runtime = runtimeOf arguments := by
  -- What is read has been written, and of what is written the rules for reading are known.
  constructor
  · intro read
    obtain ⟨arguments, written⟩ := exists_written_of_ofTokens read
    exact ⟨arguments, written, written.ofTokens_eq_ok_iff.mp read⟩
  · rintro ⟨arguments, written, rules⟩
    exact written.ofTokens_eq_ok_iff.mpr rules

end KeyedCoding.MappingArguments
