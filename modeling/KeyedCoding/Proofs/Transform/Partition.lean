import KeyedCoding.Proofs.Generated.Members
import KeyedCoding.Proofs.Store.AccessorCode
import KeyedCoding.Proofs.Transform.SecureAccessors

/-!
Secure storage splits the fields of a record in two: those that are not secure stay in the struct, and
each of the others becomes a getter and a setter. What is left has no more fields to split off.
-/

namespace KeyedCoding

/-- A member that is a documented function with a visibility, a name and a signature. -/
def Member.Declares (member : Member) (visibility : List Token) (name : Name)
    (signature : List Token) : Prop :=
  ∃ doc body, member.tokens = Token.symbol "#" ++ [Token.brackets doc] ++ visibility ++
    [Token.word "fn", name.token] ++ signature ++ [Token.braces body]

namespace SecureField

variable (field : SecureField) (runtime : Path)

/-- The optional type of a secure field is optional of what the field holds. -/
theorem isOptionOf_optionalType : field.optionalType.IsOptionOf field.ty :=
  Ty.optionInner?_eq_some_iff.mp rfl

/-- What the documentation of a member says, as the tokens of its attribute. -/
def docTokens (doc : String) : List Token :=
  [Token.word "doc"] ++ Token.symbol "=" ++ [.literal (Text.Quoted.literal doc) .origin]

/-- The getter has the name of its field, and gives an optional value. -/
theorem declares_getter :
    (field.getter runtime).Declares field.visibility field.name
      ([Token.parens (Token.symbol "&" ++ [Token.word "self"])] ++ Token.symbol "->" ++
        field.optionalType.tokens) := by
  -- The documentation stands in front of the visibility, and the body at the end.
  refine ⟨docTokens ("Reads `" ++ field.key.textValue ++ "` from secure storage."),
    field.readTokens runtime, ?_⟩
  simp only [getter, documented, docTokens, List.append_assoc, List.cons_append, List.nil_append]

/-- The setter is named after its field, and takes an optional value. -/
theorem declares_setter :
    (field.setter runtime).Declares field.visibility field.setterName
      [Token.parens (Token.symbol "&" ++ [Token.word "self"] ++ Token.symbol "," ++
        [Token.word "new_value"] ++ Token.symbol ":" ++ field.optionalType.tokens)] := by
  -- The documentation stands in front of the visibility, and the body at the end.
  refine ⟨docTokens ("Writes `" ++ field.key.textValue ++ "` to secure storage; `None` deletes it."),
    field.setterBody runtime, ?_⟩
  simp only [setter, documented, docTokens, List.append_assoc, List.cons_append, List.nil_append]

end SecureField

namespace SecureStorage

variable {store : Expr} {declared : Field} {field : SecureField} {fields : List Field}
  {tokens : List Token} {item : Item} {context : Context} {record : Record}
  {expansion : Expansion}

/-- The store of a field: its own, else the one that is given for all, else the shared one. -/
def storeTokens (args : StorageArguments) (runtime : Path) (options : SecureOptions) : List Token :=
  match options.store, args.store with
  | some own, _ => own.tokens
  | none, some given => given.tokens
  | none, none => (runtime.extend ["store", "shared"]).tokens ++ [Token.parens []]

/--
A getter and a setter for a declared field: the getter has the name of the field, the setter the plain
name behind `set_`, both have its visibility, and an optional type of what the field holds. They read
and write under the key of the field, in the store of the field.
-/
structure Accesses (args : StorageArguments) (runtime : Path) (declared : Field)
    (members : Member × Member) (options : SecureOptions) (optional : Ty) : Prop where
  read : SecureOptions.ofField declared = .ok (some options)
  wraps : optional.IsOptionOf declared.ty.present
  getter : members.1.Declares declared.visibility declared.name
    ([Token.parens (Token.symbol "&" ++ [Token.word "self"])] ++ Token.symbol "->" ++
      optional.tokens)
  setter : members.2.Declares declared.visibility
    ⟨"set_" ++ declared.name.plain, declared.name.pos⟩
    [Token.parens (Token.symbol "&" ++ [Token.word "self"] ++ Token.symbol "," ++
      [Token.word "new_value"] ++ Token.symbol ":" ++ optional.tokens)]
  code : AccessorCode.ofMembers? runtime members.1 members.2 =
    some ⟨storeTokens args runtime options, options.key.textValue,
      StoreGetter.ofType declared.ty.present⟩

/-- The default store is the given one, or the shared one of the runtime. -/
theorem storeTokens_of_storeOf {args : StorageArguments} {runtime : Path}
    (shared : storeOf args runtime = .ok store) (options : SecureOptions) :
    (options.store.getD store).tokens = storeTokens args runtime options := by
  -- The store of the field comes first, then the given one, and the shared one at last.
  rw [storeTokens]
  cases options.store with
  | some own => rfl
  | none =>
    rw [storeOf] at shared
    cases given : args.store with
    | some other =>
      rw [given] at shared
      cases shared
      rfl
    | none =>
      rw [given] at shared
      simp only [SecureField.sharedStore] at shared
      split at shared
      · cases shared
        rfl
      · cases shared

/-- What leaves of a secure field is its head, what it holds, and its options. -/
theorem place_eq_secured (placed : place store declared = .ok (.secured field)) :
    ∃ options, SecureOptions.ofField declared = .ok (some options) ∧
      field = ⟨declared.visibility, declared.name, declared.ty.present, options.key,
        options.store.getD store⟩ := by
  -- A field is secured only with options, and these are read from it.
  obtain ⟨options, read, rest⟩ := bind_eq_ok_iff.mp placed
  cases options with
  | none => cases rest
  | some options =>
    refine ⟨options, mapError_eq_ok_iff.mp read, ?_⟩
    cases rest
    rfl

/-- The members of a field that has left access what was declared. -/
theorem accesses_of_placed {args : StorageArguments} {runtime : Path}
    (shared : storeOf args runtime = .ok store)
    (placed : place store declared = .ok (.secured field)) :
    ∃ options optional, Accesses args runtime declared
      (field.getter runtime, field.setter runtime) options optional := by
  -- The accessors are made from the options of the field, and what they say is read back.
  obtain ⟨options, read, same⟩ := place_eq_secured placed
  have holds : field.ty = declared.ty.present := congrArg SecureField.ty same
  have reads := field.declares_getter runtime
  have writes := field.declares_setter runtime
  subst same
  refine ⟨options, _, ⟨read, holds ▸ SecureField.isOptionOf_optionalType _, reads, writes, ?_⟩⟩
  rw [SecureField.ofMembers?_accessors, SecureField.code, storeTokens_of_storeOf shared]

/-- A field that is not secure stays where it is. -/
theorem place_of_plain (plain : declared.isSecure = false) :
    place store declared = .ok (.kept declared) := by
  -- Without the attribute there are no options.
  have absent : declared.attributes.find? (·.path.isName Attribute.secureName) = none := by
    simpa [Field.isSecure] using plain
  rw [place, SecureOptions.ofField, absent]
  rfl

/-- Fields that are not secure stay, all of them and in their order. -/
theorem mapM_place_of_plain (plain : ∀ field ∈ fields, field.isSecure = false) :
    fields.mapM (place store) = .ok (fields.map .kept) := by
  -- Each field is placed by itself.
  rw [mapM_eq_ok_iff, List.forall₂_map_right_iff, List.forall₂_same]
  exact fun field inside => place_of_plain (plain field inside)

/-- Where all fields stay, none leaves. -/
theorem secured_kept (fields : List Field) : secured (fields.map .kept) = [] := by
  -- A field that stays gives no secured one.
  rw [secured, List.filterMap_map]
  exact List.filterMap_eq_nil_iff.mpr fun _ _ => rfl

/--
Without a secure field there is nothing to do: once the arguments are read and give a store, the
declaration comes back as it is, with a finding about that.
-/
theorem expand_of_plain {inspection : Inspection} (tokens : List Token) (context : Context)
    (inspected : Inspection.ofItem name item = .ok inspection)
    (plain : ∀ field ∈ inspection.record.fields, field.isSecure = false) :
    expand tokens item context = (do
      let args ← Synthesis.ofReading (StorageArguments.ofTokens tokens)
      let _ ← storeOf args (args.runtime.getD context.runtime)
      return ⟨[item], context.config.apply [unusedStorage inspection.record]⟩) := by
  rw [expand_eq]
  refine bind_congr fun args => ?_
  rw [inspected]
  cases shared : storeOf args (args.runtime.getD context.runtime) with
  | error fault => rfl
  | ok store =>
    -- All fields stay, so the two sides are the whole record and nothing.
    have stay : inspection.record.fields.mapM (place store) =
        .ok (inspection.record.fields.map .kept) := mapM_place_of_plain plain
    show (inspection.record.fields.mapM (place store) >>= _) = _
    rw [stay]
    show (if (secured (inspection.record.fields.map .kept)).isEmpty then _ else _) = _
    rw [secured_kept]
    rfl

/-- So it is with all arguments that can be read and give a store. -/
theorem expand_unused {args : StorageArguments} {inspection : Inspection}
    (read : StorageArguments.ofTokens tokens = .ok args)
    (shared : storeOf args (args.runtime.getD context.runtime) = .ok store)
    (inspected : Inspection.ofItem name item = .ok inspection)
    (plain : ∀ field ∈ inspection.record.fields, field.isSecure = false) :
    expand tokens item context =
      .ok ⟨[item], context.config.apply [unusedStorage inspection.record]⟩ := by
  -- Everything before the placement succeeds, and the placement leaves all fields where they are.
  rw [expand_of_plain tokens context inspected plain, read]
  exact bind_eq_ok_iff.mpr ⟨_, rfl, bind_eq_ok_iff.mpr ⟨_, shared, rfl⟩⟩

/-- What secure storage makes of a record with secure fields. -/
structure Splits (args : StorageArguments) (runtime : Path) (record : Record)
    (expansion : Expansion) (members : List (Member × Member)) : Prop where
  items : expansion.items =
    record.reassemble ⟨record.head, .named (record.fields.filter (!·.isSecure)) false⟩
      [record.target.implement none (members.flatMap fun pair => [pair.1, pair.2])]
  diagnostics : expansion.diagnostics = []
  accesses : List.Forall₂
    (fun declared pair => ∃ options optional, Accesses args runtime declared pair options optional)
    (record.fields.filter (·.isSecure)) members

namespace Run

variable (run : Run tokens item context)

/-- What is left of the record can be inspected again. -/
theorem exists_ofItem_first :
    ∃ infos, Inspection.ofItem name run.first = .ok ⟨run.remainder, infos⟩ := by
  have described := Inspection.fields_described run.inspected
  -- The remaining fields are described as they were among the others.
  obtain ⟨infos, known⟩ : ∃ infos, List.Forall₂ (fun field info => FieldInfo.ofField field = .ok info)
      run.remainder.fields infos := by
    refine exists_forall₂ fun field inside => ?_
    obtain ⟨info, -, known⟩ := exists_of_mem_forall₂ described.flip (List.mem_of_mem_filter inside)
    exact ⟨info, known⟩
  refine ⟨infos, Inspection.ofItem_eq_ok_iff.mpr ⟨run.asRecord_first, ?_⟩⟩
  refine FieldInfo.ofFieldsAfter_eq_ok_iff.mpr ⟨known, ?_, by simp⟩
  exact (Inspection.declared_nodup run.inspected).sublist (List.filter_sublist.map _)

/-- No field that is left is secure. -/
theorem plain_remainder : ∀ field ∈ run.remainder.fields, field.isSecure = false :=
  fun field inside => by simpa using (List.mem_filter.mp inside).2

/-- With a secure field the fields are split, and each that leaves has a getter and a setter. -/
theorem splits (secure : ∃ field ∈ run.record.fields, field.isSecure = true) :
    ∃ members, Splits run.args (run.args.runtime.getD context.runtime) run.record run.expansion
      members := by
  -- A secure field leaves, so there are accessors, one pair for each field that leaves.
  have leaves : run.record.fields.all (!·.isSecure) = false := by simpa using secure
  have some : (secured run.placements).isEmpty = false :=
    (kept_of_placed run.placed).2.trans leaves
  let runtime := run.args.runtime.getD context.runtime
  let pair (field : SecureField) : Member × Member := (field.getter runtime, field.setter runtime)
  refine ⟨(secured run.placements).map pair, ?_, ?_, ?_⟩
  · rw [expansion, left, leftOf, leaves, Bool.false_and, accessorsOf_eq_ok run.declared, some,
      List.flatMap_map]
    rfl
  · rw [expansion, some]
    rfl
  · rw [List.forall₂_map_right_iff]
    exact (secured_of_placed run.placed).imp fun _ _ placed => accesses_of_placed run.shared placed

end Run

/--
Secure storage splits the fields of a record. Without a secure field the declaration comes back, with
one finding. Otherwise the struct is left with the fields that are not secure, in their order, and
one impl, generic as the struct is, has a getter and a setter for each of the others. What comes back
first has no secure field, whatever arguments it is expanded with again.
-/
theorem expand_partitions (found : item.asRecord = .ok record)
    (expanded : expand tokens item context = .ok expansion) :
    ∃ args, StorageArguments.ofTokens tokens = .ok args ∧
      ((∀ field ∈ record.fields, field.isSecure = false) →
        expansion = ⟨[item], context.config.apply [unusedStorage record]⟩) ∧
      ((∃ field ∈ record.fields, field.isSecure = true) → ∃ members,
        Splits args (args.runtime.getD context.runtime) record expansion members) ∧
      ∃ first rest, expansion.items = first :: rest ∧
        expand tokens first context = .ok ⟨[first], context.config.apply [unusedStorage record]⟩ ∧
        ∀ tokens' context', expand tokens' first context' = (do
          let again ← Synthesis.ofReading (StorageArguments.ofTokens tokens')
          let _ ← storeOf again (again.runtime.getD context'.runtime)
          return ⟨[first], context'.config.apply [unusedStorage record]⟩) := by
  obtain ⟨run, rfl⟩ := expand_eq_ok_iff.mp expanded
  obtain rfl := Except.ok.inj (found.symm.trans run.found)
  obtain ⟨infos, inspected⟩ := run.exists_ofItem_first
  -- What is left has the name of the record, so the finding about it is the same.
  have again := expand_unused run.read run.shared inspected run.plain_remainder
  have always (tokens' : List Token) (context' : Context) :=
    expand_of_plain tokens' context' inspected run.plain_remainder
  refine ⟨run.args, run.read, fun plain => ?_, run.splits, run.first, _, Record.reassemble_eq _,
    again, always⟩
  exact Except.ok.inj (expanded.symm.trans (expand_unused run.read run.shared run.inspected plain))

/--
A struct with two fields that stay, and two secure fields between them: one has a raw name, the other
a store of its own and an optional type.
-/
def vault : Struct :=
  let type (name : String) (arguments : Arguments) : Ty :=
    .path ⟨none, [⟨⟨name, .origin⟩, arguments⟩]⟩
  let secure (options : List Token) : Attribute :=
    .withList (.ofName ⟨Attribute.secureName, .origin⟩) options
  let named (attributes : List Attribute) (name : String) (ty : Ty) : Field :=
    ⟨attributes, [], ⟨name, .origin⟩, ty⟩
  { head := ⟨[], [], .origin, ⟨"Vault", .origin⟩, .empty⟩
    fields := .named
      [named [] "id" (type "u8" .none),
       named [secure [.literal "\"t\"" .origin]] "r#type" (type "String" .none),
       named [secure ([.literal "\"p\"" .origin] ++ Token.symbol "," ++ [Token.word "store"] ++
         Token.symbol "=" ++ [Token.word "LOCAL"])] "pin"
         (type "Option" (.angle false [.type (type "u32" .none)] false)),
       named [] "level" (type "u8" .none)]
      false }

/-- That struct is split two and two, and what is left comes back as it is. -/
theorem expand_partitions_vault :
    ∃ record expansion members first rest, Item.asRecord (.struct vault) = .ok record ∧
      expand [] (.struct vault) ⟨{}, Context.standardRuntime⟩ = .ok expansion ∧
      Splits {} Context.standardRuntime record expansion members ∧ members.length = 2 ∧
      expansion.items = first :: rest ∧
      expand [] first ⟨{}, Context.standardRuntime⟩ = .ok ⟨[first], [unusedStorage record]⟩ := by
  -- The struct has secure fields, so the general statement gives the split.
  obtain ⟨record, found⟩ : ∃ record, Item.asRecord (.struct vault) = .ok record := ⟨_, rfl⟩
  obtain ⟨expansion, expanded⟩ : ∃ expansion,
      expand [] (.struct vault) ⟨{}, Context.standardRuntime⟩ = .ok expansion := ⟨_, rfl⟩
  obtain ⟨args, read, -, split, first, rest, items, again, -⟩ := expand_partitions found expanded
  cases read
  cases found
  obtain ⟨members, splits⟩ := split ⟨_, .tail _ (.head _), rfl⟩
  exact ⟨_, expansion, members, first, rest, rfl, expanded, splits, splits.accesses.length_eq.symm,
    items, again⟩

end SecureStorage

end KeyedCoding
