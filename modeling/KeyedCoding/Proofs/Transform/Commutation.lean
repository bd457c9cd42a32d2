import KeyedCoding.Proofs.Transform.Frame

/-!
Coding and secure storage commute: to either step, a field that the other one handles is as good as
absent.
-/

namespace KeyedCoding

/-- The attribute of secure storage is found among the others whether or not these are stripped. -/
theorem SecureOptions.ofField_strip (field : Field) :
    ofField (Field.strip [Attribute.codableName] field) = ofField field := by
  -- An attribute of secure storage is no coding one, so no attribute that is found is stripped.
  have kept : (fun attr : Attribute =>
      decide ((!attr.path.isName Attribute.codableName) = true ∧
        attr.path.isName Attribute.secureName = true)) =
      fun attr => attr.path.isName Attribute.secureName := by
    funext attr
    cases secure : attr.path.isName Attribute.secureName with
    | false => simp
    | true => simp [Attribute.not_isCodable_of_isSecure secure]
  have found : (Field.strip [Attribute.codableName] field).attributes.find?
        (·.path.isName Attribute.secureName) =
      field.attributes.find? (·.path.isName Attribute.secureName) := by
    rw [Field.strip, Attribute.strip, List.find?_filter]
    simpa using congrArg (List.find? · field.attributes) kept
  rw [ofField, ofField, found]

namespace SecureStorage

/-- Fields whose coding options are gone leave in the same way as before. -/
theorem exists_placed_of_strip {store : Expr} {fields : List Field} {placements : List Placement}
    (placed : (fields.map (Field.strip [Attribute.codableName])).mapM (place store) =
      .ok placements) :
    ∃ before, fields.mapM (place store) = .ok before ∧ secured before = secured placements := by
  rw [mapM_eq_ok_iff, List.forall₂_map_left_iff] at placed
  -- A field goes to the same side, and one that leaves takes nothing along that was stripped.
  induction placed with
  | nil => exact ⟨[], rfl, rfl⟩
  | @cons field placement fields placements first _ ih =>
    obtain ⟨before, others, same⟩ := ih
    obtain ⟨options, read, rest⟩ := bind_eq_ok_iff.mp first
    rw [SecureOptions.ofField_strip] at read
    cases options with
    | none =>
      cases rest
      have placed : place store field = .ok (.kept field) :=
        bind_eq_ok_iff.mpr ⟨none, read, rfl⟩
      refine ⟨.kept field :: before, ?_, same⟩
      exact mapM_eq_ok_iff.mpr (.cons placed (mapM_eq_ok_iff.mp others))
    | some options =>
      cases rest
      have placed : place store field = .ok (.secured ⟨field.visibility, field.name,
          field.ty.present, options.key, options.store.getD store⟩) :=
        bind_eq_ok_iff.mpr ⟨some options, read, rfl⟩
      refine ⟨_ :: before, mapM_eq_ok_iff.mpr (.cons placed (mapM_eq_ok_iff.mp others)), ?_⟩
      exact congrArg (List.cons _) same

end SecureStorage

namespace Codable.Run

variable {codable : Codable} {tokens storage : List Token} {item : Item} {context : Context}
  (run : Run codable tokens item context)

/-- What is known of the fields that are not secure. -/
def plainFields : List FieldInfo := run.inspection.fields.filter (!·.isAccessor)

/-- The reads are made for the fields that are not secure, from their stored entries. -/
theorem reads_stored :
    run.plainFields.filterMap (DecodeInitializer.readOf? run.stored) =
      run.inspection.fields.filterMap (DecodeInitializer.readOf? run.mapping) := by
  -- A computed field has no read, and any other one is eligible in both mappings or in neither.
  rw [plainFields, List.filterMap_filter]
  refine List.filterMap_congr fun field inside => ?_
  cases computed : field.isAccessor with
  | true => simp [DecodeInitializer.readOf?_eq_none computed]
  | false =>
    refine DecodeInitializer.readOf?_congr ?_
    rw [DecodeInitializer.isEligible, DecodeInitializer.isEligible,
      run.contains_stored inside computed]

/-- So are the writes. -/
theorem writes_stored :
    EncodeImpl.writesOf run.stored run.plainFields =
      EncodeImpl.writesOf run.mapping run.inspection.fields := by
  -- A computed field has no write, and any other one is written in both mappings or in neither.
  rw [EncodeImpl.writesOf, EncodeImpl.writesOf, plainFields, List.filter_filter]
  refine congrArg (List.map EncodeImpl.writeOf) (List.filter_congr fun field inside => ?_)
  cases computed : field.isAccessor with
  | true => simp [EncodeImpl.isWritten, computed]
  | false => simp [EncodeImpl.isWritten, run.contains_stored inside computed, computed]

/-- Some field is read from the container exactly if one that is not secure is. -/
theorem any_isEligible_stored :
    run.plainFields.any (DecodeInitializer.isEligible run.stored) =
      run.inspection.fields.any (DecodeInitializer.isEligible run.mapping) := by
  rw [Bool.eq_iff_iff, plainFields, List.any_filter, List.any_eq_true, List.any_eq_true]
  refine exists_congr fun field => and_congr_right fun inside => ?_
  cases computed : field.isAccessor with
  | true =>
    -- A secure field has a value of its own.
    have accessor := FieldInfo.isAccessor_eq_true_iff.mp computed
    simp [DecodeInitializer.isEligible, FieldInfo.isInitialized, accessor]
  | false => simp [DecodeInitializer.isEligible, run.contains_stored inside computed]

/-- Secure storage finds the record that coding finds, if it runs on the same declaration. -/
theorem record_earlier (earlier : SecureStorage.Run storage item context) :
    earlier.record = run.record :=
  Except.ok.inj (earlier.found.symm.trans run.found)

/-- After coding it finds the record that coding has put back. -/
theorem record_second (second : SecureStorage.Run storage run.first context) :
    second.record = run.outcome :=
  Except.ok.inj (second.found.symm.trans run.asRecord_first)

/-- The coding impls are those of the fields that are not secure and of the stored entries. -/
theorem impls_stored {left : Record} (target : left.target = run.record.target)
    (existing : left.existing = run.record.existing) :
    CodingImpls.ofMapping ⟨left, run.plainFields⟩ run.stored = run.impls := by
  -- Both mappings are made from the fields, so no entry is unknown.
  have known : DecodeInitializer.unknownFields run.inspection run.mapping = [] :=
    DecodeInitializer.unknownFields_eq_nil run.mapping_entries fun field among =>
      List.mem_of_mem_filter among
  have stored : DecodeInitializer.unknownFields ⟨left, run.plainFields⟩ run.stored = [] := by
    refine DecodeInitializer.unknownFields_eq_nil run.stored_entries fun field among => ?_
    obtain ⟨member, both⟩ := List.mem_filter.mp among
    rw [Bool.and_eq_true] at both
    exact List.mem_filter.mpr ⟨member, both.2⟩
  change left.existing = run.inspection.record.existing at existing
  change left.target = run.inspection.record.target at target
  simp only [impls, CodingImpls.ofMapping, DecodeInitializer.ofMapping, EncodeImpl.ofMapping?,
    known, stored, run.any_isEligible_stored, run.reads_stored, run.writes_stored, existing, target]

/-- No secure field has a stored entry, so all stay stored where the secure fields are gone. -/
theorem stored_stored : run.stored.stored run.plainFields = run.stored := by
  -- An entry would have to name a computed field, and none of the plain fields is computed.
  refine KeyMapping.ext_entries (List.filter_eq_self.mpr fun entry _ => ?_)
  rw [Bool.not_eq_true', KeyMapping.namesAccessor, List.any_eq_false]
  intro field inside
  simp [show field.isAccessor = false by simpa using (List.mem_filter.mp inside).2]

/-- The fields that secure storage leaves have the stored entries for a mapping. -/
theorem ofFields_plainFields :
    KeyMapping.ofFields (codable.policy run.args context.config) run.plainFields =
      .ok run.stored := by
  obtain ⟨unique, -⟩ := KeyMapping.ofFields_eq_ok_iff.mp
    (KeyMapping.ofRecord_eq_ok_iff.mp run.mapped).2
  refine KeyMapping.ofFields_eq_ok_iff.mpr ⟨?_, ?_⟩
  · -- The keys are some of those that differ with the secure fields.
    exact unique.sublist ((List.filter_sublist.filter _).map _)
  · rw [run.stored_entries, plainFields, List.filter_filter]

variable (earlier : SecureStorage.Run storage item context)

/-- What secure storage leaves of the record keeps its head and what it is found to have. -/
theorem remainder_agrees :
    earlier.remainder.head = run.record.head ∧
      earlier.remainder.existing = run.record.existing := by
  -- Both steps start from the same record.
  have same := run.record_earlier earlier
  refine ⟨?_, earlier.existing_remainder.trans (congrArg Record.existing same)⟩
  rw [← same]
  rfl

/-- Of the remaining fields coding finds what it has known of them before. -/
theorem ofItem_remainder : Inspection.ofItem codable.name earlier.first =
    .ok ⟨earlier.remainder, run.plainFields⟩ := by
  -- The fields that remain are described as before, since they are fewer and their names differ.
  have fields : earlier.remainder.fields = run.record.fields.filter (!·.isSecure) := by
    rw [← run.record_earlier earlier]
    rfl
  refine Inspection.ofItem_eq_ok_iff.mpr ⟨earlier.asRecord_first, ?_⟩
  change FieldInfo.ofFields earlier.remainder.fields = .ok run.plainFields
  rw [fields]
  refine FieldInfo.ofFieldsAfter_eq_ok_iff.mpr
    ⟨DecodeInitializer.stored_described run.inspected, ?_, by simp⟩
  exact (Inspection.declared_nodup run.inspected).sublist (List.filter_sublist.map _)

/-- So their mapping is the one that has been stored. -/
theorem ofRecord_remainder : KeyMapping.ofRecord (codable.policy run.args context.config)
    ⟨earlier.remainder, run.plainFields⟩ = .ok run.stored := by
  -- Nothing else is found around the remainder, and the fields have no mapping of their own.
  have existing := (run.remainder_agrees earlier).2
  refine KeyMapping.ofRecord_eq_ok_iff.mpr ⟨?_, run.ofFields_plainFields⟩
  exact (congrArg ExistingMembers.keyMapping existing).trans run.unmapped

/--
After secure storage, coding still succeeds: it attaches and generates the same on what is left of
the record.
-/
theorem exists_after :
    ∃ later : Run codable tokens earlier.first context, later.record = earlier.remainder ∧
      later.attributes = run.attributes ∧ later.generated = run.generated := by
  -- The record that is left has the same head and the same declarations next to it.
  obtain ⟨head, existing⟩ := run.remainder_agrees earlier
  have name : earlier.remainder.name = run.record.name := congrArg TypeHead.name head
  have generics : earlier.remainder.generics = run.record.generics :=
    congrArg TypeHead.generics head
  have target : earlier.remainder.target = run.record.target := by
    rw [Record.target, Record.target, name, generics]
  -- So the same impls are made, and the same conformances are missing.
  have impls := run.impls_stored target existing
  have complete : run.impls.complete earlier.remainder = run.impls.complete run.record := by
    rw [CodingImpls.complete, CodingImpls.complete, existing]
  have missing : Conformance.missing earlier.remainder run.traits = run.missing := by
    unfold Run.missing Conformance.missing Conformance.isImplemented
    rw [existing]
  -- Every step gives what it gave before.
  let later : Run codable tokens earlier.first context :=
    { args := run.args
      inspection := ⟨earlier.remainder, run.plainFields⟩
      mapping := run.stored
      coding := run.coding
      traits := run.traits
      attributes := run.attributes
      read := run.read
      inspected := run.ofItem_remainder earlier
      mapped := run.ofRecord_remainder earlier
      declared := by
        rw [impls]
        exact run.declared
      requests := by
        rw [impls, complete]
        exact run.requests
      conforms := by
        rw [missing]
        exact run.conforms
      attached := by
        rw [head, run.stored_stored]
        exact run.attached }
  refine ⟨later, rfl, rfl, ?_⟩
  have implsLater : later.impls = run.impls := impls
  have missingLater : later.missing = run.missing := missing
  have record : later.record = earlier.remainder := rfl
  rw [generated, generated, implsLater, missingLater, record, name, generics]
  rfl

/-- Where secure storage succeeds after coding, it does so before, and with the same accessors. -/
theorem exists_before (second : SecureStorage.Run storage run.first context) :
    ∃ earlier : SecureStorage.Run storage item context, earlier.accessors = second.accessors := by
  have record := run.record_second second
  have placed := second.placed
  have declared := second.declared
  change second.record.fields.mapM _ = _ at placed
  change SecureStorage.accessorsOf second.record.target _ _ = _ at declared
  rw [record] at placed declared
  -- The fields have lost their coding options in between, which secure storage does not look at.
  obtain ⟨before, placed, same⟩ := SecureStorage.exists_placed_of_strip placed
  rw [← same] at declared
  exact ⟨⟨second.args, run.inspection, second.store, before, second.accessors, second.read,
    Inspection.ofItem_eq_ok_iff.mpr (Inspection.ofItem_eq_ok_iff.mp run.inspected),
    second.shared, placed, declared⟩, rfl⟩

/-- In either order the same struct comes out: attributes, fields and the comma at the end. -/
theorem left_eq_stripped (second : SecureStorage.Run storage run.first context) :
    second.left = stripped earlier.remainder run.attributes := by
  -- Taking fields out and stripping their attributes can be done in either order.
  rw [SecureStorage.Run.left, SecureStorage.leftOf, run.record_second second, outcome, stripped,
    SecureStorage.Run.remainder, run.record_earlier earlier]
  simp only [List.filter_map, List.all_map, Field.isSecure_comp_strip]
  rfl

end Codable.Run

/--
What coding and secure storage give of a declaration in both orders: secure storage after coding,
and coding after secure storage.

The struct is the same in the end, and each step generates the same after the other one as before
it. In a module the later step puts its declarations behind those of the earlier one.
-/
inductive Item.Commutes : (item : Item) → (coded both secured later : List Item) → Prop
  | struct {old coded secured both : Struct} (coding accessors : List Item) :
      Commutes (.struct old) (.struct coded :: coding) (.struct both :: accessors)
        (.struct secured :: accessors) (.struct both :: coding)
  | module {attributes : List Attribute} {head : List Token} {name : Name}
      {before after : List Item} {old coded secured both : Struct} (coding accessors : List Item)
      (only : ∀ other ∈ before ++ after, ¬other.IsStruct) :
      Commutes (.mod ⟨attributes, head, name, some (before ++ .struct old :: after)⟩)
        [.mod ⟨attributes, head, name, some (before ++ .struct coded :: (after ++ coding))⟩]
        [.mod ⟨attributes, head, name,
          some (before ++ .struct both :: (after ++ (coding ++ accessors)))⟩]
        [.mod ⟨attributes, head, name, some (before ++ .struct secured :: (after ++ accessors))⟩]
        [.mod ⟨attributes, head, name,
          some (before ++ .struct both :: (after ++ (accessors ++ coding)))⟩]

/-- Structs that take the place of a record commute in this way. -/
theorem Record.commutes {item : Item} {record : Record} (found : item.asRecord = .ok record)
    (coded secured both : Struct) (coding accessors : List Item) :
    item.Commutes (record.place coded coding :: record.beside coding)
      (record.place both (coding ++ accessors) :: record.beside accessors)
      (record.place secured accessors :: record.beside accessors)
      (record.place both (accessors ++ coding) :: record.beside coding) := by
  -- A record that stands alone is replaced by several items, and one in a module by a module.
  rcases Item.shape_of_asRecord found with
    ⟨rfl, alone⟩ | ⟨attributes, head, name, before, after, rfl, only, inside, place⟩
  · simp only [Record.place, beside, alone]
    exact .struct coding accessors
  · simp only [beside_eq_nil inside, place]
    exact .module coding accessors only

/--
Coding and secure storage commute: where secure storage succeeds on what coding gives, both succeed
in the other order, too, and give the same.
-/
theorem Codable.expand_commutes {codable : Codable} {tokens storage : List Token}
    {item first : Item} {rest : List Item} {context : Context} {coded both : Expansion}
    (codes : codable.expand tokens item context = .ok coded) (begins : coded.items = first :: rest)
    (secures : SecureStorage.expand storage first context = .ok both) :
    ∃ secured next others later, SecureStorage.expand storage item context = .ok secured ∧
      secured.items = next :: others ∧ codable.expand tokens next context = .ok later ∧
        item.Commutes coded.items both.items secured.items later.items := by
  obtain ⟨run, rfl⟩ := Run.expand_eq_ok_iff.mp codes
  obtain ⟨rfl, -⟩ := List.cons.inj begins
  obtain ⟨second, rfl⟩ := SecureStorage.expand_eq_ok_iff.mp secures
  -- Secure storage does not look at what coding changes, and coding does not look at what secure
  -- storage takes away.
  obtain ⟨earlier, accessors⟩ := run.exists_before second
  obtain ⟨later, remainder, attributes, generated⟩ := run.exists_after earlier
  refine ⟨earlier.expansion, earlier.first, _, later.expansion,
    SecureStorage.expand_eq_ok_iff.mpr ⟨earlier, rfl⟩, Record.reassemble_eq _,
      Run.expand_eq_ok_iff.mpr ⟨later, rfl⟩, ?_⟩
  -- All four results are put in the place of the same record.
  have same := run.record_earlier earlier
  have holds : second.record.container =
      run.record.container.holding (stripped run.record run.attributes) run.generated := by
    rw [run.record_second second]
    rfl
  have bothItems : second.expansion.items =
      run.record.place second.left (run.generated ++ second.accessors) ::
        run.record.beside second.accessors := by
    obtain ⟨place, beside⟩ := Record.place_holding run.found holds second.left second.accessors
    rw [← place, ← beside]
    exact Record.reassemble_eq _
  have laterItems : later.expansion.items =
      run.record.place second.left (second.accessors ++ run.generated) ::
        run.record.beside run.generated := by
    have held : later.record.container =
        earlier.record.container.holding earlier.left earlier.accessors := by
      rw [remainder]
      rfl
    obtain ⟨place, beside⟩ := Record.place_holding earlier.found held second.left run.generated
    rw [same, accessors] at place
    rw [same] at beside
    rw [← place, ← beside, run.left_eq_stripped earlier second, ← remainder, ← attributes,
      ← generated]
    rfl
  have securedItems : earlier.expansion.items =
      run.record.place earlier.left second.accessors :: run.record.beside second.accessors := by
    rw [← same, ← accessors]
    exact Record.reassemble_eq _
  rw [bothItems, laterItems, securedItems]
  exact Record.commutes run.found _ _ _ _ _

/-- Coding and secure storage commute on a module with a secure field. -/
theorem Codable.expand_commutes_vault : ∃ coded first rest both secured next others later,
    standard.expand [] .vault ⟨{}, Context.standardRuntime⟩ = .ok coded ∧
      coded.items = first :: rest ∧
      SecureStorage.expand [] first ⟨{}, Context.standardRuntime⟩ = .ok both ∧
      SecureStorage.expand [] .vault ⟨{}, Context.standardRuntime⟩ = .ok secured ∧
      secured.items = next :: others ∧
      standard.expand [] next ⟨{}, Context.standardRuntime⟩ = .ok later ∧
        Item.vault.Commutes coded.items both.items secured.items later.items := by
  -- The run of both steps is computed, and the general statement gives the other order.
  obtain ⟨coded, first, rest, both, codes, begins, secures⟩ : ∃ coded first rest both,
      standard.expand [] .vault ⟨{}, Context.standardRuntime⟩ = .ok coded ∧
        coded.items = first :: rest ∧
          SecureStorage.expand [] first ⟨{}, Context.standardRuntime⟩ = .ok both :=
    ⟨_, _, _, _, rfl, rfl, rfl⟩
  obtain ⟨secured, next, others, later, all⟩ := expand_commutes codes begins secures
  exact ⟨coded, first, rest, both, secured, next, others, later, codes, begins, secures, all⟩

end KeyedCoding
