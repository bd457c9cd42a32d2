import KeyedCoding.Proofs.Record.Fields
import KeyedCoding.Proofs.Record.Surroundings
import KeyedCoding.Transform.SecureStorage

/-!
Laws of secure storage: the secure fields leave the struct, and the others stay in their order.
-/

namespace KeyedCoding.SecureStorage

variable {store : Expr} {field : Field} {fields : List Field} {placement : Placement}
  {placements : List Placement} {tokens : List Token} {item : Item} {context : Context}

/-- A placed field leaves exactly if it is secure. -/
theorem place_eq_ok (placed : place store field = .ok placement) :
    (field.isSecure = false ∧ placement = .kept field) ∨
      (field.isSecure = true ∧ ∃ secure, placement = .secured secure) := by
  obtain ⟨options, read, rest⟩ := bind_eq_ok_iff.mp placed
  have found := mapError_eq_ok_iff.mp read
  rw [SecureOptions.ofField] at found
  split at found
  · -- Without the attribute there are no options, and the field stays.
    rename_i absent
    cases found
    cases rest
    exact .inl ⟨by simpa [Field.isSecure] using absent, rfl⟩
  · -- The first such attribute gives the options, and the field leaves.
    rename_i attr present
    obtain ⟨read, -, rfl⟩ := map_eq_ok_iff.mp found
    cases rest
    refine .inr ⟨?_, _, rfl⟩
    rw [Field.isSecure, List.any_eq_true]
    exact ⟨attr, List.mem_of_find?_eq_some present, by simpa using List.find?_some present⟩

/-- The fields that stay are those that are not secure, and none leaves exactly if all are such. -/
theorem kept_of_placed (placed : fields.mapM (place store) = .ok placements) :
    kept placements = fields.filter (!·.isSecure) ∧
      (secured placements).isEmpty = fields.all (!·.isSecure) := by
  rw [mapM_eq_ok_iff] at placed
  -- Fields are placed one by one, each at one of the two sides.
  induction placed with
  | nil => simp [kept, secured]
  | cons first _ ih =>
    rcases place_eq_ok first with ⟨plain, rfl⟩ | ⟨secure, left, rfl⟩
    · simp only [kept, secured, List.filterMap_cons, List.filter_cons, List.all_cons, plain,
        Bool.not_false, if_true, Bool.true_and] at ih ⊢
      exact ⟨congrArg _ ih.1, ih.2⟩
    · simp only [kept, secured, List.filterMap_cons, List.filter_cons, List.all_cons, secure,
        Bool.not_true, Bool.false_eq_true, if_false, Bool.false_and] at ih ⊢
      exact ⟨ih.1, rfl⟩

/-- A field that is not secure is left as it is where the marks of secure fields are stripped. -/
theorem strip_eq_self (plain : field.isSecure = false) :
    Field.strip [Attribute.secureName] field = field := by
  -- No attribute has the name that is looked for.
  have others : ∀ attr ∈ field.attributes, attr.path.isName Attribute.secureName = false := by
    simpa [Field.isSecure] using plain
  have same : Attribute.strip [Attribute.secureName] field.attributes = field.attributes :=
    List.filter_eq_self.mpr fun attr inside => by simp [others attr inside]
  rw [Field.strip, same]

/-- The store of the fields that name none: the one that is given, else the shared one. -/
def storeOf (args : StorageArguments) (runtime : Path) : Synthesis Expr :=
  match args.store with
  | some store => .ok store
  | none => SecureField.sharedStore runtime

/-- The accessors of secure fields: one impl, and nothing where no field is secure. -/
def accessorsOf (target : Target) (fields : List SecureField) (runtime : Path) :
    Synthesis (List Item) :=
  if fields.isEmpty then .ok []
  else (SecureField.declaration target fields runtime).map fun accessors => [accessors]

/-- Where fields are secure, the accessors are one impl without a trait, and else there are none. -/
theorem accessorsOf_eq_ok {target : Target} {fields : List SecureField} {runtime : Path}
    {accessors : List Item} (declared : accessorsOf target fields runtime = .ok accessors) :
    accessors = if fields.isEmpty then []
      else [target.implement none (fields.flatMap (SecureField.accessors · runtime))] := by
  -- The declaration is one impl, and it is only made where a field is secure.
  rw [accessorsOf] at declared
  split at declared
  · next none =>
    rw [if_pos none]
    exact (Except.ok.inj declared).symm
  · next some =>
    obtain ⟨impl, made, rfl⟩ := map_eq_ok_iff.mp declared
    rw [SecureField.declaration] at made
    split at made
    · rw [if_neg some]
      exact congrArg ([·]) (Except.ok.inj made).symm
    · cases made

/-- Accessors take no decoder and no encoder, so nothing is noted for them. -/
theorem foldl_withMember_accessors (fields : List SecureField) (runtime : Path)
    (existing : ExistingMembers) :
    (fields.flatMap (SecureField.accessors · runtime)).foldl ExistingMembers.withMember existing =
      existing := by
  induction fields with
  | nil => rfl
  | cons field rest ih =>
    -- A getter has no parameter, and that of a setter is optional.
    rw [List.flatMap_cons, List.foldl_append]
    exact ih

/-- The struct that is left of a record; only if no field leaves it keeps the comma at its end. -/
def leftOf (record : Record) : Struct :=
  ⟨record.head, .named (record.fields.filter (!·.isSecure))
    (record.fields.all (!·.isSecure) && record.trailing)⟩

/--
Whether or not a field is secure, the struct that the fields leave is put back with the accessors.
-/
theorem conclusion_eq {record : Record} (found : item.asRecord = .ok record)
    (placed : record.fields.mapM (place store) = .ok placements) (runtime : Path)
    (diagnostics : List Diagnostic) :
    (if (secured placements).isEmpty then .ok ⟨[item], diagnostics⟩
      else do
        let accessors ← SecureField.declaration record.target (secured placements) runtime
        return ⟨record.reassemble (remaining record (kept placements)) [accessors], []⟩) =
      (accessorsOf record.target (secured placements) runtime).map fun accessors =>
        (⟨record.reassemble (leftOf record) accessors,
          if (secured placements).isEmpty then diagnostics else []⟩ : Expansion) := by
  obtain ⟨stay, none⟩ := kept_of_placed placed
  rw [accessorsOf, leftOf, ← none]
  cases all : (secured placements).isEmpty with
  | true =>
    -- All fields stay, so the struct takes its own place.
    rw [all] at none
    have whole : record.fields.filter (!·.isSecure) = record.fields :=
      List.filter_eq_self.mpr (List.all_eq_true.mp none.symm)
    have same : record.reassemble ⟨record.head, .named record.fields record.trailing⟩ [] = [item] :=
      Record.reassemble_decl found
    rw [whole]
    simp [Except.map, same]
  | false =>
    -- The fields that stay have no mark that could be stripped.
    have bare : (record.fields.filter (!·.isSecure)).map (Field.strip [Attribute.secureName]) =
        record.fields.filter (!·.isSecure) := by
      refine (List.map_congr_left fun field inside => ?_).trans (List.map_id' _)
      exact strip_eq_self (by simpa using List.of_mem_filter inside)
    rw [remaining, stay, bare]
    cases SecureField.declaration record.target (secured placements) runtime <;> rfl

/--
A successful run of secure storage: what it has found out, and that each of its steps has succeeded.
-/
structure Run (tokens : List Token) (item : Item) (context : Context) where
  args : StorageArguments
  inspection : Inspection
  store : Expr
  placements : List Placement
  accessors : List Item
  read : StorageArguments.ofTokens tokens = .ok args
  inspected : Inspection.ofItem name item = .ok inspection
  shared : storeOf args (args.runtime.getD context.runtime) = .ok store
  placed : inspection.record.fields.mapM (place store) = .ok placements
  declared : accessorsOf inspection.record.target (secured placements)
    (args.runtime.getD context.runtime) = .ok accessors

namespace Run

variable (run : Run tokens item context)

/-- The record. -/
def record : Record := run.inspection.record

/-- The struct without its secure fields. -/
def left : Struct := leftOf run.record

/-- What a run gives: without a secure field, a finding about that. -/
def expansion : Expansion :=
  ⟨run.record.reassemble run.left run.accessors,
    if (secured run.placements).isEmpty
    then context.config.apply [unusedStorage run.record]
    else []⟩

/-- The declaration is the record. -/
theorem found : item.asRecord = .ok run.record := (Inspection.ofItem_eq_ok_iff.mp run.inspected).1

/-- The declaration that holds the struct without its secure fields. -/
def first : Item := run.record.place run.left run.accessors

/-- What is left of the record. -/
def remainder : Record :=
  ⟨run.record.head, run.record.fields.filter (!·.isSecure),
    run.record.fields.all (!·.isSecure) && run.record.trailing,
      run.record.container.holding run.left run.accessors,
      Record.existingAmong run.record.head (run.record.container.around run.accessors)⟩

/-- No accessor is a struct. -/
theorem accessors_not_isStruct : ∀ other ∈ run.accessors, ¬other.IsStruct := by
  -- The accessors are nothing or one impl.
  rw [accessorsOf_eq_ok run.declared]
  split
  · exact fun _ inside => absurd inside List.not_mem_nil
  · rw [List.forall_mem_singleton]
    exact Target.implement_not_isStruct

/-- What is put back is a record again. -/
theorem asRecord_first : run.first.asRecord = .ok run.remainder :=
  Record.asRecord_place run.found run.accessors_not_isStruct _ _ _

/-- The accessors provide nothing that a later step would look for. -/
theorem existing_remainder : run.remainder.existing = run.record.existing := by
  have neutral (name : Name) (existing : ExistingMembers) :
      run.accessors.foldl (.withItem name) existing = existing := by
    rw [accessorsOf_eq_ok run.declared]
    split
    · rfl
    · -- The impl may be one for the record, but then it is one of its own.
      rw [List.foldl_cons, List.foldl_nil, Target.implement]
      simp [ExistingMembers.withItem, ExistingMembers.withImpl, foldl_withMember_accessors]
  rw [(Item.asRecord_eq_ok_iff.mp run.found).1, remainder]
  cases run.record.container with
  | bare => rfl
  | module decl index =>
    -- The accessors follow the declarations of the module.
    simp only [Record.existingAmong, Container.around, List.append_nil, List.foldl_append, neutral]

end Run

variable {expansion : Expansion} {record : Record}

/-- An expansion is made in six steps; the store is given or the shared one. -/
theorem expand_eq : expand tokens item context = (do
    let args ← Synthesis.ofReading (StorageArguments.ofTokens tokens)
    let inspection ← Inspection.ofItem name item
    let store ← storeOf args (args.runtime.getD context.runtime)
    let placements ← inspection.record.fields.mapM (place store)
    if (secured placements).isEmpty then
      .ok ⟨[item], context.config.apply [unusedStorage inspection.record]⟩
    else
      let accessors ← SecureField.declaration inspection.record.target (secured placements)
        (args.runtime.getD context.runtime)
      return ⟨inspection.record.reassemble (remaining inspection.record (kept placements))
        [accessors], []⟩) := by
  rw [expand]
  refine bind_congr fun args => bind_congr fun inspection => ?_
  -- What follows is the same for both stores.
  rw [storeOf]
  cases args.store <;> rfl

/-- An expansion is what a successful run gives. -/
theorem expand_eq_ok_iff :
    expand tokens item context = .ok expansion ↔
      ∃ run : Run tokens item context, run.expansion = expansion := by
  -- The steps of the expansion are the parts of a run, in their order.
  rw [expand_eq]
  constructor
  · intro expanded
    obtain ⟨args, read, rest⟩ := bind_eq_ok_iff.mp expanded
    obtain ⟨inspection, inspected, rest⟩ := bind_eq_ok_iff.mp rest
    obtain ⟨store, shared, rest⟩ := bind_eq_ok_iff.mp rest
    obtain ⟨placements, placed, rest⟩ := bind_eq_ok_iff.mp rest
    rw [conclusion_eq (Inspection.ofItem_eq_ok_iff.mp inspected).1 placed] at rest
    obtain ⟨accessors, declared, rfl⟩ := map_eq_ok_iff.mp rest
    exact ⟨⟨args, inspection, store, placements, accessors, mapError_eq_ok_iff.mp read, inspected,
      shared, placed, declared⟩, rfl⟩
  · rintro ⟨run, rfl⟩
    refine bind_eq_ok_iff.mpr ⟨_, mapError_eq_ok_iff.mpr run.read, bind_eq_ok_iff.mpr ⟨_,
      run.inspected, bind_eq_ok_iff.mpr ⟨_, run.shared, bind_eq_ok_iff.mpr ⟨_, run.placed, ?_⟩⟩⟩⟩
    exact (conclusion_eq run.found run.placed _ _).trans (map_eq_ok_iff.mpr ⟨_, run.declared, rfl⟩)

/--
What an expansion puts first is a record again: of the fields it has those that are not secure, and
no others.
-/
theorem asRecord_of_expand (found : item.asRecord = .ok record)
    (expanded : expand tokens item context = .ok expansion) :
    ∃ first rest left, expansion.items = first :: rest ∧ first.asRecord = .ok left ∧
      left.head = record.head ∧
      (left.existing.keyMapping = none ↔ record.existing.keyMapping = none) ∧
      left.fields = record.fields.filter (!·.isSecure) := by
  -- The run gives the items, and what stands first among them is the remainder.
  obtain ⟨run, rfl⟩ := expand_eq_ok_iff.mp expanded
  obtain rfl := Except.ok.inj (found.symm.trans run.found)
  exact ⟨_, _, _, Record.reassemble_eq _, run.asRecord_first, rfl,
    by rw [run.existing_remainder], rfl⟩

/-- The fields that an expansion leaves have the names of those that are not secure. -/
theorem fields_of_expand (found : item.asRecord = .ok record)
    (expanded : expand tokens item context = .ok expansion) :
    ∃ first rest left, expansion.items = first :: rest ∧ first.asRecord = .ok left ∧
      left.fields.map (·.name) = (record.fields.filter (!·.isSecure)).map (·.name) := by
  -- The fields that are left are known, and with them their names.
  obtain ⟨first, rest, left, items, again, -, -, fields⟩ := asRecord_of_expand found expanded
  exact ⟨first, rest, left, items, again, by rw [fields]⟩

end KeyedCoding.SecureStorage
