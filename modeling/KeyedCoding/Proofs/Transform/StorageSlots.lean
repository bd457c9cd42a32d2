import KeyedCoding.Proofs.Store.Slots
import KeyedCoding.Proofs.Transform.Partition
import KeyedCoding.Proofs.Transform.SecureAccessors

/-!
The slots of secure fields: each field is accepted for itself, and the accessors of two fields are kept
apart exactly as far as their stores and keys differ.
-/

namespace KeyedCoding.SecureStorage

open AccessorCall

variable {tokens : List Token} {item : Item} {context : Context} {store : Expr} {declared : Field}
  {fields : List Field} {args : StorageArguments} {inspection : Inspection}

/-- An accessor can be written for a runtime under a name. -/
def NamesAccessor (runtime : Path) (name : Name) : Prop :=
  runtime.opensExpression = true ∧ name.spelling ≠ "_"

/--
What secure storage asks of its arguments, of the record, and of each field for itself: the options of
each field can be read, and where a field leaves, accessors can be written for the runtime and for
its name. The fields are not compared with each other.
-/
structure Admits (tokens : List Token) (item : Item) (context : Context) (args : StorageArguments)
    (inspection : Inspection) (store : Expr) : Prop where
  read : StorageArguments.ofTokens tokens = .ok args
  inspected : Inspection.ofItem name item = .ok inspection
  shared : storeOf args (args.runtime.getD context.runtime) = .ok store
  each : ∀ field ∈ inspection.record.fields, ∃ options, SecureOptions.ofField field = .ok options
  fits : ∀ field ∈ inspection.record.fields, field.isSecure = true →
    NamesAccessor (args.runtime.getD context.runtime) field.name

/-- A field is placed exactly if its options can be read. -/
theorem exists_place_iff :
    (∃ placement, place store declared = .ok placement) ↔
      ∃ options, SecureOptions.ofField declared = .ok options := by
  -- Placing a field needs nothing but its options.
  constructor
  · rintro ⟨placement, placed⟩
    obtain ⟨options, read, -⟩ := bind_eq_ok_iff.mp placed
    exact ⟨options, mapError_eq_ok_iff.mp read⟩
  · rintro ⟨options, read⟩
    rw [place, Synthesis.ofReading, read]
    cases options <;> exact ⟨_, rfl⟩

/-- Accessors are made exactly if the runtime and the names of the fields fit into them. -/
theorem exists_accessorsOf_iff {target : Target} {secured : List SecureField} {runtime : Path} :
    (∃ accessors, accessorsOf target secured runtime = .ok accessors) ↔
      ∀ field ∈ secured, NamesAccessor runtime field.name := by
  rw [accessorsOf, SecureField.declaration]
  cases secured with
  | nil => simp
  | cons first rest =>
    simp only [List.isEmpty_cons, Bool.false_eq_true, if_false]
    -- The runtime is the same for all fields, and there is one.
    split
    · next fits =>
      rw [Bool.and_eq_true, List.all_eq_true] at fits
      exact iff_of_true ⟨_, rfl⟩ fun field inside =>
        ⟨fits.1, bne_iff_ne.mp (fits.2 field inside)⟩
    · next misfit =>
      constructor
      · rintro ⟨accessors, made⟩
        cases made
      · intro all
        refine absurd ?_ misfit
        rw [Bool.and_eq_true, List.all_eq_true]
        exact ⟨(all first List.mem_cons_self).1,
          fun field inside => bne_iff_ne.mpr (all field inside).2⟩

/-- The fields that leave have the names of those that are placed, in their order. -/
theorem names_of_placed {placed : List SecureField}
    (all : List.Forall₂ (fun declared field => place store declared = .ok (.secured field))
      fields placed) : placed.map (·.name) = fields.map (·.name) := by
  -- A secured field keeps its name.
  induction all with
  | nil => rfl
  | cons first _ ih =>
    obtain ⟨options, -, rfl⟩ := place_eq_secured first
    rw [List.map_cons, List.map_cons, ih]

/-- A field leaves in one way only. -/
theorem secured_unique (store : Expr) : Relator.RightUnique fun (declared : Field) field =>
    place store declared = .ok (.secured field) := by
  -- Placing is a function of the declared field.
  intro declared field other first second
  exact Placement.secured.inj (Except.ok.inj (first.symm.trans second))

/-- What holds of the names of the fields that leave holds of the names of the secure ones. -/
theorem forall_secured_iff {placements : List Placement} {holds : Name → Prop}
    (placed : fields.mapM (place store) = .ok placements) :
    (∀ field ∈ secured placements, holds field.name) ↔
      ∀ field ∈ fields, field.isSecure = true → holds field.name := by
  -- The names of the fields that leave are those of the secure fields, so both lists can be
  -- compared.
  have names := names_of_placed (secured_of_placed placed)
  have through : (∀ field ∈ secured placements, holds field.name) ↔
      ∀ name ∈ (secured placements).map (·.name), holds name := by rw [List.forall_mem_map]
  rw [through, names, List.forall_mem_map]
  simp only [List.mem_filter, and_imp]

/-- An expansion succeeds exactly if the arguments, the record and each of its fields are admitted. -/
theorem exists_expand_iff :
    (∃ expansion, expand tokens item context = .ok expansion) ↔
      ∃ args inspection store, Admits tokens item context args inspection store := by
  -- The parts of a run are what is admitted, and placing each field places them all.
  constructor
  · rintro ⟨expansion, expanded⟩
    obtain ⟨run, -⟩ := expand_eq_ok_iff.mp expanded
    refine ⟨run.args, run.inspection, run.store, run.read, run.inspected, run.shared, ?_, ?_⟩
    · intro field inside
      obtain ⟨placement, -, placed⟩ :=
        exists_of_mem_forall₂ (mapM_eq_ok_iff.mp run.placed).flip inside
      exact exists_place_iff.mp ⟨placement, placed⟩
    · exact (forall_secured_iff run.placed).mp (exists_accessorsOf_iff.mp ⟨_, run.declared⟩)
  · rintro ⟨args, inspection, store, admits⟩
    have each : ∀ field ∈ inspection.record.fields, ∃ placement,
        place store field = .ok placement :=
      fun field inside => exists_place_iff.mpr (admits.each field inside)
    obtain ⟨placements, placed⟩ := exists_forall₂ each
    have placed := mapM_eq_ok_iff.mpr placed
    obtain ⟨accessors, declared⟩ : ∃ accessors, accessorsOf inspection.record.target
        (secured placements) (args.runtime.getD context.runtime) = .ok accessors :=
      exists_accessorsOf_iff.mpr ((forall_secured_iff placed).mpr admits.fits)
    exact ⟨_, expand_eq_ok_iff.mpr ⟨⟨args, inspection, store, placements, accessors, admits.read,
      admits.inspected, admits.shared, placed, declared⟩, rfl⟩⟩

/--
The accessors of secure fields share slots, and nothing stands in the way of that: whether an expansion
succeeds depends on each field for itself.

Wherever the stores of the fields are, a setter disturbs a getter exactly if both are about one key in
one store; each other getter answers as if the setter had not been called. After a setter of its slot
a getter gives what it can see of the value that was set, and nothing if the slot was cleared.
-/
theorem expand_slots (tokens : List Token) (item : Item) (context : Context) :
    ((∃ expansion, expand tokens item context = .ok expansion) ↔
      ∃ args inspection store, Admits tokens item context args inspection store) ∧
    ∀ record expansion, item.asRecord = .ok record → expand tokens item context = .ok expansion →
      ∃ args store fields members, StorageArguments.ofTokens tokens = .ok args ∧
        storeOf args (args.runtime.getD context.runtime) = .ok store ∧
        List.Forall₂ (fun declared field => place store declared = .ok (.secured field))
          (record.fields.filter (·.isSecure)) fields ∧
        expansion.items = record.reassemble (leftOf record)
          (if fields.isEmpty then [] else [record.target.implement none members]) ∧
        AccessorCode.ofAll? (args.runtime.getD context.runtime) members =
          some (fields.map SecureField.code) ∧
        ∀ {α : Fin (fields.map SecureField.code).length → Type} (formats : (i : _) → TextFormat (α i))
          {σ : Type} [DecidableEq σ] (denotes : List Token → σ),
          let accessors := AccessorCode.accessors (fields.map SecureField.code) formats
          let places := fun i => denotes ((fields.map SecureField.code).get i).store
          (∀ i, (accessors i).Faithful) → (∀ i, Nonempty (α i)) → ∀ i j,
            (Disturbs accessors places j i ↔ SameSlot accessors places i j) ∧
            ∀ stores calls value, answerAfter places stores (calls ++ [.set j value]) i =
              if SameSlot accessors places i j then
                some (.value i ((value.map ((accessors j).getter.stored (accessors j).format)).bind
                  ((accessors i).getter.seen? (accessors i).format)))
              else answerAfter places stores calls i := by
  refine ⟨exists_expand_iff, fun record expansion found expanded => ?_⟩
  obtain ⟨args, store, fields, members, read, shared, placed, items, code⟩ :=
    exists_accessors found expanded
  refine ⟨args, store, fields, members, read, shared, placed, items, code, ?_⟩
  -- From here on only the slots of the accessors matter, not how they have been generated.
  intro α formats σ _ denotes accessors places faithful some i j
  exact ⟨disturbs_iff (faithful i) (some i), fun stores calls value =>
    answerAfter_set stores calls value⟩

/-- A struct with two secure fields that are stored under one key, in the same store. -/
def twins : Struct :=
  let secure (name : String) : Field :=
    ⟨[.withList (.ofName ⟨Attribute.secureName, .origin⟩) [.literal "\"k\"" .origin]], [],
      ⟨name, .origin⟩, .path (.ofName ⟨"String", .origin⟩)⟩
  { head := ⟨[], [], .origin, ⟨"Twins", .origin⟩, .empty⟩
    fields := .named [secure "a", secure "b"] false }

/-- What the accessors of both fields say. -/
def twinCode : AccessorCode :=
  ⟨(Context.standardRuntime.extend ["store", "shared"]).tokens ++ [Token.parens []],
    Token.textValue (.literal "\"k\"" .origin), .text⟩

/-- The accessors of the two fields; no value of theirs is parsed. -/
abbrev twinAccessors : (i : Fin 2) → Accessor Unit :=
  AccessorCode.accessors [twinCode, twinCode] fun _ => ⟨fun _ => "", fun _ => some ()⟩

/-- The setter of the second field disturbs the getter of the first one. -/
theorem expand_slots_twins :
    (∃ expansion, expand [] (.struct twins) ⟨{}, Context.standardRuntime⟩ = .ok expansion) ∧
      (∀ i, (twinAccessors i).Faithful) ∧ Disturbs twinAccessors (fun _ => ()) 1 0 := by
  have faithful : ∀ i, (twinAccessors i).Faithful := fun i _ _ => rfl
  obtain ⟨expansion, expanded⟩ : ∃ expansion,
      expand [] (.struct twins) ⟨{}, Context.standardRuntime⟩ = .ok expansion := ⟨_, rfl⟩
  obtain ⟨args, store, fields, members, read, shared, placed, -, -, slots⟩ :=
    (expand_slots [] (.struct twins) ⟨{}, Context.standardRuntime⟩).2 _ _ rfl expanded
  cases read
  cases shared
  -- Each field is placed in one way only, so it is known what the accessors say.
  have same : fields.map SecureField.code = [twinCode, twinCode] := by
    rw [(secured_unique _).forall₂ placed (.cons rfl (.cons rfl .nil))]
    rfl
  rw [same] at slots
  exact ⟨⟨expansion, expanded⟩, faithful,
    (slots (fun _ => ⟨fun _ => "", fun _ => some ()⟩) (fun _ => ()) faithful (fun _ => ⟨()⟩) 0 1).1.mpr
      ⟨rfl, rfl⟩⟩

/--
Two fields with one key in one store are accepted, and what is set or cleared through one of them is
what the other one gives.
-/
theorem expand_twins :
    ∃ expansion members,
      expand [] (.struct twins) ⟨{}, Context.standardRuntime⟩ = .ok expansion ∧
      expansion.items = [.struct ⟨twins.head, .named [] false⟩,
        Target.implement ⟨⟨"Twins", .origin⟩, .empty⟩ none members] ∧
      AccessorCode.ofAll? Context.standardRuntime members = some [twinCode, twinCode] ∧
      answerAfter (fun _ => ()) (fun _ => {})
        (([.set 0 (some "x")] : List (AccessorCall twinAccessors)) ++ [.set 1 (some "y")]) 0 =
          some (.value 0 (some "y")) ∧
      answerAfter (fun _ => ()) (fun _ => {})
        (([.set 0 (some "x")] : List (AccessorCall twinAccessors)) ++ [.set 1 none]) 0 =
          some (.value 0 none) :=
  ⟨_, _, rfl, rfl, rfl, (answerAfter_set _ _ _).trans (if_pos ⟨rfl, rfl⟩),
    (answerAfter_set _ _ _).trans (if_pos ⟨rfl, rfl⟩)⟩

end KeyedCoding.SecureStorage
