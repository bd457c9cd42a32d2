import KeyedCoding.Proofs.Transform.Failure
import KeyedCoding.Proofs.Transform.KeyType
import KeyedCoding.Proofs.Transform.Literal
import KeyedCoding.Proofs.Transform.SecureStorage

/-!
Splicing: when an expansion breaks off because a name or a path does not fit the code to generate,
instead of giving a result or reporting what is wrong.
-/

namespace KeyedCoding

namespace Synthesis

variable {α β σ : Type} {stage : Synthesis α} {next : α → Synthesis β}

/-- A stage that does not break off: if it fails, it reports what is wrong with the input. -/
def Reports (stage : Synthesis α) : Prop := stage ≠ .error .unspliceable

/-- A result breaks nothing off. -/
@[simp] theorem reports_ok (value : α) : Reports (.ok value) := fun failed => by cases failed

/-- A result breaks nothing off where it is returned. -/
@[simp] theorem reports_pure (value : α) : Reports (pure value) := reports_ok value

/-- Every error but one reports what is wrong. -/
@[simp] theorem reports_error_iff {error : SynthesisError} :
    Reports (.error error : Synthesis α) ↔ error ≠ .unspliceable := by
  -- An error is the one that is meant or it is not.
  rw [Reports, ne_eq, Except.error.injEq]

instance (stage : Synthesis α) (error : SynthesisError) : Decidable (stage = .error error) :=
  match stage with
  | .ok _ => .isFalse fun failed => by cases failed
  | .error found => decidable_of_iff (found = error) (by rw [Except.error.injEq])

/-- A fault does not break off where it becomes an error that reports something. -/
theorem reports_mapError {ε : Type} {wrap : ε → SynthesisError} (result : Except ε α)
    (tells : ∀ fault, wrap fault ≠ .unspliceable) : Reports (result.mapError wrap) := by
  -- An error of the result is one that has been wrapped.
  intro failed
  obtain ⟨fault, -, same⟩ := mapError_eq_error_iff.mp failed
  exact tells fault same

/-- A reading reports its fault. -/
theorem reports_ofReading (result : Except Fault α) : Reports (ofReading result) :=
  reports_mapError result fun _ same => by cases same

/-- Behind a stage that does not break off, it is the next one that does. -/
theorem Reports.bind_iff (reports : Reports stage) :
    (stage >>= next) = .error .unspliceable ↔
      ∃ value, stage = .ok value ∧ next value = .error .unspliceable := by
  -- Of the two ways to fail, the first one reports.
  rw [bind_eq_error_iff]
  exact or_iff_right reports

/-- Two stages that do not break off do not break off together. -/
theorem Reports.bind (reports : Reports stage) (onward : ∀ value, Reports (next value)) :
    Reports (stage >>= next) := by
  -- A failure of both would be one of the second stage.
  intro failed
  obtain ⟨value, -, failed⟩ := reports.bind_iff.mp failed
  exact onward value failed

/-- A stage for each item of a list does not break off if none does for an item. -/
theorem reports_mapM {step : α → Synthesis β} {items : List α}
    (each : ∀ item, Reports (step item)) : Reports (items.mapM step) := by
  -- A failing list has an item that fails.
  intro failed
  obtain ⟨before, item, after, -, -, failed⟩ := mapM_eq_error_iff.mp failed
  exact each item failed

/-- A stage that goes through a list does not break off if none of its steps does. -/
theorem reports_foldlM {step : σ → α → Synthesis σ} {items : List α} {start : σ}
    (each : ∀ state item, Reports (step state item)) : Reports (items.foldlM step start) := by
  -- A failing list has an item that fails, in the state that has been reached before it.
  intro failed
  obtain ⟨before, item, after, state, -, -, failed⟩ := foldlM_eq_error_iff.mp failed
  exact each state item failed

end Synthesis

open Synthesis

/-- A setting that is no path is reported. -/
theorem Path.reports_ofSetting (text : String) : Reports (ofSetting text) :=
  reports_mapError _ fun _ same => by cases same

/-- Making a context of settings reports a path of the runtime that is none. -/
theorem Context.reports_ofConfig (config : Config) : Reports (ofConfig config) := by
  -- Only a path that is set can be wrong.
  rw [ofConfig]
  split
  · exact (Path.reports_ofSetting _).bind fun path => reports_pure _
  · simp

/-- Inspecting a declaration reports what is wrong with it. -/
theorem Inspection.reports_ofItem (transformer : String) (item : Item) :
    Reports (ofItem transformer item) := by
  -- A field is described or reported, and none of the reports is a failed splice.
  have described (fields : List Field) : Reports (FieldInfo.ofFields fields) := by
    intro failed
    obtain ⟨before, field, after, -, -, faulty⟩ := FieldInfo.ofFields_eq_error_iff.mp failed
    generalize same : SynthesisError.unspliceable = error at faulty
    cases faulty <;> cases same
  rw [ofItem]
  cases item.asRecord with
  | error other => simp
  | ok record => exact (described _).bind fun infos => reports_pure _

namespace KeyMapping

/-- Inserting an entry reports a clash. -/
theorem reports_insert (mapping : KeyMapping) (field : Name) (key : String) (pos : Position) :
    Reports (mapping.insert field key pos) := by
  -- The key is new, or it clashes.
  rw [insert]
  cases mapping.entryForKey? key with
  | some first => simp
  | none => simp

/-- Mapping a record reports a mapping that exists already, or a clash. -/
theorem reports_ofRecord (policy : InclusionPolicy) (inspection : Inspection) :
    Reports (ofRecord policy inspection) := by
  -- Without a mapping of its own the record is mapped field by field.
  rw [ofRecord]
  cases inspection.record.existing.keyMapping with
  | some pos => simp
  | none =>
    exact reports_foldlM fun state field => reports_insert state field.name field.key field.pos

end KeyMapping

/-- Reading the arguments of a mapping reports what is wrong with them. -/
theorem MappingArguments.reports_ofTokens (tokens : List Token) : Reports (ofTokens tokens) := by
  -- Each entry has a key that is no literal, names the runtime, or is inserted.
  refine (reports_ofReading _).bind fun entries => reports_foldlM fun args entry => ?_
  have key : Reports (keyOf entry) := by
    rw [keyOf]
    split
    · simp
    · split <;> simp
    · simp
  refine key.bind fun literal => ?_
  split
  · -- The path of the runtime is read from a literal.
    cases literal with
    | none => simp [addRuntime]
    | some literal => exact (reports_ofReading _).bind fun path => reports_pure _
  · rw [addEntry]
    split
    · simp
    · split
      · simp
      · exact (KeyMapping.reports_insert _ _ _ _).bind fun mapping => reports_pure _

namespace Codable

variable {codable : Codable} {tokens : List Token} {item : Item} {context : Context}
  {args : CodableArguments} {inspection : Inspection} {mapping : KeyMapping} {runtime : Path}

/-- Reading the arguments of coding reports what is wrong with them. -/
theorem reports_readArguments (codable : Codable) (tokens : List Token) :
    Reports (codable.readArguments tokens) := by
  -- A conflict among the arguments is reported as well.
  refine (reports_ofReading _).bind fun args => ?_
  split <;> simp

/-- A conformance that is no path is reported. -/
theorem reports_requested (args : CodableArguments) (context : Context) (runtime : Path)
    (complete : Bool) : Reports (requested args context runtime complete) := by
  -- Conformances that are settings are read as paths, and others have been read already.
  rw [requested, Context.conformances]
  cases args.conform with
  | some traits => simp
  | none =>
    cases context.config.conformances with
    | some texts => exact reports_mapM Path.reports_ofSetting
    | none => simp

namespace CodingImpls

variable {impls : CodingImpls}

/-- The fields that the impl for a direction names. -/
def named (impls : CodingImpls) : Direction → List Name
  | .decoding => (impls.decode.map fun init => init.reads.map (·.field)).getD []
  | .encoding => (impls.encode.map fun encode => encode.writes.map (·.field)).getD []

/--
Whether an impl is generated that cannot be written: the path of the runtime cannot open its trait,
or it names a field that has the blank name.
-/
def Blocked (impls : CodingImpls) (runtime : Path) : Prop :=
  ∃ direction, impls.codes direction = true ∧
    (runtime.fitsType = false ∨ ∃ name ∈ impls.named direction, name.spelling = "_")

/-- Impls can all be written exactly if each of those that are generated can. -/
theorem not_blocked_iff : ¬impls.Blocked runtime ↔
    (∀ init ∈ impls.decode, runtime.fitsType = true ∧ init.fits = true) ∧
      ∀ encode ∈ impls.encode, runtime.fitsType = true ∧ encode.fits = true := by
  -- What holds of all directions holds of both.
  have directions (holds : Direction → Prop) :
      (∀ direction, holds direction) ↔ holds .decoding ∧ holds .encoding :=
    ⟨fun all => ⟨all _, all _⟩, fun both direction => by cases direction <;> simp [both]⟩
  obtain ⟨decode, encode⟩ := impls
  rw [Blocked, not_exists, directions]
  refine and_congr ?_ ?_
  · cases decode with
    | none => simp [codes]
    | some init => simp [codes, named, DecodeInitializer.fits]
  · cases encode with
    | none => simp [codes]
    | some encode => simp [codes, named, EncodeImpl.fits]

/-- Declaring the impls fails exactly if one of them cannot be written. -/
theorem declarations_eq_error_iff {error : SynthesisError} :
    impls.declarations runtime = .error error ↔
      error = .unspliceable ∧ impls.Blocked runtime := by
  -- There is no other reason for a declaration to fail.
  have only : ∀ other, impls.declarations runtime = .error other → other = .unspliceable := by
    intro other failed
    rcases bind_eq_error_iff.mp failed with decode | ⟨_, -, failed⟩
    · -- A declaration of a decode initializer fails for its paths only.
      obtain ⟨_, init, _, -, -, refused⟩ := mapM_eq_error_iff.mp decode
      rw [DecodeInitializer.declaration] at refused
      split at refused <;> cases refused
      rfl
    · rcases bind_eq_error_iff.mp failed with encode | ⟨_, -, impossible⟩
      · -- The same goes for the encode impl, and nothing fails behind the two lists.
        obtain ⟨_, encode, _, -, -, refused⟩ := mapM_eq_error_iff.mp encode
        rw [EncodeImpl.declaration] at refused
        split at refused <;> cases refused
        rfl
      · cases impossible
  constructor
  · intro failed
    refine ⟨only error failed, ?_⟩
    -- If nothing were in the way, all declarations would be there.
    by_contra free
    obtain ⟨decodes, encodes⟩ := not_blocked_iff.mp free
    rw [declarations_eq_ok_iff.mpr ⟨decodes, encodes, rfl⟩] at failed
    cases failed
  · rintro ⟨rfl, blocked⟩
    -- The declarations cannot be there, and any error is the one.
    cases declared : impls.declarations runtime with
    | error other => rw [only other declared]
    | ok coding =>
      obtain ⟨decodes, encodes, -⟩ := declarations_eq_ok_iff.mp declared
      exact absurd blocked (not_blocked_iff.mpr ⟨decodes, encodes⟩)

end CodingImpls

/-- Attaching a mapping fails exactly if there is one and the path cannot name its attribute. -/
theorem attributesWith_eq_error_iff {attributes : List Attribute} {namesRuntime : Bool}
    {error : SynthesisError} :
    attributesWith attributes mapping runtime namesRuntime = .error error ↔
      error = .unspliceable ∧ mapping.entries ≠ [] ∧ runtime.fitsAttribute = false := by
  -- An empty mapping is not attached, and any other one needs a path that fits.
  rw [attributesWith, KeyMapping.isEmpty]
  cases entries : mapping.entries with
  | nil => simp
  | cons first rest =>
    simp only [List.isEmpty_cons, Bool.false_eq_true, if_false, KeyMapping.toAttribute]
    cases fits : runtime.fitsAttribute with
    | true => simp [bind, Except.bind, pure, Except.pure]
    | false => simp [bind, Except.bind, eq_comm]

/--
What stands in the way of the code for a record: an impl of coding that cannot be written, a
requested trait that cannot open a type, or a path of the runtime that cannot name the attribute
which carries the mapping.
-/
inductive Obstacle (context : Context) (args : CodableArguments) (inspection : Inspection)
    (mapping : KeyMapping) : Prop
  | impls (blocked : (CodingImpls.ofMapping inspection mapping).Blocked
      (args.runtime.getD context.runtime)) : Obstacle context args inspection mapping
  | trait {traits : List Path} {trait : Path}
      (requests : requested args context (args.runtime.getD context.runtime)
        ((CodingImpls.ofMapping inspection mapping).complete inspection.record) = .ok traits)
      (missing : trait ∈ Conformance.missing inspection.record traits)
      (misfit : trait.fitsType = false) : Obstacle context args inspection mapping
  | mapping {traits : List Path}
      (requests : requested args context (args.runtime.getD context.runtime)
        ((CodingImpls.ofMapping inspection mapping).complete inspection.record) = .ok traits)
      (stored : (mapping.stored inspection.fields).entries ≠ [])
      (misfit : (args.runtime.getD context.runtime).fitsAttribute = false) :
      Obstacle context args inspection mapping

/-- A record that coding accepts so far, with an obstacle to its code. -/
def Blocked (codable : Codable) (tokens : List Token) (item : Item) (context : Context) : Prop :=
  ∃ args, codable.readArguments tokens = .ok args ∧
    ∃ inspection, Inspection.ofItem codable.name item = .ok inspection ∧
      ∃ mapping, KeyMapping.ofRecord (codable.policy args context.config) inspection = .ok mapping ∧
        Obstacle context args inspection mapping

/-- Coding breaks off exactly at an obstacle. -/
theorem expand_eq_unspliceable_iff :
    codable.expand tokens item context = .error .unspliceable ↔
      codable.Blocked tokens item context := by
  -- The first three stages report what is wrong.
  rw [expand]
  refine (reports_readArguments codable tokens).bind_iff.trans
    (exists_congr fun args => and_congr_right fun _ => ?_)
  refine (Inspection.reports_ofItem codable.name item).bind_iff.trans
    (exists_congr fun inspection => and_congr_right fun _ => ?_)
  refine (KeyMapping.reports_ofRecord _ inspection).bind_iff.trans
    (exists_congr fun mapping => and_congr_right fun _ => ?_)
  constructor
  · intro failed
    -- Behind them each stage has its own obstacle: the impls, the traits and the attribute.
    rcases bind_eq_error_iff.mp failed with refused | ⟨coding, -, failed⟩
    · exact .impls (CodingImpls.declarations_eq_error_iff.mp refused).2
    obtain ⟨traits, requests, failed⟩ := (reports_requested args context _ _).bind_iff.mp failed
    rcases bind_eq_error_iff.mp failed with refused | ⟨conforming, -, failed⟩
    · -- The traits are turned into impls all at once, and the first that does not fit breaks off.
      rw [Conformance.declarations_ofRequest?] at refused
      split at refused
      · cases refused
      · rename_i misfit
        rw [List.all_eq_true] at misfit
        push Not at misfit
        obtain ⟨trait, missing, misfit⟩ := misfit
        exact .trait requests missing (Bool.eq_false_iff.mpr misfit)
    · rcases bind_eq_error_iff.mp failed with refused | ⟨attributes, -, impossible⟩
      · obtain ⟨-, stored, misfit⟩ := attributesWith_eq_error_iff.mp refused
        exact .mapping requests stored misfit
      · cases impossible
  · intro obstacle
    -- If there are several obstacles, the first one breaks off; it is the same error.
    cases declared : (CodingImpls.ofMapping inspection mapping).declarations
        (args.runtime.getD context.runtime) with
    | error error =>
      obtain ⟨rfl, -⟩ := CodingImpls.declarations_eq_error_iff.mp declared
      exact bind_eq_error_iff.mpr (.inl declared)
    | ok coding =>
      refine bind_eq_error_iff.mpr (.inr ⟨coding, declared, ?_⟩)
      cases obstacle with
      -- The coding impls have been declared, so they are not what is in the way.
      | impls blocked =>
        rw [CodingImpls.declarations_eq_error_iff.mpr ⟨rfl, blocked⟩] at declared
        cases declared
      | @trait traits trait requests missing misfit =>
        refine bind_eq_error_iff.mpr (.inr ⟨traits, requests, bind_eq_error_iff.mpr (.inl ?_)⟩)
        refine (Conformance.declarations_ofRequest? _ _ _).trans (if_neg fun fits => ?_)
        rw [List.all_eq_true.mp fits trait missing] at misfit
        cases misfit
      | @mapping traits requests stored misfit =>
        refine bind_eq_error_iff.mpr (.inr ⟨traits, requests, ?_⟩)
        -- A trait that does not fit would be an obstacle before the attribute is.
        by_cases fits : (Conformance.missing inspection.record traits).all Path.fitsType = true
        · refine bind_eq_error_iff.mpr (.inr ⟨_,
            (Conformance.declarations_ofRequest? _ _ _).trans (if_pos fits), ?_⟩)
          refine bind_eq_error_iff.mpr (.inl ?_)
          exact attributesWith_eq_error_iff.mpr ⟨rfl, stored, misfit⟩
        · refine bind_eq_error_iff.mpr (.inl ?_)
          exact (Conformance.declarations_ofRequest? _ _ _).trans (if_neg fits)

end Codable

namespace KeyType

variable {tokens : List Token} {item : Item} {context : Context}

/-- A mapping of known fields for a record without one, under a path that cannot open a type. -/
def Blocked (tokens : List Token) (item : Item) (context : Context) : Prop :=
  ∃ args, MappingArguments.ofTokens tokens = .ok args ∧
    ∃ inspection, Inspection.ofItem name item = .ok inspection ∧
      inspection.record.existing.keyMapping = none ∧
        (∀ entry ∈ args.mapping.entries, ∃ field ∈ inspection.fields,
          field.name.spelling = entry.field.spelling) ∧
          args.mapping.entries ≠ [] ∧ (args.runtime.getD context.runtime).fitsType = false

/-- A mapping that a record has is reported. -/
theorem reports_checkUnmapped (record : Record) : Reports (checkUnmapped record) := by
  -- Either there is none, or its place is reported.
  rw [checkUnmapped]
  split <;> simp

/-- An unknown field is reported. -/
theorem reports_checkFields (inspection : Inspection) (mapping : KeyMapping) :
    Reports (checkFields inspection mapping) := by
  -- Either all fields are known, or one is reported.
  rw [checkFields]
  split <;> simp

/-- Declaring a key type fails only for its path: fields that can be listed can be variants. -/
theorem declarations_eq_error_iff {mapping : KeyMapping} {record : Record} {runtime : Path}
    {error : SynthesisError} (listed : mapping.Listable) :
    declarations mapping record runtime = .error error ↔
      error = .unspliceable ∧ runtime.fitsType = false := by
  -- The fields can be variants, so only the path is left to fail.
  rw [declarations, KeyMapping.declarations, if_pos (fitsVariants_of_listable listed)]
  cases runtime.fitsType <;> simp [eq_comm]

/-- The key type transformer breaks off exactly if it is blocked. -/
theorem expand_eq_unspliceable_iff :
    expand tokens item context = .error .unspliceable ↔ Blocked tokens item context := by
  -- Each stage before the declarations reports what is wrong.
  refine (MappingArguments.reports_ofTokens tokens).bind_iff.trans
    (exists_congr fun args => and_congr_right fun read => ?_)
  refine (Inspection.reports_ofItem name item).bind_iff.trans
    (exists_congr fun inspection => and_congr_right fun _ => ?_)
  refine (reports_checkUnmapped _).bind_iff.trans ((exists_const _).trans
    (and_congr checkUnmapped_eq_ok_iff ?_))
  refine (reports_checkFields _ _).bind_iff.trans ((exists_const _).trans
    (and_congr checkFields_eq_ok_iff ?_))
  have listed := (MappingArguments.wellFormed_of_ofTokens read).2
  rw [KeyMapping.isEmpty]
  cases entries : args.mapping.entries with
  | nil => simp [pure, Except.pure]
  | cons first rest =>
    simp only [List.isEmpty_cons, Bool.false_eq_true, if_false, bind_eq_error_iff,
      declarations_eq_error_iff listed]
    simp [pure, Except.pure]

end KeyType

namespace SecureStorage

variable {tokens : List Token} {item : Item} {context : Context} {args : StorageArguments}
  {inspection : Inspection}

/-- Placing a field reports options that cannot be read. -/
theorem reports_place (store : Expr) (field : Field) : Reports (place store field) := by
  -- Both kinds of fields have their place once the options are read.
  refine (reports_ofReading _).bind fun options => ?_
  cases options <;> simp

/--
What stands in the way of the accessors of a record: the path of the runtime cannot open the
expression of the shared store, or one of an accessor, or a field that leaves has the blank name.
-/
inductive Obstacle (context : Context) (args : StorageArguments) (inspection : Inspection) : Prop
  | store (unnamed : args.store = none)
      (misfit : (args.runtime.getD context.runtime).opensExpression = false) :
      Obstacle context args inspection
  | accessor {store : Expr} {placements : List Placement} {field : SecureField}
      (shared : storeOf args (args.runtime.getD context.runtime) = .ok store)
      (placed : inspection.record.fields.mapM (place store) = .ok placements)
      (leaves : field ∈ secured placements)
      (misfit : (args.runtime.getD context.runtime).opensExpression = false ∨
        field.name.spelling = "_") : Obstacle context args inspection

/-- A record that secure storage accepts so far, with an obstacle to its accessors. -/
def Blocked (tokens : List Token) (item : Item) (context : Context) : Prop :=
  ∃ args, StorageArguments.ofTokens tokens = .ok args ∧
    ∃ inspection, Inspection.ofItem name item = .ok inspection ∧ Obstacle context args inspection

/-- Only the shared store may be missing, namely if the path cannot open its expression. -/
theorem storeOf_eq_error_iff {runtime : Path} {error : SynthesisError} :
    storeOf args runtime = .error error ↔
      error = .unspliceable ∧ args.store = none ∧ runtime.opensExpression = false := by
  -- A given store needs no path.
  rw [storeOf]
  cases args.store with
  | some store => simp
  | none =>
    rw [SecureField.sharedStore]
    cases runtime.opensExpression <;> simp [eq_comm]

/-- Declaring accessors fails exactly if the path does not fit, or a field has the blank name. -/
theorem declaration_eq_error_iff {target : Target} {fields : List SecureField} {runtime : Path}
    {error : SynthesisError} (some : fields ≠ []) :
    SecureField.declaration target fields runtime = .error error ↔ error = .unspliceable ∧
      ∃ field ∈ fields, runtime.opensExpression = false ∨ field.name.spelling = "_" := by
  obtain ⟨first, inside⟩ := List.exists_mem_of_ne_nil fields some
  rw [SecureField.declaration]
  split
  · -- What is declared has no blank name, under a path that fits.
    rename_i fits
    rw [Bool.and_eq_true, List.all_eq_true] at fits
    constructor
    · intro impossible
      cases impossible
    · rintro ⟨-, field, member, misfit | blank⟩
      · rw [fits.1] at misfit
        cases misfit
      · exact absurd blank (bne_iff_ne.mp (fits.2 field member))
  · -- If the path does not fit, any field will do.
    rename_i misfit
    rw [Except.error.injEq]
    refine ⟨fun same => ⟨same.symm, ?_⟩, fun blocked => blocked.1.symm⟩
    cases opens : runtime.opensExpression with
    | false => exact ⟨first, inside, .inl rfl⟩
    | true =>
      rw [opens, Bool.true_and, List.all_eq_true] at misfit
      push Not at misfit
      obtain ⟨field, member, blank⟩ := misfit
      exact ⟨field, member, .inr (by simpa using blank)⟩

/-- A field that leaves has the name of a field of the record. -/
theorem exists_of_mem_secured {store : Expr} {fields : List Field} {placements : List Placement}
    {secure : SecureField} (placed : fields.mapM (place store) = .ok placements)
    (leaves : secure ∈ secured placements) : ∃ field ∈ fields, field.name = secure.name := by
  obtain ⟨placement, inside, found⟩ := List.mem_filterMap.mp leaves
  obtain ⟨field, member, there⟩ := exists_of_mem_forall₂ (mapM_eq_ok_iff.mp placed) inside
  obtain ⟨options, -, rest⟩ := bind_eq_ok_iff.mp there
  refine ⟨field, member, ?_⟩
  -- Only a field with options leaves, and its name goes with it.
  cases options with
  | none =>
    cases rest
    cases found
  | some options =>
    cases rest
    cases found
    rfl

/-- Secure storage breaks off exactly at an obstacle. -/
theorem expand_eq_unspliceable_iff :
    expand tokens item context = .error .unspliceable ↔ Blocked tokens item context := by
  -- Reading the arguments and inspecting the record report what is wrong.
  rw [expand_eq]
  refine (reports_ofReading _).bind_iff.trans (exists_congr fun args => and_congr ?_ ?_)
  · exact mapError_eq_ok_iff
  refine (Inspection.reports_ofItem name item).bind_iff.trans
    (exists_congr fun inspection => and_congr_right fun _ => ?_)
  constructor
  · intro failed
    -- The path of the store is looked at before any field is.
    rcases bind_eq_error_iff.mp failed with refused | ⟨store, shared, failed⟩
    · obtain ⟨-, unnamed, misfit⟩ := storeOf_eq_error_iff.mp refused
      exact .store unnamed misfit
    obtain ⟨placements, placed, failed⟩ := (reports_mapM (reports_place store)).bind_iff.mp failed
    split at failed
    · cases failed
    · -- Accessors are declared only if a field leaves.
      rename_i leaves
      rcases bind_eq_error_iff.mp failed with refused | ⟨accessors, -, impossible⟩
      · have some : secured placements ≠ [] := fun none => leaves (List.isEmpty_iff.mpr none)
        obtain ⟨-, field, member, misfit⟩ := (declaration_eq_error_iff some).mp refused
        exact .accessor shared placed member misfit
      · cases impossible
  · intro obstacle
    cases obstacle with
    -- An unnamed store breaks off at once.
    | store unnamed misfit =>
      exact bind_eq_error_iff.mpr (.inl (storeOf_eq_error_iff.mpr ⟨rfl, unnamed, misfit⟩))
    | @accessor store placements field shared placed leaves misfit =>
      -- The store is there, and every field has its place, so only the accessors are left to fail.
      have some : secured placements ≠ [] := List.ne_nil_of_mem leaves
      refine bind_eq_error_iff.mpr (.inr ⟨store, shared, bind_eq_error_iff.mpr (.inr
        ⟨placements, placed, ?_⟩)⟩)
      rw [if_neg (mt List.isEmpty_iff.mp some)]
      refine bind_eq_error_iff.mpr (.inl ?_)
      exact (declaration_eq_error_iff some).mpr ⟨rfl, field, leaves, misfit⟩

end SecureStorage

section Literals

variable {tokens : List Token} {context : Context} {runtime : Path}

/-- The only token is a string literal. -/
def IsTextLiteral (tokens : List Token) (literal : Token) : Prop :=
  tokens = [literal] ∧ ∃ written pos, literal = .literal written pos ∧ Look.isText written = true

/-- What is no string literal is reported. -/
theorem reports_literalOf (transformer : String) (tokens : List Token) :
    Reports (literalOf transformer tokens) :=
  reports_mapError _ fun _ same => by cases same

/-- A literal is taken from tokens that are a string literal and nothing else. -/
theorem literalOf_eq_ok_iff {transformer : String} {literal : Token} :
    literalOf transformer tokens = .ok literal ↔ IsTextLiteral tokens literal := by
  -- The tokens are one literal, and that literal is a text.
  rw [literalOf, mapError_eq_ok_iff, Reader.run_text_eq_ok_iff]
  constructor
  · rintro ⟨written, pos, rfl, isText, rfl⟩
    exact ⟨rfl, written, pos, rfl, isText⟩
  · rintro ⟨rfl, written, pos, rfl, isText⟩
    exact ⟨written, pos, rfl, isText, rfl⟩

/-- An expression of the runtime fails exactly if the path cannot open it. -/
theorem runtimeExpr_eq_error_iff {error : SynthesisError} :
    runtimeExpr runtime tokens = .error error ↔
      error = .unspliceable ∧ runtime.opensExpression = false := by
  -- The path is tested, and nothing else can fail.
  rw [runtimeExpr]
  cases runtime.opensExpression <;> simp [eq_comm]

/-- Hiding a literal breaks off exactly if the path of the runtime cannot open the call. -/
theorem Base64Encoded.expand_eq_unspliceable_iff :
    expand tokens context = .error .unspliceable ↔
      ∃ literal, IsTextLiteral tokens literal ∧ context.runtime.opensExpression = false := by
  -- An argument that is no literal is reported, and behind it only the call can break off.
  refine (reports_literalOf _ _).bind_iff.trans (exists_congr fun literal => ?_)
  exact and_congr literalOf_eq_ok_iff (by simp [runtimeExpr_eq_error_iff])

/-- Checking a URL breaks off exactly if it is one and the path of the runtime does not fit. -/
theorem CheckedUrl.expand_eq_unspliceable_iff :
    expand tokens context = .error .unspliceable ↔
      ∃ literal, IsTextLiteral tokens literal ∧ Url.check literal.textValue = .ok () ∧
        context.runtime.opensExpression = false := by
  refine (reports_literalOf _ _).bind_iff.trans (exists_congr fun literal => ?_)
  refine and_congr literalOf_eq_ok_iff ?_
  -- Text that is no URL is reported, too.
  cases Url.check literal.textValue <;> simp [runtimeExpr_eq_error_iff]

end Literals

end KeyedCoding
