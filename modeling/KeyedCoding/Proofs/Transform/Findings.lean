import KeyedCoding.Proofs.Transform.Emission

/-!
Findings: what the coding transformer says about the fields of a record, in which order, and what
the settings make of it.
-/

namespace KeyedCoding

/-- What is made of related items is the same, if it is the same of every pair. -/
theorem filterMap_eq_of_forall₂ {α β γ : Type} {related : α → β → Prop} {items : List α}
    {others : List β} {make : α → Option γ} {remake : β → Option γ}
    (pairs : List.Forall₂ related items others)
    (same : ∀ item other, item ∈ items → related item other → make item = remake other) :
    items.filterMap make = others.filterMap remake := by
  -- Related lists are walked together, one pair at a time.
  induction pairs with
  | nil => rfl
  | cons pair _ ih =>
    have head := same _ _ (List.mem_cons_self ..) pair
    have tail := ih fun item other inside => same item other (List.mem_cons_of_mem _ inside)
    simp only [List.filterMap_cons, head, tail]

namespace Config

variable {config other : Config} {found : List Diagnostic}

/-- Settings disable a kind of finding if they say so by its name. -/
def Disables (config : Config) (name : String) : Prop :=
  ∃ settings, config.diagnostics.lookup name = some settings ∧ settings.enabled = some false

/-- The severity that a finding has under settings: the one that is set by its name, else its own. -/
def Grades (config : Config) (diagnostic : Diagnostic) (severity : Severity) : Prop :=
  (∃ settings, config.diagnostics.lookup diagnostic.name = some settings ∧
      settings.severity = some severity) ∨
    severity = diagnostic.severity ∧
      ∀ settings, config.diagnostics.lookup diagnostic.name = some settings →
        settings.severity = none

/--
What is reported under settings: findings of a disabled kind are dropped, and the others stay in
their order, each with its severity under the settings.
-/
inductive Reports (config : Config) : List Diagnostic → List Diagnostic → Prop
  | nil : Reports config [] []
  | dropped {diagnostic : Diagnostic} {found reported : List Diagnostic}
      (disabled : config.Disables diagnostic.name) (rest : Reports config found reported) :
      Reports config (diagnostic :: found) reported
  | kept {diagnostic : Diagnostic} {severity : Severity} {found reported : List Diagnostic}
      (enabled : ¬config.Disables diagnostic.name) (grades : config.Grades diagnostic severity)
      (rest : Reports config found reported) :
      Reports config (diagnostic :: found) ({ diagnostic with severity } :: reported)

/-- A kind of finding is reported exactly if the settings do not disable it. -/
theorem isEnabled_eq_false_iff {name : String} :
    config.isEnabled name = false ↔ config.Disables name := by
  -- A kind without settings is enabled, and so is one whose settings do not say.
  rw [isEnabled, settingsOf?, Disables]
  cases config.diagnostics.lookup name with
  | none => simp
  | some settings => cases enabled : settings.enabled <;> simp [enabled]

/-- The severity of a finding is the one under the settings. -/
theorem grades_withSeverity (diagnostic : Diagnostic) :
    config.Grades diagnostic (config.withSeverity diagnostic).severity := by
  -- The settings of a kind may be missing, or may say nothing about the severity.
  rw [withSeverity, severityOf?, settingsOf?, Grades]
  cases found : config.diagnostics.lookup diagnostic.name with
  | none => exact .inr ⟨rfl, fun settings impossible => by cases impossible⟩
  | some settings =>
    cases set : settings.severity with
    | none =>
      refine .inr ⟨by simp [set], fun other same => ?_⟩
      rwa [← Option.some.inj same]
    | some severity => exact .inl ⟨settings, rfl, by simp [set]⟩

/-- What is reported is what the settings leave of the findings. -/
theorem reports_apply (found : List Diagnostic) : config.Reports found (config.apply found) := by
  -- Every finding is dropped or kept on its own.
  induction found with
  | nil => exact .nil
  | cons diagnostic rest ih =>
    rw [apply, List.filter_cons]
    cases enabled : config.isEnabled diagnostic.name with
    | false => exact .dropped (isEnabled_eq_false_iff.mp enabled) ih
    | true =>
      refine .kept (fun disabled => ?_) (grades_withSeverity diagnostic) ih
      rw [isEnabled_eq_false_iff.mpr disabled] at enabled
      cases enabled

/-- A finding with the severity under the settings has it for good. -/
@[simp] theorem withSeverity_withSeverity (diagnostic : Diagnostic) :
    config.withSeverity (config.withSeverity diagnostic) = config.withSeverity diagnostic := by
  -- The settings look at the name, which stays.
  cases set : config.severityOf? diagnostic.name <;> simp [withSeverity, set]

/-- Settings that have been applied change nothing when they are applied again. -/
theorem apply_apply (found : List Diagnostic) :
    config.apply (config.apply found) = config.apply found := by
  have enabled : ∀ diagnostic ∈ config.apply found, config.isEnabled diagnostic.name = true := by
    rw [apply, List.forall_mem_map]
    intro diagnostic inside
    exact (List.mem_filter.mp inside).2
  have graded : ∀ diagnostic ∈ config.apply found,
      config.withSeverity diagnostic = id diagnostic := by
    rw [apply, List.forall_mem_map]
    exact fun diagnostic _ => withSeverity_withSeverity diagnostic
  -- So no finding is dropped, and none gets another severity.
  conv_lhs => rw [apply, List.filter_eq_self.mpr enabled, List.map_congr_left graded, List.map_id]

/-- Of the settings, only those of findings take part. -/
theorem apply_congr (same : other.diagnostics = config.diagnostics) (found : List Diagnostic) :
    other.apply found = config.apply found := by
  -- All that is asked of the settings goes by the name of the finding.
  have settings (name : String) : other.settingsOf? name = config.settingsOf? name := by
    rw [settingsOf?, settingsOf?, same]
  have enabled : (fun diagnostic : Diagnostic => other.isEnabled diagnostic.name) =
      fun diagnostic => config.isEnabled diagnostic.name := by
    funext diagnostic
    rw [isEnabled, isEnabled, settings]
  have graded : other.withSeverity = config.withSeverity := by
    funext diagnostic
    rw [withSeverity, withSeverity, severityOf?, severityOf?, settings]
  rw [apply, apply, enabled, graded]

end Config

/-- A declared field with the options that its attributes give. -/
structure OptedField where
  field : Field
  options : FieldOptions
  read : FieldOptions.ofAttributes field.attributes = .ok options

namespace OptedField

/-- The finding at a field that is skipped and yet renamed. -/
def unusedOption? (opted : OptedField) : Option Diagnostic :=
  if opted.options.skip && opted.options.rename.isSome then
    some
      { code := "CS002"
        name := "unused-option"
        severity := .warning
        message := "`rename` on skipped field `" ++ opted.field.name.spelling ++ "` has no effect"
        pos := opted.field.pos }
  else none

/-- Whether a field has a value of its own: a default, or an accessor to secure storage. -/
def isInitialized (opted : OptedField) : Bool :=
  opted.options.default.isSome || opted.options.secure

/-- The finding at a field that keeps its own value, though it is not skipped. -/
def immutableDefault? (opted : OptedField) : Option Diagnostic :=
  if opted.isInitialized && opted.options.readonly && !opted.options.skip then
    some
      { code := "CS001"
        name := "immutable-default"
        severity := .warning
        message := "immutable field `" ++ opted.field.name.plain ++
          "` with a default is never repopulated by decoding"
        pos := opted.field.pos
        fixIt := opted.field.withSkip.toOption.map fun marked =>
          ⟨"mark the field as excluded with `skip`", opted.field.pos,
            Token.renderAll marked.tokens⟩ }
  else none

/-- All findings at some fields: first those of the one kind, and behind them those of the other. -/
def findings (declared : List OptedField) : List Diagnostic :=
  declared.filterMap unusedOption? ++ declared.filterMap immutableDefault?

/-- What is known of a field is what its options say. -/
structure Describes (opted : OptedField) (info : FieldInfo) : Prop where
  name : info.name = opted.field.name
  pos : info.pos = opted.field.pos
  skipped : info.skipped = opted.options.skip
  readonly : info.readonly = opted.options.readonly
  rename : info.rename = opted.options.rename
  isInitialized : info.isInitialized = opted.isInitialized

/-- A field that is described has options, which say what is known of it. -/
theorem exists_describes {field : Field} {info : FieldInfo}
    (described : FieldInfo.ofField field = .ok info) :
    ∃ opted : OptedField, opted.field = field ∧ opted.Describes info := by
  obtain ⟨options, read, rest⟩ := bind_eq_ok_iff.mp described
  obtain ⟨initializer, found, same⟩ := bind_eq_ok_iff.mp rest
  cases same
  refine ⟨⟨field, options, mapError_eq_ok_iff.mp read⟩, rfl, rfl, rfl, rfl, rfl, rfl, ?_⟩
  -- A default and the mark of a secure field exclude each other, and either is an initializer.
  rw [FieldInfo.isInitialized, isInitialized]
  unfold FieldInfo.initializerOf at found
  split at found
  · cases found
  · rename_i secure _
    cases found
    simp [secure]
  · rename_i plain
    cases found
    simp [plain]

/-- So fields that are described have options all together. -/
theorem exists_describe {fields : List Field} {infos : List FieldInfo}
    (described : List.Forall₂ (fun field info => FieldInfo.ofField field = .ok info) fields infos) :
    ∃ declared : List OptedField, declared.map OptedField.field = fields ∧
      List.Forall₂ Describes declared infos := by
  -- The options of the fields are found one field after the other.
  induction described with
  | nil => exact ⟨[], rfl, .nil⟩
  | cons head _ ih =>
    obtain ⟨opted, rfl, describes⟩ := exists_describes head
    obtain ⟨declared, rfl, others⟩ := ih
    exact ⟨opted :: declared, rfl, .cons describes others⟩

/-- The options of a field are the only ones that its attributes give. -/
theorem eq_of_field {one other : OptedField} (same : one.field = other.field) : one = other := by
  -- Options are read off the attributes, so equal fields have equal options.
  obtain ⟨field, options, read⟩ := one
  obtain ⟨_, _, read'⟩ := other
  cases same
  cases Except.ok.inj (read.symm.trans read')
  rfl

/-- So are those of several fields. -/
theorem eq_of_map_field {one other : List OptedField}
    (same : one.map OptedField.field = other.map OptedField.field) : one = other :=
  List.map_injective_iff.mpr (fun _ _ => eq_of_field) same

variable {declared : List OptedField} {infos : List FieldInfo}

/-- The findings about options without effect are those at the declared fields. -/
theorem filterMap_unusedOption? (describe : List.Forall₂ Describes declared infos) :
    infos.filterMap FieldInfo.unusedOption? = declared.filterMap unusedOption? := by
  -- What is told of a field is told by the declared field itself.
  refine (filterMap_eq_of_forall₂ describe fun opted info _ describes => ?_).symm
  rw [unusedOption?, FieldInfo.unusedOption?, describes.skipped, describes.rename, describes.name,
    describes.pos]

/-- A field is found by its name, if no other field has it. -/
theorem find?_name {fields : List Field} (distinct : (fields.map (·.name.spelling)).Nodup)
    {field : Field} (inside : field ∈ fields) :
    fields.find? (·.name == field.name) = some field := by
  -- Some field has the name, and no two fields have the same one.
  cases looked : fields.find? (·.name == field.name) with
  | none =>
    have other := List.find?_eq_none.mp looked field inside
    simp at other
  | some found =>
    have same : found.name.spelling = field.name.spelling := by
      simpa using List.find?_some looked
    rw [List.inj_on_of_nodup_map distinct (List.mem_of_find?_eq_some looked) inside same]

/--
The findings about defaults that stay are those at the declared fields: the declaration that is
looked up for a field is its own.
-/
theorem filterMap_immutableDefault?
    (distinct : ((declared.map OptedField.field).map (·.name.spelling)).Nodup)
    (describe : List.Forall₂ Describes declared infos) :
    (infos.filter FieldInfo.keepsDefault).filterMap
        (FieldInfo.immutableDefault? (declared.map OptedField.field)) =
      declared.filterMap immutableDefault? := by
  rw [List.filterMap_filter]
  refine (filterMap_eq_of_forall₂ describe fun opted info inside describes => ?_).symm
  have own := find?_name distinct (List.mem_map_of_mem inside)
  rw [immutableDefault?, FieldInfo.keepsDefault, describes.isInitialized, describes.readonly,
    describes.skipped, FieldInfo.immutableDefault?, describes.name, own, Option.map_some,
    FieldInfo.immutableDefault, FieldInfo.skipFix?, describes.name, describes.pos]
  -- Where the field cannot be marked there is no edit.
  cases opted.field.withSkip <;> rfl

end OptedField

/-- What an inspected record is found to have are the findings at its fields. -/
theorem Inspection.exists_findings {transformer : String} {item : Item} {inspection : Inspection}
    (inspected : ofItem transformer item = .ok inspection) :
    ∃ declared : List OptedField, declared.map OptedField.field = inspection.record.fields ∧
      inspection.diagnostics ++ inspection.defaultDiagnostics = OptedField.findings declared := by
  -- Each of the two lists is made field by field from the declared options.
  obtain ⟨declared, fields, describe⟩ := OptedField.exists_describe (fields_described inspected)
  have distinct := declared_nodup inspected
  rw [← fields] at distinct
  refine ⟨declared, fields, ?_⟩
  rw [diagnostics, defaultDiagnostics, OptedField.findings, ← fields,
    OptedField.filterMap_unusedOption? describe,
    OptedField.filterMap_immutableDefault? distinct describe]

namespace Codable

variable {codable : Codable} {tokens : List Token} {item : Item} {context : Context}
  {expansion : Expansion}

/-- The decoder of a run never meets an entry whose field does not exist. -/
theorem Run.exists_ofMapping (run : Run codable tokens item context) :
    ∃ init, DecodeInitializer.ofMapping run.inspection run.mapping = .ok init := by
  rw [DecodeInitializer.ofMapping, run.unknownFields_eq_nil]
  -- What is left is whether a decoder is generated at all.
  dsimp only
  split
  · exact ⟨none, rfl⟩
  · exact ⟨_, rfl⟩

/-- A run reports what its settings leave of the findings at the declared fields. -/
theorem Run.exists_findings (run : Run codable tokens item context) :
    ∃ declared : List OptedField, declared.map OptedField.field = run.record.fields ∧
      run.expansion.diagnostics = context.config.apply (OptedField.findings declared) := by
  obtain ⟨declared, fields, found⟩ := Inspection.exists_findings run.inspected
  refine ⟨declared, fields, ?_⟩
  -- The decoder has nothing to add, because no entry of the mapping is unknown to it.
  obtain ⟨init, known⟩ := run.exists_ofMapping
  have unknown : CodingImpls.unknownFields run.inspection run.mapping = [] := by
    rw [CodingImpls.unknownFields, known]
  rw [expansion, unknown, List.append_nil, found]

/--
The diagnostics of an expansion of a record: what the settings leave of the findings at its fields.
Settings that are applied again change nothing, and any other expansion of the same fields under the
same settings of findings has the same diagnostics.
-/
structure Diagnoses (record : Record) (config : Config) (diagnostics : List Diagnostic) :
    Prop where
  reports : ∃ declared, declared.map OptedField.field = record.fields ∧
    config.Reports (OptedField.findings declared) diagnostics
  settled : config.apply diagnostics = diagnostics
  determined : ∀ (codable : Codable) (tokens : List Token) (item : Item) (context : Context)
    (expansion : Expansion) (other : Record),
      codable.expand tokens item context = .ok expansion → item.asRecord = .ok other →
        other.fields = record.fields → context.config.diagnostics = config.diagnostics →
          expansion.diagnostics = diagnostics

/-- Every expansion is diagnosed so. -/
theorem expand_diagnoses (expanded : codable.expand tokens item context = .ok expansion) :
    ∃ record, item.asRecord = .ok record ∧
      Diagnoses record context.config expansion.diagnostics := by
  obtain ⟨run, rfl⟩ := Run.expand_eq_ok_iff.mp expanded
  obtain ⟨declared, fields, reported⟩ := run.exists_findings
  refine ⟨run.record, run.found, ⟨declared, fields, ?_⟩, ?_, ?_⟩
  · rw [reported]
    exact Config.reports_apply _
  · rw [reported]
    exact Config.apply_apply _
  · intro codable tokens item context expansion other expanded found same settings
    obtain ⟨again, rfl⟩ := Run.expand_eq_ok_iff.mp expanded
    obtain ⟨redeclared, refields, rereported⟩ := again.exists_findings
    -- The fields are the same, and the options are read off the fields.
    obtain rfl : other = again.record := Except.ok.inj (found.symm.trans again.found)
    have equal : redeclared = declared := by
      refine OptedField.eq_of_map_field ?_
      rw [refields, fields, same]
    rw [rereported, reported, equal, Config.apply_congr settings]

/-- A struct with a field that keeps its default, between a field that is skipped and a plain one. -/
def medal : Item :=
  let field (name : String) (options : List Token) : Field :=
    ⟨[.withList (.ofName ⟨Attribute.codableName, .origin⟩) options], [], ⟨name, .origin⟩,
      .path (.ofName ⟨"u8", .origin⟩)⟩
  .struct
    { head := ⟨[], [], .origin, ⟨"Medal", .origin⟩, .empty⟩
      fields := .named
        [field "cache" [Token.word "skip"],
         field "level" ([Token.word "readonly"] ++ Token.symbol "," ++ [Token.word "default"] ++
          Token.symbol "=" ++ [.literal "1" .origin]),
         field "id" []] false }

/-- Settings under which a default that stays is an error. -/
def strictContext : Context :=
  ⟨{ diagnostics := [("immutable-default", { severity := some .error })] }, Context.standardRuntime⟩

/-- Of that struct the second field alone is reported, and as an error. -/
theorem expand_diagnoses_medal : ∃ expansion,
    standard.expand [] medal strictContext = .ok expansion ∧
      (∃ record, medal.asRecord = .ok record ∧
        Diagnoses record strictContext.config expansion.diagnostics) ∧
        expansion.diagnostics.map (fun diagnostic => (diagnostic.code, diagnostic.severity)) =
          [("CS001", .error)] := by
  -- The expansion is run, and its findings are compared with what the statement says.
  obtain ⟨expansion, expanded, codes⟩ : ∃ expansion,
      standard.expand [] medal strictContext = .ok expansion ∧
        expansion.diagnostics.map (fun diagnostic => (diagnostic.code, diagnostic.severity)) =
          [("CS001", .error)] := ⟨_, rfl, rfl⟩
  exact ⟨expansion, expanded, expand_diagnoses expanded, codes⟩

end Codable

end KeyedCoding
