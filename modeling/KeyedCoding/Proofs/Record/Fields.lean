import KeyedCoding.Proofs.KeyMapping.Entries
import KeyedCoding.Proofs.Token.Reader
import KeyedCoding.Record.Secure

/-!
Laws of inspected fields: one for each declared field, with its name and type, computed exactly if
it is secure.
-/

namespace KeyedCoding

/-- A path of one word has the name of the word only. -/
theorem Path.isName_ofName (name : Name) (other : String) :
    (Path.ofName name).isName other = (name.spelling == other) := rfl

/-- A path has a name exactly if that is its single name. -/
theorem Path.isName_iff {path : Path} {spelling : String} :
    path.isName spelling = true ↔ ∃ pos, path.singleName? = some ⟨spelling, pos⟩ := by
  -- Names are compared by their spelling, wherever they stand.
  rw [isName]
  cases single : path.singleName? with
  | none => simp
  | some name =>
    obtain ⟨found, pos⟩ := name
    simp

/-- A path is at most one single name. -/
theorem Path.eq_of_isName {path : Path} {first second : String} (one : path.isName first = true)
    (other : path.isName second = true) : first = second := by
  -- Both are compared with the same single name.
  obtain ⟨pos, single⟩ := isName_iff.mp one
  obtain ⟨place, again⟩ := isName_iff.mp other
  exact congrArg Name.spelling (Option.some.inj (single.symm.trans again))

/-- An attribute that marks a field as secure has another name than one with coding options. -/
theorem Attribute.not_isCodable_of_isSecure {attr : Attribute}
    (secure : attr.path.isName secureName = true) : attr.path.isName codableName = false := by
  -- An attribute has one path, and the two names differ.
  rw [← Bool.not_eq_true]
  exact fun codable => absurd (Path.eq_of_isName secure codable) (by decide)

namespace Field

/-- Whether a field carries the attribute that moves it to secure storage. -/
def isSecure (field : Field) : Bool := field.attributes.any (·.path.isName Attribute.secureName)

/-- Without names nothing is stripped. -/
theorem strip_nil {field : Field} : strip [] field = field := by simp [strip, Attribute.strip]

/-- Stripping attributes leaves the names of fields. -/
theorem spellings_strip (names : List String) (fields : List Field) :
    (fields.map (strip names)).map (·.name.spelling) = fields.map (·.name.spelling) := by
  -- The attributes are filtered, and the name is handed on.
  rw [List.map_map]
  rfl

/-- Stripping attributes brings no new ones. -/
theorem attributes_strip_subset {names : List String} {field : Field} :
    (strip names field).attributes ⊆ field.attributes := List.filter_subset_self _

/-- No stripped attribute is left. -/
theorem isName_of_mem_strip {name : String} {field : Field} {attr : Attribute}
    (inside : attr ∈ (strip [name] field).attributes) : attr.path.isName name = false := by
  -- What is left has passed the filter.
  simpa using List.of_mem_filter inside

/-- A field without its coding options is as secure as before. -/
theorem isSecure_strip {field : Field} :
    (strip [Attribute.codableName] field).isSecure = field.isSecure := by
  -- Only coding attributes are stripped, and none of them is the secure one.
  rw [isSecure, isSecure, strip, Attribute.strip, List.any_filter]
  refine List.any_congr rfl fun attr => ?_
  cases secure : attr.path.isName Attribute.secureName with
  | false => rw [Bool.and_false]
  | true => simp [Attribute.not_isCodable_of_isSecure secure]

/-- So the same fields are not secure among those without their coding options. -/
theorem isSecure_comp_strip :
    (fun field : Field => !field.isSecure) ∘ strip [Attribute.codableName] =
      fun field => !field.isSecure := by
  -- Security is told by an attribute that is not stripped.
  funext field
  rw [Function.comp_apply, isSecure_strip]

/--
Fields that can be described: the options of each can be read and do not contradict each other, and
no two fields have the same name.
-/
structure Describable (fields : List Field) : Prop where
  options : ∀ field ∈ fields, ∃ options, FieldOptions.ofAttributes field.attributes = .ok options ∧
    (options.secure = true → options.default = none)
  names : (fields.map (·.name.spelling)).Nodup

end Field

/-- Arguments give what each of them keeps. -/
theorem Grammar.arguments_gives {σ : Type} {step : σ → Path → Reader σ} {keeps : σ → Prop}
    {start : σ}
    (each : ∀ state path, keeps state → (step state path).Gives keeps) (begins : keeps start) :
    (arguments step start).Gives keeps := by
  -- Every argument continues what the ones before it gave, so the property is the invariant of the
  -- repetition.
  refine Reader.Gives.iterate keeps (fun state known => ?_) begins
  refine Reader.Gives.then fun ended => ?_
  split
  · exact Reader.Gives.pure known
  · refine Reader.Gives.then fun path => Reader.Gives.bind (each state path known)
      fun next kept => ?_
    refine Reader.Gives.then fun ended => ?_
    split
    · exact Reader.Gives.pure kept
    · exact Reader.Gives.then fun _ => Reader.Gives.pure kept

namespace FieldOptions

open Reader

/-- No option of a coding attribute moves a field to secure storage. -/
theorem readOption_keeps_secure (g : Grammar) (options : FieldOptions) (path : Path) :
    (readOption g options path).Gives (·.secure = options.secure) := by
  -- Every branch sets another option or fails.
  unfold readOption
  split
  · exact Gives.pure rfl
  · split
    · exact Gives.pure rfl
    · split
      · split
        · exact Gives.failAt _ _
        · exact Gives.then fun expr => Gives.pure rfl
      · split
        · split
          · exact Gives.failAt _ _
          · exact Gives.then fun literal => Gives.pure rfl
        · exact Gives.failAt _ _

/-- No list of options moves a field to secure storage. -/
theorem arguments_keep_secure (g : Grammar) (options : FieldOptions) :
    (Grammar.arguments (readOption g) options).Gives (·.secure = options.secure) := by
  -- Each option of the list keeps the mark, and so do all of them in turn.
  refine Grammar.arguments_gives (fun state path known => ?_) rfl
  exact (readOption_keeps_secure g state path).mono fun next same => same.trans known

/-- An attribute moves a field to secure storage exactly by its path. -/
theorem addAttribute_secure {options after : FieldOptions} {attr : Attribute}
    (added : options.addAttribute attr = .ok after) :
    after.secure = (options.secure || attr.path.isName Attribute.secureName) := by
  rw [addAttribute] at added
  split at added
  · -- The mark is set, whatever was known before.
    rename_i secure
    cases added
    simp [secure]
  · rename_i plain
    split at added
    · -- What a coding attribute lists leaves the mark alone.
      rw [Attribute.readList] at added
      split at added
      · simpa [plain] using Gives.of_run (arguments_keep_secure _ options) added
      · cases added
      · cases added
    · cases added
      simp [plain]

/--
Attributes that are read one after another move a field to secure storage if any of them does.
-/
theorem foldlM_addAttribute_secure {attributes : List Attribute} {options after : FieldOptions}
    (read : attributes.foldlM addAttribute options = .ok after) :
    after.secure = (options.secure || attributes.any (·.path.isName Attribute.secureName)) := by
  -- Every attribute adds its own mark to those of the attributes before it.
  induction attributes generalizing options with
  | nil =>
    cases read
    simp
  | cons attr rest ih =>
    rw [List.foldlM_cons, bind_eq_ok_iff] at read
    obtain ⟨next, added, others⟩ := read
    rw [ih others, addAttribute_secure added]
    simp [Bool.or_assoc]

/-- A field is in secure storage exactly if one of its attributes says so. -/
theorem ofAttributes_secure {attributes : List Attribute} {options : FieldOptions}
    (read : ofAttributes attributes = .ok options) :
    options.secure = attributes.any (·.path.isName Attribute.secureName) := by
  -- The marks are added attribute by attribute, and at first there is none.
  simpa using foldlM_addAttribute_secure read

/-- Attributes without coding options say only whether the field is secure. -/
theorem ofAttributes_plain {attributes : List Attribute}
    (plain : ∀ attr ∈ attributes, attr.path.isName Attribute.codableName = false) :
    ofAttributes attributes =
      .ok { secure := attributes.any (·.path.isName Attribute.secureName) } := by
  -- The only other attribute that is looked at is the mark of secure storage.
  have read (start : FieldOptions) : attributes.foldlM addAttribute start =
      .ok { start with
        secure := start.secure || attributes.any (·.path.isName Attribute.secureName) } := by
    induction attributes generalizing start with
    | nil => simp [pure, Except.pure]
    | cons attr rest ih =>
      rw [List.forall_mem_cons] at plain
      rw [List.foldlM_cons, addAttribute, plain.1, List.any_cons]
      cases secure : attr.path.isName Attribute.secureName with
      | true =>
        refine (ih plain.2 { start with secure := true }).trans ?_
        simp
      | false =>
        refine (ih plain.2 start).trans ?_
        simp
  refine (read {}).trans ?_
  simp

end FieldOptions

namespace FieldInfo

variable {field : Field} {info : FieldInfo}

/--
A field with an initializer from options has an accessor exactly if the options are those of a
secure field.
-/
theorem isAccessor_of_initializerOf {options : FieldOptions}
    (found : initializerOf options = .ok info.initializer) : info.isAccessor = options.secure := by
  -- A secure field with a default is refused, so the two ways to a value exclude each other.
  unfold initializerOf at found
  split at found
  · cases found
  · -- The mark alone makes the accessor.
    rename_i secure _
    simp only [Except.ok.injEq] at found
    rw [isAccessor, ← found, secure]
  · -- Without the mark the initializer is the default, if there is one.
    rename_i plain
    simp only [Except.ok.injEq] at found
    rw [isAccessor, ← found, plain]
    cases options.default <;> rfl

/-- What is known of a field keeps its name and type, and says that secure fields are computed. -/
theorem ofField_eq_ok (described : ofField field = .ok info) :
    info.name = field.name ∧ info.ty = field.ty ∧ info.isAccessor = field.isSecure := by
  obtain ⟨options, read, rest⟩ := bind_eq_ok_iff.mp described
  obtain ⟨initializer, found, same⟩ := bind_eq_ok_iff.mp rest
  cases same
  refine ⟨rfl, rfl, ?_⟩
  -- The options come from the attributes, and the accessor comes from the options.
  rw [isAccessor_of_initializerOf found]
  exact FieldOptions.ofAttributes_secure (mapError_eq_ok_iff.mp read)

/--
Fields are described exactly if each can be and no name repeats, also none of those seen before.
-/
theorem ofFieldsAfter_eq_ok_iff {seen : List Name} {fields : List Field} {infos : List FieldInfo} :
    ofFieldsAfter seen fields = .ok infos ↔
      List.Forall₂ (fun field info => ofField field = .ok info) fields infos ∧
        (fields.map (·.name.spelling)).Nodup ∧
        ∀ field ∈ fields, ∀ name ∈ seen, name.spelling ≠ field.name.spelling := by
  -- Each field has to differ from those before it, which have joined the ones seen.
  induction fields generalizing seen infos with
  | nil => simp [ofFieldsAfter, eq_comm]
  | cons field rest ih =>
    -- A field is new if its spelling differs from all that have been seen.
    have fresh : seen.contains field.name = false ↔
        ∀ name ∈ seen, name.spelling ≠ field.name.spelling := by
      rw [List.contains_eq_any_beq, List.any_eq_false]
      exact forall₂_congr fun name _ => by rw [Name.beq_eq_true_iff]; exact ne_comm
    rw [ofFieldsAfter]
    cases known : seen.contains field.name with
    | true =>
      -- The name has been seen, so the field is refused.
      have repeated : ¬∀ name ∈ seen, name.spelling ≠ field.name.spelling := by
        rw [← fresh, known]
        simp
      simp only [if_true, List.forall_mem_cons, repeated, false_and, and_false, iff_false]
      exact fun impossible => by cases impossible
    | false =>
      -- The name is new, so the field is described and then joins the ones seen.
      have apart := fresh.mp known
      simp only [Bool.false_eq_true, if_false, bind_eq_ok_iff, ih]
      constructor
      · rintro ⟨first, described, others, ⟨pairs, unique, unseen⟩, same⟩
        cases same
        refine ⟨.cons described pairs, ?_, ?_⟩
        · rw [List.map_cons, List.nodup_cons]
          refine ⟨fun inside => ?_, unique⟩
          obtain ⟨other, member, equal⟩ := List.mem_map.mp inside
          exact unseen other member field.name (by simp) equal.symm
        · rw [List.forall_mem_cons]
          exact ⟨apart, fun other member name inside =>
            unseen other member name (List.mem_cons_of_mem _ inside)⟩
      · rintro ⟨pairs, unique, unseen⟩
        cases pairs with
        | cons described pairs =>
          rw [List.map_cons, List.nodup_cons] at unique
          rw [List.forall_mem_cons] at unseen
          refine ⟨_, described, _, ⟨pairs, unique.2, fun other member => ?_⟩, rfl⟩
          rw [List.forall_mem_cons]
          refine ⟨fun equal => unique.1 ?_, unseen.2 other member⟩
          exact List.mem_map.mpr ⟨other, member, equal.symm⟩

/-- What is known of a field without coding options. -/
def ofPlain (field : Field) : FieldInfo where
  name := field.name
  ty := field.ty
  initializer := if field.isSecure then some .accessor else none
  skipped := false
  readonly := false
  rename := none
  pos := field.pos

/-- A field without coding options is described by its name, its type and its mark. -/
theorem ofField_plain {field : Field}
    (plain : ∀ attr ∈ field.attributes, attr.path.isName Attribute.codableName = false) :
    ofField field = .ok (ofPlain field) := by
  rw [ofField, FieldOptions.ofAttributes_plain plain, ofPlain]
  -- Without a default, the mark is all that makes an initializer.
  change (initializerOf { secure := field.isSecure } >>= _) = _
  cases field.isSecure <;> rfl

/-- Such fields are described. -/
theorem exists_ofFields_of_describable {fields : List Field}
    (describable : Field.Describable fields) : ∃ infos, ofFields fields = .ok infos := by
  obtain ⟨infos, described⟩ :
      ∃ infos, List.Forall₂ (fun field info => ofField field = .ok info) fields infos := by
    refine exists_forall₂ fun field inside => ?_
    obtain ⟨options, read, consistent⟩ := describable.options field inside
    -- Only a default next to the mark of a secure field is a contradiction.
    obtain ⟨initializer, given⟩ : ∃ initializer, initializerOf options = .ok initializer := by
      rw [initializerOf]
      cases secure : options.secure with
      | false => exact ⟨_, rfl⟩
      | true =>
        rw [consistent secure]
        exact ⟨_, rfl⟩
    refine ⟨⟨field.name, field.ty, initializer, options.skip, options.readonly, options.rename,
      field.pos⟩, ?_⟩
    rw [ofField, read]
    exact bind_eq_ok_iff.mpr ⟨options, rfl, bind_eq_ok_iff.mpr ⟨initializer, given, rfl⟩⟩
  exact ⟨infos, ofFieldsAfter_eq_ok_iff.mpr ⟨described, describable.names, by simp⟩⟩

/-- Fields without coding options can be described if their names differ. -/
theorem ofFields_plain {fields : List Field}
    (plain : ∀ field ∈ fields, ∀ attr ∈ field.attributes,
      attr.path.isName Attribute.codableName = false)
    (distinct : (fields.map (·.name.spelling)).Nodup) :
    ofFields fields = .ok (fields.map ofPlain) := by
  -- Each field is described by itself, and the names do not clash.
  refine ofFieldsAfter_eq_ok_iff.mpr ⟨?_, distinct, by simp⟩
  rw [List.forall₂_map_right_iff, List.forall₂_same]
  exact fun field inside => ofField_plain (plain field inside)

end FieldInfo

namespace Inspection

variable {transformer : String} {item : Item} {inspection : Inspection}

/--
An inspection succeeds exactly if the declaration is a record and its fields can be described.
-/
theorem ofItem_eq_ok_iff :
    ofItem transformer item = .ok inspection ↔
      item.asRecord = .ok inspection.record ∧
        FieldInfo.ofFields inspection.record.fields = .ok inspection.fields := by
  obtain ⟨record, fields⟩ := inspection
  rw [ofItem]
  -- There are two steps: the declaration has to be a record, and its fields have to be described.
  cases item.asRecord with
  | error unsupported => simp
  | ok found =>
    simp only [bind_eq_ok_iff, Except.ok.injEq]
    constructor
    · rintro ⟨infos, described, same⟩
      cases same
      exact ⟨rfl, described⟩
    · rintro ⟨rfl, described⟩
      exact ⟨fields, described, rfl⟩

/-- Every declared field is described at its place. -/
theorem fields_described (inspected : ofItem transformer item = .ok inspection) :
    List.Forall₂ (fun field info => FieldInfo.ofField field = .ok info) inspection.record.fields
      inspection.fields :=
  (FieldInfo.ofFieldsAfter_eq_ok_iff.mp (ofItem_eq_ok_iff.mp inspected).2).1

/-- The fields of an inspected record have the declared names, in order. -/
theorem fields_names (inspected : ofItem transformer item = .ok inspection) :
    inspection.fields.map (·.name) = inspection.record.fields.map (·.name) := by
  -- The names agree at every place.
  rw [← List.forall₂_eq_eq_eq, List.forall₂_map_left_iff, List.forall₂_map_right_iff]
  exact (fields_described inspected).flip.imp fun _ _ described =>
    (FieldInfo.ofField_eq_ok described).1

/-- No two fields are declared under the same name. -/
theorem declared_nodup (inspected : ofItem transformer item = .ok inspection) :
    (inspection.record.fields.map (·.name.spelling)).Nodup :=
  (FieldInfo.ofFieldsAfter_eq_ok_iff.mp (ofItem_eq_ok_iff.mp inspected).2).2.1

/-- No two fields of an inspected record have the same name. -/
theorem fields_nodup (inspected : ofItem transformer item = .ok inspection) :
    (inspection.fields.map (·.name.spelling)).Nodup := by
  -- The declared names differ, and these are the same names.
  have same : inspection.fields.map (·.name.spelling) =
      inspection.record.fields.map (·.name.spelling) := by
    have names := congrArg (List.map Name.spelling) (fields_names inspected)
    rwa [List.map_map, List.map_map] at names
  exact same ▸ declared_nodup inspected

end Inspection

end KeyedCoding
