import KeyedCoding.Coding.Synthesized
import KeyedCoding.Proofs.Generated.Members

/-!
Reads of fields: what one field gets from an object, why it refuses one, and that only its key
counts.
-/

namespace KeyedCoding

namespace KeyedObject

variable {α : Type} {object : KeyedObject} {read : Json → Except Misfit α} {key : String}
  {error : DecodingError}

/-- A required value is read exactly if it is there and fits. -/
theorem decode_eq_ok_iff {value : α} :
    object.decode read key = .ok value ↔
      ∃ found, object.entries.get? key = some found ∧ read found = .ok value := by
  -- Only the entry of the key is looked at.
  rw [decode]
  cases object.entries.get? key with
  | none => simp
  | some found => simp [mapError_eq_ok_iff]

/-- A required value is refused exactly if it is missing or does not fit. -/
theorem decode_eq_error_iff :
    object.decode read key = .error error ↔
      (object.entries.get? key = none ∧ .keyNotFound key = error) ∨
        ∃ found misfit, object.entries.get? key = some found ∧ read found = .error misfit ∧
          .typeMismatch key misfit = error := by
  -- Only the entry of the key is looked at.
  rw [decode]
  cases object.entries.get? key with
  | none => simp [eq_comm]
  | some found => simp [mapError_eq_error_iff]

/-- An optional value is read exactly if its key is absent or has null, or a value that fits. -/
theorem decodeIfPresent_eq_ok_iff {held : Option α} :
    object.decodeIfPresent read key = .ok held ↔
      ((object.entries.get? key = none ∨ object.entries.get? key = some .null) ∧ none = held) ∨
        ∃ found value, object.entries.get? key = some found ∧ found ≠ .null ∧
          read found = .ok value ∧ some value = held := by
  -- Null under the key counts as no value, and any other value has to fit.
  rw [decodeIfPresent]
  split
  · rename_i missing
    simp [missing]
  · rename_i null
    simp [null]
  · rename_i found filled there
    have notNull : found ≠ .null := fun null => filled null
    simp [there, notNull, mapError_eq_ok_iff, map_eq_ok_iff]

/-- An optional value is refused exactly if there is one that does not fit. -/
theorem decodeIfPresent_eq_error_iff :
    object.decodeIfPresent read key = .error error ↔
      ∃ found misfit, object.entries.get? key = some found ∧ found ≠ .null ∧
        read found = .error misfit ∧ .typeMismatch key misfit = error := by
  -- Null under the key counts as no value, and any other value has to fit.
  rw [decodeIfPresent]
  split
  · rename_i missing
    simp [missing]
  · rename_i null
    simp [null]
  · rename_i found filled there
    have notNull : found ≠ .null := fun null => filled null
    simp [there, notNull, mapError_eq_error_iff, map_eq_error_iff]

end KeyedObject

/-- A type is optional of one type at most. -/
theorem Ty.IsOptionOf.unique {ty first second : Ty} (here : ty.IsOptionOf first)
    (there : ty.IsOptionOf second) : first = second := by
  -- The type inside an option is computed, so there is only one.
  rw [← optionInner?_eq_some_iff] at here there
  exact Option.some.inj (here.symm.trans there)

namespace FieldInfo

variable {meaning : Meaning} {mapping : KeyMapping} {entries others : Json.Entries}
  {field : FieldInfo}

/-- What a decoded field gets from the entries of an object. -/
inductive Reads (meaning : Meaning) (mapping : KeyMapping) (entries : Json.Entries)
    (field : FieldInfo) : Datum → Prop
  | required {key : String} {found : Json} {value : Datum}
      (required : ∀ inner, ¬field.ty.IsOptionOf inner)
      (mapped : mapping.keyOf? field.name = some key) (there : entries.get? key = some found)
      (fits : meaning.read field.ty found = .ok value) : Reads meaning mapping entries field value
  | absent {inner : Ty} {key : String} (optional : field.ty.IsOptionOf inner)
      (mapped : mapping.keyOf? field.name = some key)
      (empty : entries.get? key = none ∨ entries.get? key = some .null) :
      Reads meaning mapping entries field .absent
  | present {inner : Ty} {key : String} {found : Json} {value : Datum}
      (optional : field.ty.IsOptionOf inner) (mapped : mapping.keyOf? field.name = some key)
      (there : entries.get? key = some found) (filled : found ≠ .null)
      (fits : meaning.read inner found = .ok value) :
      Reads meaning mapping entries field (.present value)

/-- Why a decoded field gets nothing from the entries of an object. -/
inductive RefusesRead (meaning : Meaning) (mapping : KeyMapping) (entries : Json.Entries)
    (field : FieldInfo) : DecodingError → Prop
  | missing {key : String} (required : ∀ inner, ¬field.ty.IsOptionOf inner)
      (mapped : mapping.keyOf? field.name = some key) (missing : entries.get? key = none) :
      RefusesRead meaning mapping entries field (.keyNotFound key)
  | required {key : String} {found : Json} {misfit : Misfit}
      (required : ∀ inner, ¬field.ty.IsOptionOf inner)
      (mapped : mapping.keyOf? field.name = some key) (there : entries.get? key = some found)
      (unfit : meaning.read field.ty found = .error misfit) :
      RefusesRead meaning mapping entries field (.typeMismatch key misfit)
  | present {inner : Ty} {key : String} {found : Json} {misfit : Misfit}
      (optional : field.ty.IsOptionOf inner) (mapped : mapping.keyOf? field.name = some key)
      (there : entries.get? key = some found) (filled : found ≠ .null)
      (unfit : meaning.read inner found = .error misfit) :
      RefusesRead meaning mapping entries field (.typeMismatch key misfit)

/-- The value of a field that is not decoded: its default, or that of its type. -/
def fallback (meaning : Meaning) (field : FieldInfo) : Datum :=
  match field.initializer with
  | some (.value expr) => meaning.evaluate field.name expr
  | _ => meaning.standard field.name

/-- What a stored field gets: a decoded one reads it, and any other one keeps its default. -/
def Gets (meaning : Meaning) (mapping : KeyMapping) (entries : Json.Entries) (field : FieldInfo)
    (value : Datum) : Prop :=
  if DecodeInitializer.isEligible mapping field then field.Reads meaning mapping entries value
  else value = field.fallback meaning

/-- A field and what it gets. -/
def Fills (meaning : Meaning) (mapping : KeyMapping) (entries : Json.Entries) (field : FieldInfo)
    (pair : Name × Datum) : Prop :=
  pair.1 = field.name ∧ field.Gets meaning mapping entries pair.2

variable {key : String} {inner : Ty} {value : Datum} {error : DecodingError}

/-- A required field reads what stands under its key, if that fits. -/
theorem reads_iff_of_required (required : ∀ inner, ¬field.ty.IsOptionOf inner)
    (mapped : mapping.keyOf? field.name = some key) :
    field.Reads meaning mapping entries value ↔
      ∃ found, entries.get? key = some found ∧ meaning.read field.ty found = .ok value := by
  -- The type and the key of the field leave one case.
  constructor
  · intro reads
    cases reads with
    | required _ known there fits =>
      obtain rfl := Option.some.inj (known.symm.trans mapped)
      exact ⟨_, there, fits⟩
    | absent optional _ _ => exact absurd optional (required _)
    | present optional _ _ _ _ => exact absurd optional (required _)
  · rintro ⟨found, there, fits⟩
    exact .required required mapped there fits

/-- A required field refuses an object without its key, or with a value there that does not fit. -/
theorem refusesRead_iff_of_required (required : ∀ inner, ¬field.ty.IsOptionOf inner)
    (mapped : mapping.keyOf? field.name = some key) :
    field.RefusesRead meaning mapping entries error ↔
      (entries.get? key = none ∧ .keyNotFound key = error) ∨
        ∃ found misfit, entries.get? key = some found ∧
          meaning.read field.ty found = .error misfit ∧ .typeMismatch key misfit = error := by
  -- The type and the key of the field leave two cases.
  constructor
  · intro refuses
    cases refuses with
    | missing _ known missing =>
      obtain rfl := Option.some.inj (known.symm.trans mapped)
      exact .inl ⟨missing, rfl⟩
    | required _ known there unfit =>
      obtain rfl := Option.some.inj (known.symm.trans mapped)
      exact .inr ⟨_, _, there, unfit, rfl⟩
    | present optional _ _ _ _ => exact absurd optional (required _)
  · rintro (⟨missing, rfl⟩ | ⟨found, misfit, there, unfit, rfl⟩)
    · exact .missing required mapped missing
    · exact .required required mapped there unfit

/-- An optional field is absent with its key or with null there, and otherwise reads what fits. -/
theorem reads_iff_of_optional (optional : field.ty.IsOptionOf inner)
    (mapped : mapping.keyOf? field.name = some key) :
    field.Reads meaning mapping entries value ↔
      ((entries.get? key = none ∨ entries.get? key = some .null) ∧ .absent = value) ∨
        ∃ found held, entries.get? key = some found ∧ found ≠ .null ∧
          meaning.read inner found = .ok held ∧ .present held = value := by
  -- The type and the key of the field leave two cases.
  constructor
  · intro reads
    cases reads with
    | required required _ _ _ => exact absurd optional (required _)
    | absent _ known empty =>
      obtain rfl := Option.some.inj (known.symm.trans mapped)
      exact .inl ⟨empty, rfl⟩
    | present other known there filled fits =>
      obtain rfl := Option.some.inj (known.symm.trans mapped)
      obtain rfl := other.unique optional
      exact .inr ⟨_, _, there, filled, fits, rfl⟩
  · rintro (⟨empty, rfl⟩ | ⟨found, held, there, filled, fits, rfl⟩)
    · exact .absent optional mapped empty
    · exact .present optional mapped there filled fits

/-- An optional field refuses an object with a value under its key that does not fit. -/
theorem refusesRead_iff_of_optional (optional : field.ty.IsOptionOf inner)
    (mapped : mapping.keyOf? field.name = some key) :
    field.RefusesRead meaning mapping entries error ↔
      ∃ found misfit, entries.get? key = some found ∧ found ≠ .null ∧
        meaning.read inner found = .error misfit ∧ .typeMismatch key misfit = error := by
  -- The type and the key of the field leave one case.
  constructor
  · intro refuses
    cases refuses with
    | missing required _ _ => exact absurd optional (required _)
    | required required _ _ _ => exact absurd optional (required _)
    | present other known there filled unfit =>
      obtain rfl := Option.some.inj (known.symm.trans mapped)
      obtain rfl := other.unique optional
      exact ⟨_, _, there, filled, unfit, rfl⟩
  · rintro ⟨found, misfit, there, filled, unfit, rfl⟩
    exact .present optional mapped there filled unfit

/-- A decoded optional field is absent exactly if its key is, or has null. -/
theorem Reads.absent_iff (reads : field.Reads meaning mapping entries value)
    (optional : field.ty.IsOptionOf inner) (mapped : mapping.keyOf? field.name = some key) :
    value = .absent ↔ entries.get? key = none ∨ entries.get? key = some .null := by
  -- A value is present exactly where the key holds something other than null.
  rcases (reads_iff_of_optional optional mapped).mp reads with
    ⟨empty, rfl⟩ | ⟨found, held, there, filled, -, rfl⟩
  · simp [empty]
  · simp [there, filled]

/-- Two objects agree about a field if they hold the same under its key. -/
def Agrees (mapping : KeyMapping) (entries others : Json.Entries) (field : FieldInfo) : Prop :=
  ∀ key, mapping.keyOf? field.name = some key → entries.get? key = others.get? key

/-- Agreement goes both ways. -/
theorem Agrees.symm (agree : field.Agrees mapping entries others) :
    field.Agrees mapping others entries := fun key mapped => (agree key mapped).symm

/-- A field reads from its key alone. -/
theorem Reads.of_agrees (agree : field.Agrees mapping entries others)
    (reads : field.Reads meaning mapping entries value) :
    field.Reads meaning mapping others value := by
  -- In every case the entry of the key is all that is known of the object.
  cases reads with
  | required required mapped there fits =>
    exact .required required mapped (agree _ mapped ▸ there) fits
  | absent optional mapped empty => exact .absent optional mapped (agree _ mapped ▸ empty)
  | present optional mapped there filled fits =>
    exact .present optional mapped (agree _ mapped ▸ there) filled fits

/-- A stored field gets its value from its key alone, and not even from there unless decoded. -/
theorem Gets.of_agrees
    (agree : DecodeInitializer.isEligible mapping field = true →
      field.Agrees mapping entries others)
    (gets : field.Gets meaning mapping entries value) :
    field.Gets meaning mapping others value := by
  -- A default is the same for all objects.
  rw [Gets] at gets ⊢
  split at gets
  · rename_i eligible
    rw [if_pos eligible]
    exact gets.of_agrees (agree eligible)
  · rename_i ineligible
    rw [if_neg ineligible]
    exact gets

/-- A field refuses an object for what stands under its key alone. -/
theorem RefusesRead.of_agrees (agree : field.Agrees mapping entries others)
    (refuses : field.RefusesRead meaning mapping entries error) :
    field.RefusesRead meaning mapping others error := by
  -- In every case the entry of the key is all that is known of the object.
  cases refuses with
  | missing required mapped missing =>
    exact .missing required mapped (agree _ mapped ▸ missing)
  | required required mapped there unfit =>
    exact .required required mapped (agree _ mapped ▸ there) unfit
  | present optional mapped there filled unfit =>
    exact .present optional mapped (agree _ mapped ▸ there) filled unfit

end FieldInfo

namespace FieldSource.Fits

variable {meaning : Meaning} {mapping : KeyMapping} {entries : Json.Entries} {field : FieldInfo}
  {source : FieldSource} {value : Datum} {error : DecodingError}

/-- What fits a field gives what the field gets. -/
theorem run_eq_ok_iff (fits : source.Fits mapping field) :
    source.run meaning ⟨mapping.keys, entries⟩ field.name
        ((mapping.keyOf? field.name).getD "") = .ok value ↔
      field.Gets meaning mapping entries value := by
  rw [FieldInfo.Gets]
  -- The source tells whether the field is decoded, and for one that is the key is known.
  cases fits with
  | decode mapped bare required =>
    obtain ⟨key, found⟩ := KeyMapping.exists_keyOf?_iff.mpr mapped
    rw [if_pos (DecodeInitializer.isEligible_iff.mpr ⟨mapped, bare⟩),
      FieldInfo.reads_iff_of_required required found, found, FieldSource.run,
      KeyedObject.decode_eq_ok_iff, Option.getD_some]
  | decodeIfPresent mapped bare optional =>
    obtain ⟨key, found⟩ := KeyMapping.exists_keyOf?_iff.mpr mapped
    -- The field is decoded if present: an absent or null entry gives nothing.
    rw [if_pos (DecodeInitializer.isEligible_iff.mpr ⟨mapped, bare⟩),
      FieldInfo.reads_iff_of_optional optional found, found, FieldSource.run, map_eq_ok_iff]
    simp only [Option.getD_some, KeyedObject.decodeIfPresent_eq_ok_iff]
    constructor
    · rintro ⟨held, ⟨empty, rfl⟩ | ⟨found, inside, there, filled, fits, rfl⟩, rfl⟩
      · exact .inl ⟨empty, rfl⟩
      · exact .inr ⟨found, inside, there, filled, fits, rfl⟩
    · rintro (⟨empty, rfl⟩ | ⟨found, inside, there, filled, fits, rfl⟩)
      · exact ⟨none, .inl ⟨empty, rfl⟩, rfl⟩
      · exact ⟨some inside, .inr ⟨found, inside, there, filled, fits, rfl⟩, rfl⟩
  -- A field with a default of its own or of its type is not decoded.
  | default given =>
    have ineligible : DecodeInitializer.isEligible mapping field = false := by
      simp [DecodeInitializer.isEligible, FieldInfo.isInitialized, given]
    simp [ineligible, FieldSource.run, FieldInfo.fallback, given, eq_comm]
  | defaultTrait unmapped bare =>
    have ineligible : DecodeInitializer.isEligible mapping field = false := by
      simp [DecodeInitializer.isEligible, unmapped]
    simp [ineligible, FieldSource.run, FieldInfo.fallback, bare, eq_comm]

/-- What fits a field fails exactly if the field is decoded and refuses the object. -/
theorem run_eq_error_iff (fits : source.Fits mapping field) :
    source.run meaning ⟨mapping.keys, entries⟩ field.name
        ((mapping.keyOf? field.name).getD "") = .error error ↔
      DecodeInitializer.isEligible mapping field = true ∧
        field.RefusesRead meaning mapping entries error := by
  -- Neither kind of default can fail.
  cases fits with
  | decode mapped bare required =>
    obtain ⟨key, found⟩ := KeyMapping.exists_keyOf?_iff.mpr mapped
    rw [and_iff_right (DecodeInitializer.isEligible_iff.mpr ⟨mapped, bare⟩),
      FieldInfo.refusesRead_iff_of_required required found, found, FieldSource.run,
      KeyedObject.decode_eq_error_iff, Option.getD_some]
  | decodeIfPresent mapped bare optional =>
    obtain ⟨key, found⟩ := KeyMapping.exists_keyOf?_iff.mpr mapped
    rw [and_iff_right (DecodeInitializer.isEligible_iff.mpr ⟨mapped, bare⟩),
      FieldInfo.refusesRead_iff_of_optional optional found, found, FieldSource.run,
      map_eq_error_iff, KeyedObject.decodeIfPresent_eq_error_iff, Option.getD_some]
  | default given =>
    simp [DecodeInitializer.isEligible, FieldInfo.isInitialized, FieldSource.run, given]
  | defaultTrait unmapped bare =>
    simp [DecodeInitializer.isEligible, FieldSource.run, unmapped]

end FieldSource.Fits

end KeyedCoding
