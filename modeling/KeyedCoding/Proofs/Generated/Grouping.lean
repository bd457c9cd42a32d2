import KeyedCoding.Coding.CodedRecord
import KeyedCoding.Proofs.Generated.Bounds
import KeyedCoding.Proofs.Record.Detection

/-!
Redundant grouping of types: names and type parameters are found through parentheses and invisible
groups, and an optional type or the way that a store holds a value is not.
-/

namespace KeyedCoding

namespace Ty

/-- Whether a type stands in parentheses or in an invisible group. -/
def isGrouped : Ty → Bool
  | .paren _ => true
  | .group _ => true
  | _ => false

/-- What an optional type is written as, but for the type inside it. -/
structure OptionForm where
  leading : Option Position
  front : List Segment
  pos : Position
  turbofish : Bool
  trailing : Bool

/-- The segment that an optional type ends in. -/
def OptionForm.last (form : OptionForm) (inner : Ty) : Segment :=
  ⟨⟨"Option", form.pos⟩, .angle form.turbofish [.type inner] form.trailing⟩

/-- The optional type with a type inside it. -/
def OptionForm.of (form : OptionForm) (inner : Ty) : Ty :=
  .path ⟨form.leading, form.front ++ [form.last inner]⟩

/--
The second type is the first one with redundant grouping: in parentheses or invisible groups, around
the whole or around the type inside an optional one, any number of times.
-/
inductive Regrouped : Ty → Ty → Prop
  | refl (ty : Ty) : Regrouped ty ty
  | paren {ty other : Ty} (same : Regrouped ty other) : Regrouped ty (.paren other)
  | group {ty other : Ty} (same : Regrouped ty other) : Regrouped ty (.group other)
  | inner {ty other : Ty} (form : OptionForm) (same : Regrouped ty other) :
      Regrouped (form.of ty) (form.of other)

variable {ty other : Ty}

/-- An optional type is known as one, with the type inside it. -/
theorem optionInner?_of (form : OptionForm) (inner : Ty) :
    (form.of inner).optionInner? = some inner :=
  optionInner?_eq_some_iff.mpr ⟨_, form.pos, form.turbofish, form.trailing, rfl,
    List.getLast?_concat⟩

/-- What a value of an optional type holds if it is present is of the type inside it. -/
theorem present_of (form : OptionForm) (inner : Ty) : (form.of inner).present = inner := by
  -- Every form of an option is recognised, with the type inside it.
  rw [present, optionInner?_of, Option.getD_some]

/-- A type in parentheses or in a group is not known as optional. -/
theorem optionInner?_of_isGrouped (grouped : ty.isGrouped = true) : ty.optionInner? = none := by
  -- An option is recognised by its path, and grouping hides the path.
  cases ty with
  | paren | group => rfl
  | _ => cases grouped

/-- A type in parentheses or in a group is read and written as a text to be parsed. -/
theorem ofType_of_isGrouped (grouped : ty.isGrouped = true) :
    StoreGetter.ofType ty = .parsed := by
  -- So is a type that a store has methods for.
  cases ty with
  | paren | group => rfl
  | _ => cases grouped

/-- So is an optional type. -/
theorem ofType_of (form : OptionForm) (inner : Ty) :
    StoreGetter.ofType (form.of inner) = .parsed := by
  -- An optional type is a path whose last segment has the type in its angle brackets.
  have last : (form.of inner).asPath?.bind Path.lastSegment? = some (form.last inner) :=
    List.getLast?_concat
  rw [StoreGetter.ofType, last]
  rfl

/-- An optional type ends in the name of optional types. -/
theorem name?_of (form : OptionForm) (inner : Ty) : (form.of inner).name? = some "Option" :=
  name?_eq_some_iff.mpr (.path (by simp [Path.lastName?, Path.lastSegment?, OptionForm.last]))

/-- The heads inside segments in a row are those inside the first ones, and then inside the others. -/
theorem segmentHeads_append (front rest : List Segment) :
    segmentHeads (front ++ rest) = segmentHeads front ++ segmentHeads rest := by
  -- The induction follows the segments, whose heads stand one after the other.
  induction front with
  | nil => rfl
  | cons segment front ih => rw [List.cons_append, segmentHeads, segmentHeads, ih, List.append_assoc]

/-- The heads of an optional type are those of its path, and then those of the type inside. -/
theorem heads_of (form : OptionForm) :
    ∃ outer, ∀ inner, (form.of inner).heads = outer ++ inner.heads := by
  have last (inner : Ty) : segmentHeads [form.last inner] = inner.heads := by
    simp [segmentHeads, OptionForm.last, Segment.heads, Arguments.heads, argHeads, GenericArg.heads]
  -- The name that stands first is that of the same segment for all types inside.
  obtain ⟨name, first⟩ : ∃ name, ∀ inner,
      Path.headName ⟨form.leading, form.front ++ [form.last inner]⟩ = name := by
    obtain ⟨leading, front, pos, turbofish, trailing⟩ := form
    cases leading with
    | some place => exact ⟨[], fun inner => rfl⟩
    | none =>
      cases front with
      | nil => exact ⟨["Option"], fun inner => rfl⟩
      | cons segment front =>
        obtain ⟨name, arguments⟩ := segment
        exact ⟨[name.spelling], fun inner => rfl⟩
  refine ⟨name ++ segmentHeads form.front, fun inner => ?_⟩
  rw [OptionForm.of, heads, first, Path.heads, segmentHeads_append, last, List.append_assoc]

namespace Regrouped

/-- Grouping is seen through where heads of type paths are looked for. -/
theorem heads_eq (same : Regrouped ty other) : other.heads = ty.heads := by
  -- A path may have further heads; they do not depend on what is optional.
  induction same with
  | refl ty => rfl
  | paren _ ih | group _ ih => exact ih
  | inner form _ ih =>
    obtain ⟨outer, heads⟩ := heads_of form
    rw [heads, heads, ih]

/-- Grouping is seen through where the name of a type is looked for. -/
theorem name?_eq (same : Regrouped ty other) : other.name? = ty.name? := by
  -- The name of an optional type is that of its head.
  induction same with
  | refl ty => rfl
  | paren _ ih | group _ ih => exact ih
  | inner form _ _ => rw [name?_of, name?_of]

/-- So the same type parameters are used, whatever other types are there. -/
theorem usedTypeParams_eq (same : Regrouped ty other) (generics : Generics)
    (before after : List Ty) :
    generics.usedTypeParams (before ++ other :: after) =
      generics.usedTypeParams (before ++ ty :: after) := by
  -- Only the heads of the types are looked at, and grouping leaves them alone.
  simp only [Generics.usedTypeParams, List.flatMap_append, List.flatMap_cons, same.heads_eq]

/-- A type that is not grouped as a whole is the same one, or an optional one of what is regrouped. -/
theorem cases_of_not_isGrouped (same : Regrouped ty other) (bare : other.isGrouped = false) :
    other = ty ∨ ∃ form inner wrapped, Regrouped inner wrapped ∧ ty = OptionForm.of form inner ∧
      other = OptionForm.of form wrapped := by
  -- Only the last rule of regrouping leaves the whole type without a group.
  cases same with
  | refl => exact .inl rfl
  | paren | group => cases bare
  | inner form same => exact .inr ⟨form, _, _, same, rfl, rfl⟩

/--
Grouping around the whole hides that a type is optional; around the type inside it does not.
-/
theorem isOptional_eq (same : Regrouped ty other) :
    other.isOptional = (ty.isOptional && !other.isGrouped) := by
  -- A group is no path, so nothing in it is seen; without a group the head of the path is seen.
  cases grouped : other.isGrouped with
  | true => rw [isOptional, optionInner?_of_isGrouped grouped]; simp
  | false =>
    rcases same.cases_of_not_isGrouped grouped with rfl | ⟨form, inner, wrapped, -, rfl, rfl⟩
    · simp
    · simp [isOptional, optionInner?_of]

/--
What a value holds if it is present is regrouped, too: it is the whole type where that is grouped, and
the type inside otherwise.
-/
theorem present (same : Regrouped ty other) :
    Regrouped (if other.isGrouped then ty else ty.present) other.present := by
  -- As before, a group hides what is optional, and else the type inside is regrouped.
  cases grouped : other.isGrouped with
  | true =>
    rw [if_pos rfl, Ty.present, optionInner?_of_isGrouped grouped]
    exact same
  | false =>
    rw [if_neg Bool.false_ne_true]
    rcases same.cases_of_not_isGrouped grouped with rfl | ⟨form, inner, wrapped, within, rfl, rfl⟩
    · exact .refl _
    · rw [present_of, present_of]
      exact within

/-- A value is kept in a store as before, or as a text to be parsed where its type is grouped. -/
theorem ofType_present (same : Regrouped ty other) :
    StoreGetter.ofType other.present =
      if other.present.isGrouped then .parsed else StoreGetter.ofType ty.present := by
  cases grouped : other.present.isGrouped with
  | true => exact ofType_of_isGrouped grouped
  | false =>
    -- A whole that is grouped holds itself, so this one is not.
    have bare : other.isGrouped = false := by
      by_contra whole
      rw [Bool.not_eq_false] at whole
      rw [Ty.present, optionInner?_of_isGrouped whole, Option.getD_none, whole] at grouped
      cases grouped
    have held := same.present
    rw [if_neg (by simp [bare])] at held
    rcases held.cases_of_not_isGrouped grouped with again | ⟨form, inner, wrapped, -, once, again⟩
    · rw [again]
      rfl
    · rw [again, once, ofType_of, ofType_of]
      rfl

end Regrouped

end Ty

/-- A field with another type. -/
def FieldInfo.retyped (field : FieldInfo) (ty : Ty) : FieldInfo := { field with ty := ty }

/--
What redundant grouping does to the decisions about a type.

The name of the type and the type parameters that it uses stay the same. It counts as optional only
if it does without the grouping and is not grouped as a whole. A field of the type whose key is absent
is decoded to an absent value, and one whose value is absent is omitted, just in that case. What is
held is then the type inside, with its own grouping, and it uses the same type parameters; and it is
kept in a store as before only if it is not grouped as a whole either.
-/
structure Ty.GroupingEffect (ty other : Ty) : Prop where
  name : other.name? = ty.name?
  used : ∀ (generics : Generics) (before after : List Ty),
    generics.usedTypeParams (before ++ other :: after) =
      generics.usedTypeParams (before ++ ty :: after)
  optional : other.isOptional = (ty.isOptional && !other.isGrouped)
  held : Regrouped (if other.isGrouped then ty else ty.present) other.present
  bounded : ∀ (generics : Generics) (before after : List Ty),
    generics.usedTypeParams (before ++ other.present :: after) =
      generics.usedTypeParams (before ++ (if other.isGrouped then ty else ty.present) :: after)
  getter : StoreGetter.ofType other.present =
    if other.present.isGrouped then .parsed else StoreGetter.ofType ty.present
  absentKey : ∀ (mapping : KeyMapping) (field : FieldInfo) (meaning : Meaning)
    (object : KeyedObject) (key : String),
    DecodeInitializer.isEligible mapping field = true → object.contains key = false →
      (DecodeInitializer.sourceOf? mapping (field.retyped other)).map
          (FieldSource.run meaning object field.name key) =
        some (if ty.isOptional && !other.isGrouped then .ok .absent else .error (.keyNotFound key))
  absentValue : ∀ (mapping : KeyMapping) (field : FieldInfo) (values : FieldValues),
    values.get field.name = .absent →
      (EncodeImpl.writeOf (field.retyped other)).request mapping values =
        let key := (mapping.keyOf? field.name).getD ""
        if ty.isOptional && !other.isGrouped then .ifPresent key none else .always key .absent

namespace DecodeInitializer

variable {mapping : KeyMapping} {field : FieldInfo}

/-- A field with another type is read from the container exactly if it is. -/
theorem isEligible_retyped (mapping : KeyMapping) (field : FieldInfo) (ty : Ty) :
    isEligible mapping (field.retyped ty) = isEligible mapping field := rfl

/--
Where the key of a field that is read from the container is absent, the value is absent if the type of
the field is optional, and otherwise the key is reported.
-/
theorem run_sourceOf?_absent {object : KeyedObject} {key : String} (meaning : Meaning)
    (eligible : isEligible mapping field = true) (absent : object.contains key = false) :
    (sourceOf? mapping field).map (FieldSource.run meaning object field.name key) =
      some (if field.ty.isOptional then .ok .absent else .error (.keyNotFound key)) := by
  -- Neither of the two calls finds a value under the key.
  have nothing : object.entries.get? key = none := by
    simpa [KeyedObject.contains] using absent
  rw [sourceOf?, if_pos eligible, Ty.isOptional]
  cases field.ty.optionInner? with
  | none => simp [FieldSource.run, KeyedObject.decode, nothing]
  | some inner => simp [FieldSource.run, KeyedObject.decodeIfPresent, nothing, Except.map,
      Datum.ofOption]

end DecodeInitializer

/-- This is what redundant grouping does, for all types and all ways to group them. -/
theorem Ty.Regrouped.effect {ty other : Ty} (same : Regrouped ty other) :
    GroupingEffect ty other where
  name := same.name?_eq
  used := same.usedTypeParams_eq
  optional := same.isOptional_eq
  held := same.present
  bounded := same.present.usedTypeParams_eq
  getter := same.ofType_present
  -- The call for the field depends only on whether its type is optional.
  absentKey mapping field meaning object key eligible absent := by
    rw [← same.isOptional_eq]
    exact DecodeInitializer.run_sourceOf?_absent meaning
      ((DecodeInitializer.isEligible_retyped mapping field other).trans eligible) absent
  absentValue mapping field values absent := by
    rw [← same.isOptional_eq]
    show (if other.isOptional then KeyedWrite.ifPresent _ (values.get field.name).toOption
      else .always _ (values.get field.name)) = _
    rw [absent]
    rfl

/-- A type without arguments. -/
def Ty.plain (name : String) : Ty := .path (.ofName ⟨name, .origin⟩)

/-- The optional type of another one, by its plain name. -/
def Ty.optional (inner : Ty) : Ty :=
  OptionForm.of ⟨none, [], .origin, false, false⟩ inner

/-- Grouping the type inside an optional one leaves it optional, and changes how a store holds it. -/
theorem Ty.Regrouped.effect_inside :
    Regrouped (optional (plain "String")) (optional (.paren (plain "String"))) ∧
      GroupingEffect (optional (plain "String")) (optional (.paren (plain "String"))) ∧
        (optional (.paren (plain "String"))).isOptional = true ∧
          StoreGetter.ofType (optional (.paren (plain "String"))).present = .parsed := by
  -- The parentheses are inside the option, so the option itself is still recognised.
  have same : Regrouped (optional (plain "String")) (optional (.paren (plain "String"))) :=
    .inner _ (.paren (.refl _))
  exact ⟨same, same.effect, same.effect.optional, same.effect.getter⟩

/-- A declaration with one field of a given type. -/
def Item.memo (ty : Ty) : Item :=
  .struct
    { head := ⟨[], [], .origin, ⟨"Memo", .origin⟩, .empty⟩
      fields := .named [⟨[], [], ⟨"note", .origin⟩, ty⟩] false }

/-- The data that a declaration with one field writes for an absent value. -/
def Item.absentData (item : Item) : Option Json :=
  (CodedRecord.ofItem .includeAllExceptExcluded [] none item).toOption.bind fun record =>
    record.encode.bind fun encode => (encode [(⟨"note", .origin⟩, .absent)]).toOption

/-- Whether a declaration is decoded from data without any keys. -/
def Item.decodesEmpty (item : Item) : Option Bool :=
  (CodedRecord.ofItem .includeAllExceptExcluded [] none item).toOption.bind fun record =>
    record.decode.map fun decode => (decode (.object [])).isOk

/--
Parentheses that are read around an optional type make its key required and its absence a null, and
those around a text change how a store holds it.
-/
theorem Ty.regrouped_decides :
    let text : Ty := .optional (.plain "String")
    Regrouped text (.paren text) ∧
      (Grammar.read (·.ty true) [Token.parens text.tokens]).toOption = some (.paren text) ∧
      (Item.memo text).decodesEmpty = some true ∧
      (Item.memo (.paren text)).decodesEmpty = some false ∧
      (Item.memo text).absentData = some (.object []) ∧
      (Item.memo (.paren text)).absentData = some (.object [("note", .null)]) ∧
      StoreGetter.ofType (plain "String").present = .text ∧
      StoreGetter.ofType (Ty.paren (plain "String")).present = .parsed := by
  -- Each value is computed from the declaration that the type stands in.
  exact ⟨.paren (.refl _), rfl, rfl, rfl, rfl, rfl, rfl, rfl⟩

end KeyedCoding
