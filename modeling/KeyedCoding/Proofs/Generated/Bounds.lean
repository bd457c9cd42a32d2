import KeyedCoding.Grammar
import KeyedCoding.Proofs.Generated.Members
import KeyedCoding.Proofs.Tree.Occurrence

/-!
Laws of the bounds on type parameters: which parameters types use, and what a bound for them adds to
a where clause.
-/

namespace KeyedCoding

namespace Generics

variable {generics : Generics} {types others : List Ty} {names : List Name}
  {uses : String → Prop} {param : Name}

/--
Names are the type parameters of which something holds: of the declared ones, in their order, those
are kept.
-/
def TypeParamsWhere (generics : Generics) (uses : String → Prop) (names : List Name) : Prop :=
  ∃ chosen : Name → Bool, (∀ param, chosen param = true ↔ uses param.spelling) ∧
    names = generics.typeParams.filter chosen

/-- A declared type parameter is among them exactly if that holds of it. -/
theorem TypeParamsWhere.mem_iff (picked : generics.TypeParamsWhere uses names) :
    param ∈ names ↔ param ∈ generics.typeParams ∧ uses param.spelling := by
  -- The names are filtered out of the parameters by a test that decides what holds of them.
  obtain ⟨chosen, spec, rfl⟩ := picked
  rw [List.mem_filter, spec]

/-- They stand in the order of declaration. -/
theorem TypeParamsWhere.sublist (picked : generics.TypeParamsWhere uses names) :
    names.Sublist generics.typeParams := by
  -- Filtering leaves the order as it is.
  obtain ⟨chosen, -, rfl⟩ := picked
  exact List.filter_sublist

/-- The same names are picked by what holds of the same names. -/
theorem TypeParamsWhere.congr {holds : String → Prop}
    (picked : generics.TypeParamsWhere uses names) (same : ∀ name, holds name ↔ uses name) :
    generics.TypeParamsWhere holds names := by
  -- The test that decides the one decides the other as well.
  obtain ⟨chosen, spec, rfl⟩ := picked
  exact ⟨chosen, fun param => (spec param).trans (same _).symm, rfl⟩

/-- What is to hold of the type parameters determines which ones they are. -/
theorem TypeParamsWhere.unique {others : List Name} (picked : generics.TypeParamsWhere uses names)
    (again : generics.TypeParamsWhere uses others) : names = others := by
  obtain ⟨chosen, spec, rfl⟩ := picked
  obtain ⟨other, same, rfl⟩ := again
  -- Both lists filter the declared parameters, and they choose the same ones.
  refine List.filter_congr fun param _ => ?_
  rw [Bool.eq_iff_iff, spec, same]

/-- No type parameter is picked where nothing holds of any name. -/
theorem typeParamsWhere_nil (never : ∀ name, ¬uses name) : generics.TypeParamsWhere uses [] :=
  ⟨fun _ => false, fun param => by simp [never], by simp⟩

/-- The used type parameters are those that some type uses. -/
theorem usedTypeParams_where (generics : Generics) (types : List Ty) :
    generics.TypeParamsWhere (fun name => ∃ ty ∈ types, ty.Uses name)
      (generics.usedTypeParams types) := by
  refine ⟨_, fun param => ?_, rfl⟩
  -- What a type uses is what is collected from it.
  simp only [List.contains_iff_mem, List.mem_flatMap, Ty.mem_heads_iff]

/-- Which type parameters are used depends on what occurs among the types, and nothing else. -/
theorem usedTypeParams_congr (same : ∀ ty, ty ∈ others ↔ ty ∈ types) :
    generics.usedTypeParams others = generics.usedTypeParams types := by
  -- A parameter is looked for among the heads of all types, and only whether it is there matters.
  refine List.filter_congr fun param _ => ?_
  rw [Bool.eq_iff_iff]
  simp only [List.contains_iff_mem, List.mem_flatMap, same]

/-- Type parameters are declared as such. -/
theorem mem_typeParams :
    param ∈ generics.typeParams ↔
      ∃ declared ∈ generics.params, declared.kind = .type ∧ declared.name = param := by
  -- The parameters are filtered by their kind, and their names are kept.
  simp [typeParams, and_assoc]

/--
Generics extend others by predicates: the parameters are the same, and the further predicates follow
those of the others.
-/
structure Extends (generics base : Generics) (added : List (List Token)) : Prop where
  params : generics.params = base.params
  trailing : generics.trailing = base.trailing
  predicates : generics.predicates = base.predicates ++ added

section Extends

variable {base middle : Generics} {added more : List (List Token)}

/-- Generics extend themselves by nothing. -/
theorem Extends.refl (generics : Generics) : generics.Extends generics [] :=
  ⟨rfl, rfl, by rw [List.append_nil]⟩

/-- Predicates that are added later follow those that are added first. -/
theorem Extends.trans (first : middle.Extends base added) (second : generics.Extends middle more) :
    generics.Extends base (added ++ more) := by
  -- The predicates are appended both times, and nothing else changes.
  refine ⟨second.params.trans first.params, second.trailing.trans first.trailing, ?_⟩
  rw [second.predicates, first.predicates, List.append_assoc]

/-- Adding predicates extends generics by them. -/
theorem addPredicates_extends (generics : Generics) (added : List (List Token)) :
    (generics.addPredicates added).Extends generics added := by
  rw [addPredicates]
  -- Without any the clause stays as it is, and otherwise a new one is written.
  cases added with
  | nil => exact .refl generics
  | cons predicate rest => exact ⟨rfl, rfl, rfl⟩

/-- Bounds for types extend generics by one predicate for each type parameter that is used. -/
theorem withFieldBounds_extends (generics : Generics) (types : List Ty) (bound : Path) :
    (generics.withFieldBounds types bound).Extends generics
      ((generics.usedTypeParams types).map (boundPredicate bound)) :=
  addPredicates_extends generics _

/-- Extended generics find the same used type parameters. -/
theorem Extends.usedTypeParams_eq (extended : generics.Extends base added) (types : List Ty) :
    generics.usedTypeParams types = base.usedTypeParams types := by
  -- The parameters of the extended generics are those of the base.
  rw [usedTypeParams, usedTypeParams, typeParams, typeParams, extended.params]

end Extends

/--
The type parameters that types use are found exactly.

They are those declared type parameters which some type uses, in the order of declaration; none is
repeated unless it is declared twice. Where no expression inside the types uses a name, using one is
mentioning it in a type path. The types count as a set.
-/
structure FindsUsed (generics : Generics) (types : List Ty) : Prop where
  picked : generics.TypeParamsWhere (fun name => ∃ ty ∈ types, ty.Uses name)
    (generics.usedTypeParams types)
  order : (generics.usedTypeParams types).Sublist generics.typeParams
  distinct : (generics.typeParams.map (·.spelling)).Nodup →
    ((generics.usedTypeParams types).map (·.spelling)).Nodup
  kind : ∀ param ∈ generics.usedTypeParams types,
    ∃ declared ∈ generics.params, declared.kind = .type ∧ declared.name = param
  mentioned : (∀ ty ∈ types, (Part.type ty).PlainValues) → ∀ param ∈ generics.typeParams,
    (param ∈ generics.usedTypeParams types ↔ ∃ ty ∈ types, ty.Mentions param.spelling)
  set : ∀ others, (∀ ty, ty ∈ others ↔ ty ∈ types) →
    generics.usedTypeParams others = generics.usedTypeParams types

/-- The type parameters that types use are found exactly, for all generics and all types. -/
theorem usedTypeParams_exact (generics : Generics) (types : List Ty) :
    generics.FindsUsed types where
  picked := usedTypeParams_where generics types
  order := (usedTypeParams_where generics types).sublist
  distinct := fun declared =>
    declared.sublist ((usedTypeParams_where generics types).sublist.map _)
  kind := fun param used =>
    mem_typeParams.mp ((usedTypeParams_where generics types).mem_iff.mp used).1
  mentioned := by
    -- Only expressions tell using from mentioning, and here they use nothing.
    intro plain param declared
    rw [(usedTypeParams_where generics types).mem_iff, and_iff_right declared]
    exact exists_congr fun ty => and_congr_right fun among =>
      Ty.uses_iff_mentions (plain ty among)
  set := fun _ same => usedTypeParams_congr same

/-- Generics of a lifetime and three type parameters. -/
def lookup : Generics :=
  let param (kind : ParamKind) (name : String) : GenericParam := ⟨[], kind, ⟨name, .origin⟩, [], []⟩
  ⟨[param .lifetime "'a", param .type "K", param .type "V", param .type "Unused"], false, none⟩

/-- Types that use two of them, one inside a reference, in another order. -/
def lookupTypes : List Ty :=
  let named (name : String) : Ty := .path (.ofName ⟨name, .origin⟩)
  [named "V", .reference (some "'a") false (named "K"), named "String"]

/-- What is found for these types are the two parameters that they mention. -/
theorem usedTypeParams_lookup :
    lookup.usedTypeParams lookupTypes = [⟨"K", .origin⟩, ⟨"V", .origin⟩] ∧
      (∀ ty ∈ lookupTypes, (Part.type ty).PlainValues) ∧
        ∀ param ∈ lookup.typeParams, (param ∈ lookup.usedTypeParams lookupTypes ↔
          ∃ ty ∈ lookupTypes, ty.Mentions param.spelling) := by
  -- None of the types holds an expression, so only type paths use names.
  have plain : ∀ ty ∈ lookupTypes, (Part.type ty).PlainValues := by
    simp only [lookupTypes, List.forall_mem_cons]
    refine ⟨Part.plainValues_ofName _, ?_, Part.plainValues_ofName _, by simp⟩
    refine Part.plainValues_of_standsIn (by simp) fun _ stands => ?_
    cases stands
    exact Part.plainValues_ofName _
  exact ⟨rfl, plain, (usedTypeParams_exact lookup lookupTypes).mentioned plain⟩

/-- Two type parameters of one name, as a reader of generics takes them. -/
def repeated : Generics :=
  ⟨[⟨[], .type, ⟨"T", .origin⟩, [], []⟩, ⟨[], .type, ⟨"T", .origin⟩, [], []⟩], false, none⟩

/-- An implementation of a trait in constants: a type that the reader keeps as it is written. -/
def constBound : List Token :=
  [Token.word "impl", Token.word "const", Token.word "Trait"] ++
    Token.symbol "<" ++ [Token.word "T"] ++ Token.symbol ">"

/--
A name that is declared twice is found twice, and one in a type that is kept as it is written is not
found.
-/
theorem usedTypeParams_repeated :
    ¬((repeated.usedTypeParams [.path (.ofName ⟨"T", .origin⟩)]).map (·.spelling)).Nodup ∧
      (Grammar.read (·.ty true) constBound).toOption.map
        (fun ty => (repeated.usedTypeParams [ty]).map (·.spelling)) = some [] := by
  -- In both cases the finite list of names is computed.
  refine ⟨by decide, by decide +kernel⟩

end Generics

/-- The type that is read for a field stands inside the type of the field. -/
theorem Ty.present_inside (ty : Ty) : Part.Inside (.type ty.present) (.type ty) := by
  rw [present]
  cases optional : ty.optionInner? with
  | none => exact .refl
  | some inner =>
    obtain ⟨⟨leading, segments⟩, pos, turbofish, trailing, rfl, last⟩ :=
      optionInner?_eq_some_iff.mp optional
    -- The inner type is the only argument of the last segment.
    have among := List.mem_of_getLast? last
    have within : Part.Inside (.type inner)
        (.arguments (.angle turbofish [.type inner] trailing)) :=
      (Relation.ReflTransGen.single .typeArgument).tail (.argument (List.mem_singleton_self _))
    exact ((within.tail .arguments).tail (.segment among)).tail .path

/-- The type parameters that types of fields use are those that the type of some such field uses. -/
theorem Generics.usedTypeParams_of_fields {generics : Generics} {types : List Ty}
    {fields : List FieldInfo} {coded : FieldInfo → Prop} {coding : FieldInfo → Ty}
    (spec : ∀ ty, ty ∈ types ↔ ∃ field ∈ fields, coded field ∧ coding field = ty) :
    generics.TypeParamsWhere
      (fun name => ∃ field ∈ fields, coded field ∧ (coding field).Uses name)
      (generics.usedTypeParams types) := by
  -- What a list of types uses is what some field uses whose type is in the list.
  refine (usedTypeParams_where generics types).congr fun name => ?_
  constructor
  · rintro ⟨field, inside, codes, uses⟩
    exact ⟨coding field, (spec _).mpr ⟨field, inside, codes, rfl⟩, uses⟩
  · rintro ⟨ty, among, uses⟩
    obtain ⟨field, inside, codes, rfl⟩ := (spec ty).mp among
    exact ⟨field, inside, codes, uses⟩

/-- No policy includes a skipped field. -/
theorem InclusionPolicy.not_skipped_of_includes {policy : InclusionPolicy} {field : FieldInfo}
    (included : policy.includes field = true) : field.skipped = false := by
  -- Each of the policies looks at the mark before anything else.
  cases policy <;> simp_all [includes]

namespace DecodeInitializer

variable {inspection : Inspection} {mapping : KeyMapping} {init : DecodeInitializer}

/-- What is read from the container for a field is its type, or the one that this is optional of. -/
theorem readOf?_decodedType (mapping : KeyMapping) (field : FieldInfo) :
    (readOf? mapping field).bind (·.source.decodedType?) =
      if isEligible mapping field then some field.ty.present else none := by
  rw [readOf?, sourceOf?, Ty.present]
  split
  · cases field.ty.optionInner? <;> rfl
  · -- No other source is the container.
    cases field.initializer with
    | none => rfl
    | some value => cases value <;> rfl

/-- The types that an initializer reads are those of the fields that it reads from the container. -/
theorem mem_decodedTypes_iff (generated : ofMapping inspection mapping = .ok (some init))
    {ty : Ty} :
    ty ∈ init.decodedTypes ↔
      ∃ field ∈ inspection.fields, isEligible mapping field = true ∧ field.ty.present = ty := by
  obtain ⟨-, -, -, rfl⟩ := ofMapping_eq_some_iff.mp generated
  rw [decodedTypes, List.filterMap_filterMap, List.mem_filterMap]
  -- Each field is read at most once, and from the container only if it is eligible.
  refine exists_congr fun field => and_congr_right fun _ => ?_
  rw [readOf?_decodedType, Option.ite_none_right_eq_some, Option.some.injEq]

end DecodeInitializer

end KeyedCoding
