import Mathlib.Data.List.Forall2
import KeyedCoding.Output
import KeyedCoding.Transform.Codable

/-!
The output of a failed expansion: the error, and behind it the declaration, in which the fields of
all structs have lost the options for the synthesis. Those of enums and unions keep them.
-/

namespace KeyedCoding

/-- Whether an attribute holds options for the synthesis, so that only the synthesis knows it. -/
def Attribute.isHelper (attr : Attribute) : Bool := optionNames.any attr.path.isName

/-- A field that has lost its helper attributes and nothing else. -/
structure Field.Sheds (old new : Field) : Prop where
  attributes : new.attributes = old.attributes.filter (!·.isHelper)
  visibility : new.visibility = old.visibility
  name : new.name = old.name
  ty : new.ty = old.ty

/-- A positional field that has lost its helper attributes and nothing else. -/
structure Slot.Sheds (old new : Slot) : Prop where
  attributes : new.attributes = old.attributes.filter (!·.isHelper)
  visibility : new.visibility = old.visibility
  ty : new.ty = old.ty

namespace FieldList

/-- Fields, each of which has lost its helper attributes and nothing else. -/
inductive Sheds : FieldList → FieldList → Prop
  | named {old new : List Field} {trailing : Bool} (fields : List.Forall₂ Field.Sheds old new) :
      Sheds (.named old trailing) (.named new trailing)
  | positional {old new : List Slot} {trailing : Bool} (slots : List.Forall₂ Slot.Sheds old new) :
      Sheds (.positional old trailing) (.positional new trailing)
  | unit : Sheds .unit .unit

/-- The helper attributes of fields. -/
def helpers : FieldList → List Attribute
  | named fields _ => (fields.flatMap (·.attributes)).filter (·.isHelper)
  | positional slots _ => (slots.flatMap (·.attributes)).filter (·.isHelper)
  | unit => []

end FieldList

/-- A variant whose fields are related to those of before, and which is the same otherwise. -/
structure Variant.Keeps (others : FieldList → FieldList → Prop) (old new : Variant) : Prop where
  attributes : new.attributes = old.attributes
  name : new.name = old.name
  discriminant : new.discriminant = old.discriminant
  fields : others old.fields new.fields

namespace Item

/--
A declaration whose structs have lost the helper attributes of their fields, at every depth of
modules; the fields of enums and unions are related in a given way, and nothing else has changed.
-/
inductive Strips (others : FieldList → FieldList → Prop) : Item → Item → Prop
  | struct {head : TypeHead} {old new : FieldList} (fields : old.Sheds new) :
      Strips others (.struct ⟨head, old⟩) (.struct ⟨head, new⟩)
  | enum {head : TypeHead} {old new : List Variant} {trailing : Bool}
      (variants : List.Forall₂ (Variant.Keeps others) old new) :
      Strips others (.enum ⟨head, old, trailing⟩) (.enum ⟨head, new, trailing⟩)
  | union {head : TypeHead} {old new : List Field} {trailing : Bool}
      (fields : others (.named old trailing) (.named new trailing)) :
      Strips others (.union ⟨head, old, trailing⟩) (.union ⟨head, new, trailing⟩)
  | mod {attributes : List Attribute} {head : List Token} {name : Name} {old new : List Item}
      (items : List.Forall₂ (Strips others) old new) :
      Strips others (.mod ⟨attributes, head, name, some old⟩)
        (.mod ⟨attributes, head, name, some new⟩)
  | elsewhere {attributes : List Attribute} {head : List Token} {name : Name} :
      Strips others (.mod ⟨attributes, head, name, none⟩) (.mod ⟨attributes, head, name, none⟩)
  | impl {decl : Impl} : Strips others (.impl decl) (.impl decl)
  | other {kind : ItemKind} {tokens : List Token} :
      Strips others (.other kind tokens) (.other kind tokens)

mutual

/-- What declarations hold, at every depth of modules. -/
def gather {α : Type} (own : Item → List α) : Item → List α
  | .mod ⟨_, _, _, some items⟩ => gatherAll own items
  | item => own item

/-- What declarations in a row hold. -/
def gatherAll {α : Type} (own : Item → List α) : List Item → List α
  | [] => []
  | item :: rest => gather own item ++ gatherAll own rest

end

/-- The helper attributes on the variants' fields of an enum, or on the fields of a union. -/
def looseHelpers : Item → List Attribute
  | .enum decl => decl.variants.flatMap (·.fields.helpers)
  | .union decl => (FieldList.named decl.fields decl.trailing).helpers
  | _ => []

/-- The helper attributes on fields. -/
def fieldHelpers : Item → List Attribute
  | .struct decl => decl.fields.helpers
  | item => item.looseHelpers

/-- The helper attributes on fields, at every depth of modules. -/
def helpers (item : Item) : List Attribute := item.gather fieldHelpers

/-- The helper attributes on fields of enums and unions, at every depth of modules. -/
def loose (item : Item) : List Attribute := item.gather looseHelpers

end Item

namespace FieldList

/-- Without the options for the synthesis, fields have lost their helper attributes. -/
theorem sheds_withoutOptions (fields : FieldList) : fields.Sheds fields.withoutOptions := by
  -- Named fields and slots lose helper attributes, and nothing else of them changes.
  cases fields with
  | named fields trailing =>
    exact .named (List.forall₂_map_right_iff.mpr
      (List.forall₂_same.mpr fun field _ => ⟨rfl, rfl, rfl, rfl⟩))
  | positional slots trailing =>
    exact .positional (List.forall₂_map_right_iff.mpr
      (List.forall₂_same.mpr fun slot _ => ⟨rfl, rfl, rfl⟩))
  | unit => exact .unit

/-- So none is left on them. -/
theorem helpers_withoutOptions (fields : FieldList) : fields.withoutOptions.helpers = [] := by
  -- What is stripped from a field is what its helpers are.
  have none (attributes : List Attribute) :
      (Attribute.strip Attribute.optionNames attributes).filter (·.isHelper) = [] := by
    rw [Attribute.strip, List.filter_filter, List.filter_eq_nil_iff]
    simp [Attribute.isHelper]
  cases fields with
  | named fields trailing =>
    simp [withoutOptions, helpers, Field.strip, List.flatMap_map, List.filter_flatMap, none]
  | positional slots trailing =>
    simp [withoutOptions, helpers, List.flatMap_map, List.filter_flatMap, none]
  | unit => rfl

/-- Fields have lost nothing exactly if they have no helper attribute. -/
theorem sheds_self_iff {fields : FieldList} : fields.Sheds fields ↔ fields.helpers = [] := by
  -- The attributes of one field stay exactly if no helper is among them.
  have stay (attributes : List Attribute) :
      attributes = attributes.filter (!·.isHelper) ↔ attributes.filter (·.isHelper) = [] := by
    rw [eq_comm, List.filter_eq_self, List.filter_eq_nil_iff]
    simp
  cases fields with
  | named fields trailing =>
    rw [helpers, List.filter_flatMap, List.flatMap_eq_nil_iff]
    constructor
    · rintro ⟨same⟩
      exact fun field inside => (stay _).mp (List.forall₂_same.mp same field inside).attributes
    · exact fun none => .named (List.forall₂_same.mpr fun field inside =>
        ⟨(stay _).mpr (none field inside), rfl, rfl, rfl⟩)
  | positional slots trailing =>
    rw [helpers, List.filter_flatMap, List.flatMap_eq_nil_iff]
    constructor
    · rintro (_ | ⟨same⟩)
      exact fun slot inside => (stay _).mp (List.forall₂_same.mp same slot inside).attributes
    · exact fun none => .positional (List.forall₂_same.mpr fun slot inside =>
        ⟨(stay _).mpr (none slot inside), rfl, rfl⟩)
  | unit => exact ⟨fun _ => rfl, fun _ => .unit⟩

end FieldList

namespace Item

mutual

/-- Without its options, a declaration has stripped structs and is the same otherwise. -/
theorem strips_withoutOptions : (item : Item) → item.Strips Eq item.withoutOptions
  | .struct decl => .struct decl.fields.sheds_withoutOptions
  | .mod ⟨_, _, _, some items⟩ => .mod (strips_withoutOptionsAll items)
  | .mod ⟨_, _, _, none⟩ => .elsewhere
  | .enum _ => .enum (List.forall₂_same.mpr fun _ _ => ⟨rfl, rfl, rfl, rfl⟩)
  | .union _ => .union rfl
  | .impl _ => .impl
  | .other _ _ => .other

/-- The same holds of declarations in a row. -/
theorem strips_withoutOptionsAll :
    (items : List Item) → List.Forall₂ (Strips Eq) items (withoutOptionsAll items)
  | [] => .nil
  | item :: rest => .cons (strips_withoutOptions item) (strips_withoutOptionsAll rest)

end

mutual

/-- The helper attributes that are left are those on fields of enums and unions. -/
theorem helpers_withoutOptions : (item : Item) → item.withoutOptions.helpers = item.loose
  | .struct decl => decl.fields.helpers_withoutOptions
  | .mod ⟨_, _, _, some items⟩ => helpers_withoutOptionsAll items
  | .mod ⟨_, _, _, none⟩ => rfl
  | .enum _ => rfl
  | .union _ => rfl
  | .impl _ => rfl
  | .other _ _ => rfl

/-- The same holds of declarations in a row. -/
theorem helpers_withoutOptionsAll : (items : List Item) →
    gatherAll fieldHelpers (withoutOptionsAll items) = gatherAll looseHelpers items
  | [] => rfl
  | item :: rest => congrArg₂ (· ++ ·) (helpers_withoutOptions item) (helpers_withoutOptionsAll rest)

end

mutual

/-- All fields have lost their helper attributes exactly if no enum and no union has any. -/
theorem strips_sheds_iff :
    (item : Item) → (item.Strips FieldList.Sheds item.withoutOptions ↔ item.loose = [])
  | .struct decl => ⟨fun _ => rfl, fun _ => .struct decl.fields.sheds_withoutOptions⟩
  | .mod ⟨_, _, _, some items⟩ => by
    refine Iff.trans ⟨fun strips => ?_, .mod⟩ (strips_shedsAll_iff items)
    cases strips with
    | mod inside => exact inside
  | .mod ⟨_, _, _, none⟩ => ⟨fun _ => rfl, fun _ => .elsewhere⟩
  | .enum decl => by
    refine Iff.trans ⟨fun strips => ?_, fun none => ?_⟩ List.flatMap_eq_nil_iff.symm
    · cases strips with
      | enum same =>
        exact fun variant inside =>
          FieldList.sheds_self_iff.mp (List.forall₂_same.mp same variant inside).fields
    · exact .enum (List.forall₂_same.mpr fun variant inside =>
        ⟨rfl, rfl, rfl, FieldList.sheds_self_iff.mpr (none variant inside)⟩)
  | .union decl => by
    refine Iff.trans ⟨fun strips => ?_, .union⟩ FieldList.sheds_self_iff
    cases strips with
    | union same => exact same
  | .impl _ => ⟨fun _ => rfl, fun _ => .impl⟩
  | .other _ _ => ⟨fun _ => rfl, fun _ => .other⟩

/-- The same holds of declarations in a row. -/
theorem strips_shedsAll_iff : (items : List Item) →
    (List.Forall₂ (Strips FieldList.Sheds) items (withoutOptionsAll items) ↔
      gatherAll looseHelpers items = [])
  | [] => ⟨fun _ => rfl, fun _ => .nil⟩
  | item :: rest => by
    rw [withoutOptionsAll, gatherAll, List.forall₂_cons, List.append_eq_nil_iff,
      strips_sheds_iff item, strips_shedsAll_iff rest, loose]

end

end Item

namespace Output

/--
A failed expansion gives the error and behind it the declaration, in which all structs have lost the
helper attributes of their fields, and which is the same otherwise.

The helper attributes that are left are exactly those on fields of enums and unions, so the fields
have lost all of them exactly if there are none of those.
-/
theorem ofFailure_strips (error : SynthesisError) (item : Item) :
    ∃ cleaned, ofFailure error item = failing error.message ++ cleaned.tokens ∧
      item.Strips Eq cleaned ∧ cleaned.helpers = item.loose ∧
        (item.Strips FieldList.Sheds cleaned ↔ item.loose = []) :=
  ⟨item.withoutOptions, rfl, item.strips_withoutOptions, item.helpers_withoutOptions,
    item.strips_sheds_iff⟩

/-- An enum whose variant has a field that is marked to be left out. -/
def markedEnum : Item :=
  .enum ⟨⟨[], [], .origin, ⟨"E", .origin⟩, .empty⟩,
    [⟨[], ⟨"A", .origin⟩, .named [⟨[.withList (.ofName ⟨"codable", .origin⟩) [Token.word "skip"]], [],
      ⟨"a", .origin⟩, .path (.ofName ⟨"u8", .origin⟩)⟩] false, []⟩], false⟩

/-- The mark on the field of a variant is still there behind the error that an enum has. -/
theorem ofFailure_keeps_mark :
    Codable.standard.expand [] markedEnum ⟨{}, Context.standardRuntime⟩ =
        .error (.unsupported "codable" .enum .origin) ∧
      ¬∃ cleaned, markedEnum.Strips FieldList.Sheds cleaned ∧
        ofFailure (.unsupported "codable" .enum .origin) markedEnum =
          failing (SynthesisError.unsupported "codable" .enum .origin).message ++
            cleaned.tokens := by
  refine ⟨rfl, ?_⟩
  rintro ⟨cleaned, strips, same⟩
  have tokens := List.append_cancel_left same
  -- There is only one declaration that is stripped of the mark, and it is not what is given.
  cases strips with
  | enum variants =>
    obtain ⟨⟨attributes, name, fields, discriminant⟩, _, keeps, none, rfl⟩ :=
      List.forall₂_cons_left_iff.mp variants
    obtain ⟨rfl, rfl, rfl, shed⟩ := keeps
    obtain rfl := List.forall₂_nil_left_iff.mp none
    cases shed with
    | named sheds =>
      obtain ⟨⟨attributes, visibility, name, ty⟩, _, field, none, rfl⟩ :=
        List.forall₂_cons_left_iff.mp sheds
      obtain ⟨rfl, rfl, rfl, rfl⟩ := field
      obtain rfl := List.forall₂_nil_left_iff.mp none
      exact absurd (congrArg Token.renderAll tokens) (by decide +kernel)

end Output

end KeyedCoding
