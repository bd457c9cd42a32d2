import KeyedCoding.Diagnostic
import KeyedCoding.Record.Basic
import KeyedCoding.SynthesisError

/-! Inspection: which declarations are records, what they already provide, and what their fields say. -/

namespace KeyedCoding

/-- A declaration that is no record, and where it lies. -/
structure Unsupported where
  kind : UnsupportedKind
  pos : Position
  deriving DecidableEq, Repr

namespace ItemKind

/-- What a declaration that is kept as tokens is called. -/
def unsupportedKind : ItemKind → UnsupportedKind
  | function => .function
  | trait => .trait
  | typeAlias => .typeAlias
  | constant => .constant
  | use => .use
  | invocation => .invocation
  | other => .other

end ItemKind

namespace ExistingMembers

/-- Notes a key mapping; the first one found stays. -/
def withMapping (existing : ExistingMembers) (pos : Position) : ExistingMembers :=
  { existing with keyMapping := existing.keyMapping <|> some pos }

/-- Notes an implemented trait. -/
def withTrait (existing : ExistingMembers) (path : Path) : ExistingMembers :=
  match path.lastName? with
  | none => existing
  | some name =>
    let noted := match name with
      -- Any trait of this name maps keys, whatever its path.
      | "KeyMapped" => existing.withMapping path.pos
      | "Decodable" => { existing with decoder := true }
      | "Encodable" => { existing with encoder := true }
      | _ => existing
    -- The trait counts as implemented, also where it notes nothing else.
    { noted with conformances := noted.conformances ++ [name] }

/-- The name of a parameter's type, seen through one reference. -/
def paramName? : Ty → Option String
  | .reference _ _ target => target.name?
  | ty => ty.name?

/-- Notes a member: a function of one decoder or encoder decodes or encodes. -/
def withMember (existing : ExistingMembers) (member : Member) : ExistingMembers :=
  match member.params with
  -- With more parameters, or none, it is no such function.
  | some [ty] =>
    match paramName? ty with
    | some "Decoder" => { existing with decoder := true }
    | some "Encoder" => { existing with encoder := true }
    | _ => existing
  | _ => existing

/-- Notes an impl for the record. -/
def withImpl (existing : ExistingMembers) (decl : Impl) : ExistingMembers :=
  match decl.trait with
  | some trait => existing.withTrait trait.path
  | none => decl.members.foldl withMember existing

/-- Notes what a declaration next to a struct provides for it. -/
def withItem (name : Name) (existing : ExistingMembers) (item : Item) : ExistingMembers :=
  match item with
  | .enum decl =>
    let found := decl.head.name
    -- The enum is told by its name: the plain one, or the one that is generated for the struct.
    if found.spelling == "CodingKeys" || found == Target.keysNameOf name then
      existing.withMapping found.pos
    else existing
  | .impl decl =>
    if decl.target.name? == some name.spelling then existing.withImpl decl else existing
  | _ => existing

/-- What the attributes of a struct provide for it. -/
def ofAttributes (attributes : List Attribute) : ExistingMembers :=
  { keyMapping := (Attribute.find? attributes "coding_keys").map (·.pos) }

end ExistingMembers

namespace Struct

/-- A struct as a record; what surrounds it is not looked at. -/
def asRecord (decl : Struct) (container : Container) : Except Unsupported Record :=
  match decl.fields with
  | .named fields trailing =>
    .ok ⟨decl.head, fields, trailing, container, .ofAttributes decl.head.attributes⟩
  | .positional _ _ => .error ⟨.tupleStruct, Token.startOf decl.tokens⟩
  | .unit => .error ⟨.unitStruct, Token.startOf decl.tokens⟩

end Struct

namespace Module

/-- The structs among declarations, each with its index; counting starts at `index`. -/
def structsFrom (index : Nat) : List Item → List (Nat × Struct)
  | [] => []
  | .struct decl :: rest => (index, decl) :: structsFrom (index + 1) rest
  | _ :: rest => structsFrom (index + 1) rest

/-- A module as the record of its only struct. -/
def asRecord (decl : Module) : Except Unsupported Record :=
  match decl with
  | ⟨_, _, _, none⟩ => .error ⟨.moduleWithoutBody, Token.startOf decl.tokens⟩
  | ⟨_, _, name, some items⟩ =>
    match structsFrom 0 items with
    -- The struct has to be the only one, and a nested module is not looked into.
    | [(index, found)] => do
      let record ← found.asRecord (.module decl index)
      return { record with existing := items.foldl (.withItem record.name) record.existing }
    | found => .error ⟨.moduleWithStructs found.length, name.pos⟩

end Module

namespace Item

/-- A declaration as a record, or what it is instead. -/
def asRecord (item : Item) : Except Unsupported Record :=
  match item with
  | .struct decl => decl.asRecord .bare
  | .mod decl => decl.asRecord
  | .enum _ => .error ⟨.enum, item.pos⟩
  | .union _ => .error ⟨.union, item.pos⟩
  | .impl _ => .error ⟨.impl, item.pos⟩
  | .other kind _ => .error ⟨kind.unsupportedKind, item.pos⟩

end Item

namespace FieldInfo

/-- How a field with given options gets its value without being decoded. -/
def initializerOf (options : FieldOptions) : Synthesis (Option Initializer) :=
  match options.secure, options.default with
  | true, some default => .error (.invalidAttribute .accessorWithDefault default.pos)
  | true, none => .ok (some .accessor)
  | false, default => .ok (default.map .value)

/-- What the attributes of a field say about it. -/
def ofField (field : Field) : Synthesis FieldInfo := do
  let options ← Synthesis.ofReading (FieldOptions.ofAttributes field.attributes)
  let initializer ← initializerOf options
  return ⟨field.name, field.ty, initializer, options.skip, options.readonly, options.rename, field.pos⟩

/-- What is known of fields in a row, none of which may repeat a name. -/
def ofFieldsAfter (seen : List Name) : List Field → Synthesis (List FieldInfo)
  | [] => .ok []
  | field :: rest => do
    -- The name is looked at before the field is.
    if seen.contains field.name then
      .error (.invalidAttribute (.fieldTwice field.name.spelling) field.name.pos)
    else
      let info ← ofField field
      return info :: (← ofFieldsAfter (field.name :: seen) rest)

/-- What is known of the fields of a struct, in their order. -/
def ofFields (fields : List Field) : Synthesis (List FieldInfo) := ofFieldsAfter [] fields

/-- The finding about a new key for a field that has none. -/
def unusedOption? (field : FieldInfo) : Option Diagnostic :=
  -- An included field has a key that the option changes.
  if field.skipped && field.rename.isSome then
    some
      { code := "CS002"
        name := "unused-option"
        severity := .warning
        message := "`rename` on skipped field `" ++ field.name.spelling ++ "` has no effect"
        pos := field.pos }
  else none

end FieldInfo

/-- A record and what is known of its fields. -/
structure Inspection where
  record : Record
  fields : List FieldInfo

namespace Inspection

/-- Inspects a declaration on behalf of a transformer. -/
def ofItem (transformer : String) (item : Item) : Synthesis Inspection := do
  match item.asRecord with
  | .error ⟨kind, pos⟩ => .error (.unsupported transformer kind pos)
  | .ok record => return ⟨record, ← FieldInfo.ofFields record.fields⟩

/-- The findings about options that have no effect. -/
def diagnostics (inspection : Inspection) : List Diagnostic :=
  inspection.fields.filterMap FieldInfo.unusedOption?

end Inspection

end KeyedCoding
