import KeyedCoding.Record.Options

/-! Records: structs with named fields, on their own or in a module, as the synthesis sees them. -/

namespace KeyedCoding

namespace Ty

/-- The type inside an optional type: the only argument of a path that ends in `Option`. -/
def optionInner? : Ty → Option Ty
  | .path written =>
    match written.lastSegment? with
    | some ⟨⟨"Option", _⟩, .angle _ [.type inner] _⟩ => some inner
    | _ => none
  | _ => none

/-- Whether a type is optional. -/
def isOptional (ty : Ty) : Bool := ty.optionInner?.isSome

/-- What a value of the type holds if it is present. -/
def present (ty : Ty) : Ty := ty.optionInner?.getD ty

end Ty

/-- How a field gets its value without being decoded. -/
inductive Initializer where
  | value (expr : Expr)
  | accessor

/-- What the synthesis knows of a field. -/
structure FieldInfo where
  name : Name
  ty : Ty
  initializer : Option Initializer
  skipped : Bool
  readonly : Bool
  rename : Option String
  pos : Position

namespace FieldInfo

/-- Whether a field has a default or an accessor. -/
def isInitialized (field : FieldInfo) : Bool := field.initializer.isSome

/-- Whether a field is computed and has no storage of its own. -/
def isAccessor (field : FieldInfo) : Bool :=
  match field.initializer with
  | some .accessor => true
  | _ => false

/-- The key of a field: the one it is renamed to, or its plain name. -/
def key (field : FieldInfo) : String := field.rename.getD field.name.plain

end FieldInfo

/-- What the module around a struct already provides for it. -/
structure ExistingMembers where
  keyMapping : Option Position := none
  decoder : Bool := false
  encoder : Bool := false
  conformances : List String := []

/-- Where a struct stands: on its own, or at an index of a module's body. -/
inductive Container where
  | bare
  | module (decl : Module) (index : Nat)

/-- A struct with named fields and what surrounds it. -/
structure Record where
  head : TypeHead
  fields : List Field
  trailing : Bool
  container : Container
  existing : ExistingMembers

/-- The type that generated declarations are for. -/
structure Target where
  name : Name
  generics : Generics

namespace Target

/-- The name of the key type that belongs to a type. -/
def keysNameOf (name : Name) : Name := ⟨name.plain ++ "CodingKeys", name.pos⟩

/-- The name of the key type. -/
def keysName (target : Target) : Name := keysNameOf target.name

/-- The key type. -/
def keysType (target : Target) : Ty := .path (.ofName target.keysName)

/-- The type, applied to its own parameters. -/
def self (target : Target) : Ty := .path ⟨none, [⟨target.name, target.generics.arguments⟩]⟩

/-- An impl for the type, of a trait or of its own. -/
def implement (target : Target) (trait : Option Path) (members : List Member) : Item :=
  .impl
    { attributes := []
      -- The parameters are declared in front, and the bounds stand behind.
      head := Token.word "impl" :: target.generics.forImpl
      trait := trait.map fun path => ⟨false, path⟩
      target := target.self
      whereTokens := target.generics.whereTokens
      members := members }

end Target

namespace Record

/-- The name of the record. -/
def name (record : Record) : Name := record.head.name

/-- The generics of the record. -/
def generics (record : Record) : Generics := record.head.generics

/-- The struct of the record. -/
def decl (record : Record) : Struct := ⟨record.head, .named record.fields record.trailing⟩

/-- The record as what generated declarations are for. -/
def target (record : Record) : Target := ⟨record.name, record.generics⟩

/-- Puts a struct back in the record's place, with generated declarations after all others. -/
def reassemble (record : Record) (decl : Struct) (generated : List Item) : List Item :=
  match record.container with
  | .bare => .struct decl :: generated
  | .module ⟨attributes, head, name, body⟩ index =>
    [.mod ⟨attributes, head, name, body.map fun items => items.set index (.struct decl) ++ generated⟩]

end Record

end KeyedCoding
