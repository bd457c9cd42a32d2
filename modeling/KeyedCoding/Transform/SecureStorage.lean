import KeyedCoding.Generated.Accessor
import KeyedCoding.Record.Secure
import KeyedCoding.Transform.Basic

/-! The secure storage transformer: secure fields leave the struct and become accessors. -/

namespace KeyedCoding

/-- The arguments of the secure storage transformer; of several values for one argument the last holds. -/
structure StorageArguments where
  store : Option Expr := none
  runtime : Option Path := none

namespace StorageArguments

open Reader

/-- Reads what follows the name of one argument. -/
def readArgument (g : Grammar) (args : StorageArguments) (path : Path) :
    Reader StorageArguments := do
  if path.isName "store" then return { args with store := some (← g.argumentExpr) }
  else if path.isName "crate" then return { args with runtime := some (← quotedPath) }
  else failAt path.namePos "expected `store` or `crate`"

/-- Reads the arguments. -/
def ofTokens (tokens : List Token) : Except Fault StorageArguments :=
  Grammar.read (fun g => Grammar.arguments (readArgument g) {}) tokens

end StorageArguments

namespace SecureStorage

/-- The name of the transformer. -/
def name : String := "secure_storage"

/-- What the transformer does, in words. -/
def description : String :=
  "Replaces #[secure] fields with getters and setters backed by a SecureStore"

/-- A field that stays in the struct, or one that leaves it. -/
inductive Placement where
  | kept (field : Field)
  | secured (field : SecureField)

/-- Where a field goes. -/
def place (defaultStore : Expr) (field : Field) : Synthesis Placement := do
  match ← Synthesis.ofReading (SecureOptions.ofField field) with
  | none => return .kept field
  | some options =>
    return .secured
      ⟨field.visibility, field.name, field.ty.present, options.key, options.store.getD defaultStore⟩

/-- The fields that stay. -/
def kept (placements : List Placement) : List Field :=
  placements.filterMap fun placement => match placement with
    | .kept field => some field
    | .secured _ => none

/-- The fields that leave. -/
def secured (placements : List Placement) : List SecureField :=
  placements.filterMap fun placement => match placement with
    | .kept _ => none
    | .secured field => some field

/-- The finding about a struct without secure fields. -/
def unusedStorage (record : Record) : Diagnostic :=
  { code := "CS004"
    name := "unused-secure-storage"
    severity := .warning
    message := "`" ++ record.name.spelling ++ "` has no `#[secure]` fields"
    pos := record.name.pos }

/-- The struct with the fields that stay. -/
def remaining (record : Record) (fields : List Field) : Struct :=
  ⟨record.head, .named (fields.map (Field.strip [Attribute.secureName])) false⟩

/-- Expands a record. -/
def expand (tokens : List Token) (item : Item) (context : Context) : Synthesis Expansion := do
  let args ← Synthesis.ofReading (StorageArguments.ofTokens tokens)
  let record := (← Inspection.ofItem name item).record
  let runtime := args.runtime.getD context.runtime
  -- The store is needed as soon as the record is read, even if no field leaves.
  let defaultStore ← match args.store with
    | some store => pure store
    | none => SecureField.sharedStore runtime
  let placements ← record.fields.mapM (place defaultStore)
  -- Where no field leaves, the item is given back as it was written.
  if (secured placements).isEmpty then
    return ⟨[item], context.config.apply [unusedStorage record]⟩
  else
    let accessors ← SecureField.declaration record.target (secured placements) runtime
    return ⟨record.reassemble (remaining record (kept placements)) [accessors], []⟩

/-- The secure storage transformer. -/
def transformer : Transformer := ⟨name, description, expand⟩

end SecureStorage

end KeyedCoding
