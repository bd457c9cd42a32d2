import KeyedCoding.Record.Options

/-! Options of a field in secure storage: the key it is stored under, and the store that holds it. -/

namespace KeyedCoding

/-- The options of a secure field; the key is a string literal. -/
structure SecureOptions where
  key : Token
  store : Option Expr

namespace SecureOptions

open Reader

/-- What is known of the options while they are read. -/
structure Partial where
  key : Option Token := none
  store : Option Expr := none

/-- The words for a missing key. -/
def missingKey : String := "missing storage key, expected `#[secure(\"key\")]`"

/-- Reads the comma between two options; none is needed at the end. -/
def separator : Reader Unit := do
  if !(← atEnd) then
    let _ ← symbol ","

/-- Reads one named option. -/
def readOption (g : Grammar) (found : Partial) : Reader Partial := do
  let name ← name
  let _ ← symbol "="
  if name.spelling == "key" then
    -- A repetition is noticed before its value is read.
    if found.key.isSome then failAt name.pos "duplicate `key` argument"
    else return { found with key := some (← text) }
  else if name.spelling == "store" then
    if found.store.isSome then failAt name.pos "duplicate `store` argument"
    else return { found with store := some (← g.expr true) }
  else failAt name.pos "expected `key` or `store`"

/-- Reads the key that may stand first, without a name. -/
def readLeadingKey : Reader Partial := do
  if ← sees Look.text then
    let key ← text
    separator
    return { key := some key }
  else return {}

/-- Reads the options. -/
def read (g : Grammar) : Reader SecureOptions := do
  let start ← readLeadingKey
  let found ← iterate (fun found => do
    if ← atEnd then return .inr found
    else
      let found ← readOption g found
      separator
      return .inl found) start
  -- Whether there is a key is known at the end only.
  match found.key with
  | some key => return ⟨key, found.store⟩
  | none => failHere missingKey

/-- The options that an attribute gives. -/
def ofAttribute (attr : Attribute) : Except Fault SecureOptions :=
  match attr.inside.content with
  | .list _ body _ closed => Grammar.read read body closed
  | _ => .error ⟨missingKey, attr.path.pos⟩

/-- The options of a field, if it is in secure storage. -/
def ofField (field : Field) : Except Fault (Option SecureOptions) :=
  match field.attributes.find? (·.path.isName Attribute.secureName) with
  | none => .ok none
  | some attr => (ofAttribute attr).map some

end SecureOptions

end KeyedCoding
