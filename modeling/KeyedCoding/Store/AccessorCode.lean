import KeyedCoding.Coding.KeyTable
import KeyedCoding.Store.Accessor
import KeyedCoding.Token.Printer

/-!
Generated accessors read as code: which calls a getter and a setter make, of which store and under
which key, and what becomes of the value on the way.
-/

namespace KeyedCoding

/-- What follows tokens that are written like those in front. -/
def Token.after? (front tokens : List Token) : Option (List Token) :=
  if renderAll (tokens.take front.length) == renderAll front then some (tokens.drop front.length)
  else none

/-- A call of a method of stores. -/
structure StoreCall where
  method : String
  arguments : List Token

namespace StoreCall

/-- Reads a call of a method of the trait of stores; the tokens after it are left. -/
def ofTokens? (runtime : Path) (tokens : List Token) : Option (StoreCall × List Token) :=
  match Token.after? ((SecureField.storeTrait runtime).tokens ++ Token.symbol "::") tokens with
  | some (.name method _ :: .group .paren arguments _ _ :: rest) => some (⟨method, arguments⟩, rest)
  | _ => none

/-- Reads one statement that is such a call. -/
def ofStatement? (runtime : Path) (tokens : List Token) : Option StoreCall :=
  match ofTokens? runtime tokens with
  | some (call, [.punct ';' _ _]) => some call
  | _ => none

/-- Splits off the last of arguments, here a key, and the comma before it. -/
def splitKey? (tokens : List Token) : Option (List Token × Token) :=
  match tokens.reverse with
  | key :: .punct ',' _ _ :: store => some (store.reverse, key)
  | _ => none

/-- The store and the key of a call that takes nothing else. -/
def target? (call : StoreCall) : Option (List Token × Token) :=
  (Token.after? (Token.symbol "&") call.arguments).bind splitKey?

/--
Whether a value is stored as the text that it is rendered as, or as it is; the call has to be about
a store and a key.
-/
def renders? (runtime : Path) (store : List Token) (key : Token) (call : StoreCall) :
    Option Bool := do
  let value ← Token.after? (Token.symbol "&" ++ store ++ Token.symbol ",") call.arguments
  match ← Token.after? (runtime.extend ["store", "StoredValue", "from"]).tokens value with
  | [.group .paren value _ _, .punct ',' _ _, last] =>
    if last.render != key.render then none
    else if Token.renderAll value == "value" then some false
    else if Token.renderAll value == ":: std :: string :: ToString :: to_string (& value)" then
      some true
    else none
  | _ => none

end StoreCall

/-- What the code of an accessor says: the store, the key, and how values are kept there. -/
structure AccessorCode where
  store : List Token
  key : String
  getter : StoreGetter

namespace AccessorCode

/-- Reads the body of a getter: one call, and whether the text that it gives is parsed. -/
def readOf? (runtime : Path) (body : List Token) : Option (StoreCall × Bool) :=
  match StoreCall.ofTokens? runtime body with
  | some (call, []) => some (call, false)
  | some (call, rest) =>
    if Token.renderAll rest == ". and_then (| raw | raw . parse () . ok ())" then some (call, true)
    else none
  | none => none

/-- Splits arms into their patterns, arrows included, and what stands in their braces. -/
def armsAfter (pattern : List Token) : List Token → List (List Token × List Token)
  | [] => []
  | .group .brace body _ _ :: rest => (pattern, body) :: armsAfter [] rest
  | token :: rest => armsAfter (pattern ++ [token]) rest

/-- Reads the body of a setter: the one call for a value, and the one for none. -/
def writesOf? (runtime : Path) (body : List Token) : Option (StoreCall × StoreCall) :=
  match body with
  | [.name "match" _, .name "new_value" _, .group .brace arms _ _] =>
    match armsAfter [] arms with
    | [(given, set), (missing, delete)] =>
      if Token.renderAll given == ":: core :: option :: Option :: Some (value) =>" &&
          Token.renderAll missing == ":: core :: option :: Option :: None =>" then
        (StoreCall.ofStatement? runtime set).bind fun set =>
          (StoreCall.ofStatement? runtime delete).map fun delete => (set, delete)
      else none
    | _ => none
  | _ => none

/-- How values are kept, by the method that reads and by what is done to the value on both ways. -/
def getterOf? (method : String) (parses renders : Bool) : Option StoreGetter :=
  match method, parses, renders with
  | "get", false, false => some .text
  | "get_bool", false, false => some .flag
  | "get_data", false, false => some .data
  | "get", true, true => some .parsed
  | _, _, _ => none

/-- Reads a getter and a setter; all three calls have to be about one store and one key. -/
def ofMembers? (runtime : Path) (getter setter : Member) : Option AccessorCode := do
  let (read, parses) ← readOf? runtime (← getter.body?)
  let (set, delete) ← writesOf? runtime (← setter.body?)
  let (store, key) ← read.target?
  let getter ← getterOf? read.method parses (← set.renders? runtime store key)
  if set.method == "set" && delete.method == "delete" &&
      Token.renderAll delete.arguments == Token.renderAll read.arguments then
    some ⟨store, key.textValue, getter⟩
  else none

/-- Reads members that are getters and setters in turn. -/
def ofAll? (runtime : Path) : List Member → Option (List AccessorCode)
  | [] => some []
  | getter :: setter :: rest =>
    (ofMembers? runtime getter setter).bind fun code => (ofAll? runtime rest).map (code :: ·)
  | [_] => none

/-- The accessor that the code is, where values of its type are written as texts in some format. -/
def accessor {α : Type} (code : AccessorCode) (format : TextFormat α) : Accessor α :=
  ⟨code.key, code.getter, format⟩

/-- The accessors that several codes are, each with a format for values of a type of its own. -/
def accessors (codes : List AccessorCode) {α : Fin codes.length → Type}
    (formats : (i : Fin codes.length) → TextFormat (α i)) (i : Fin codes.length) : Accessor (α i) :=
  (codes.get i).accessor (formats i)

end AccessorCode

/-- What the generated members of a field say. -/
def SecureField.code (field : SecureField) : AccessorCode :=
  ⟨field.store.tokens, field.key.textValue, StoreGetter.ofType field.ty⟩

end KeyedCoding
