import KeyedCoding.Grammar.Quoted
import KeyedCoding.Record.Basic

/-! Generated accessors: a getter and a setter that keep the value of a field in a store. -/

namespace KeyedCoding

/-- How a value is read from a store. -/
inductive StoreGetter where
  | text
  | flag
  | data
  | parsed
  deriving DecidableEq, Repr

namespace StoreGetter

/-- Whether the first type argument is the type of bytes. -/
def holdsBytes : Arguments → Bool
  | .angle _ (.type ty :: _) _ => (ty.asPath?.map (·.isName "u8")).getD false
  | _ => false

/-- How values of a type are read. -/
def ofType (ty : Ty) : StoreGetter :=
  match ty.asPath?.bind Path.lastSegment? with
  | some ⟨⟨"String", _⟩, _⟩ => text
  | some ⟨⟨"bool", _⟩, _⟩ => flag
  | some ⟨⟨"Vec", _⟩, arguments⟩ => if holdsBytes arguments then data else parsed
  | _ => parsed

/-- The name of a getter. -/
def name : StoreGetter → String
  | text => "text"
  | flag => "bool"
  | data => "data"
  | parsed => "parsed"

/-- The method of a store that reads the value. -/
def method : StoreGetter → String
  | text => "get"
  | flag => "get_bool"
  | data => "get_data"
  | parsed => "get"

end StoreGetter

/-- A field whose value is in a store. -/
structure SecureField where
  visibility : List Token
  name : Name
  ty : Ty
  key : Token
  store : Expr

namespace SecureField

/-- The trait of stores. -/
def storeTrait (runtime : Path) : Path := runtime.extend ["store", "SecureStore"]

/-- The store that is used where none is named. -/
def sharedStore (runtime : Path) : Synthesis Expr :=
  if runtime.opensExpression then
    .ok ⟨(runtime.extend ["store", "shared"]).tokens ++ [Token.parens []], .other⟩
  else .error .unspliceable

/-- A call of a method of stores on the field's store, with the field's key last. -/
def call (field : SecureField) (runtime : Path) (method : String) (value : List Token) :
    List Token :=
  (storeTrait runtime).tokens ++ Token.symbol "::" ++ [Token.word method,
    Token.parens (Token.symbol "&" ++ field.store.tokens ++ Token.symbol "," ++ value ++
      [field.key])]

/-- The name of a path that no source wrote, as tokens. -/
def absoluteTokens (names : List String) : List Token := (Path.absolute names).tokens

/-- Makes a read text a value: what does not parse is no value. -/
def parseTokens : List Token :=
  Token.symbol "." ++ [Token.word "and_then",
    Token.parens (Token.symbol "|" ++ [Token.word "raw"] ++ Token.symbol "|" ++
      [Token.word "raw"] ++ Token.symbol "." ++ [Token.word "parse", Token.parens []] ++
      Token.symbol "." ++ [Token.word "ok", Token.parens []])]

/-- The expression that reads the field. -/
def readTokens (field : SecureField) (runtime : Path) : List Token :=
  let getter := StoreGetter.ofType field.ty
  field.call runtime getter.method [] ++ (if getter = .parsed then parseTokens else [])

/-- The value to store, as the store takes it. -/
def storedTokens (field : SecureField) (runtime : Path) : List Token :=
  let value :=
    if StoreGetter.ofType field.ty = .parsed then
      absoluteTokens ["std", "string", "ToString", "to_string"] ++
        [Token.parens (Token.symbol "&" ++ [Token.word "value"])]
    else [Token.word "value"]
  (runtime.extend ["store", "StoredValue", "from"]).tokens ++ [Token.parens value]

/-- The optional type of the field's value. -/
def optionalType (field : SecureField) : Ty :=
  .path ⟨some .origin, [⟨⟨"core", .origin⟩, .none⟩, ⟨⟨"option", .origin⟩, .none⟩,
    ⟨⟨"Option", .origin⟩, .angle false [.type field.ty] false⟩]⟩

/-- A documented member function. -/
def documented (field : SecureField) (doc : String) (rest : List Token) : List Token :=
  Token.symbol "#" ++ [Token.brackets ([Token.word "doc"] ++ Token.symbol "=" ++
    [.literal (Text.Quoted.literal doc) .origin])] ++
    field.visibility ++ [Token.word "fn"] ++ rest

/-- The getter. -/
def getter (field : SecureField) (runtime : Path) : Member where
  tokens :=
    field.documented ("Reads `" ++ field.key.textValue ++ "` from secure storage.")
      ([field.name.token, Token.parens (Token.symbol "&" ++ [Token.word "self"])] ++
        Token.symbol "->" ++ field.optionalType.tokens ++
        [Token.braces (field.readTokens runtime)])
  params := some []

/-- The name of the setter. -/
def setterName (field : SecureField) : Name := ⟨"set_" ++ field.name.plain, field.name.pos⟩

/-- The arm of a setter for one case of the new value. -/
def arm (pattern : List Token) (statement : List Token) : List Token :=
  pattern ++ Token.symbol "=>" ++ [Token.braces (statement ++ Token.symbol ";")]

/-- The body of the setter: a missing value deletes. -/
def setterBody (field : SecureField) (runtime : Path) : List Token :=
  [Token.word "match", Token.word "new_value",
    Token.braces
      (arm (absoluteTokens ["core", "option", "Option", "Some"] ++
          [Token.parens [Token.word "value"]])
        -- Both arms give what the store gives, so the match is the last expression.
        (field.call runtime "set" (field.storedTokens runtime ++ Token.symbol ",")) ++
       arm (absoluteTokens ["core", "option", "Option", "None"])
        (field.call runtime "delete" []))]

/-- The setter. -/
def setter (field : SecureField) (runtime : Path) : Member where
  tokens :=
    field.documented
      ("Writes `" ++ field.key.textValue ++ "` to secure storage; `None` deletes it.")
      ([field.setterName.token,
        Token.parens (Token.symbol "&" ++ [Token.word "self"] ++ Token.symbol "," ++
          [Token.word "new_value"] ++ Token.symbol ":" ++ field.optionalType.tokens),
        Token.braces (field.setterBody runtime)])
  params := some [field.optionalType]

/-- The accessors of a field. -/
def accessors (field : SecureField) (runtime : Path) : List Member :=
  [field.getter runtime, field.setter runtime]

/-- The impl with the accessors of all secure fields. -/
def declaration (target : Target) (fields : List SecureField) (runtime : Path) : Synthesis Item :=
  if runtime.opensExpression && fields.all (·.name.spelling != "_") then
    .ok (target.implement none (fields.flatMap (accessors · runtime)))
  else .error .unspliceable

end SecureField

end KeyedCoding
