import KeyedCoding.Grammar.Statement
import KeyedCoding.Grammar.Generics

/-! Reading declarations. -/

namespace KeyedCoding.Grammar

open Reader

variable (g : Grammar)

/-! Functions. -/

/-- Whether the words before a function and its keyword come next. -/
def seesSignature (tokens : List Token) : Bool :=
  let skipWord (spelling : String) (tokens : List Token) : List Token :=
    if Look.word spelling tokens then tokens.drop 1 else tokens
  -- The words stand in this order, and each of them may be missing.
  let tokens := skipWord "unsafe" (skipWord "async" (skipWord "const" tokens))
  let tokens := if Look.word "extern" tokens then
      let next := tokens.drop 1
      -- The name of a calling convention may be missing, too.
      if Look.text next then next.drop 1 else next
    else tokens
  Look.word "fn" tokens

/-- Reads the receiver of a method. -/
def receiver : Reader (List Token) := do
  if ← sees (Look.symbol "&") then
    let amp ← symbol "&"
    let lifetime ← if ← sees Look.lifetime then pure [← lifetime] else pure []
    let mut_ ← word? "mut"
    return amp ++ lifetime ++ mut_ ++ [← word "self"]
  else
    let mut_ ← word? "mut"
    let self ← word "self"
    if ← sees (Look.symbol ":") then
      let colon ← symbol ":"
      return mut_ ++ [self] ++ colon ++ (← g.typeTokens true)
    else return mut_ ++ [self]

/-- Reads a parameter of a function; a parameter that is no receiver has a type. -/
def functionParam (isFirst : Bool) : Reader (List Token × Option Ty) := do
  let attrs ← g.outerAttrTokens
  let start ← here
  -- The receiver is tried on a copy, and what follows is a pattern if it fails.
  match ← optional g.receiver with
  | some written =>
    if isFirst then return (attrs ++ written, none)
    -- The place is that of the parameter, behind its attributes.
    else failAt start "unexpected method receiver"
  | none =>
    let pattern ← g.pattern
    let colon ← symbol ":"
    let ty ← g.ty true
    -- The heads of the type are noted for what the function stands in.
    note ty.heads
    return (attrs ++ pattern ++ colon ++ ty.tokens, some ty)

/-- Whether the rest of a parameter list stands for any number of parameters. -/
def seesRestParam (tokens : List Token) : Bool := Look.symbol "..." tokens || seesVariadic tokens

/-- Reads the parameters of a function; the types are those of the parameters that are no receiver. -/
def functionParams : Reader (List Token × List Ty) :=
  iterate (fun ((read, types) : List Token × List Ty) => do
    if ← atEnd then return .inr (read, types)
    else if seesRestParam (← rest) then return .inr (read ++ (← variadic []), types)
    else
      let (param, ty) ← g.functionParam read.isEmpty
      let read := read ++ param
      let types := types ++ ty.toList
      if ← atEnd then return .inr (read, types) else return .inl (read ++ (← symbol ","), types))
    ([], [])

/-- Reads what stands before the body of a function, and the types of its parameters. -/
def signature : Reader (List Token × List Ty) := do
  let const_ ← word? "const"
  let async_ ← word? "async"
  let words ← callingWords
  let fn_ ← word "fn"
  let name ← name
  let generics ← g.generics
  -- The types inside the parentheses are also handed on by themselves.
  let ((params, types), opened, closed) ← within .paren g.functionParams
  let output ← match ← g.output? true with
    | some ty =>
      note ty.heads
      pure (Token.symbol "->" ++ ty.tokens)
    | none => pure []
  let clause ← g.whereTokens
  let written := const_ ++ async_ ++ words ++ [fn_, name.token] ++ generics.declared ++
    [.group .paren params opened closed] ++ output ++ clause
  return (written, types)

/-- Reads a function; one without a body is kept as written. -/
def functionItem (start attrs : List Token) : Reader Item := do
  let visibility ← visibility
  let (signature, _) ← g.signature
  if ← sees (Look.symbol ";") then
    let _ ← symbol ";"
    return .other .other (tokensBetween start (← rest))
  else return .other .function (attrs ++ visibility ++ signature ++ [← g.block])

/-! Constants, aliases and imports. -/

/-- Reads the value behind an equals sign, if there is one. -/
def valueBehindEquals : Reader (List Token) := do
  if ← sees (Look.symbol "=") then
    let equals ← symbol "="
    return equals ++ (← g.expr true).tokens
  else return []

/-- Reads a constant, and whether it has all that a constant needs. -/
def constant : Reader (List Token × Bool) := do
  let const_ ← word "const"
  let name ← if ← sees (Look.word "_") then anyName else name
  let generics ← g.generics
  let colon ← symbol ":"
  let ty ← g.typeTokens true
  let value ← g.valueBehindEquals
  let clause ← g.whereClause?
  let semi ← symbol ";"
  let written := [const_, name.token] ++ generics.declared ++ colon ++ ty ++ value ++
    ((clause.map (·.tokens)).getD []) ++ semi
  -- Parameters, a clause or a missing value make it another form, which is kept as written.
  return (written, !value.isEmpty && generics.params.isEmpty && clause.isNone)

/-- Reads a static, and whether it has all that a static needs. -/
def staticBody : Reader (List Token × Bool) := do
  let static_ ← word "static"
  let mut_ ← word? "mut"
  let name ← name
  -- Without a colon there is no type, and the static is kept as written.
  let ty ← if ← sees (Look.symbol "=") then pure [] else do
    let colon ← symbol ":"
    pure (colon ++ (← g.typeTokens true))
  let value ← g.valueBehindEquals
  let semi ← symbol ";"
  return ([static_] ++ mut_ ++ [name.token] ++ ty ++ value ++ semi, !ty.isEmpty && !value.isEmpty)

/-- Where the where clause of a type alias may stand. -/
inductive AliasPlace where
  | beforeValue
  | afterValue
  | either
  deriving DecidableEq

/-- Reads a type alias, and whether it is a plain one. -/
def aliasBody (place : AliasPlace) : Reader (List Token × Bool) := do
  let type_ ← word "type"
  let name ← name
  let generics ← g.generics
  let bounds ← if ← sees (Look.symbol ":") then
      let colon ← symbol ":"
      let stop := fun tokens => Look.word "where" tokens || seesStop ["=", ";"] tokens
      pure (colon ++ (← g.boundsUntil stop))
    else pure []
  -- The clause has two places, of which each kind of alias allows one or both.
  let before ← if place = .afterValue then pure [] else g.whereTokens
  let value ← if ← sees (Look.symbol "=") then
      let equals ← symbol "="
      pure (equals ++ (← g.typeTokens true))
    else pure []
  let after ← if place = .beforeValue || !before.isEmpty then pure [] else g.whereTokens
  let semi ← symbol ";"
  let written := [type_, name.token] ++ generics.declared ++ bounds ++ before ++ value ++ after ++ semi
  return (written, bounds.isEmpty && !value.isEmpty)

/-- Reads a tree of imports: the layer over the readers it refers to. -/
def readUseTree : Reader (List Token) := do
  let tokens ← rest
  if Look.symbol "*" tokens then symbol "*"
  else if Look.group .brace tokens then
    return [← grouped .brace do
      let (trees, trailing) ← commaList g.useTree
      return commaSeparated trailing trees]
  else if Look.name tokens || ["self", "super", "crate", "try"].any (Look.word · tokens) then
    let name ← anyName
    let tokens ← rest
    if Look.symbol "::" tokens then
      let colons ← symbol "::"
      return [name.token] ++ colons ++ (← g.useTree)
    else if Look.word "as" tokens then
      let as_ ← word "as"
      let tokens ← rest
      if Look.name tokens || Look.word "_" tokens then
        return [name.token, as_, (← anyName).token]
      else failHere "expected identifier or underscore"
    else return [name.token]
  else failExpecting ["identifier", "`self`", "`super`", "`crate`", "`try`", "`*`", "curly braces"]

/-- Reads an import. -/
def useBody : Reader (List Token) := do
  let use_ ← word "use"
  let leading ← symbol? "::"
  let tree ← g.useTree
  return [use_] ++ leading ++ tree ++ (← symbol ";")

/-- Reads the import of a whole library. -/
def externCrateBody : Reader (List Token) := do
  let extern_ ← word "extern"
  let crate_ ← word "crate"
  let name ← if ← sees (Look.word "self") then anyName else name
  let rename ← if ← sees (Look.word "as") then
      let as_ ← word "as"
      if ← sees (Look.word "_") then pure [as_, (← anyName).token]
      else pure [as_, (← Reader.name).token]
    else pure []
  return [extern_, crate_, name.token] ++ rename ++ (← symbol ";")

/-- Reads an invocation that stands as a declaration; outside braces a semicolon ends it. -/
def invocationBody : Reader (List Token) := do
  -- The path is that of the macro, and a name may stand before the group.
  let path ← plainPath
  let bang ← symbol "!"
  let tokens ← rest
  let name ← if Look.name tokens || Look.word "try" tokens then pure [(← anyName).token] else pure []
  let body ← anyGroup
  -- Braces end the declaration by themselves.
  let semi ← if body.isBraceGroup then pure [] else symbol ";"
  return path.tokens ++ bang ++ name ++ [body] ++ semi

/-- Whether an invocation can start here. -/
def seesInvocation (tokens : List Token) : Bool :=
  Look.name tokens || ["self", "super", "crate"].any (Look.word · tokens) || Look.symbol "::" tokens

/-- What a reader of declarations names when nothing fits. -/
def itemStarts : List String :=
  ["`fn`", "`extern`", "`use`", "`static`", "`const`", "`unsafe`", "`mod`", "`type`", "`struct`",
   "`enum`", "`union`", "`trait`", "`auto`", "`impl`", "`default`", "`macro`", "identifier", "`self`",
   "`super`", "`crate`", "`::`"]

/-! Structs, enums and unions. -/

/-- Reads a named field. -/
def field : Reader Field := do
  let attrs ← g.outerAttrs
  let visibility ← visibility
  let name ← if ← sees (Look.word "_") then anyName else name
  let _ ← symbol ":"
  return ⟨attrs, visibility, name, ← g.ty true⟩

/-- Reads a positional field. -/
def slot : Reader Slot := do
  let attrs ← g.outerAttrs
  let visibility ← visibility
  return ⟨attrs, visibility, ← g.ty true⟩

/-- Reads named fields in braces. -/
def namedFields : Reader (List Field × Bool) := return (← within .brace (commaList g.field)).1

/-- Reads positional fields in parentheses. -/
def slots : Reader (List Slot × Bool) := return (← within .paren (commaList g.slot)).1

/-- Reads the fields of a struct, and the where clause that may stand before or behind them. -/
def structFields : Reader (FieldList × Option WhereClause) := do
  -- The clause of positional fields stands behind them, and that of others before.
  let before ← g.whereClause?
  let tokens ← rest
  if before.isNone && Look.group .paren tokens then
    let (slots, trailing) ← g.slots
    let clause ← g.whereClause?
    let _ ← symbol ";"
    return (.positional slots trailing, clause)
  else if Look.group .brace tokens then
    let (fields, trailing) ← g.namedFields
    return (.named fields trailing, before)
  else if Look.symbol ";" tokens then
    let _ ← symbol ";"
    return (.unit, before)
  else failExpecting ["`where`", "parentheses", "curly braces", "`;`"]

/-- Reads the keyword, name and parameters of a type declaration. -/
def typeHead (attrs : List Attribute) (keyword : String) : Reader TypeHead := do
  let visibility ← visibility
  let pos ← here
  let _ ← word keyword
  let name ← name
  return ⟨attrs, visibility, pos, name, ← g.generics⟩

/-- Gives a type declaration its where clause. -/
def withClause (head : TypeHead) (clause : Option WhereClause) : TypeHead :=
  { head with generics := { head.generics with whereClause := clause } }

/-- Reads a struct. -/
def structItem (attrs : List Attribute) : Reader Struct := do
  let head ← g.typeHead attrs "struct"
  let (fields, clause) ← g.structFields
  return ⟨withClause head clause, fields⟩

/-- Reads a variant of an enum; a visibility is dropped. -/
def variant : Reader Variant := do
  let attrs ← g.outerAttrs
  -- A visibility is accepted here and means nothing.
  let _ ← visibility
  let name ← name
  let tokens ← rest
  let fields ←
    if Look.group .brace tokens then
      let (fields, trailing) ← g.namedFields
      pure (.named fields trailing)
    else if Look.group .paren tokens then
      let (slots, trailing) ← g.slots
      pure (.positional slots trailing)
    else pure .unit
  return ⟨attrs, name, fields, ← g.valueBehindEquals⟩

/-- Reads an enum. -/
def enumItem (attrs : List Attribute) : Reader Enum := do
  let head ← g.typeHead attrs "enum"
  let clause ← g.whereClause?
  let ((variants, trailing), _, _) ← within .brace (commaList g.variant)
  return ⟨withClause head clause, variants, trailing⟩

/-- Reads a union. -/
def unionItem (attrs : List Attribute) : Reader Union := do
  let head ← g.typeHead attrs "union"
  let clause ← g.whereClause?
  let (fields, trailing) ← g.namedFields
  return ⟨withClause head clause, fields, trailing⟩

/-! Traits and impls. -/

/-- Reads the tokens of one member of a trait. -/
def traitMember : Reader (List Token) := do
  let attrs ← g.outerAttrTokens
  let start ← rest
  let _ ← visibility
  let _ ← word? "default"
  let tokens ← rest
  let plain := start.length == tokens.length
  let keep (written : List Token) : Reader (List Token) := do
    -- A member with a visibility is kept as written.
    if plain then return attrs ++ written else return attrs ++ tokensBetween start (← rest)
  if seesSignature tokens then
    let (signature, _) ← g.signature
    if ← sees (Look.symbol ";") then keep (signature ++ (← symbol ";"))
    else keep (signature ++ [← g.block])
  else if Look.word "const" tokens then keep (← g.constant).1
  else if Look.word "type" tokens then keep (← g.aliasBody .afterValue).1
  else if seesInvocation tokens && plain then keep (← invocationBody)
  else failExpecting ["`fn`", "`const`", "`type`", "identifier", "`self`", "`super`", "`crate`", "`::`"]

/-- Reads a trait or the short name of one behind its visibility. -/
def traitBody : Reader (List Token) := do
  let safety ← word? "unsafe"
  let auto_ ← word? "auto"
  let trait_ ← word "trait"
  let name ← name
  let generics ← g.generics
  let head := safety ++ auto_ ++ [trait_, name.token] ++ generics.declared
  -- The short form ends with a semicolon and has no members.
  if ← sees (Look.symbol "=") then
    let equals ← symbol "="
    let stop := fun tokens => Look.word "where" tokens || seesStop [";"] tokens
    let bounds ← g.boundsUntil stop
    let clause ← g.whereTokens
    return head ++ equals ++ bounds ++ clause ++ (← symbol ";")
  else
    let bounds ← if ← sees (Look.symbol ":") then
        let _ ← symbol ":"
        let stop := fun tokens => Look.word "where" tokens || Look.group .brace tokens
        pure (behindColon (← g.boundsUntil stop))
      else pure []
    let clause ← g.whereTokens
    let body ← grouped .brace do
      let attrs ← attrTokens (← g.ownerAttrs)
      let members ← many (!·.isEmpty) g.traitMember
      return attrs ++ members.flatten
    return head ++ bounds ++ clause ++ [body]

/-- What a reader of impl members names when nothing fits. -/
def implMemberStarts : List String :=
  ["`default`", "`fn`", "`const`", "`type`", "identifier", "`self`", "`super`", "`crate`", "`::`"]

/-- Reads a member of an impl. -/
def implMember : Reader Member := do
  let start ← rest
  let attrs ← g.outerAttrTokens
  let visibility ← visibility
  -- The word is a modifier unless it is the name of a macro.
  let default ← if (← sees (Look.word "default")) &&
      !(← sees fun tokens => Look.symbol "!" (tokens.drop 1)) then pure [← word "default"]
    else pure []
  let head := attrs ++ visibility ++ default
  let tokens ← rest
  if seesSignature tokens then
    let (signature, params) ← g.signature
    -- A function without a body belongs to no impl and is kept as written.
    if ← sees (Look.symbol ";") then
      let _ ← symbol ";"
      return ⟨tokensBetween start (← rest), none⟩
    else return ⟨head ++ signature ++ [← g.block], some params⟩
  else if Look.word "const" tokens then
    let (written, plain) ← g.constant
    let kept := tokensBetween start (← rest)
    return ⟨if plain then head ++ written else kept, none⟩
  else if Look.word "type" tokens then
    let (written, plain) ← g.aliasBody .afterValue
    -- A form with more than a plain alias or constant has is kept as written.
    let kept := tokensBetween start (← rest)
    return ⟨if plain then head ++ written else kept, none⟩
  else if visibility.isEmpty && default.isEmpty && seesInvocation tokens then
    return ⟨head ++ (← invocationBody), none⟩
  else failExpecting implMemberStarts

/-- Whether angle brackets after the keyword of an impl hold its parameters, not a projection. -/
def seesImplParams (tokens : List Token) : Bool :=
  let next := tokens.drop 1
  let afterNext := next.drop 1
  Look.symbol "<" tokens &&
    (Look.symbol ">" next || Look.symbol "#" next || Look.word "const" next ||
      ((Look.lifetime next || Look.name next) &&
        ((Look.symbol ":" afterNext && !Look.symbol "::" afterNext) ||
          [",", ">", "="].any (Look.symbol · afterNext))))

/-- Reads an impl; a form that is not plain is kept as written. -/
def implItem (start : List Token) (attrs : List Attribute) : Reader Item := do
  let visible ← visibility
  let default ← word? "default"
  let safety ← word? "unsafe"
  let impl_ ← word "impl"
  let generics ← if seesImplParams (← rest) then g.generics else pure .empty
  let const_ ← if ← sees (Look.word "const") then pure [← word "const"] else pure []
  let polarity ← rest
  -- An exclamation mark before a brace would be the never type.
  let negative ← if ← sees fun tokens =>
      Look.symbol "!" tokens && !Look.group .brace (tokens.drop 1) then symbol "!" else pure []
  let first ← g.ty true
  let isFor ← sees (Look.word "for")
  -- A trait is a path that stands before the word, and anything else is kept as written.
  let trait? : Option ImplTrait := match first with
    | .path path => if isFor then some ⟨!negative.isEmpty, path⟩ else none
    | _ => none
  let target ←
    if isFor then
      let _ ← word "for"
      g.ty true
    else if negative.isEmpty then pure first
    -- Without the word, the mark belongs to the type.
    else pure (.verbatim (tokensBetween polarity (← rest)))
  let clause ← g.whereTokens
  let ((inner, members), _, _) ← within .brace do
    let inner ← g.ownerAttrs
    return (inner, ← many (!·.isEmpty) g.implMember)
  if !visible.isEmpty || !const_.isEmpty || (isFor && trait?.isNone) then
    return .other .other (tokensBetween start (← rest))
  else
    let head := default ++ safety ++ [impl_] ++ generics.declared
    return .impl ⟨attrs ++ inner, head, trait?, target, clause, members⟩

/-! Modules and everything else. -/

/-- Reads a module. -/
def modItem (attrs : List Attribute) : Reader Module := do
  let visibility ← visibility
  let safety ← word? "unsafe"
  let mod_ ← word "mod"
  -- The word was not always reserved, and may name a module.
  let name ← if ← sees (Look.word "try") then anyName else name
  let head := visibility ++ safety ++ [mod_]
  if ← sees (Look.symbol ";") then
    let _ ← symbol ";"
    return ⟨attrs, head, name, none⟩
  else
    let ((inner, items), _, _) ← within .brace do
      let inner ← g.ownerAttrs
      return (inner, ← many (!·.isEmpty) g.item)
    return ⟨attrs ++ inner, head, name, some items⟩

/-- Reads a declaration of something that lies elsewhere. -/
def foreignMember : Reader (List Token) := do
  let start ← rest
  let attrs ← g.outerAttrTokens
  let visibility ← visibility
  let tokens ← rest
  let head := attrs ++ visibility
  let safe := Look.word "safe" tokens
  let behind := if safe then tokens.drop 1 else tokens
  if seesSignature behind then
    -- The word in front is passed over, and the signature is read behind it.
    setRest behind
    let (signature, _) ← g.signature
    if ← sees (Look.group .brace) then
      let _ ← g.block
      return tokensBetween start (← rest)
    else
      let semi ← symbol ";"
      if safe then return tokensBetween start (← rest) else return head ++ signature ++ semi
  else if Look.word "static" tokens then return head ++ (← g.staticBody).1
  else if (safe || Look.word "unsafe" tokens) && Look.word "static" (tokens.drop 1) then
    setRest (tokens.drop 1)
    let _ ← g.staticBody
    return tokensBetween start (← rest)
  else if Look.word "type" tokens then return head ++ (← g.aliasBody .either).1
  else return head ++ (← invocationBody)

/-- Reads a block of declarations that lie elsewhere. -/
def foreignBody : Reader (List Token) := do
  let words ← callingWords
  let body ← grouped .brace do
    let attrs ← attrTokens (← g.ownerAttrs)
    let members ← many (!·.isEmpty) g.foreignMember
    return attrs ++ members.flatten
  return words ++ [body]

/-- Reads a declaration that is kept as tokens; one with a form of its own is kept as written. -/
def plainItem (start attrs : List Token) (kind : ItemKind) (body : Reader (List Token × Bool)) :
    Reader Item := do
  let visibility ← visibility
  let (written, plain) ← body
  if plain then return .other kind (attrs ++ visibility ++ written)
  else return .other .other (tokensBetween start (← rest))

/-- Reads a declaration: the layer over the readers it refers to. -/
def readItem : Reader Item := do
  let start ← rest
  let attrs ← g.outerAttrs
  let written ← attrTokens attrs
  -- The visibility is looked past to find the keyword.
  let tokens := match ← ahead visibility with
    | some (_, after) => after
    | none => []
  let visible := tokens.length != (← rest).length
  let next := tokens.drop 1
  let always (body : Reader (List Token)) : Reader (List Token × Bool) := return (← body, true)
  if seesSignature tokens then g.functionItem start written
  else if Look.word "extern" tokens then
    if Look.word "crate" next then plainItem start written .use (always externCrateBody)
    else plainItem start written .other (always g.foreignBody)
  else if Look.word "use" tokens then plainItem start written .use (always g.useBody)
  else if Look.word "static" tokens then plainItem start written .constant g.staticBody
  else if Look.word "const" tokens then plainItem start written .constant g.constant
  else if Look.word "mod" tokens || (Look.word "unsafe" tokens && Look.word "mod" next) then
    return .mod (← g.modItem attrs)
  else if Look.word "type" tokens then plainItem start written .typeAlias (g.aliasBody .beforeValue)
  else if Look.word "struct" tokens then return .struct (← g.structItem attrs)
  else if Look.word "enum" tokens then return .enum (← g.enumItem attrs)
  else if Look.word "union" tokens && Look.name next then return .union (← g.unionItem attrs)
  else if Look.word "impl" tokens || (Look.word "unsafe" tokens && Look.word "impl" next) ||
      (Look.word "default" tokens && !Look.symbol "!" next) then g.implItem start attrs
  else if Look.word "trait" tokens || (Look.word "auto" tokens && Look.word "trait" next) ||
      (Look.word "unsafe" tokens && (Look.word "trait" next || Look.word "auto" next)) then
    plainItem start written .trait (always g.traitBody)
  else if Look.word "unsafe" tokens && Look.word "extern" next then
    plainItem start written .other (always g.foreignBody)
  else if Look.word "macro" tokens then
    plainItem start written .other do
      let _ ← word "macro"
      let _ ← name
      if ← sees (Look.group .paren) then
        let _ ← anyGroup
      return ([← grouped .brace (do let all ← rest; setRest []; return all)], false)
  else if !visible && seesInvocation tokens then
    return .other .invocation (written ++ (← invocationBody))
  else failExpecting itemStarts

end KeyedCoding.Grammar
