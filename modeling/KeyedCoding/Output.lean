import KeyedCoding.Transform.Basic

/-! The output of an expansion: its declarations with their findings, or the error with the cleaned declaration. -/

namespace KeyedCoding

/-- The names of the attributes that hold options for the synthesis. -/
def Attribute.optionNames : List String := [Attribute.codableName, Attribute.secureName]

namespace FieldList

/-- Fields without the options that they have for the synthesis. -/
def withoutOptions : FieldList → FieldList
  | named fields trailing => named (fields.map (Field.strip Attribute.optionNames)) trailing
  | positional slots trailing =>
    positional
      -- A positional field has options in its attributes as well.
      (slots.map fun slot =>
        { slot with attributes := Attribute.strip Attribute.optionNames slot.attributes })
      trailing
  | unit => unit

end FieldList

namespace Item

mutual

/-- A declaration without the options that fields have for the synthesis, in structs at every depth of modules. -/
def withoutOptions : Item → Item
  | .struct decl => .struct { decl with fields := decl.fields.withoutOptions }
  | .mod ⟨attributes, head, name, body⟩ =>
    .mod ⟨attributes, head, name, match body with
      | some items => some (withoutOptionsAll items)
      | none => none⟩
  | item => item

/-- Declarations without the options that fields have for the synthesis. -/
def withoutOptionsAll : List Item → List Item
  | [] => []
  | item :: rest => withoutOptions item :: withoutOptionsAll rest

end

end Item

namespace Output

/-- The tokens that fail a compilation with a message. -/
def failing (message : String) : List Token :=
  (Path.absolute ["core", "compile_error"]).tokens ++ Token.symbol "!" ++
    [Token.braces [.literal (Text.Quoted.literal message) .origin]]

/-- The name that a warning is reported at. -/
def warningName (diagnostic : Diagnostic) : String :=
  String.ofList (diagnostic.name.toList.map fun c => if c = '-' then '_' else c)

/-- Whether a text can be a name. -/
def isName (text : String) : Bool :=
  match (plainSpelling text).toList with
  | [] => false
  | c :: rest =>
    Text.isNameStart c && rest.all Text.isNameContinue &&
      (plainSpelling text == text ||
        !(["_", "super", "self", "Self", "crate"].contains (plainSpelling text)))

/-- An attribute as tokens. -/
def attributeTokens (name : String) (body : List Token) : List Token :=
  Token.symbol "#" ++ [Token.brackets [Token.word name, Token.parens body]]

/-- The tokens that warn with a note: a deprecated constant is used. -/
def warning (note name : String) : List Token :=
  -- The constant is of the unit type, so nothing of it is left in a program.
  let unit := Token.parens []
  [Token.word "const", Token.word "_"] ++ Token.symbol ":" ++ [unit] ++ Token.symbol "=" ++
    [Token.braces
      (attributeTokens "deprecated" ([Token.word "note"] ++ Token.symbol "=" ++
          [.literal (Text.Quoted.literal note) .origin]) ++
       attributeTokens "allow" [Token.word "non_upper_case_globals"] ++
       [Token.word "const", Token.word name] ++ Token.symbol ":" ++ [unit] ++ Token.symbol "=" ++
       [unit] ++ Token.symbol ";" ++ [Token.word "let", Token.word "_"] ++ Token.symbol "=" ++
       [Token.word name] ++ Token.symbol ";")] ++
    Token.symbol ";"

/-- The tokens that report a finding. -/
def ofDiagnostic (diagnostic : Diagnostic) : Synthesis (List Token) :=
  match diagnostic.severity with
  | .error => .ok (failing diagnostic.note)
  | .warning =>
    let name := warningName diagnostic
    if isName name then .ok (warning diagnostic.note name) else .error .unspliceable
  | .info => .ok []

/-- The declarations of an expansion and the reports of its findings. -/
def ofExpansion (expansion : Expansion) : Synthesis (List Token) := do
  let reports ← expansion.diagnostics.mapM ofDiagnostic
  return expansion.items.flatMap Item.tokens ++ reports.flatten

/-- The report of an error, and the declaration without options. -/
def ofFailure (error : SynthesisError) (item : Item) : List Token :=
  failing error.message ++ item.withoutOptions.tokens

/-- The report of an error in place of an expression. -/
def ofExpressionFailure (error : SynthesisError) : List Token := failing error.message

/-- Whether an error can be reported in place of the result; faulty settings have no such place. -/
def isReported : SynthesisError → Bool
  | .config _ => false
  | .unspliceable => false
  | _ => true

/-- The output of a result, in which a reported error is replaced by its report. -/
def settle (report : SynthesisError → List Token) (result : Synthesis (List Token)) :
    Synthesis (List Token) :=
  match result with
  | .ok tokens => .ok tokens
  | .error error => if isReported error then .ok (report error) else .error error

/-- The output of expanding a declaration. -/
def ofResult (item : Item) (result : Synthesis Expansion) : Synthesis (List Token) :=
  settle (ofFailure · item) (result.bind ofExpansion)

/-- The output of expanding an expression. -/
def ofExpressionResult (result : Synthesis Expr) : Synthesis (List Token) :=
  settle ofExpressionFailure (result.map Expr.tokens)

end Output

end KeyedCoding
