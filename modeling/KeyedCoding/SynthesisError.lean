import KeyedCoding.Token.Reader

/-! Why a synthesis fails, with the words for it. -/

namespace KeyedCoding

/-- What a declaration is that no code can be synthesized for. -/
inductive UnsupportedKind where
  | tupleStruct
  | unitStruct
  | enum
  | union
  | function
  | trait
  | impl
  | typeAlias
  | constant
  | use
  | invocation
  | other
  | moduleWithoutBody
  | moduleWithStructs (count : Nat)
  deriving DecidableEq, Repr

namespace UnsupportedKind

/-- What a declaration is, in words. -/
def description : UnsupportedKind → String
  | tupleStruct => "a tuple struct"
  | unitStruct => "a unit struct"
  | enum => "an enum"
  | union => "a union"
  | function => "a function"
  | trait => "a trait"
  | impl => "an impl block"
  | typeAlias => "a type alias"
  | constant => "a constant"
  | use => "an import"
  | invocation => "a macro invocation"
  | other => "an unsupported item"
  | moduleWithoutBody => "a module without an inline body"
  | moduleWithStructs count => "a module containing " ++ toString count ++ " structs"

end UnsupportedKind

/-- What is wrong with an attribute or an argument. -/
inductive AttributeFault where
  | malformed (message : String)
  | fieldTwice (field : String)
  | accessorWithDefault
  | keyNotText
  | entryWithList
  | crateNotText
  | noFieldName
  | fieldListedTwice (field : String)
  | keyClash (key first second : String)
  | policyNotTaken (transformer : String)
  | invalidPath (text : String) (reason : String)
  | noTextLiteral (expression : String)
  | malformedUrl (text : String) (reason : String)
  | unknownTransformer (name : String)
  | unknownExpression (name : String)
  deriving DecidableEq, Repr

namespace AttributeFault

/-- The words for a fault. -/
def message : AttributeFault → String
  | malformed message => message
  | fieldTwice field => "field `" ++ field ++ "` is declared more than once"
  | accessorWithDefault => "a secure-storage field is computed and cannot have a default"
  | keyNotText => "expected a string literal key"
  | entryWithList => "expected `field` or `field = \"key\"`"
  | crateNotText => "expected `crate = \"path\"`"
  | noFieldName => "expected a field name"
  | fieldListedTwice field => "field `" ++ field ++ "` is listed more than once"
  | keyClash key first second =>
    "serialization key `" ++ key ++ "` is used by both `" ++ first ++ "` and `" ++ second ++ "`"
  | policyNotTaken transformer => "`" ++ transformer ++ "` does not take a `policy` argument"
  | invalidPath text reason => "`" ++ text ++ "` is not a valid path: " ++ reason
  | noTextLiteral expression => "`" ++ expression ++ "!` requires a string literal"
  | malformedUrl text reason => "malformed URL `" ++ text ++ "`: " ++ reason
  | unknownTransformer name => "no transformer registered as `" ++ name ++ "`"
  | unknownExpression name => "no transformer registered as `" ++ name ++ "!`"

end AttributeFault

/-- Why a configuration cannot be used. -/
inductive ConfigError where
  | unreadable
  | malformed
  deriving DecidableEq, Repr

/-- Why a synthesis fails. -/
inductive SynthesisError where
  | unsupported (transformer : String) (kind : UnsupportedKind) (pos : Position)
  | conflictingMapping (typeName : String) (pos : Position)
  | invalidAttribute (fault : AttributeFault) (pos : Position)
  | unknownField (typeName field : String) (pos : Position)
  | config (error : ConfigError)
  | unspliceable
  deriving DecidableEq, Repr

namespace SynthesisError

/-- A fault in the tokens of an attribute. -/
def ofFault (fault : Fault) : SynthesisError := invalidAttribute (.malformed fault.message) fault.pos

/-- The words for an error. -/
def message : SynthesisError → String
  | unsupported transformer kind _ =>
    "`" ++ transformer ++ "` can only be applied to a struct with named fields, found " ++
      kind.description
  | conflictingMapping typeName _ => "coding keys already exist for `" ++ typeName ++ "`"
  | invalidAttribute fault _ => fault.message
  | unknownField typeName field _ =>
    "`" ++ typeName ++ "` has no field named `" ++ field ++ "`"
  | config .unreadable => "the configuration cannot be read"
  | config .malformed => "the configuration is malformed"
  | unspliceable => "a name or crate path does not fit the code to generate"

/-- Where an error lies. -/
def pos : SynthesisError → Position
  | unsupported _ _ pos => pos
  | conflictingMapping _ pos => pos
  | invalidAttribute _ pos => pos
  | unknownField _ _ pos => pos
  | config _ => .origin
  | unspliceable => .origin

/-- The code of an error. -/
def code : SynthesisError → String
  | unsupported .. => "codable_synth::unsupported_declaration"
  | conflictingMapping .. => "codable_synth::conflicting_mapping"
  | invalidAttribute .. => "codable_synth::invalid_attribute"
  | unknownField .. => "codable_synth::unknown_field"
  | config _ => "codable_synth::config"
  | unspliceable => "codable_synth::unspliceable"

/-- What to do about an error. -/
def help? : SynthesisError → Option String
  | unsupported .. =>
    some ("apply the attribute to a `struct` with named fields, or an inline `mod` containing " ++
      "exactly one")
  | conflictingMapping .. =>
    some ("remove the hand-written mapping or drop the attribute; " ++
      "synthesis never overwrites a mapping")
  | _ => none

end SynthesisError

/-- The result of a stage of the synthesis. -/
abbrev Synthesis (α : Type) := Except SynthesisError α

/-- A result that may fail with a fault in some tokens. -/
def Synthesis.ofReading {α : Type} (result : Except Fault α) : Synthesis α :=
  result.mapError SynthesisError.ofFault

end KeyedCoding
