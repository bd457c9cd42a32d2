import KeyedCoding.Text.Base64
import KeyedCoding.Transform.Basic
import KeyedCoding.Url.Check

/-! Transformers of string literals: one hides its text in base64, one accepts only URLs. -/

namespace KeyedCoding

/-- Reads the only string literal of an input. -/
def literalOf (transformer : String) (tokens : List Token) : Synthesis Token :=
  (Reader.text.run tokens).mapError fun _ =>
    .invalidAttribute (.noTextLiteral transformer) (Token.startOf tokens)

/-- An expression that starts with a path of the runtime. -/
def runtimeExpr (runtime : Path) (tokens : List Token) : Synthesis Expr :=
  if runtime.opensExpression then .ok ⟨tokens, .other⟩ else .error .unspliceable

namespace Base64Encoded

/-- The name of the transformer. -/
def name : String := "base64_encoded"

/-- What the transformer does, in words. -/
def description : String := "Embeds a string literal base64-encoded and decodes it at run time"

/-- The call that decodes a literal at run time. -/
def callTokens (literal : Token) (runtime : Path) : List Token :=
  (runtime.extend ["base64_decoded"]).tokens ++
    [Token.parens
      [.literal (Text.Quoted.literal (Text.Base64.encode literal.textValue)) literal.pos]]

/-- Expands a literal to the call that gives its text. -/
def expand (tokens : List Token) (context : Context) : Synthesis Expr := do
  let literal ← literalOf name tokens
  runtimeExpr context.runtime (callTokens literal context.runtime)

/-- The transformer. -/
def transformer : ExpressionTransformer := ⟨name, description, expand⟩

end Base64Encoded

namespace CheckedUrl

/-- The name of the transformer. -/
def name : String := "checked_url"

/-- What the transformer does, in words. -/
def description : String := "Parses a URL literal at compile time"

/-- A case of a result as a pattern, with its arrow. -/
def resultCase (case bound : String) : List Token :=
  (Path.absolute ["core", "result", "Result", case]).tokens ++
    [Token.parens [Token.word bound]] ++ Token.symbol "=>"

/-- The text of the failure that cannot happen. -/
def failureText : String := "URL checked at compile time failed to parse: \x7b\x7d"

/-- The failure that cannot happen. -/
def failureTokens : List Token :=
  (Path.absolute ["core", "panic"]).tokens ++ Token.symbol "!" ++
    [Token.parens ([.literal (Text.Quoted.literal failureText) .origin] ++ Token.symbol "," ++
      [Token.word "err"])]

/-- The expression that gives the URL of a literal. -/
def matchTokens (literal : Token) (runtime : Path) : List Token :=
  [Token.word "match"] ++ (runtime.extend ["__private", "Url", "parse"]).tokens ++
    [Token.parens [literal],
     Token.braces
      (resultCase "Ok" "url" ++ [Token.word "url"] ++ Token.symbol "," ++
        resultCase "Err" "err" ++ [Token.braces failureTokens])]

/-- Expands a literal that is a URL. -/
def expand (tokens : List Token) (context : Context) : Synthesis Expr := do
  let literal ← literalOf name tokens
  match Url.check literal.textValue with
  | .error fault =>
    .error (.invalidAttribute (.malformedUrl literal.textValue fault.message) literal.pos)
  | .ok () => runtimeExpr context.runtime (matchTokens literal context.runtime)

/-- The transformer. -/
def transformer : ExpressionTransformer := ⟨name, description, expand⟩

end CheckedUrl

end KeyedCoding
