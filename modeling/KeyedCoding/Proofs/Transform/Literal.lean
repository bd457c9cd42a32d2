import KeyedCoding.Proofs.Store.AccessorCode
import KeyedCoding.Proofs.Success
import KeyedCoding.Proofs.Text.Base64
import KeyedCoding.Proofs.Token.Reader
import KeyedCoding.Proofs.Token.TextLiteral
import KeyedCoding.Transform.Literal

/-!
Hidden literals: the expression that a string literal is expanded to gives the text of the literal
when it is evaluated, and what is no standard encoding of a text gives none.
-/

namespace KeyedCoding

/-- One string literal is read, and nothing else. -/
theorem Reader.run_text_eq_ok_iff {tokens : List Token} {literal : Token} :
    Reader.text.run tokens = .ok literal ↔ ∃ written pos, tokens = [.literal written pos] ∧
      Look.isText written = true ∧ literal = .literal written pos := by
  rw [Reader.run_eq_ok_iff]
  constructor
  · rintro ⟨noted, read⟩
    -- Nothing may be left behind the literal.
    obtain ⟨whole, written, pos, isText, rfl⟩ := Reader.text_eq_ok read
    cases whole
    exact ⟨written, pos, rfl, isText, rfl⟩
  · rintro ⟨written, pos, rfl, isText, rfl⟩
    refine ⟨[], Reader.bind_run_iff.mpr ⟨_, _, rfl, ?_⟩⟩
    dsimp only
    rw [if_pos isText]
    rfl

namespace Base64Encoded

open Text

/-- The value of an expression that is the runtime's decoding of one string literal. -/
def evaluate? (runtime : Path) (expr : Expr) : Option (Option String) :=
  match Token.after? (runtime.extend ["base64_decoded"]).tokens expr.tokens with
  | some [.group .paren [.literal written pos] _ _] =>
    if Look.isText written then some (Base64.decode? (Token.literal written pos).textValue)
    else none
  | _ => none

/--
Hiding a text and reading it back at run time are inverse.
-/
structure Inverse (context : Context) : Prop where
  /-- Exactly one string literal is expanded, if a call of the runtime can be read. -/
  expands : ∀ tokens, (∃ expr, expand tokens context = .ok expr) ↔
    context.runtime.opensExpression = true ∧
      ∃ written pos, tokens = [.literal written pos] ∧ Look.isText written = true
  /-- The literals of a source are written by the rules, so each of them denotes a text. -/
  denotes : ∀ source tokens expr, Token.ofSource source = .ok tokens →
    expand tokens context = .ok expr →
      ∃ written pos text, tokens = [.literal written pos] ∧ Quoted.Denotes written text
  /-- The expression gives the text that the literal denotes, if the runtime can be named in it. -/
  reveals : context.runtime.fitsExpression = true → ∀ written pos text expr,
    Quoted.Denotes written text → expand [.literal written pos] context = .ok expr →
      evaluate? context.runtime expr = some (some text)
  /-- A text is given by the standard encoding of its bytes, and by nothing else. -/
  decodes : ∀ encoded text, Base64.decode? encoded = some text ↔
    Base64.Written (Utf8.encode text) encoded.toList
  /-- Bytes that are no text give none. -/
  noText : ∀ encoded bytes, Base64.Written bytes encoded.toList →
    (∀ text, Utf8.encode text ≠ bytes) → Base64.decode? encoded = none
  /-- Neither do characters that are not in the alphabet. -/
  foreign : ∀ encoded, (∃ c ∈ encoded.toList, c ∉ Base64.alphabet ∧ c ≠ '=') →
    Base64.decode? encoded = none
  /-- Neither do groups with too many or too few signs, or with a set bit behind the last byte. -/
  unfilled : ∀ (encoded : String) (values : List Nat) (pad : Nat), (∀ value ∈ values, value < 64) →
    encoded.toList = values.map Base64.digit ++ List.replicate pad '=' →
      (3 ≤ pad ∨ (values.length + pad) % 4 ≠ 0 ∨
        true ∈ (values.flatMap (Base64.bits 6)).drop (6 * values.length - 2 * pad)) →
          Base64.decode? encoded = none

/-- A literal is expanded to the call that decodes it. -/
theorem expand_eq_ok_iff {tokens : List Token} {context : Context} {expr : Expr} :
    expand tokens context = .ok expr ↔ context.runtime.opensExpression = true ∧
      ∃ written pos, tokens = [.literal written pos] ∧ Look.isText written = true ∧
        expr = ⟨callTokens (.literal written pos) context.runtime, .other⟩ := by
  -- The tokens are one text, and the path of the runtime can open the call.
  rw [expand, bind_eq_ok_iff]
  simp only [literalOf, mapError_eq_ok_iff, Reader.run_text_eq_ok_iff, runtimeExpr]
  constructor
  · rintro ⟨literal, ⟨written, pos, rfl, isText, rfl⟩, fits⟩
    split at fits
    · rename_i named
      cases fits
      exact ⟨named, written, pos, rfl, isText, rfl⟩
    · cases fits
  · rintro ⟨named, written, pos, rfl, isText, rfl⟩
    exact ⟨_, ⟨written, pos, rfl, isText, rfl⟩, by rw [if_pos named]⟩

/-- The call that decodes a literal is evaluated to the text of the literal. -/
theorem evaluate?_callTokens (literal : Token) (runtime : Path) :
    evaluate? runtime ⟨callTokens literal runtime, .other⟩ = some (some literal.textValue) := by
  -- What stands in the parentheses denotes the encoding, and that is decoded.
  rw [evaluate?, callTokens, Token.after?_append]
  dsimp only [Token.parens]
  rw [if_pos (Look.isText_literal _), Token.textValue, Quoted.value?_literal, Option.getD_some,
    Base64.decode?_encode]

/-- Hiding a text and reading it back are inverse in every context. -/
theorem hides_inversely (context : Context) : Inverse context where
  expands tokens := by
    -- A literal is expanded exactly if it stands alone and the path can open the call.
    simp only [expand_eq_ok_iff]
    constructor
    · rintro ⟨expr, named, written, pos, same, isText, -⟩
      exact ⟨named, written, pos, same, isText⟩
    · rintro ⟨named, written, pos, same, isText⟩
      exact ⟨_, named, written, pos, same, isText, rfl⟩
  denotes source tokens expr lexed expanded := by
    -- The one token comes from a source, so it denotes a text.
    obtain ⟨-, written, pos, rfl, isText, -⟩ := expand_eq_ok_iff.mp expanded
    obtain ⟨text, denotes⟩ := Lexer.denotes_of_ofSource lexed (List.mem_singleton.mpr rfl) isText
    exact ⟨written, pos, text, rfl, denotes⟩
  reveals _ written pos text expr denotes expanded := by
    -- The call that is evaluated holds the literal as it was written.
    obtain ⟨-, _, _, same, -, rfl⟩ := expand_eq_ok_iff.mp expanded
    cases same
    rw [evaluate?_callTokens, Token.textValue, Quoted.value?_of_denotes denotes]
    rfl
  decodes encoded text := Base64.decode?_eq_some_iff
  noText encoded bytes written none := by
    -- The bytes are decoded, but they are no text.
    rw [Base64.decode?, Base64.decodeBytes?_eq_some_iff.mpr written, Option.bind_some,
      ← Option.not_isSome_iff_eq_none, Option.isSome_iff_exists]
    rintro ⟨text, read⟩
    exact none text (Utf8.encode_of_decode? read)
  foreign encoded other := by
    -- A character outside of the alphabet is none that an encoding has.
    rw [← Option.not_isSome_iff_eq_none, Option.isSome_iff_exists]
    rintro ⟨text, decoded⟩
    obtain ⟨c, inside, noDigit, noSign⟩ := other
    rcases (Base64.decode?_eq_some_iff.mp decoded).known c inside with digit | sign
    · exact noDigit digit
    · exact noSign sign
  unfilled encoded values pad small same faulty := by
    rw [← Option.not_isSome_iff_eq_none, Option.isSome_iff_exists]
    rintro ⟨text, decoded⟩
    -- What is decoded is in groups that are filled up, and behind the bytes there are only zeros.
    have written := Base64.decode?_eq_some_iff.mp decoded
    rw [same, Base64.written_groups_iff small] at written
    have lengths := written.length
    have filled := written.filled
    rcases faulty with many | odd | set
    · omega
    · omega
    · rw [written.zeros] at set
      cases List.eq_of_mem_replicate set

end Base64Encoded

end KeyedCoding
