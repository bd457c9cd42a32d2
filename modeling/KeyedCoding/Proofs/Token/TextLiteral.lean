import KeyedCoding.Proofs.Text.Denotation
import KeyedCoding.Proofs.Token.Lexer
import KeyedCoding.Token.Reader

/-!
String literals in a source: every token that is read as one denotes a text, so reading refuses all
escapes that stand for nothing.
-/

namespace KeyedCoding

namespace Look

/-- What is written for a text is a string literal. -/
theorem isText_literal (text : String) : Look.isText (Text.Quoted.literal text) = true := by
  -- It starts with a quote.
  simp [Look.isText, Text.Quoted.literal]

/-- Only the text of a string literal denotes a text. -/
theorem isText_of_value? {written text : String}
    (denotes : Text.Quoted.value? written = some text) :
    Look.isText written = true := by
  -- The first character decides both, in the same way.
  unfold Text.Quoted.value? at denotes
  split at denotes
  · rename_i opened
    simp [Look.isText, opened]
  · rename_i opened
    simp [Look.isText, opened]
  · cases denotes

end Look

namespace Lexeme

open Text Text.Quoted

/-- What has been read of a piece of a plain literal that is not complete yet. -/
inductive Pending : QuoteState → List Char → Prop
  | plain : Pending .plain []
  | carriage : Pending .carriage ['\r']
  | escape : Pending .escape ['\\']
  | hexFirst : Pending .hexFirst ['\\', 'x']
  | hexSecond {c : Char} {high : Nat} (known : hexValue? c = some high) (small : high < 8) :
      Pending (.hexSecond high) ['\\', 'x', c]
  | codeOpen : Pending .codeOpen ['\\', 'u']
  | code {count number : Nat} {digits : List Char} (made : Digits digits number) :
      Pending (.code count number) ('\\' :: 'u' :: '\x7b' :: digits)
  | lineEnd {lineEnd more : List Char} (ends : lineEnd = ['\n'] ∨ lineEnd = ['\r', '\n'])
      (blank : ∀ c ∈ more, c ∈ blanks) : Pending .lineEnd ('\\' :: (lineEnd ++ more))
  | lineCarriage {front : List Char} (next : Pending .lineEnd (front ++ ['\r', '\n'])) :
      Pending .lineCarriage (front ++ ['\r'])

variable {state next : QuoteState} {front cs rest : List Char} {c : Char}

/-- What has been read before a character is still pending behind it, or completed by it. -/
def Pending.Continues (next : QuoteState) (front : List Char) : Prop :=
  Pending next front ∨ next = .plain ∧ ∀ written text, Spells written text →
    ∃ whole, Spells (front ++ written) whole

/-- A piece is completed by a character if it spells something with it. -/
theorem Pending.Continues.complete {c : Char}
    (spells : ∀ written text, Spells written text → Spells (front ++ written) (c :: text)) :
    Continues .plain front :=
  .inr ⟨rfl, fun written text rest => ⟨c :: text, spells written text rest⟩⟩

/-- The character behind a backslash is a short escape or opens a long one. -/
theorem Pending.continues_escape (step : stepEscape .text c = some next) :
    Continues next ['\\', c] := by
  have short {c d : Char} (known : (c, d) ∈ marks) : Continues .plain ['\\', c] :=
    .complete fun written text rest => Spells.short known rest
  -- The escapes are tried in the order of the reader.
  rw [stepEscape] at step
  simp only [reduceCtorEq, if_false] at step
  split at step
  · -- Two hexadecimal digits.
    subst c
    cases step
    exact .inl .hexFirst
  · split at step
    · -- A code point in braces.
      subst c
      cases step
      exact .inl .codeOpen
    · split at step
      · -- A null character, which the other marks do not include.
        subst c
        cases step
        exact short (d := '\x00') (by decide)
      · split at step
        · rename_i known
          cases step
          simp only [List.contains_eq_mem, List.mem_cons, List.not_mem_nil, or_false,
            decide_eq_true_eq] at known
          rcases known with rfl | rfl | rfl | rfl | rfl | rfl
          · exact short (d := '\n') (by decide)
          · exact short (d := '\r') (by decide)
          · exact short (d := '\t') (by decide)
          · exact short (d := '\\') (by decide)
          · exact short (d := '\'') (by decide)
          · exact short (d := '"') (by decide)
        · split at step
          · -- An escaped line end, with or without a carriage return, is only pending.
            subst c
            cases step
            exact .inl (@Pending.lineEnd ['\n'] [] (.inl rfl) (by simp))
          · split at step
            · subst c
              cases step
              exact .inl (@Pending.lineCarriage ['\\']
                (@Pending.lineEnd ['\r', '\n'] [] (.inr rfl) (by simp)))
            · cases step

/-- A digit of a code point, a gap or the closing brace continues the digits before it. -/
theorem Pending.continues_code {count number : Nat} {digits : List Char}
    (made : Digits digits number) (step : QuoteState.step .text (.code count number) c = some next) :
    Continues next ('\\' :: 'u' :: '\x7b' :: (digits ++ [c])) := by
  rw [QuoteState.step] at step
  split at step
  · -- An underscore stands between digits.
    subst c
    split at step
    · cases step
      exact .inl (.code made.gap)
    · cases step
  · split at step
    · -- The closing brace ends the code point.
      subst c
      split at step
      · -- The number is that of a character.
        rename_i valid
        cases step
        have scalar : (Char.ofNat number).toNat = number := by
          have range := valid.2.1
          simp only [isScalar, Bool.or_eq_true, Bool.and_eq_true, decide_eq_true_eq] at range
          have known : number.isValidChar := by
            rw [Nat.isValidChar]
            omega
          rw [Char.ofNat, dif_pos known]
          rfl
        refine .complete (c := Char.ofNat number) fun written text rest => ?_
        have spelled := Spells.codePoint (scalar.symm ▸ made) rest
        simpa only [List.append_assoc, List.cons_append, List.nil_append] using spelled
      · cases step
    · -- Any other character has to be a digit.
      obtain ⟨value, known, step⟩ := Option.bind_eq_some_iff.mp step
      split at step
      · cases step
        exact .inl (.code (made.digit known))
      · cases step

/-- A character continues what is pending, unless it closes the literal or follows blanks. -/
theorem Pending.continues (pending : Pending state front) (inside : state ≠ .lineEnd)
    (quote : ¬(c = '"' ∧ state = .plain)) (step : state.step .text c = some next) :
    Continues next (front ++ [c]) := by
  -- One case for each state; what is pending tells which characters may come next.
  cases pending with
  | plain =>
    rw [QuoteState.step, stepPlain] at step
    split at step
    · subst c
      cases step
      exact .inl .escape
    · rename_i escape
      split at step
      · subst c
        cases step
        exact .inl .carriage
      · -- Any other character that the kind of literal admits denotes itself.
        rename_i carriage
        rw [QuoteKind.admits, if_pos rfl] at step
        cases step
        exact .complete fun written text rest =>
          Spells.itself (fun same => quote ⟨same, rfl⟩) escape carriage rest
  | carriage =>
    -- Both characters together are one line end.
    rw [QuoteState.step] at step
    split at step
    · subst c
      cases step
      exact .complete fun written text rest => Spells.lineEnd rest
    · cases step
  | escape => exact continues_escape step
  | hexFirst =>
    -- The first digit of a code must be one of an ASCII character.
    obtain ⟨high, known, step⟩ := Option.bind_eq_some_iff.mp step
    split at step
    · cases step
    · rename_i small
      cases step
      exact .inl (.hexSecond known (by simpa using small))
  | hexSecond first small =>
    -- The second digit completes the code.
    obtain ⟨low, second, step⟩ := Option.bind_eq_some_iff.mp step
    simp only [reduceCtorEq, false_and, if_false, Option.some.injEq] at step
    subst next
    exact .complete fun written text rest => Spells.ascii first small second rest
  | codeOpen =>
    -- The digits of a code point stand in braces.
    rw [QuoteState.step] at step
    split at step
    · subst c
      cases step
      exact .inl (.code .none)
    · cases step
  | code made => exact continues_code made step
  | lineEnd => exact absurd rfl inside
  | lineCarriage later =>
    -- Only a line feed can follow a carriage return, and then blanks may go on.
    rw [QuoteState.step] at step
    split at step
    · subst c
      cases step
      refine .inl ?_
      rwa [List.append_assoc]
    · cases step

/-- Behind an escaped line end, what is no blank is read as in plain text. -/
theorem quotedEnd?_lineEnd (other : c ∉ blanks) :
    quotedEnd? .text .lineEnd (c :: cs) = quotedEnd? .text .plain (c :: cs) := by
  -- Behind a line end only blanks are skipped, and any other character goes on as usual.
  simp only [blanks, List.mem_cons, List.not_mem_nil, or_false, not_or] at other
  obtain ⟨blank, tab, line, carriage⟩ := other
  simp [quotedEnd?, QuoteState.step, blank, tab, line, carriage]

/-- A blank behind an escaped line end is pending, too. -/
theorem quotedEnd?_blank {lineEnd more : List Char} (ends : lineEnd = ['\n'] ∨ lineEnd = ['\r', '\n'])
    (blank : ∀ c ∈ more, c ∈ blanks) (here : c ∈ blanks)
    (closes : quotedEnd? .text .lineEnd (c :: cs) = some rest) :
    ∃ next, Pending next ('\\' :: (lineEnd ++ (more ++ [c]))) ∧
      quotedEnd? .text next cs = some rest := by
  -- The blanks may be continued by further ones, whatever they are.
  have longer (front : List Char) (blanks : ∀ c ∈ front, c ∈ Quoted.blanks) :
      Pending .lineEnd ('\\' :: (lineEnd ++ (more ++ front))) := by
    refine .lineEnd ends ?_
    rw [List.forall_mem_append]
    exact ⟨blank, blanks⟩
  -- A carriage return has to be followed by a line feed, and the other blanks stand alone.
  by_cases carriage : c = '\r'
  · subst c
    refine ⟨.lineCarriage, ?_, by simpa [quotedEnd?, QuoteState.step] using closes⟩
    have later := longer ['\r', '\n'] (by simp [blanks])
    have pending := @Pending.lineCarriage ('\\' :: (lineEnd ++ more))
      (by simpa only [List.cons_append, List.append_assoc] using later)
    simpa only [List.cons_append, List.append_assoc] using pending
  · have skipped : c = ' ' ∨ c = '\t' ∨ c = '\n' := by
      simp only [blanks, List.mem_cons, List.not_mem_nil, or_false] at here
      tauto
    refine ⟨.lineEnd, longer [c] (by simpa using here), ?_⟩
    rcases skipped with rfl | rfl | rfl <;> simpa [quotedEnd?, QuoteState.step] using closes

/-- A plain literal that is closed spells some characters, from any pending piece on. -/
theorem Pending.spells (pending : Pending state front)
    (closes : quotedEnd? .text state cs = some rest) :
    ∃ written text, cs = written ++ '"' :: rest ∧ Spells (front ++ written) text := by
  -- Each character but those of a code continues what is pending, so the induction is on the rest.
  induction cs generalizing state front with
  | nil => cases closes
  | cons c cs ih =>
    -- Anywhere but behind an escaped line end, the next character closes the literal or continues.
    have onward {state : QuoteState} {front : List Char} (pending : Pending state front)
        (inside : state ≠ .lineEnd) (closes : quotedEnd? .text state (c :: cs) = some rest) :
        ∃ written text, c :: cs = written ++ '"' :: rest ∧ Spells (front ++ written) text := by
      rw [quotedEnd?] at closes
      -- Only in the plain state a quote closes the literal.
      by_cases quote : c = '"' ∧ state = .plain
      · obtain ⟨rfl, rfl⟩ := quote
        rw [if_pos ⟨rfl, .inl rfl⟩] at closes
        cases closes
        cases pending
        exact ⟨[], [], rfl, .nil⟩
      · rw [if_neg fun closed => quote ⟨closed.1, closed.2.resolve_right inside⟩] at closes
        split at closes
        · rename_i next step
          rcases pending.continues inside quote step with later | ⟨rfl, complete⟩
          · obtain ⟨written, text, rfl, spells⟩ := ih later closes
            exact ⟨c :: written, text, rfl, by rwa [List.append_cons]⟩
          · obtain ⟨written, text, rfl, spells⟩ := ih .plain closes
            obtain ⟨whole, all⟩ := complete written text spells
            exact ⟨c :: written, whole, rfl, by rwa [List.append_cons]⟩
        · cases closes
    by_cases inside : state = .lineEnd
    · subst inside
      cases pending with
      | @lineEnd lineEnd more ends blank =>
        by_cases here : c ∈ blanks
        · -- A further blank is swallowed, too.
          obtain ⟨next, later, continued⟩ := quotedEnd?_blank ends blank here closes
          obtain ⟨written, text, rfl, spells⟩ := ih later continued
          exact ⟨c :: written, text, rfl, by simpa using spells⟩
        · -- Otherwise the piece is complete, and reading goes on as in plain text.
          rw [quotedEnd?_lineEnd here] at closes
          obtain ⟨written, text, same, spells⟩ := onward .plain (by simp) closes
          refine ⟨written, text, same, ?_⟩
          rw [List.cons_append, List.append_assoc]
          refine Spells.swallowed ends blank ?_ spells
          cases written with
          | nil => simp
          | cons first others =>
            cases same
            intro c first
            cases first
            exact here
    · exact onward pending inside closes

/-- A plain literal is what a source has up to the closing quote. -/
theorem spells_of_quotedEnd? (closes : quotedEnd? .text .plain cs = some rest) :
    ∃ written text, cs = written ++ '"' :: rest ∧ Spells written text :=
  Pending.plain.spells closes

/-- A raw literal is closed by the first quote that its hashes follow. -/
theorem body_of_rawBodyEnd? {hashes : List Char} {afterReturn : Bool}
    (closes : rawBodyEnd? .text hashes afterReturn cs = some rest) :
    ∃ body, cs = body ++ '"' :: (hashes ++ rest) ∧ ¬('"' :: hashes) <:+: body := by
  induction cs generalizing afterReturn with
  | nil => cases closes
  | cons c cs ih =>
    -- A character that does not close the literal belongs to its body.
    have onward {afterReturn : Bool} (open_ : ¬(c = '"' ∧ hashes.isPrefixOf cs = true))
        (closes : rawBodyEnd? .text hashes afterReturn cs = some rest) :
        -- Behind a carriage return only a line feed can stand.
        ∃ body, c :: cs = body ++ '"' :: (hashes ++ rest) ∧ ¬('"' :: hashes) <:+: body := by
      obtain ⟨body, rfl, unclosed⟩ := ih closes
      refine ⟨c :: body, rfl, fun closed => ?_⟩
      rcases List.infix_cons_iff.mp closed with here | later
      · -- A quote with all the hashes behind it closes the literal.
        obtain ⟨rfl, follows⟩ := List.cons_prefix_cons.mp here
        exact open_ ⟨rfl, List.isPrefixOf_iff_prefix.mpr (follows.trans (List.prefix_append _ _))⟩
      · exact unclosed later
    rw [rawBodyEnd?] at closes
    split at closes
    · split at closes
      · subst c
        exact onward (by simp) closes
      · cases closes
    · split at closes
      · rename_i closed
        obtain ⟨rfl, follows⟩ := closed
        cases closes
        obtain ⟨behind, rfl⟩ := List.isPrefixOf_iff_prefix.mp follows
        exact ⟨[], by simp, by simp⟩
      · rename_i open_
        split at closes
        · exact onward open_ closes
        · rw [QuoteKind.admits, if_pos rfl] at closes
          exact onward open_ closes

/-- The suffix that is skipped behind a literal has no quote. -/
theorem exists_suffix (cs : List Char) : ∃ suffix, cs = suffix ++ skipSuffix cs ∧ '"' ∉ suffix := by
  cases cs with
  | nil => exact ⟨[], rfl, by simp⟩
  | cons c rest =>
    by_cases starts : isNameStart c = true
    · refine ⟨c :: rest.takeWhile isNameContinue, ?_, ?_⟩
      · simp [skipSuffix, plainName?, starts]
      · -- Neither the first letter nor one that continues a name is a quote.
        intro inside
        rcases List.mem_cons.mp inside with rfl | inside
        · exact absurd starts (by decide)
        · exact absurd (List.all_eq_true.mp List.all_takeWhile _ inside) (by decide)
    · exact ⟨[], by simp [skipSuffix, plainName?, starts], by simp⟩

/-- What is consumed is what stands before the rest. -/
theorem consumed_append (front rest : List Char) : consumed (front ++ rest) rest = front := by
  -- The length of what is consumed is that of the front.
  simp [consumed]

/-- A plain literal denotes a text. -/
theorem exists_denotes_of_quotedEnd? (closes : quotedEnd? .text .plain cs = some rest) :
    ∃ text, Denotes (String.ofList (consumed ('"' :: cs) (skipSuffix rest))) text := by
  -- What stands before the quote spells a text, and the suffix behind it belongs to the literal.
  obtain ⟨written, text, rfl, spells⟩ := spells_of_quotedEnd? closes
  obtain ⟨suffix, same, noQuote⟩ := exists_suffix rest
  have front := consumed_append ('"' :: (written ++ '"' :: suffix)) (skipSuffix rest)
  rw [List.cons_append, List.append_assoc, List.cons_append, ← same] at front
  rw [front]
  exact ⟨_, .plain spells noQuote⟩

/-- A raw literal denotes a text. -/
theorem exists_denotes_of_rawEnd? (closes : rawEnd? .text cs = some rest) :
    ∃ text, Denotes (String.ofList (consumed ('r' :: cs) (skipSuffix rest))) text := by
  rw [rawEnd?] at closes
  split at closes
  · rename_i inside opening
    split at closes
    · -- The hashes before the opening quote are those behind the closing one.
      obtain ⟨hashes, taken⟩ : ∃ hashes, cs.takeWhile (· = '#') = hashes := ⟨_, rfl⟩
      have signs : ∀ c ∈ hashes, c = '#' := by
        intro c inside
        rw [← taken] at inside
        simpa using List.all_eq_true.mp List.all_takeWhile c inside
      rw [taken] at closes
      obtain ⟨body, rfl, unclosed⟩ := body_of_rawBodyEnd? closes
      obtain ⟨suffix, same, noQuote⟩ := exists_suffix rest
      have whole : cs = hashes ++ '"' :: (body ++ '"' :: (hashes ++ (suffix ++ skipSuffix rest))) := by
        rw [← List.takeWhile_append_dropWhile (p := (· = '#')) (l := cs), taken, opening, ← same]
      have front := consumed_append ('r' :: (hashes ++ '"' :: (body ++ '"' :: (hashes ++ suffix))))
        (skipSuffix rest)
      simp only [List.cons_append, List.append_assoc] at front
      rw [whole, front]
      exact ⟨_, .raw signs unclosed noQuote⟩
    · cases closes
  · cases closes

/-- A literal that is read as a string denotes a text. -/
theorem denotes_of_literalEnd? (ends : literalEnd? cs = some rest)
    (isText : Look.isText (String.ofList (consumed cs rest)) = true) :
    ∃ text, Denotes (String.ofList (consumed cs rest)) text := by
  -- A character that is no digit starts no number.
  have ended {c : Char} {body : List Char} (other : c.isDigit = false)
      (ends : literalEnd? (c :: body) = some rest) : quoteEnd? (c :: body) = some rest := by
    rw [literalEnd?, numberEnd?_eq_none other] at ends
    cases quoted : quoteEnd? (c :: body) with
    | none =>
      rw [quoted] at ends
      cases ends
    | some behind => rwa [quoted] at ends
  cases cs with
  | nil => simp [consumed, Look.isText] at isText
  | cons c body =>
    -- The first character is consumed, and tells the two kinds of literals apart.
    rw [Look.isText, String.toList_ofList, consumed] at isText
    cases length : (c :: body).length - rest.length with
    | zero =>
      rw [length] at isText
      cases isText
    | succ n =>
      rw [length, List.take_succ_cons] at isText
      split at isText
      · rename_i same
        obtain rfl := (List.cons.inj same).1
        obtain ⟨behind, closes, rfl⟩ := Option.map_eq_some_iff.mp (ended (by decide) ends)
        exact exists_denotes_of_quotedEnd? closes
      · rename_i same
        obtain rfl := (List.cons.inj same).1
        obtain ⟨behind, closes, rfl⟩ := Option.map_eq_some_iff.mp (ended (by decide) ends)
        exact exists_denotes_of_rawEnd? closes
      · cases isText

end Lexeme

namespace Lexer

open Lexeme

/-- Every string literal of a source denotes a text. -/
theorem denotes_of_ofSource {source : String} {tokens : List Token} {written : String}
    {pos : Position} (lexed : Token.ofSource source = .ok tokens)
    (inside : .literal written pos ∈ tokens) (isText : Look.isText written = true) :
    ∃ text, Text.Quoted.Denotes written text := by
  -- Every literal has been read at its place, so its kind is known there.
  have single := single_of_ofSource lexed _ inside
  cases single with
  | literal ends => exact denotes_of_literalEnd? ends isText
  | unreadable => cases isText

end Lexer

end KeyedCoding
