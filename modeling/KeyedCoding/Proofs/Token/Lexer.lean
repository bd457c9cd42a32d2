import KeyedCoding.Token.Lexer
import KeyedCoding.Token.Printer
import KeyedCoding.Proofs.Success
import KeyedCoding.Proofs.Token.Lexeme

/-!
Laws of the lexer: name tokens are spelled as names, and written names and operators are read back.
-/

namespace KeyedCoding

open Lexeme

/-- A token that is spelled as a name if it is a name. -/
def Token.Named (token : Token) : Prop :=
  ∀ spelling pos, token = .name spelling pos → IsName spelling

namespace Lexer

variable {cs rest : List Char} {pos : Position} {stack : List OpenGroup} {read tokens : List Token}
    {token : Token}

/-- What a source has for a token: the spelling of a name, what is consumed as a literal, or a mark. -/
inductive Single : Token → Prop
  | name {spelling : String} {pos : Position} (named : IsName spelling) :
      Single (.name spelling pos)
  | literal {cs rest : List Char} {pos : Position} (ends : literalEnd? cs = some rest) :
      Single (.literal (String.ofList (consumed cs rest)) pos)
  | unreadable {pos : Position} : Single (.literal unreadableMark pos)
  | lifetime {spelling : String} {pos : Position} : Single (.lifetime spelling pos)
  | punct {c : Char} {joint : Bool} {pos : Position} : Single (.punct c joint pos)
  | group {delim : Delimiter} {body : List Token} {opened closed : Position} :
      Single (.group delim body opened closed)

/-- What starts with an operator character is punctuation or a lifetime. -/
theorem single_of_punct? (punct : punct? pos cs = some (token, rest)) : Single token := by
  rw [punct?.eq_def] at punct
  split at punct
  · cases punct
  · split at punct
    · cases punct
    · -- Behind an apostrophe stands a lifetime, or the apostrophe stands alone.
      obtain ⟨⟨_, after⟩, -, punct⟩ := Option.bind_eq_some_iff.mp punct
      obtain ⟨checked, -, punct⟩ := Option.bind_eq_some_iff.mp punct
      split at punct
      · cases punct
        exact .lifetime
      · cases punct
        exact .punct
    · cases punct
      exact .punct

/-- A single token is a literal, punctuation, or else a name. -/
theorem single_of_leaf? (leaf : leaf? pos cs = some (token, rest)) : Single token := by
  -- A literal is tried first, then an operator, and a name at last.
  rw [leaf?] at leaf
  split at leaf
  · rename_i ends
    cases leaf
    exact .literal ends
  · -- What is neither a literal nor punctuation is read as a name.
    cases punct : punct? pos cs with
    | some found =>
      rw [punct, Option.orElse_some] at leaf
      cases leaf
      exact single_of_punct? punct
    | none =>
      rw [punct, Option.orElse_none] at leaf
      obtain ⟨found, name, same⟩ := Option.map_eq_some_iff.mp leaf
      cases same
      exact .name (isName_of_name? name)

/-- All that is found are such tokens. -/
theorem single_of_found? (found : found? pos cs = some (.tokens tokens, rest)) :
    ∀ token ∈ tokens, Single token := by
  rw [found?.eq_def] at found
  split at found
  · split at found
    · cases found
    · -- A comment stands for an attribute, whose words are in brackets.
      cases found
      intro token inside
      simp only [docTokens, List.mem_append, List.mem_singleton] at inside
      rcases inside with (rfl | inside) | rfl
      · exact .punct
      · split at inside
        · rw [List.mem_singleton.mp inside]
          exact .punct
        · cases inside
      · exact .group
  · split at found
    · cases found
    · split at found
      · cases found
        -- The mark for what cannot be read stands for one token.
        intro token inside
        rw [List.mem_singleton.mp inside]
        exact .unreadable
      · split at found
        · cases found
        · split at found
          · cases found
          · -- A bracket is no token of its own, so a leaf is left.
            obtain ⟨single, leaf, same⟩ := Option.map_eq_some_iff.mp found
            cases same
            intro token inside
            rw [List.mem_singleton.mp inside]
            exact single_of_leaf? leaf

/-- Every step of reading a source adds such tokens. -/
theorem single_of_readFrom (known : ∀ token ∈ read, Single token)
    (before : ∀ group ∈ stack, ∀ token ∈ group.before, Single token)
    (lexed : readFrom cs pos stack read = .ok tokens) : ∀ token ∈ tokens, Single token := by
  -- Every step adds what it finds to the tokens of a group, or closes the group and is back in the
  -- outer one.
  fun_induction readFrom cs pos stack read with
  | case1 =>
    cases lexed
    exact fun token inside => known token (List.mem_reverse.mp inside)
  -- The token that is found joins those of the innermost group.
  | case4 _ _ stack read _ _ _ rest _ _ added found ih =>
    refine ih (fun token inside => ?_) before lexed
    rcases List.mem_append.mp inside with new | old
    · exact single_of_found? found token (List.mem_reverse.mp new)
    · exact known token old
  -- A group that opens puts the tokens read so far on the stack.
  | case5 _ _ stack read _ _ _ rest _ _ delim _ ih =>
    refine ih (by simp) (fun group inside => ?_) lexed
    rcases List.mem_cons.mp inside with rfl | outer
    · exact known
    · exact before group outer
  -- A group that closes is one more token of the outer one.
  | case7 _ _ read _ _ _ rest _ _ innermost outer _ ih =>
    rw [List.forall_mem_cons] at before
    refine ih (fun token inside => ?_) before.2 (by simpa using lexed)
    rcases List.mem_cons.mp inside with rfl | old
    · exact .group
    · exact before.1 token old
  | _ => cases lexed

/-- All tokens of a source are such tokens. -/
theorem single_of_ofSource {source : String} (lexed : Token.ofSource source = .ok tokens) :
    ∀ token ∈ tokens, Single token :=
  single_of_readFrom (by simp) (by simp) lexed

/-- All names of a source are spelled as names, wherever its tokens are moved. -/
theorem named_of_ofSource {source : String} (lexed : Token.ofSource source = .ok tokens)
    (place : Position) :
    (∀ token ∈ tokens, token.Named) ∧ ∀ token ∈ Token.moveAllTo place tokens, token.Named := by
  have named : ∀ token ∈ tokens, token.Named := by
    rintro token inside spelling pos rfl
    obtain ⟨spelled⟩ := single_of_ofSource lexed _ inside
    exact spelled
  refine ⟨named, ?_⟩
  clear lexed
  -- A token is moved as a whole, and the tokens inside a group are not looked at.
  induction tokens with
  | nil => simp [Token.moveAllTo]
  | cons first rest ih =>
    rw [List.forall_mem_cons] at named
    rw [Token.moveAllTo, List.forall_mem_cons]
    refine ⟨?_, ih named.2⟩
    -- Moving a token keeps its spelling.
    rintro spelling pos same
    cases first with
    | name found there =>
      cases same
      exact named.1 _ there rfl
    | _ => simp [Token.moveTo] at same

/-- A text is read as tokens, apart from their places. -/
def Lexes (cs : List Char) (tokens : List Token) : Prop :=
  ∀ pos read, ∃ found, readFrom cs pos [] read = .ok (read.reverse ++ found) ∧
    ∀ place, Token.moveAllTo place found = Token.moveAllTo place tokens

/-- An empty text has no tokens. -/
theorem Lexes.nil : Lexes [] [] := by
  intro pos read
  -- There is no trivia to skip before the end.
  have blank : skipTrivia [] = [] := by
    rw [skipTrivia]
    rfl
  refine ⟨[], ?_, fun _ => rfl⟩
  rw [readFrom]
  simp [blank]

/-- What neither separates tokens nor starts a comment is no trivia. -/
theorem skipTrivia_eq_self {c : Char} (noGap : Text.isSeparator c = false) (noSlash : c ≠ '/') :
    skipTrivia (c :: cs) = c :: cs := by
  -- Trivia is a separator or a comment, and a comment starts with a slash.
  have none : triviaEnd? (c :: cs) = none := by
    have slash : ('/' == c) = false := beq_false_of_ne (Ne.symm noSlash)
    simp [triviaEnd?, startsLineComment, startsBlockComment, startsWith, List.isPrefixOf,
      noGap, slash]
  rw [skipTrivia, none]

/-- A blank is trivia. -/
theorem skipTrivia_blank : skipTrivia (' ' :: cs) = skipTrivia cs := by
  -- The blank is one piece of trivia.
  have one : triviaEnd? (' ' :: cs) = some cs := by
    simp [triviaEnd?, startsLineComment, startsBlockComment, startsWith, List.isPrefixOf,
      show Text.isSeparator ' ' = true by decide]
  rw [skipTrivia, one]
  simp

/-- A token is read before those that follow it, and a blank before it is skipped. -/
theorem Lexes.cons {start : List Char} (behind : cs = start ∨ cs = ' ' :: start)
    (begins : skipTrivia start = start)
    (found : ∀ pos, ∃ single, found? pos start = some (.tokens [single], rest) ∧
      ∀ place, single.moveTo place = token.moveTo place)
    (shorter : rest.length < start.length) (others : Lexes rest tokens) :
    Lexes cs (token :: tokens) := by
  intro pos read
  -- Whether or not a blank stands before it, the token starts where the trivia ends.
  have trivia : skipTrivia cs = start := by
    obtain rfl | rfl := behind
    · exact begins
    · rw [skipTrivia_blank, begins]
  -- The lexer goes on only if it has consumed something.
  have consumes : rest.length < cs.length := by
    obtain rfl | rfl := behind
    · exact shorter
    · exact Nat.lt_succ_of_lt shorter
  have notEmpty : start.isEmpty = false := by
    rw [List.isEmpty_eq_false_iff, ← List.length_pos_iff]
    omega
  obtain ⟨single, finds, moved⟩ := found (pos.after (consumed cs start))
  -- The others are read from where the token ends, behind what is read by then.
  obtain ⟨more, lexed, same⟩ := others
    ((pos.after (consumed cs start)).after (consumed start rest)) (single :: read)
  refine ⟨single :: more, ?_, fun place => by rw [Token.moveAllTo, Token.moveAllTo, moved, same]⟩
  rw [readFrom]
  simp only [trivia, notEmpty, finds, consumes, Bool.false_eq_true, if_false, ↓reduceDIte,
    List.reverse_cons, List.reverse_nil, List.nil_append, List.singleton_append,
    List.append_assoc] at lexed ⊢
  exact lexed

/-- What a name starts with is found as a name. -/
theorem found?_name {spelling : String} (name : IsName spelling) (ends : EndsName rest)
    (pos : Position) :
    ∃ c more, spelling.toList ++ rest = c :: more ∧ Text.isSeparator c = false ∧ c ≠ '/' ∧
      c ≠ '\ufeff' ∧
        found? pos (spelling.toList ++ rest) = some (.tokens [.name spelling pos], rest) := by
  have literal := literalEnd?_eq_none name ends
  have word := name?_append name ends
  -- A raw name starts with a letter, too.
  obtain ⟨c, more, shape, starts⟩ : ∃ c more,
      spelling.toList ++ rest = c :: more ∧ Text.isNameStart c = true := by
    obtain ⟨c, more, shape, starts, -⟩ | ⟨letters, shape, -⟩ := name
    · exact ⟨c, more ++ rest, by simp [shape], starts⟩
    · exact ⟨'r', '#' :: letters ++ rest, by simp [shape], by decide⟩
  -- None of the characters with a meaning of their own starts a name.
  have absent := Text.not_mem_nameless starts
  have other (d : Char) (nameless : d ∈ Text.nameless) : c ≠ d :=
    fun same => absent (same ▸ nameless)
  refine ⟨c, more, shape, Text.not_isSeparator_of_isNameStart starts, other _ (by decide),
    other _ (by decide), ?_⟩
  -- No comment, bracket, literal or operator starts with the character.
  have noSlash : ('/' == c) = false := beq_false_of_ne (other _ (by decide)).symm
  have noComment : docComment? (c :: more) = none := by
    simp [docComment?, startsWith, List.isPrefixOf, noSlash]
  have noParen : ('(' == c) = false := beq_false_of_ne (other _ (by decide)).symm
  have noMark : startsWith unreadableMark (c :: more) = false := by
    simp [startsWith, unreadableMark, List.isPrefixOf, noParen]
  have noOpening : Delimiter.ofOpening? c = none := by
    unfold Delimiter.ofOpening?
    split
    · exact absurd rfl (other '(' (by decide))
    · exact absurd rfl (other '[' (by decide))
    · exact absurd rfl (other '\x7b' (by decide))
    · rfl
  have noClosing : Delimiter.ofClosing? c = none := by
    unfold Delimiter.ofClosing?
    split
    · exact absurd rfl (other ')' (by decide))
    · exact absurd rfl (other ']' (by decide))
    · exact absurd rfl (other '\x7d' (by decide))
    · rfl
  have noPunct : punct? pos (c :: more) = none := by
    have noOperator : operatorChars.contains c = false := by
      rw [← Bool.not_eq_true, List.contains_iff_mem]
      intro inside
      have among : (operatorChars.all Text.nameless.contains) = true := by decide
      exact absurd rfl (other c (List.contains_iff_mem.mp (List.all_eq_true.mp among c inside)))
    have noStart : startsPunct (c :: more) = false := by
      rw [startsPunct, List.head?_cons, Option.map_some, Option.getD_some, noOperator,
        Bool.and_false]
    rw [punct?.eq_def, noStart]
    rfl
  rw [shape] at literal word ⊢
  rw [found?.eq_def, noComment]
  simp [noMark, noOpening, noClosing, leaf?, literal, noPunct, word]

/-- A name before a blank is read as that name. -/
theorem Lexes.name {name : Name}
    (behind : cs = name.spelling.toList ++ rest ∨ cs = ' ' :: (name.spelling.toList ++ rest))
    (named : IsName name.spelling) (ends : EndsName rest) (others : Lexes rest tokens) :
    Lexes cs (name.token :: tokens) := by
  -- The token is the name itself, and the name has at least one character.
  refine Lexes.cons behind ?_ (fun pos => ?_) ?_ others
  · obtain ⟨c, more, shape, noGap, noSlash, -, -⟩ := found?_name named ends .origin
    rw [shape]
    exact skipTrivia_eq_self noGap noSlash
  · obtain ⟨-, -, -, -, -, -, found⟩ := found?_name named ends pos
    exact ⟨_, found, fun _ => rfl⟩
  · have some : name.spelling.toList ≠ [] := by
      obtain ⟨d, behind, written, -⟩ | ⟨letters, written, -⟩ := named <;> simp [written]
    have positive := List.length_pos_iff.mpr some
    rw [List.length_append]
    omega

/-- A colon starts punctuation. -/
theorem startsPunct_colon (rest : List Char) : startsPunct (':' :: rest) = true := by
  -- The colon is an operator character, and no comment starts with it.
  have operator : operatorChars.contains ':' = true := by decide
  rw [startsPunct, List.head?_cons, Option.map_some, Option.getD_some, operator]
  simp [startsWith, List.isPrefixOf]

/-- A blank starts no punctuation. -/
theorem startsPunct_blank (rest : List Char) : startsPunct (' ' :: rest) = false := by
  -- The blank is no operator character.
  have noOperator : operatorChars.contains ' ' = false := by decide
  rw [startsPunct, List.head?_cons, Option.map_some, Option.getD_some, noOperator, Bool.and_false]

/-- A colon is found as punctuation, joint if punctuation follows. -/
theorem found?_colon (pos : Position) (rest : List Char) :
    found? pos (':' :: rest) = some (.tokens [.punct ':' (startsPunct rest) pos], rest) := by
  -- Of all that could start here only punctuation starts with a colon.
  have noLiteral : literalEnd? (':' :: rest) = none := by
    simp [literalEnd?, quoteEnd?, numberEnd?_eq_none (show ':'.isDigit = false by decide)]
  have punct : punct? pos (':' :: rest) = some (.punct ':' (startsPunct rest) pos, rest) := by
    rw [punct?.eq_def, startsPunct_colon]
    rfl
  rw [found?.eq_def]
  simp [docComment?, startsWith, unreadableMark, List.isPrefixOf, Delimiter.ofOpening?,
    Delimiter.ofClosing?, leaf?, noLiteral, punct]

/-- A double colon before a blank is read as that operator. -/
theorem Lexes.colons {more : List Char}
    (behind : cs = ':' :: ':' :: ' ' :: more ∨ cs = ' ' :: ':' :: ':' :: ' ' :: more)
    (others : Lexes (' ' :: more) tokens) : Lexes cs (Token.symbol "::" ++ tokens) := by
  have begins (rest : List Char) : skipTrivia (':' :: rest) = ':' :: rest :=
    skipTrivia_eq_self (by decide) (by decide)
  -- The first colon is joint with the second one, which a blank follows.
  have second : Lexes (':' :: ' ' :: more) (.punct ':' false .origin :: tokens) := by
    refine Lexes.cons (.inl rfl) (begins _) (fun pos => ⟨_, found?_colon pos _, fun place => ?_⟩)
      (by simp) others
    rw [startsPunct_blank, Token.moveTo, Token.moveTo]
  have written : Token.symbol "::" = [.punct ':' true .origin, .punct ':' false .origin] := rfl
  rw [written]
  refine Lexes.cons behind (begins _) (fun pos => ⟨_, found?_colon pos _, fun place => ?_⟩)
    (by simp) second
  rw [startsPunct_colon, Token.moveTo, Token.moveTo]

/-- A text that no mark opens is read as a source. -/
theorem ofSource_of_lexes {text : String} (noMark : text.toList.head? ≠ some '\ufeff')
    (lexes : Lexes text.toList tokens) :
    ∃ found, Token.ofSource text = .ok found ∧
      ∀ place, Token.moveAllTo place found = Token.moveAllTo place tokens := by
  -- Without the mark of a text file nothing is dropped.
  have whole : dropMark text.toList = text.toList := by
    unfold dropMark
    split
    · rename_i marked
      simp [marked] at noMark
    · rfl
  rw [Token.ofSource, whole]
  exact lexes .origin []

end Lexer

end KeyedCoding
