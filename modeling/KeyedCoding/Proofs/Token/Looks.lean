import KeyedCoding.Proofs.Token.Reader

/-!
Looking ahead before a comma: which looks at the tokens to come find the same whether nothing or a
comma and more stand behind them.
-/

namespace KeyedCoding

/-- What can stand behind an argument: nothing, or a comma and more. -/
structure Tail where
  tokens : List Token
  comma : ∀ token ∈ tokens.head?, ∃ joint pos, token = .punct ',' joint pos

namespace Look

variable {α β : Type} {one other : List Token → Bool} {look : List Token → α}

/-- A look that finds the same whatever stands behind the tokens it looks at. -/
def Blind (look : List Token → α) : Prop :=
  ∀ (tail : Tail) (tokens : List Token), look (tokens ++ tail.tokens) = look tokens

namespace Blind

/-! What is made of blind looks is blind. -/

theorem const (value : α) : Blind fun _ => value := fun _ _ => rfl

theorem and (first : Blind one) (second : Blind other) :
    Blind fun tokens => one tokens && other tokens :=
  fun tail tokens => by simp only [first tail tokens, second tail tokens]

theorem or (first : Blind one) (second : Blind other) :
    Blind fun tokens => one tokens || other tokens :=
  fun tail tokens => by simp only [first tail tokens, second tail tokens]

theorem not (first : Blind one) : Blind fun tokens => !one tokens :=
  fun tail tokens => by simp only [first tail tokens]

theorem any {choices : List β} {each : β → List Token → Bool}
    (blind : ∀ choice ∈ choices, Blind (each choice)) :
    Blind fun tokens => choices.any (each · tokens) := by
  -- The same choice is seen with and without the tail.
  intro tail tokens
  rw [Bool.eq_iff_iff, List.any_eq_true, List.any_eq_true]
  exact exists_congr fun choice => and_congr_right fun inside => by
    rw [blind choice inside tail tokens]

/-- A look that is blind before a first token is blind if a comma is for it like the end. -/
theorem of_cons (comma : ∀ joint pos more, look (.punct ',' joint pos :: more) = look [])
    (each : ∀ (tail : Tail) token more,
      look (token :: more ++ tail.tokens) = look (token :: more)) : Blind look := by
  -- Without a first token the tail comes next, and that is empty or begins with a comma.
  rintro tail (_ | ⟨token, more⟩)
  · obtain ⟨_ | ⟨token, more⟩, begins⟩ := tail
    · rfl
    · obtain ⟨joint, pos, rfl⟩ := begins token rfl
      exact comma joint pos more
  · exact each tail token more

/-- A look at the first token alone is blind if a comma is for it like the end. -/
theorem of_first (first : ∀ token more, look (token :: more) = look [token])
    (comma : ∀ joint pos, look [.punct ',' joint pos] = look []) : Blind look :=
  of_cons (fun joint pos more => (first _ more).trans (comma joint pos))
    fun tail token more => (first token (more ++ tail.tokens)).trans (first token more).symm

/-- Behind a first token that is seen, a look at the next tokens is blind as well. -/
theorem next (first : ∀ token more, one (token :: more) = one [token]) (none : one [] = false)
    (comma : ∀ joint pos, one [.punct ',' joint pos] = false) (second : Blind other) :
    Blind fun tokens => one tokens && other (tokens.drop 1) := by
  -- Where the first token is missing, the tail does not replace it.
  refine of_cons (fun joint pos more => ?_) fun tail token more => ?_
  · simp only [first, comma, none, Bool.false_and]
  · simp only [List.cons_append, first token (more ++ tail.tokens), first token more,
      List.drop_one, List.tail_cons, second tail more]

/-! The looks of readers. -/

theorem word (spelling : String) : Blind (Look.word spelling) :=
  of_first (fun token _ => by cases token <;> rfl) fun _ _ => rfl

theorem anyWord : Blind Look.anyWord :=
  of_first (fun token _ => by cases token <;> rfl) fun _ _ => rfl

theorem name : Blind Look.name :=
  of_first (fun token _ => by cases token <;> rfl) fun _ _ => rfl

theorem lifetime : Blind Look.lifetime :=
  of_first (fun token _ => by cases token <;> rfl) fun _ _ => rfl

theorem group (delim : Delimiter) : Blind (Look.group delim) :=
  of_first (fun token _ => by cases token <;> rfl) fun _ _ => rfl

theorem text : Blind Look.text :=
  of_first (fun token _ => by cases token <;> rfl) fun _ _ => rfl

theorem word_next (spelling : String) (second : Blind other) :
    Blind fun tokens => Look.word spelling tokens && other (tokens.drop 1) :=
  next (fun token _ => by cases token <;> rfl) rfl (fun _ _ => rfl) second

theorem name_next (second : Blind other) :
    Blind fun tokens => Look.name tokens && other (tokens.drop 1) :=
  next (fun token _ => by cases token <;> rfl) rfl (fun _ _ => rfl) second

theorem lifetime_next (second : Blind other) :
    Blind fun tokens => Look.lifetime tokens && other (tokens.drop 1) :=
  next (fun token _ => by cases token <;> rfl) rfl (fun _ _ => rfl) second

end Blind

/-- What stands behind an operator is followed by what stands behind all tokens. -/
theorem afterChars?_append {chars : List Char} {tokens after : List Token} (more : List Token)
    (operator : afterChars? chars tokens = some after) :
    afterChars? chars (tokens ++ more) = some (after ++ more) := by
  -- The characters are compared one by one, and only tokens in front of the rest are taken.
  fun_induction afterChars? chars tokens with
  | case1 =>
    cases operator
    simp [afterChars?]
  | case2 => cases operator
  | case3 =>
    rename_i same ih
    simp [afterChars?, same, ih operator]
  | case4 => cases operator
  | case5 => cases operator

/-- An operator takes at least one token. -/
theorem length_lt_of_afterChars? {chars : List Char} {tokens after : List Token}
    (operator : afterChars? chars tokens = some after) : after.length < tokens.length := by
  -- Each character takes one token.
  fun_induction afterChars? chars tokens with
  | case1 =>
    cases operator
    simp
  | case2 => cases operator
  | case3 =>
    rename_i ih
    exact Nat.lt_succ_of_lt (ih operator)
  | case4 => cases operator
  | case5 => cases operator

/-- An operator of one character takes a token. -/
theorem cons_of_afterChars? {c : Char} {tokens after : List Token}
    (operator : afterChars? [c] tokens = some after) :
    ∃ joint pos, tokens = .punct c joint pos :: after := by
  -- Only an operator token can be taken, and it has the one character.
  rcases tokens with _ | ⟨token, more⟩
  · cases operator
  · cases token with
    | punct ch joint pos =>
      obtain ⟨rfl, rfl⟩ : c = ch ∧ more = after := by
        simpa [afterChars?] using operator
      exact ⟨joint, pos, rfl⟩
    | _ => cases operator

/-- An operator that leaves some tokens stands before them. -/
theorem afterChars?_of_append {chars : List Char} {tokens after more : List Token}
    (operator : afterChars? chars (tokens ++ more) = some (after ++ more)) :
    afterChars? chars tokens = some after := by
  -- An operator takes at least one token, so it does not end in front of the first one.
  induction tokens generalizing chars with
  | nil =>
    have fewer := length_lt_of_afterChars? operator
    simp only [List.length_append, List.nil_append] at fewer
    omega
  | cons token tokens ih =>
    rcases chars with _ | ⟨c, _ | ⟨d, chars⟩⟩
    · simp [afterChars?] at operator
    · cases token <;> simp_all [afterChars?]
    · -- A character that is not the last one takes a joint token.
      cases token with
      | punct ch joint pos =>
        simp only [afterChars?, List.cons_append] at operator ⊢
        split
        · rename_i same
          rw [if_pos same] at operator
          exact ih operator
        · rename_i other
          rw [if_neg other] at operator
          cases operator
      | _ => simp [afterChars?] at operator

/-- An operator without a comma does not reach into a tail. -/
theorem afterChars?_eq_none {chars : List Char} {tokens : List Token} (plain : ',' ∉ chars)
    (tail : Tail) (absent : afterChars? chars tokens = none) :
    afterChars? chars (tokens ++ tail.tokens) = none := by
  -- The first token of the tail is a comma, and before it the characters are compared as ever.
  induction tokens generalizing chars with
  | nil =>
    obtain ⟨_ | ⟨token, more⟩, begins⟩ := tail
    · exact absent
    · obtain ⟨joint, pos, rfl⟩ := begins token rfl
      rcases chars with _ | ⟨c, _ | ⟨d, chars⟩⟩ <;> simp_all [afterChars?, eq_comm]
  | cons token more ih =>
    rcases chars with _ | ⟨c, _ | ⟨d, chars⟩⟩
    · rfl
    · cases token <;> simp_all [afterChars?]
    · cases token with
      | punct ch joint pos =>
        simp only [afterChars?, List.cons_append] at absent ⊢
        split
        · rename_i same
          rw [if_pos same] at absent
          exact ih (fun inside => plain (List.mem_cons_of_mem _ inside)) absent
        · rfl
      | _ => rfl

/-- An operator of one character is the first token. -/
theorem symbol_cons {spelling : String} {c : Char} (single : spelling.toList = [c]) (token : Token)
    (more : List Token) :
    Look.symbol spelling (token :: more) = Look.symbol spelling [token] := by
  -- The look compares the one character with that of the first token.
  rw [Look.symbol, Look.symbol, single]
  cases token with
  | punct ch joint pos =>
    simp only [afterChars?]
    split <;> rfl
  | _ => rfl

namespace Blind

theorem symbol {spelling : String} (plain : ',' ∉ spelling.toList) :
    Blind (Look.symbol spelling) := by
  intro tail tokens
  unfold Look.symbol
  -- Where the operator is seen it stays seen, and where it is not the tail does not complete it.
  cases seen : afterChars? spelling.toList tokens with
  | some after =>
    rw [afterChars?_append _ seen]
    rfl
  | none => rw [afterChars?_eq_none plain tail seen]

theorem symbol_next {spelling : String} {c : Char} (single : spelling.toList = [c])
    (plain : c ≠ ',') (second : Blind other) :
    Blind fun tokens => Look.symbol spelling tokens && other (tokens.drop 1) := by
  -- The operator is not the comma, so neither the end nor a comma passes.
  refine next (symbol_cons single) ?_ (fun joint pos => ?_) second
  · rw [Look.symbol, single]
    rfl
  · rw [Look.symbol, single]
    simp [afterChars?, plain]

/-- A look at what stands behind two colons is blind. -/
theorem behindColons (second : Blind other) :
    Blind fun tokens => Look.symbol "::" tokens && other (tokens.drop 2) := by
  intro tail tokens
  have same := @symbol "::" (by decide) tail tokens
  simp only [same]
  -- Where the colons are, they are the first two tokens.
  rcases tokens with _ | ⟨first, _ | ⟨last, more⟩⟩
  · rfl
  · cases first <;> simp [Look.symbol, afterChars?]
  · exact congrArg _ (second tail more)

/-- A look for the end or for one of some operators is blind if the comma is among them. -/
theorem ends {choices : List String} (comma : "," ∈ choices)
    (others : ∀ choice ∈ choices, choice = "," ∨ ',' ∉ choice.toList) :
    Blind fun tokens => tokens.isEmpty || choices.any (Look.symbol · tokens) := by
  refine of_cons (fun joint pos more => List.any_eq_true.mpr ⟨",", comma, rfl⟩)
    fun tail token more => ?_
  -- At the first token the comma is told like any other operator, and the others do not look
  -- further.
  have same : ∀ choice ∈ choices,
      Look.symbol choice (token :: more ++ tail.tokens) = Look.symbol choice (token :: more) := by
    intro choice inside
    obtain rfl | plain := others choice inside
    · exact (symbol_cons rfl token _).trans (symbol_cons rfl token _).symm
    · exact symbol plain tail (token :: more)
  rw [List.isEmpty_cons, Bool.false_or, Bool.eq_iff_iff, List.any_eq_true]
  simp only [List.cons_append, List.isEmpty_cons, Bool.false_or, List.any_eq_true]
  exact exists_congr fun choice => and_congr_right fun inside => by
    rw [← List.cons_append, same choice inside]

theorem literal : Blind Look.literal := by
  have number (joint : Bool) (pos : Position) :
      Blind fun tokens => Look.literal (.punct '-' joint pos :: tokens) :=
    of_first (fun token more => by
      cases token with
      | literal written pos =>
        simp only [Look.literal, afterLiteral?]
        split <;> rfl
      | _ => rfl) fun _ _ => rfl
  refine of_cons (fun joint pos more => rfl) fun tail token more => ?_
  cases token with
  | name found pos =>
    simp only [Look.literal, afterLiteral?, List.cons_append]
    split <;> rfl
  | punct ch joint pos =>
    -- Behind the sign of a number the number itself is looked at.
    by_cases minus : ch = '-'
    · subst minus
      exact number joint pos tail more
    · simp [Look.literal, afterLiteral?, minus]
  | _ => rfl

end Blind

end Look

end KeyedCoding
