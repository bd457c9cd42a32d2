import KeyedCoding.Proofs.Grammar.Argument
import KeyedCoding.Proofs.Grammar.Path

/-!
Calls: a path of names that literals in parentheses follow is read as a call of that path.
-/

namespace KeyedCoding

namespace Path

/-- Names without arguments have no type heads inside them. -/
theorem heads_ofNames {leading : Option Position} {names : List Name} :
    (ofNames leading names).heads = [] := by
  -- The heads of a segment are those of its arguments, and a name has none.
  induction names with
  | nil => rfl
  | cons name rest ih => exact ih

end Path

/-- A name that can be a segment is not a reserved word, apart from the words for places. -/
theorem Look.word_token {name : Name} {behind : List Token} {word : String}
    (opens : name.opensSegment = true) (reserved : Look.reserved.contains word = true)
    (other : ["super", "self", "crate", "try", "Self"].contains word = false) :
    Look.word word (name.token :: behind) = false := by
  -- The token is the name itself, so the look compares two words.
  change (name.spelling == word) = false
  rw [beq_eq_false_iff_ne]
  rintro rfl
  rw [Name.opensSegment, reserved, other] at opens
  cases opens

namespace Grammar

open Reader KeyedCoding.Path

variable {g : Grammar} {first : Name}

/-- What is written of a path of names are its tokens, and no type head is noted. -/
theorem pathTokens_reads {path : Path} (named : path.Named) {tokens : List Token} :
    (pathTokens (.path path)).Reads tokens path.tokens tokens := by
  -- The readers only note the heads of the path, and a path of names has none.
  cases named with
  | intro spelled opens =>
    intro scope heads stray
    refine bind_run_iff.mpr ⟨(), _, rfl, ?_⟩
    simp only [heads_ofNames, List.append_nil]
    rfl

/-- A path of names is no projection. -/
theorem qualifiedPath_reads {inExpr : Bool} {path : Path} {left : List Token}
    (ends : EndsPath inExpr left) (named : path.Named) :
    ((layer g).qualifiedPath inExpr).Reads (path.tokens ++ left) (.path path) left := by
  -- Neither leading colons nor a first name are an angle bracket.
  have relative : Look.symbol "<" (path.tokens ++ left) = false := by
    cases named with
    | @intro leading first more spelled opens =>
      rw [tokens_ofNames]
      cases leading <;> rfl
  refine Reads.bind (Reads.sees _) ?_
  rw [relative]
  exact Reads.bind (readPath_reads_before ends named) Reads.pure

/-- A path of names is read as an expression up to the parentheses behind it. -/
theorem pathExpr_reads {path : Path} (named : path.Named) {body : List Token}
    {opened closed : Position} {left : List Token} :
    (pathExpr (layer g) true).Reads (path.tokens ++ .group .paren body opened closed :: left)
      ⟨path.tokens, .other⟩ (.group .paren body opened closed :: left) := by
  refine Reads.bind (qualifiedPath_reads ⟨rfl, rfl⟩ named)
    (Reads.bind (pathTokens_reads named) (Reads.bind Reads.rest ?_))
  -- Parentheses make neither an invocation nor a struct literal.
  have bang : Look.symbol "!" (.group .paren body opened closed :: left) = false := rfl
  have brace : Look.group .brace (.group .paren body opened closed :: left) = false := rfl
  simp only [bang, brace, Bool.and_false, Bool.false_and, Bool.false_eq_true, if_false]
  exact Reads.pure

/-- A name that can be a segment opens a type, apart from one reserved word. -/
theorem seesTypePath_token {behind : List Token} (opens : first.opensSegment = true)
    (other : first.spelling ≠ "try") : seesTypePath (first.token :: behind) = true := by
  cases reserved : Look.reserved.contains first.spelling with
  | false =>
    have named : Look.name (first.token :: behind) = true := by
      rw [Name.token, Look.name, reserved, Bool.not_false]
    rw [seesTypePath, named, Bool.true_or, Bool.true_or, Bool.true_or]
  | true =>
    -- Among the reserved words only those for places are left.
    rw [Name.opensSegment, reserved, Bool.not_true, Bool.or_false] at opens
    simp only [List.contains_eq_mem, List.mem_cons, List.not_mem_nil, or_false,
      decide_eq_true_eq] at opens
    obtain ⟨spelling, pos⟩ := first
    rcases opens with rfl | rfl | rfl | rfl | rfl
    · rfl
    · rfl
    · rfl
    · exact absurd rfl other
    · rfl

section Start

variable {behind : List Token}

/-- The tokens of a path of several names, up to the second one. -/
def start (first : Name) (behind : List Token) : List Token :=
  first.token :: .punct ':' true .origin :: .punct ':' false .origin :: behind

/-- A path is no literal. -/
theorem literal_start (opens : first.opensSegment = true) :
    Look.literal (start first behind) = false := by
  -- Of all names only the two truth values are literals.
  have trues : (first.spelling == "true") = false :=
    @Look.word_token first [] "true" opens rfl rfl
  have falses : (first.spelling == "false") = false :=
    @Look.word_token first [] "false" opens rfl rfl
  rw [Look.literal, start, Name.token, Look.afterLiteral?, trues, falses]
  rfl

/-- A path is no closure. -/
theorem seesClosure_start (opens : first.opensSegment = true) :
    seesClosure (start first behind) = false := by
  have bar : Look.symbol "|" (start first behind) = false := rfl
  have others : ∀ word ∈ ["move", "for", "const", "static", "async"],
      Look.word word (start first behind) = false := by
    -- All of them are reserved, and none is a word for a place.
    have reserved : ∀ word ∈ ["move", "for", "const", "static", "async"],
        Look.reserved.contains word = true ∧
          ["super", "self", "crate", "try", "Self"].contains word = false := by decide
    exact fun word inside => Look.word_token opens (reserved word inside).1 (reserved word inside).2
  simp only [List.forall_mem_cons] at others
  obtain ⟨move, binder, const, static, async, -⟩ := others
  simp only [seesClosure, bar, move, binder, const, static, async, Bool.false_and, Bool.or_false]

/-- A path of several names is seen as one; for one reserved word the colons behind it decide. -/
theorem seesPath_start (opens : first.opensSegment = true) :
    (seesTypePath (start first behind) || Look.word "try" (start first behind) &&
      (Look.symbol "!" ((start first behind).drop 1) ||
        Look.symbol "::" ((start first behind).drop 1))) = true := by
  -- The one reserved word that a path may start with is told by the colons behind it.
  by_cases reserved : first.spelling = "try"
  · obtain ⟨spelling, pos⟩ := first
    cases reserved
    rfl
  · rw [show seesTypePath (start first behind) = true from seesTypePath_token opens reserved,
      Bool.true_or]

end Start

/-- A path of several names opens no other expression than a path. -/
theorem atom_reads {path : Path} (named : path.Named) {body : List Token}
    {opened closed : Position} {left : List Token} (several : 2 ≤ path.segments.length) :
    (atom (layer g) true).Reads (path.tokens ++ .group .paren body opened closed :: left)
      ⟨path.tokens, .other⟩ (.group .paren body opened closed :: left) := by
  have onward := @pathExpr_reads g path named body opened closed left
  cases named with
  | @intro leading first more spelled opens =>
    rw [tokens_ofNames] at onward ⊢
    refine Reads.bind Reads.rest ?_
    cases leading with
    -- With colons in front, the path is seen at once.
    | some pos => exact onward
    | none =>
      cases more with
      -- A single name is excluded by the number of segments.
      | nil => simp [ofNames] at several
      | cons next rest =>
        -- The first name is none of the words that open something else, and colons stand behind it.
        have head : first.opensSegment = true := opens first (by simp)
        have tokens : leadingTokens none ++ first.token :: tailTokens (next :: rest) ++
            .group .paren body opened closed :: left = start first (next.token ::
                (tailTokens rest ++ .group .paren body opened closed :: left)) := rfl
        rw [tokens] at onward ⊢
        generalize next.token :: (tailTokens rest ++ .group .paren body opened closed :: left) =
          behind at onward ⊢
        have async : Look.word "async" (start first behind) = false :=
          Look.word_token head rfl rfl
        have block : seesAsyncBlock (start first behind) = false := by
          rw [seesAsyncBlock, async, Bool.false_and]
        have brace : Look.group .brace ((start first behind).drop 1) = false := rfl
        have hash : Look.symbol "#" ((start first behind).drop 1) = false := rfl
        simp only [literal_start head, block, brace, hash, seesClosure_start head, Bool.and_false,
          seesPath_start head, Bool.false_eq_true, if_false, if_true]
        exact onward

/-- Whether the tokens in parentheses are read as the arguments of a call. -/
def ReadsArguments (body : List Token) : Prop :=
  ∀ g : Grammar, ((layer (layer g)).exprList).Reads body body []

/-- A call may have no arguments. -/
theorem readsArguments_nil : ReadsArguments [] := fun _ =>
  Reads.bind (Reads.iterate (Reads.iterateUpTo_inr (Reads.bind Reads.rest Reads.pure))) Reads.pure

/-- A call may have a literal as its only argument. -/
theorem readsArguments_literal (written : String) (pos : Position) :
    ReadsArguments [.literal written pos] := fun g =>
  Reads.bind (Reads.listUntil (.last rfl
    (expr_reads_operand g (readUnary_reads_literal g (.inl rfl)) (.inl rfl)) rfl)) Reads.pure

/-- Arguments in parentheses behind an expression are read with it. -/
theorem trailers_reads {expr : Expr} {body : List Token} (arguments : ReadsArguments body) :
    (trailers (layer (layer g)) expr).Reads [Token.parens body]
      ⟨expr.tokens ++ [Token.parens body], .other⟩ [] := by
  -- The first step takes the parentheses, and behind them there is nothing more.
  have group : (grouped .paren ((layer (layer g)).exprList)).Reads [Token.parens body]
      (Token.parens body) [] :=
    Reads.bind (Reads.within (arguments g)) Reads.pure
  refine Reads.iterate (Reads.bind (Reads.bind Reads.rest (Reads.bind group Reads.pure)) ?_)
  exact Reads.iterateUpTo_inr (Reads.bind Reads.rest Reads.pure)

/-- A path of several names with arguments in parentheses behind it is read as a call of the path. -/
theorem read_call {path : Path} (named : path.Named) (several : 2 ≤ path.segments.length)
    {body : List Token} (arguments : ReadsArguments body) (close : Position) :
    Grammar.read (·.expr true) (path.tokens ++ [Token.parens body]) close =
      .ok ⟨path.tokens ++ [Token.parens body], .other⟩ := by
  refine Reads.run ?_ close
  have atom := fun g => @atom_reads g path named body .origin .origin [] several
  cases named with
  | @intro leading first more spelled opens =>
    rw [tokens_ofNames] at atom ⊢
    -- The call starts with the colons or with the first name, and neither is an operator.
    cases leading with
    | some place =>
      exact expr_reads_operand _ (readUnary_reads _ rfl (atom _) (trailers_reads arguments)) (.inl rfl)
    | none =>
      exact expr_reads_operand _ (readUnary_reads _ rfl (atom _) (trailers_reads arguments)) (.inl rfl)

end Grammar

end KeyedCoding
