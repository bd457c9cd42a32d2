import KeyedCoding.Proofs.Grammar.Argument
import KeyedCoding.Proofs.Token.Locality

/-!
Literals as values: an expression whose tokens are a single literal has been written as that literal,
and nothing else has been consumed for it.
-/

namespace KeyedCoding

namespace Token

/-- Whether a token is a literal. -/
def isLiteral : Token → Bool
  | literal .. => true
  | _ => false

/-- Tokens that are a single literal. -/
def Lone (tokens : List Token) : Prop := ∃ written pos, tokens = [.literal written pos]

/-- Tokens among which there is another one than a literal. -/
def Marked (tokens : List Token) : Prop := ∃ token ∈ tokens, token.isLiteral = false

variable {token : Token} {tokens more : List Token}

/-- Another token is no literal that stands alone. -/
theorem Marked.not_lone (marked : Marked tokens) : ¬Lone tokens := by
  -- The only token would be the literal itself, but one token is none.
  rintro ⟨written, pos, rfl⟩
  obtain ⟨token, inside, other⟩ := marked
  rw [List.mem_singleton.mp inside] at other
  cases other

/-- What has a mark at its start is marked. -/
theorem Marked.cons (other : token.isLiteral = false) : Marked (token :: tokens) :=
  ⟨token, List.mem_cons_self, other⟩

/-- What has a mark at its end is marked. -/
theorem Marked.append_left (marked : Marked more) : Marked (tokens ++ more) := by
  -- The mark is a token, and it stays inside.
  obtain ⟨token, inside, other⟩ := marked
  exact ⟨token, List.mem_append_right _ inside, other⟩

/-- What starts with marked tokens is marked. -/
theorem Marked.append_right (marked : Marked tokens) : Marked (tokens ++ more) := by
  -- The mark is a token, and it stays inside.
  obtain ⟨token, inside, other⟩ := marked
  exact ⟨token, List.mem_append_left _ inside, other⟩

/-- An operator is marked. -/
theorem Marked.symbolAt {spelling : String} (pos : Position) (some : spelling.toList ≠ []) :
    Marked (Token.symbolAt pos spelling) := by
  -- An operator has one token for each of its characters, so there is a first one.
  rw [Token.symbolAt]
  cases chars : spelling.toList with
  | nil => exact absurd chars some
  | cons ch rest => cases rest <;> exact .cons rfl

/-- What separates items does not take the mark of the first one. -/
theorem Marked.separate (marked : Marked tokens) {separator : List Token} {trailing : Bool}
    {others : List (List Token)} : Marked (separate separator trailing (tokens :: others)) := by
  -- The first item is kept whole, whether another one stands behind it or not.
  cases others with
  | nil => exact marked.append_right
  | cons second rest => exact marked.append_right.append_right

end Token

open Token (Lone Marked)

namespace Reader

variable {α : Type} {holds : α → Prop}

/-- An operator that is read is marked. -/
theorem symbol_marked (spelling : String) : (symbol spelling).Gives Marked := by
  -- What is written is the operator itself, and it has a character.
  intro scope source written left _ read
  obtain ⟨after, operator, rfl, -⟩ := symbol_run_iff.mp read
  refine .symbolAt _ fun empty => ?_
  rw [empty] at operator
  cases source.rest <;> cases operator

/-- A word that is read is no literal. -/
theorem word_marked (spelling : String) : (word spelling).Gives (·.isLiteral = false) := by
  -- The reader looks at the next token, and only a name can be the word.
  refine Gives.then fun tokens => ?_
  split
  · exact .ite (Gives.then fun _ => Gives.pure rfl) (Gives.failHere _)
  · exact Gives.failHere _

/-- A lifetime that is read is no literal. -/
theorem lifetime_marked : lifetime.Gives (·.isLiteral = false) := by
  -- The reader looks at the next token, and only a lifetime is taken.
  refine Gives.then fun tokens => ?_
  split
  · exact Gives.then fun _ => Gives.pure rfl
  · exact Gives.failHere _

/-- A group that is read is no literal. -/
theorem grouped_marked (delim : Delimiter) (content : Reader (List Token)) :
    (grouped delim content).Gives (·.isLiteral = false) :=
  Gives.then fun _ => Gives.pure rfl

/-- What is read as a single literal has been that literal. -/
theorem literal_eq_ok {scope : Position} {source left : Source} {tokens : List Token}
    (read : literal scope source = .ok (tokens, left)) (lone : Lone tokens) :
    source.rest = tokens ++ left.rest := by
  -- The reader looks at the next token, which is taken if it is a literal.
  obtain ⟨rest, heads, stray⟩ := source
  obtain ⟨_, _, got, read⟩ := bind_run_iff.mp read
  cases got
  dsimp only at read
  split at read
  · cases read
    rfl
  · -- A truth value is a name.
    split at read
    · cases read
      exact absurd lone (Marked.cons rfl).not_lone
    · exact absurd read failHere_ne_ok
  · -- The sign of a number is a token of its own.
    split at read
    · cases read
      exact absurd lone (Marked.cons rfl).not_lone
    · exact absurd read failHere_ne_ok
  · exact absurd read failHere_ne_ok

/-- What a reader does with tokens it also does with a fresh list of type heads. -/
theorem Leads.collectingHeads {reader : Reader α} {before : List Token → Prop}
    {after : α → List Token → Prop}
    (each : reader.Leads (before ·.rest) fun value source => after value source.rest) :
    (collectingHeads reader).Leads (before ·.rest)
      fun result source => after result.1 source.rest := by
  -- The list of heads is changed before and after the reader, and the tokens are not touched.
  intro scope source result left known read
  obtain ⟨_, _, got, read⟩ := bind_run_iff.mp read
  cases got
  obtain ⟨_, _, set, read⟩ := bind_run_iff.mp read
  cases set
  obtain ⟨value, between, taken, read⟩ := bind_run_iff.mp read
  cases read
  have here : before (Source.mk source.rest [] source.stray).rest := known
  have has : after value between.rest := each here taken
  exact has

end Reader

namespace Grammar

open Reader

variable {g : Grammar}

/-- What is given is no literal that stands alone. -/
abbrev Compound (reader : Reader Expr) : Prop := reader.Gives fun expr => ¬Lone expr.tokens

/-- What is given as a literal that stands alone is all that has been consumed. -/
def Exact (reader : Reader Expr) : Prop :=
  ∀ tokens, reader.Leads (·.rest = tokens)
    fun expr source => Lone expr.tokens → tokens = expr.tokens ++ source.rest

/-- What goes on behind tokens gives a literal that stands alone only if it consumes nothing. -/
def Extends (start : List Token) (reader : Reader Expr) : Prop :=
  ∀ tokens, reader.Leads (·.rest = tokens)
    fun expr source => Lone expr.tokens → expr.tokens = start ∧ source.rest = tokens

/-! Expressions that are more than a literal. -/

/-- What gives marked tokens gives more than a literal. -/
theorem compound_of_marked {reader : Reader Expr} (gives : reader.Gives (Marked ·.tokens)) :
    Compound reader :=
  Gives.mono gives fun _ marked => marked.not_lone

/-- What keeps a token that is no literal gives marked tokens. -/
theorem marked_bind {first : Reader Token} {next : Token → Reader Expr}
    (other : first.Gives (·.isLiteral = false))
    (behind : ∀ token, (next token).Gives (token ∈ ·.tokens)) :
    (first >>= next).Gives (Marked ·.tokens) :=
  Gives.bind other fun token other =>
    Gives.mono (behind token) fun _ inside => ⟨token, inside, other⟩

/-- What keeps the tokens of an operator gives marked tokens. -/
theorem marked_symbol {spelling : String} {next : List Token → Reader Expr}
    (behind : ∀ written, (next written).Gives (written ⊆ ·.tokens)) :
    (symbol spelling >>= next).Gives (Marked ·.tokens) :=
  Gives.bind (symbol_marked spelling) fun written marked =>
    Gives.mono (behind written) fun _ keeps => by
      obtain ⟨token, inside, other⟩ := marked
      exact ⟨token, keeps inside, other⟩

variable {spelling : String} {allowStruct : Bool}

theorem block_marked : g.block.Gives (·.isLiteral = false) := grouped_marked _ _

theorem blockExpr_marked : g.blockExpr.Gives (Marked ·.tokens) :=
  marked_bind block_marked fun _ => .pure (by simp)

theorem wordBlock_marked : (g.wordBlock spelling).Gives (Marked ·.tokens) :=
  marked_bind (word_marked _) fun _ => .then fun _ => .pure (by simp)

theorem valueBehind_marked : (g.valueBehind spelling allowStruct).Gives (Marked ·.tokens) :=
  marked_bind (word_marked _) fun _ => .then fun _ =>
    .ite (.then fun _ => .pure (by simp)) (.pure (by simp))

theorem whileExpr_marked : g.whileExpr.Gives (Marked ·.tokens) :=
  marked_bind (word_marked _) fun _ => .then fun _ => .then fun _ => .pure (by simp)

theorem forExpr_marked : g.forExpr.Gives (Marked ·.tokens) :=
  marked_bind (word_marked _) fun _ => .then fun _ => .then fun _ => .then fun _ =>
    .then fun _ => .pure (by simp)

theorem ifExpr_marked : g.ifExpr.Gives (Marked ·.tokens) := by
  -- Whatever the rounds before have read, the word of this round marks the whole.
  refine .then fun attrs => .iterate (fun _ => True) (fun read _ => ?_) trivial
  refine .bind (word_marked _) fun if_ other => .then fun condition => .then fun block =>
    .then fun seen => ?_
  have marked (more : List Token) : Marked (read ++ [if_] ++ condition.tokens ++ [block] ++ more) :=
    ⟨if_, by simp, other⟩
  split
  · exact .pure (by simpa using marked [])
  · refine .then fun else_ => .then fun tokens => .ite (.pure trivial) ?_
    exact .ite (.then fun body => .pure (marked _)) (.failHere _)

theorem labelled_marked : g.labelled.Gives (Marked ·.tokens) := by
  -- However the loop behind the label is written, the label stays in front of it.
  have keeps (label : Token) (colon : List Token) (expr : Expr) :
      (pure ⟨[label] ++ colon ++ expr.tokens, expr.shape⟩ : Reader Expr).Gives
        (label ∈ ·.tokens) := .pure (by simp)
  refine marked_bind lifetime_marked fun label => .then fun colon => .then fun tokens => ?_
  exact .ite (.then fun _ => keeps _ _ _) (.ite (.then fun _ => keeps _ _ _)
    (.ite (.then fun _ => keeps _ _ _) (.ite (.then fun _ => keeps _ _ _)
      (.then fun _ => keeps _ _ _))))

theorem closure_marked : (g.closure allowStruct).Gives (Marked ·.tokens) := by
  -- The first bar of the parameters is an operator, and the rest of the closure stands around it.
  refine .then fun binder => .then fun const_ => .then fun static_ => .then fun async_ =>
    .then fun move_ => marked_symbol fun opening => .then fun params => .then fun closing =>
      .then fun arrow => ?_
  split
  · exact .then fun _ => .then fun _ => .then fun _ => .pure fun token inside => by simp [inside]
  · exact .then fun _ => .pure fun token inside => by simp [inside]

theorem breakExpr_marked : (g.breakExpr allowStruct).Gives (Marked ·.tokens) := by
  -- A label without a loop is refused, and in the other cases the word is kept.
  refine .then fun tokens => .ite ?_ (.ite ?_ valueBehind_marked)
  · exact .then fun _ => .then fun _ => .then fun _ => .failAt _ _
  · exact marked_bind (word_marked _) fun _ => .then fun _ => .then fun _ =>
      .ite (.then fun _ => .pure (by simp)) (.pure (by simp))

theorem rangeTail_marked (start : List Token) :
    (g.rangeTail start allowStruct).Gives (Marked ·.tokens) := by
  -- Whichever of the two operators is read, it marks the range.
  have limits : rangeLimits.Gives (Marked ·.1) := by
    refine .then fun tokens => .ite ?_ (.ite ?_ (.failHere _)) <;>
    exact .bind (symbol_marked _) fun _ marked => .pure marked
  refine .bind limits fun written marked => .then fun tokens => ?_
  split
  · exact .pure marked.append_left
  · exact .then fun _ => .pure marked.append_left.append_right

/-- The tokens of a path are no literal that stands alone. -/
theorem not_lone_path (path : Path) : ¬Lone path.tokens := by
  obtain ⟨leading, segments⟩ := path
  rw [Path.tokens.eq_def]
  cases leading with
  | some pos => exact (Marked.symbolAt pos (by decide)).append_right.not_lone
  | none =>
    -- A path begins with the name of its first segment, if it has one.
    rcases segments with _ | ⟨⟨name, arguments⟩, rest⟩
    · rintro ⟨written, pos, none⟩
      simp [segmentTokens, separate] at none
    · have named : Marked (Segment.tokens ⟨name, arguments⟩) := by
        rw [Segment.tokens.eq_def]
        exact .cons rfl
      change ¬Lone (separate _ _ (segmentTokens (⟨name, arguments⟩ :: rest)))
      rw [segmentTokens.eq_def]
      exact named.separate.not_lone

/-- A projection begins with an angle bracket. -/
theorem projection_marked (inExpr : Bool) : (g.projection inExpr).Gives (Marked ·.tokens) := by
  -- With or without a trait, the angle bracket is the first token of the projection.
  have begins (pos : Position) (source : Ty) (base : Option Path) (segments : List Segment) :
      Marked (Ty.projection pos source base segments).tokens := by
    rw [Ty.tokens.eq_def]
    simp only [List.append_assoc]
    exact (Marked.symbolAt pos (by decide)).append_right
  refine .then fun pos => .then fun _ => .then fun source => .then fun seen => ?_
  split
  · exact .then fun _ => .then fun _ => .then fun _ => .then fun _ => .then fun _ =>
      .then fun _ => .then fun _ => .pure (begins _ _ _ _)
  · exact .then fun _ => .then fun _ => .then fun _ => .then fun _ => .then fun _ =>
      .pure (begins _ _ _ _)

theorem anyGroup_gives : anyGroup.Gives fun token =>
    ∃ delim body opened closed, token = .group delim body opened closed := by
  -- Only a group is taken of the next tokens.
  refine .then fun tokens => ?_
  split
  · exact .then fun _ => .pure ⟨_, _, _, _, rfl⟩
  · exact .failHere _

theorem pathExpr_compound : Compound (g.pathExpr allowStruct) := by
  -- The path is no literal that stands alone, and what may follow it ends with a group.
  have written (ty : Ty) : (pathTokens ty).Gives (· = ty.tokens) := by
    cases ty <;> exact .then fun _ => .pure rfl
  have behind (start : List Token) {token : Token} (other : token.isLiteral = false) :
      ¬Lone (start ++ [token]) := (Marked.cons other).append_left.not_lone
  have single : (g.qualifiedPath true).Gives fun ty => ¬Lone ty.tokens := by
    -- A projection is marked, and a path has a name.
    refine .then fun angle => .ite ((projection_marked true).mono fun _ marked => marked.not_lone) ?_
    refine .then fun path => .pure ?_
    rw [Ty.tokens.eq_def]
    exact not_lone_path path
  refine .bind single fun ty alone => .bind (written ty) fun tokens same => .then fun more => ?_
  subst same
  split <;> refine .ite (.then fun bang => .bind anyGroup_gives fun body group => .pure ?_)
    (.ite (.bind (grouped_marked _ _) fun body other => .pure (behind _ other)) (.pure alone)) <;>
  · obtain ⟨_, _, _, _, rfl⟩ := group
    exact behind _ rfl

/-- Tokens that begin with a word are no literal that stands alone, however many are taken. -/
theorem not_lone_between {tokens : List Token} (first : Look.word spelling tokens = true)
    (after : List Token) : ¬Lone (tokensBetween tokens after) := by
  rw [tokensBetween]
  -- What lies between is a beginning of the tokens, so it is empty or begins with the word.
  cases tokens with
  | nil => cases first
  | cons token more =>
    cases token with
    | name found pos =>
      cases (Token.name found pos :: more).length - after.length with
      | zero =>
        rintro ⟨written, pos, none⟩
        cases none
      | succ count => exact (Marked.cons rfl).not_lone
    | _ => cases first

/-! Expressions that may be a literal. -/

/-- What gives more than a literal gives it from anywhere. -/
theorem Compound.leads {reader : Reader Expr} {before : Source → Prop}
    {after : Expr → Source → Prop} (compound : Compound reader) :
    reader.Leads before fun expr source => Lone expr.tokens → after expr source :=
  Leads.mono compound (fun _ _ => trivial) fun _ _ more alone => absurd alone more

theorem builtinCall_compound {tokens : List Token} (first : Look.word "builtin" tokens = true) :
    builtinCall.Leads (·.rest = tokens) fun expr _ => ¬Lone expr.tokens := by
  -- The value is what lies between the first look and the last one, whatever is read there.
  refine Reads.bind_leads Reads.rest ?_
  have between : Compound (do
      let _ ← word "builtin"
      let _ ← symbol "#"
      let _ ← name
      let _ ← grouped .paren do
        let arguments ← rest
        setRest []
        return arguments
      return ⟨tokensBetween tokens (← rest), .other⟩) :=
    .then fun _ => .then fun _ => .then fun _ => .then fun _ => .then fun after =>
      .pure (not_lone_between first after)
  exact Leads.mono between (fun _ _ => trivial) fun _ _ more => more

theorem atom_exact (compound : Compound g.matching) : Exact (g.atom allowStruct) := by
  intro tokens
  have marked {reader : Reader Expr} (gives : reader.Gives (Marked ·.tokens)) :
      reader.Leads (·.rest = tokens) fun expr source =>
        Lone expr.tokens → tokens = expr.tokens ++ source.rest :=
    Compound.leads (compound_of_marked gives)
  refine Reads.bind_leads Reads.rest (Leads.ite (fun _ => ?_) ?_)
  · -- A literal is consumed as it is.
    intro scope source expr left here read alone
    obtain ⟨written, between, literal, same⟩ := bind_run_iff.mp read
    cases same
    exact here.symm.trans (literal_eq_ok literal alone)
  -- Everything else has another token, or it is a path.
  refine Leads.ite (fun _ => marked (marked_bind (word_marked _) fun _ => .then fun _ =>
    .then fun _ => .pure (by simp))) ?_
  refine Leads.ite (fun _ => marked wordBlock_marked) ?_
  refine Leads.ite (fun _ => marked closure_marked) ?_
  refine Leads.ite (fun first => ?_) ?_
  · rw [Bool.and_eq_true] at first
    exact Leads.mono (builtinCall_compound first.1) (fun _ known => known)
      fun _ _ more alone => absurd alone more
  refine Leads.ite (fun _ => pathExpr_compound.leads) ?_
  refine Leads.ite (fun _ => marked (marked_bind (grouped_marked _ _) fun _ => .pure (by simp))) ?_
  refine Leads.ite (fun _ => marked breakExpr_marked) ?_
  refine Leads.ite (fun _ => marked (marked_bind (word_marked _) fun _ => .then fun seen => ?_)) ?_
  · exact .ite (.then fun _ => .then fun _ => .pure (by simp)) (.then fun _ => .pure (by simp))
  refine Leads.ite (fun _ => marked valueBehind_marked) ?_
  -- Here the whole is what lies between two looks, and it begins with the word.
  refine Leads.ite (fun first => Compound.leads (.then fun _ => .then fun _ => .then fun after =>
    .pure (not_lone_between first after))) ?_
  refine Leads.ite (fun _ => marked (marked_bind (grouped_marked _ _) fun _ => .pure (by simp))) ?_
  refine Leads.ite (fun _ => marked (marked_bind (word_marked _) fun _ => .then fun _ =>
    .then fun _ => .then fun _ => .then fun _ => .pure (by simp))) ?_
  refine Leads.ite (fun _ => marked ifExpr_marked) (Leads.ite (fun _ => marked whileExpr_marked) ?_)
  refine Leads.ite (fun _ => marked forExpr_marked) (Leads.ite (fun _ => marked wordBlock_marked) ?_)
  refine Leads.ite (fun _ => compound.leads) (Leads.ite (fun _ => marked valueBehind_marked) ?_)
  refine Leads.ite (fun _ => marked wordBlock_marked) ?_
  refine Leads.ite (fun _ => marked wordBlock_marked) ?_
  refine Leads.ite (fun _ => marked blockExpr_marked) ?_
  -- A range, the word for an inferred value, and a label come last.
  refine Leads.ite (fun _ => marked (rangeTail_marked [])) ?_
  refine Leads.ite (fun _ => marked (marked_bind (word_marked _) fun _ => .pure (by simp))) ?_
  exact Leads.ite (fun _ => marked labelled_marked) (Leads.failHere _)

theorem member_marked : g.member.Gives Marked := by
  -- The point is an operator, and the member stands behind it.
  refine .bind (symbol_marked _) fun dot marked => .then fun tokens => ?_
  split
  · refine .ite (.then fun _ => .then fun found => ?_) (.then fun _ => .pure marked.append_right)
    exact .ite (.then fun _ => .pure marked.append_right.append_right.append_right)
      (.pure marked.append_right)
  · exact .then fun _ => .pure marked.append_right

/-- What stands behind an expression is no literal. -/
theorem trailers_extends (expr : Expr) : Extends expr.tokens (g.trailers expr) := by
  intro tokens
  -- A round that goes on leaves something that is no literal standing alone.
  let keeps (found : Expr) (source : Source) : Prop :=
    Lone found.tokens → found.tokens = expr.tokens ∧ source.rest = tokens
  refine Leads.mono (Leads.iterate keeps (fun found => ?_) expr)
    (fun _ here _ => ⟨rfl, here⟩) fun _ _ has => has
  -- A round that goes on puts something marked behind what has been found.
  have goesOn (more : List Token) {known : Source → Prop}
      (marked : ∀ source, known source → Marked more) :
      (pure (.inl ⟨found.tokens ++ more, .other⟩) : Reader (Expr ⊕ Expr)).Leads known
        fun result source => Sum.elim (keeps · source) (keeps · source) result :=
    Leads.pure fun source has alone => absurd alone (marked source has).append_left.not_lone
  refine Leads.bind Leads.rest fun seen => ?_
  -- A call, a member, an index or a question mark goes on.
  refine Leads.ite (fun _ => Leads.bind (grouped_marked _ _).leads fun group =>
    goesOn [group] fun _ other => .cons other) ?_
  refine Leads.ite (fun _ => Leads.bind member_marked.leads fun member =>
    goesOn member fun _ marked => marked) ?_
  refine Leads.ite (fun _ => Leads.bind (grouped_marked _ _).leads fun group =>
    goesOn [group] fun _ other => .cons other) ?_
  refine Leads.ite (fun _ => Leads.bind (symbol_marked _).leads fun sign =>
    goesOn sign fun _ marked => marked) ?_
  exact Leads.pure fun _ known => known.1

/-- The tokens of attributes are marked, or there are none. -/
theorem outerAttrTokens_extends (tokens : List Token) :
    g.outerAttrTokens.Leads (·.rest = tokens)
      fun attrs source => Marked attrs ∨ attrs = [] ∧ source.rest = tokens := by
  -- No attribute means that nothing has been consumed.
  have attrs : g.outerAttrs.Leads (·.rest = tokens)
      fun attrs source => attrs ≠ [] ∨ source.rest = tokens := by
    refine Leads.mono (Leads.many (fun attrs source => attrs ≠ [] ∨ source.rest = tokens)
      fun read => ?_) (fun _ here => .inr here) fun attrs source known => ?_
    · intro scope source attr left _ _
      exact .inl (List.cons_ne_nil _ _)
    · simpa using known
  refine Leads.bind attrs fun attrs => ?_
  -- Where there is an attribute, its `#` marks the tokens.
  cases attrs with
  | nil =>
    intro scope source written left known read
    cases read
    exact .inr ⟨rfl, known.resolve_left (· rfl)⟩
  | cons attr rest =>
    have written : (attrTokens (attr :: rest)).Gives Marked := by
      refine .then fun _ => .pure ?_
      rw [List.flatMap_cons, Attribute.tokens]
      simp only [List.append_assoc]
      exact (Marked.symbolAt attr.pos (by decide)).append_right
    exact Leads.mono written.leads (fun _ known => known) fun _ _ marked => .inl marked

theorem readUnary_exact (compound : Compound g.matching) : Exact (g.readUnary allowStruct) := by
  intro tokens
  refine Leads.bind (outerAttrTokens_extends tokens) fun attrs => Leads.bind Leads.rest fun seen => ?_
  refine Leads.ite (fun _ => Compound.leads (compound_of_marked ?_))
    (Leads.ite (fun _ => Compound.leads (compound_of_marked ?_)) ?_)
  · -- A reference begins with its sign.
    refine .bind (symbol_marked _) fun amp marked => .then fun behind => ?_
    -- The words between the sign and the target may be there or not.
    have target (raw mut_ const_ : List Token) :
        (do
          let target ← g.unary allowStruct
          return ⟨attrs ++ amp ++ raw ++ mut_ ++ const_ ++ target.tokens, .other⟩ :
            Reader Expr).Gives (Marked ·.tokens) :=
      .then fun target => .pure
        marked.append_left.append_right.append_right.append_right.append_right
    have words (raw mut_ : List Token) (isRaw : Bool) :
        (do
          let const_ ← if isRaw && mut_.isEmpty then pure [← word "const"] else pure []
          let target ← g.unary allowStruct
          return ⟨attrs ++ amp ++ raw ++ mut_ ++ const_ ++ target.tokens, .other⟩ :
            Reader Expr).Gives (Marked ·.tokens) :=
      .ite (.then fun _ => .then fun _ => target _ _ _) (.then fun _ => target _ _ _)
    exact .ite (.then fun _ => .then fun _ => words _ _ _) (.then fun _ => .then fun _ => words _ _ _)
  · -- So does what any other sign stands before.
    have target (sign : List Token) (marked : Marked sign) :
        (do
          let target ← g.unary allowStruct
          return ⟨attrs ++ sign ++ target.tokens, .other⟩ : Reader Expr).Gives (Marked ·.tokens) :=
      .then fun target => .pure marked.append_left.append_right
    exact .ite (.bind (symbol_marked _) target)
      (.ite (.bind (symbol_marked _) target) (.bind (symbol_marked _) target))
  · -- Without a sign there is an operand, which has consumed its tokens if there is nothing else.
    intro scope source expr left known read
    obtain ⟨start, between, got, operand⟩ := bind_run_iff.mp read
    rw [here_eq] at got
    cases got
    obtain ⟨first, behind, atom, goesOn⟩ := bind_run_iff.mp operand
    obtain ⟨whole, last, more, given⟩ := bind_run_iff.mp goesOn
    split at given
    · cases given
    · cases given
      rcases known.1 with marked | ⟨rfl, here⟩
      · exact fun alone => absurd alone marked.append_right.not_lone
      · intro alone
        obtain ⟨same, stays⟩ := trailers_extends first _ rfl more alone
        have consumed := atom_exact compound tokens here atom (same ▸ alone)
        rw [consumed, ← same, ← stays]
        rfl

/-- What stands behind the left side of an operator is no literal. -/
theorem readBinary_extends (left : Expr) (base : Nat) :
    Extends left.tokens (g.readBinary left allowStruct base) := by
  intro tokens
  -- What is kept: if the whole is one literal, then nothing has been added to the left side.
  let keeps (found : Expr) (source : Source) : Prop :=
    Lone found.tokens → found.tokens = left.tokens ∧ source.rest = tokens
  refine Leads.mono (Leads.iterate keeps (fun found => ?_) left)
    (fun _ here _ => ⟨rfl, here⟩) fun _ _ has => has
  have ends : (pure (.inr found) : Reader (Expr ⊕ Expr)).Leads (keeps found)
      fun result source => Sum.elim (keeps · source) (keeps · source) result :=
    Leads.pure fun _ known => known
  -- A round that goes on puts something marked behind what has been found.
  have goesOn {step : Reader (Expr ⊕ Expr)} {known : Source → Prop}
      (gives : step.Gives fun result => ∃ next, result = .inl next ∧ Marked next.tokens) :
      step.Leads known fun result source => Sum.elim (keeps · source) (keeps · source) result := by
    refine Leads.mono gives.leads (fun _ has => has) fun result source => ?_
    rintro ⟨next, rfl, marked⟩ alone
    exact absurd alone marked.not_lone
  refine Leads.bind Leads.rest fun seen => Leads.mono (?_ : Leads _ (keeps found) _)
    (fun _ known => known.1) fun _ _ has => has
  refine Leads.ite (fun _ => ends) ?_
  split
  · refine Leads.ite (fun _ => ends) (Leads.ite (fun _ => Leads.failHere _) (goesOn ?_))
    exact .bind (symbol_marked _) fun operator marked => .then fun right =>
      .pure ⟨_, rfl, marked.append_left.append_right⟩
  · refine Leads.ite (fun _ => goesOn ?_) (Leads.ite (fun _ => goesOn ?_)
      (Leads.ite (fun _ => goesOn ?_) ends))
    · exact .bind (symbol_marked _) fun operator marked => .then fun right =>
        .pure ⟨_, rfl, marked.append_left.append_right⟩
    · exact .bind (rangeTail_marked _) fun range marked => .pure ⟨_, rfl, marked⟩
    · refine .bind (word_marked _) fun as_ other => .then fun ty => .then fun behind => ?_
      split
      · exact .failHere _
      · exact .pure ⟨_, rfl, (Token.Marked.append_left ⟨as_, by simp, other⟩).append_right⟩

theorem readExpr_exact (unary : Exact (g.unary allowStruct))
    (binary : ∀ left, Extends left.tokens (g.binary left allowStruct 0)) :
    Exact (g.readExpr allowStruct) := by
  -- Nothing is added behind a literal that stands alone, so the operand is all there is.
  intro tokens scope source expr left here read alone
  obtain ⟨first, between, operand, behind⟩ := bind_run_iff.mp read
  obtain ⟨same, stays⟩ := binary first _ rfl behind alone
  have consumed := unary tokens here operand (same ▸ alone)
  rw [consumed, ← same, ← stays]

theorem readMatching_compound : Compound g.readMatching :=
  compound_of_marked (marked_bind (word_marked _) fun _ => .then fun _ => .then fun _ =>
    .pure (by simp))

/-- Readers of expressions that consume nothing but a literal if they give one that stands alone. -/
structure TellsLiterals (g : Grammar) : Prop where
  expr (allowStruct : Bool) : Exact (g.expr allowStruct)
  unary (allowStruct : Bool) : Exact (g.unary allowStruct)
  binary (left : Expr) (allowStruct : Bool) (base : Nat) :
    Extends left.tokens (g.binary left allowStruct base)
  matching : Compound g.matching

/-- Every number of layers tells literals. -/
theorem ofDepth_tellsLiterals (depth : Nat) : TellsLiterals (ofDepth depth) := by
  -- Each layer tells literals because the layer below it does.
  induction depth with
  | zero =>
    exact ⟨fun _ _ => Leads.failHere _, fun _ _ => Leads.failHere _, fun _ _ _ _ => Leads.failHere _,
      Leads.failHere _⟩
  | succ depth ih =>
    exact ⟨fun _ => readExpr_exact (ih.unary _) fun _ => ih.binary _ _ _,
      fun _ => readUnary_exact ih.matching, fun left _ base => readBinary_extends left base,
      readMatching_compound⟩

/-! Arguments with a literal as their value. -/

theorem metaValue_exact (known : TellsLiterals g) : Exact g.metaValue := by
  -- A literal alone is read by itself, and any other value by the reader of expressions.
  intro tokens
  refine Reads.bind_leads Reads.rest ?_
  split
  · intro scope source expr left here read alone
    obtain ⟨written, between, literal, same⟩ := bind_run_iff.mp read
    cases same
    exact here.symm.trans (literal_eq_ok literal alone)
  · exact Leads.ite (fun _ => Leads.failHere _) (known.expr true tokens)

/-- Without content nothing is consumed, and a literal as the value stands behind an equals sign. -/
theorem metaContent_exact (known : TellsLiterals g) (tokens : List Token) :
    g.metaContent.Leads (·.rest = tokens) fun content source =>
      (content = .none → source.rest = tokens) ∧
        ∀ pos value, content = .value pos value → Lone value.tokens →
          ∃ joint, tokens = .punct '=' joint pos :: (value.tokens ++ source.rest) := by
  refine Reads.bind_leads Reads.rest (Leads.ite (fun _ => ?_) (Leads.ite (fun sign => ?_) ?_))
  · -- A group becomes a list.
    refine Leads.bind anyGroup_gives.leads fun token => ?_
    rintro scope source content left ⟨delim, body, opened, closed, rfl⟩ read
    cases read
    constructor
    · intro none
      cases none
    · intro pos value same
      cases same
  · -- An equals sign is one token, and what stands behind it is read as a value.
    intro scope source content left here read
    obtain ⟨pos, _, got, read⟩ := bind_run_iff.mp read
    rw [here_eq] at got
    cases got
    obtain ⟨_, _, sign, read⟩ := bind_run_iff.mp read
    obtain ⟨after, equals, -, rfl⟩ := symbol_run_iff.mp sign
    obtain ⟨⟨value, heads⟩, between, taken, read⟩ := bind_run_iff.mp read
    cases read
    have first : Look.afterChars? ['='] source.rest = some after := equals
    obtain ⟨joint, pos, begins⟩ := Look.cons_of_afterChars? first
    have exact : (Reader.collectingHeads g.metaValue).Leads (·.rest = after)
        fun result source => Lone result.1.tokens → after = result.1.tokens ++ source.rest :=
      @Leads.collectingHeads Expr _ (· = after)
        (fun value left => Lone value.tokens → after = value.tokens ++ left)
        (metaValue_exact known after)
    constructor
    · intro none
      cases none
    · intro place written same alone
      cases same
      refine ⟨joint, here.symm.trans (begins.trans ?_)⟩
      rw [begins, exact rfl taken alone]
      rfl
  · -- Anything else is not read at all.
    refine Leads.pure fun source here => ⟨fun _ => here, fun pos value same => ?_⟩
    cases same

/-- Only the first name of a chain can be its single one, and it is read of that name alone. -/
theorem plainChain_exact (tokens : List Token) :
    (chain (fun tokens => !opensPlainSegment tokens) "::" anyName).Leads (·.rest = tokens)
      fun result source => ∀ name, result = ([name], false) → tokens = name.token :: source.rest := by
  -- Before the first name nothing has been consumed.
  let keeps (read : List Name) (source : Source) : Prop := read ≠ [] ∨ source.rest = tokens
  refine Leads.mono (Leads.iterate keeps (fun read => ?_) []) (fun _ here => .inr here)
    fun _ _ has => has
  refine Leads.bind Leads.rest fun seen => Leads.ite (fun _ => ?_) ?_
  · refine Leads.pure fun source known name same => ?_
    cases read <;> simp at same
  · have name : anyName.Leads (fun source => keeps read source ∧ seen = source.rest)
        fun name source => read ≠ [] ∨ tokens = name.token :: source.rest := by
      rintro scope source name left ⟨known | here, -⟩ taken
      · exact .inl known
      · exact .inr (here.symm.trans (anyName_eq_ok taken))
    refine Leads.bind name fun name => Leads.bind (Leads.sees _) fun goesOn =>
      Leads.ite (fun _ => ?_) ?_
    · exact Leads.bind (fun _ _ _ _ _ _ => trivial) fun _ => Leads.pure fun _ _ => .inl (by simp)
    · -- If the chain ends here with one name, there has been none before it.
      refine Leads.pure fun source known other same => ?_
      have alone : name :: read = [other] := by
        simpa using congrArg (List.reverse ∘ Prod.fst) same
      obtain ⟨rfl, rfl⟩ := List.cons.inj alone
      exact known.1.resolve_left (· rfl)

/-- What is made of the names of a chain is a single name only if they are, without colons. -/
theorem plainSegments_exact (tokens : List Token) (leading : Option Position) (segments : List Name)
    (trailing : Bool) :
    (if segments.isEmpty then do
      let _ ← Reader.name
      failHere "expected identifier"
    else if trailing then failHere "expected path segment after `::`"
    else return ⟨leading, segments.map fun name => ⟨name, .none⟩⟩ : Reader Path).Leads
      (fun source => leading = none → ∀ name, (segments, trailing) = ([name], false) →
        tokens = name.token :: source.rest)
      fun path source => ∀ name, path.singleName? = some name →
        tokens = name.token :: source.rest := by
  -- Without names, and with colons at the end, there is no path at all.
  refine Leads.ite (fun _ => ?_) ?_
  · exact Leads.bind (fun _ _ _ _ _ _ => trivial) fun _ => Leads.failHere _
  cases trailing with
  | true => exact Leads.failHere _
  | false =>
    refine Leads.pure fun source known name single => ?_
    obtain ⟨rfl, whole⟩ := Path.mk.inj (Path.singleName?_eq_some_iff.mp single)
    obtain ⟨segment, rfl, same⟩ := List.map_eq_singleton_iff.mp whole
    cases same
    exact known rfl name rfl

/-- A path that is a single name is read of that name alone. -/
theorem plainPath_exact (tokens : List Token) :
    plainPath.Leads (·.rest = tokens) fun path source =>
      ∀ name, path.singleName? = some name → tokens = name.token :: source.rest := by
  -- A name that stands alone is not behind a double colon.
  have first (leading : Option Position) :
      (chain (fun tokens => !opensPlainSegment tokens) "::" anyName).Leads
        (fun source => leading = none → source.rest = tokens) fun result source =>
          leading = none → ∀ name, result = ([name], false) →
            tokens = name.token :: source.rest := by
    cases leading with
    | none => exact Leads.mono (plainChain_exact tokens) (fun _ known => known rfl) fun _ _ has _ => has
    | some pos =>
      intro scope source result left _ _ impossible
      cases impossible
  have read (leading : Option Position) :=
    Leads.bind (first leading) fun result => plainSegments_exact tokens leading result.1 result.2
  refine Leads.bind (Leads.sees _) fun absolute => Leads.ite (fun _ => ?_) ?_
  · refine Leads.bind (fun _ _ _ _ _ _ => trivial) fun pos => ?_
    refine Leads.bind (fun _ _ _ _ _ _ => trivial) fun _ => ?_
    exact Leads.bind (Leads.pure fun _ _ none => by cases none) read
  · exact Leads.bind (Leads.pure fun _ known _ => known.1) read

/--
An argument with a single name as its path is read of that name, and of an equals sign and a literal
behind it if a literal that stands alone is its value.
-/
theorem metaInside_exact (known : TellsLiterals g) (tokens : List Token) :
    g.metaInside.Leads (·.rest = tokens) fun entry source =>
      ∀ name, entry.path.singleName? = some name →
        (entry.content = .none → tokens = name.token :: source.rest) ∧
          ∀ pos value, entry.content = .value pos value → Lone value.tokens →
            ∃ joint,
              tokens = name.token :: .punct '=' joint pos :: (value.tokens ++ source.rest) := by
  -- The content behind the path is read alike, whichever of the two readers has read the path.
  have content (path : Path) :
      (do return ⟨path, ← g.metaContent⟩ : Reader Meta).Leads
        (fun source => ∀ name, path.singleName? = some name → tokens = name.token :: source.rest)
        fun entry source => ∀ name, entry.path.singleName? = some name →
          (entry.content = .none → tokens = name.token :: source.rest) ∧
            ∀ pos value, entry.content = .value pos value → Lone value.tokens →
              ∃ joint,
                tokens = name.token :: .punct '=' joint pos :: (value.tokens ++ source.rest) := by
    intro scope source entry left begins read name single
    obtain ⟨content, between, taken, same⟩ := bind_run_iff.mp read
    cases same
    obtain ⟨none, value⟩ := metaContent_exact known source.rest rfl taken
    rw [begins name single]
    refine ⟨fun empty => by rw [none empty], fun pos written same alone => ?_⟩
    obtain ⟨joint, behind⟩ := value pos written same alone
    exact ⟨joint, by rw [behind]⟩
  -- With a word for unsafe attributes any name is a path, and else a path is read.
  refine Leads.bind (Leads.sees _) fun unsafe_ => Leads.ite (fun _ => ?_) ?_
  · have word : anyName.Leads (fun source => source.rest = tokens)
        fun name source => tokens = name.token :: source.rest :=
      fun _ _ _ _ here read => here.symm.trans (anyName_eq_ok read)
    refine Leads.bind (Leads.mono word (fun _ known => known.1) fun _ _ has => has) fun name => ?_
    refine Leads.mono (content (.ofName name)) (fun source begins other single => ?_)
      fun _ _ has => has
    cases single
    exact begins
  · exact Leads.bind (Leads.mono (plainPath_exact tokens) (fun _ known => known.1)
      fun _ _ has => has) content

end Grammar

end KeyedCoding
