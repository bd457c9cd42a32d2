import KeyedCoding.Grammar
import KeyedCoding.Proofs.Token.Locality

/-!
Expressions before a comma: what is read of an expression on its own is also read of it as an
argument. A lemma about a reader has the name of the reader; groups are read alike wherever they
stand, so only the readers outside of groups have one.
-/

namespace KeyedCoding.Grammar

open Reader Look

/-! Looks. -/

theorem blind_seesAssign : Blind seesAssign :=
  .and (.symbol (by decide)) (.not (.symbol (by decide)))

theorem blind_seesPlaceWord : Blind seesPlaceWord := .any fun _ _ => .word _

theorem blind_seesFunctionType : Blind seesFunctionType := .any fun _ _ => .word _

theorem blind_seesTypePath : Blind seesTypePath :=
  .or (.or (.or .name blind_seesPlaceWord) (.symbol (by decide))) (.symbol (by decide))

theorem blind_seesBound : Blind seesBound :=
  .or (.or (.or (.or .anyWord (.symbol (by decide))) (.symbol (by decide))) .lifetime) (.group _)

theorem blind_seesAlternative : Blind seesAlternative :=
  .and (.and (.symbol (by decide)) (.not (.symbol (by decide)))) (.not (.symbol (by decide)))

theorem blind_seesArguments (inExpr : Bool) : Blind (seesArguments inExpr) :=
  .or (.and (.and (.const _) (.symbol (by decide))) (.not (.symbol (by decide))))
    (.behindColons (.symbol (by decide)))

theorem blind_seesSegment : Blind seesSegment := .behindColons (.not (.group _))

theorem blind_seesAsyncBlock : Blind seesAsyncBlock :=
  .word_next _ (.or (.group _) (.word_next _ (.group _)))

theorem blind_endsPatternRange : Blind endsPatternRange :=
  .or (.or (.ends (by decide) (by decide))
    (.and (.symbol (by decide)) (.not (.symbol (by decide))))) (.word _)

theorem blind_endsRange (allowStruct : Bool) : Blind (endsRange allowStruct) :=
  .or (.or (.or (.ends (by decide) (by decide))
    (.and (.symbol (by decide)) (.not (.symbol (by decide))))) (.and (.const _) (.group _))) (.word _)

theorem blind_operator? : Blind operator? := by
  intro tail tokens
  have plain : ∀ operator ∈ operators, ',' ∉ operator.1.toList := by decide
  unfold operator?
  -- The operators are tried one after the other.
  generalize operators = choices at plain
  induction choices with
  | nil => rfl
  | cons operator more ih =>
    rw [List.forall_mem_cons] at plain
    rw [List.find?_cons, List.find?_cons, Blind.symbol plain.1 tail tokens, ih plain.2]

theorem blind_nextBinding : Blind nextBinding := by
  -- Each operator that the test looks for is told by the first tokens.
  intro tail tokens
  rw [nextBinding, nextBinding, blind_operator? tail tokens, blind_seesAssign tail tokens,
    Blind.symbol (by decide) tail tokens, Blind.word _ tail tokens]

theorem blind_seesClosure : Blind seesClosure := by
  -- The lifetimes of a closure are told by three tokens.
  have generic : Blind fun tokens => Look.word "for" tokens && Look.symbol "<" (tokens.drop 1) &&
      (Look.lifetime ((tokens.drop 1).drop 1) || Look.symbol ">" ((tokens.drop 1).drop 1)) := by
    have nested : Blind fun tokens => Look.symbol "<" tokens &&
        (Look.lifetime (tokens.drop 1) || Look.symbol ">" (tokens.drop 1)) :=
      .symbol_next rfl (by decide) (.or .lifetime (.symbol (by decide)))
    intro tail tokens
    have same := Blind.word_next "for" nested tail tokens
    simpa only [Bool.and_assoc] using same
  refine .or (.or (.or (.or (.or (.symbol (by decide)) (.word _)) generic) ?_) (.word _)) ?_
  · exact .word_next _ (.not (.group _))
  · exact .word_next _ (.or (.symbol (by decide)) (.word _))

theorem blind_seesPathPattern : Blind seesPathPattern := by
  -- A path, a qualified path with `<` or `::`, or one of the words for places.
  refine .or (.or (.or (.or ?_ ?_) (.symbol (by decide))) (.symbol (by decide)))
    (.any fun _ _ => .word _)
  · -- Behind a name it is a path only before `::`, `!` or a group.
    refine .name_next (.or (.or (.any fun spelling inside => .symbol ?_) (.group _)) (.group _))
    revert spelling
    decide
  · exact .word_next _ (.symbol (by decide))

theorem blind_seesExpr : Blind seesExpr := by
  -- An operator that a longer one does not begin with; none of these holds a comma.
  have apart {spelling : String} {others : List String} (plain : ',' ∉ spelling.toList)
      (each : ∀ other ∈ others, ',' ∉ other.toList) :
      Blind fun tokens => Look.symbol spelling tokens && !others.any (Look.symbol · tokens) :=
    .and (.symbol plain) (.not (.any fun other inside => .symbol (each other inside)))
  have group : Blind seesGroup := .or (.or (.group _) (.group _)) (.group _)
  -- One look for each way in which an expression can start, in the order of the definition.
  refine .or (.or (.or (.or (.or (.or (.or (.or ?_ ?_) ?_) ?_) ?_) ?_) ?_) ?_) (.symbol (by decide))
  · exact .or (.or (.or (.or (.and .anyWord (.not (.word _))) group) .literal)
      (apart (by decide) (by decide))) (apart (by decide) (by decide))
  · exact apart (by decide) (by decide)
  · exact apart (by decide) (by decide)
  · exact apart (by decide) (by decide)
  · exact .symbol (by decide)
  · exact apart (by decide) (by decide)
  · exact .symbol (by decide)
  · exact .lifetime

theorem blind_afterCast? : Blind afterCast? := by
  -- Only the look at a method call reaches behind the next token.
  have method : Blind fun tokens => Look.name tokens &&
      (Look.group .paren (tokens.drop 1) || Look.symbol "::" (tokens.drop 1)) :=
    .name_next (.or (.group _) (.symbol (by decide)))
  intro tail tokens
  unfold afterCast?
  rw [@Blind.symbol "?" (by decide) tail tokens, Blind.group .bracket tail tokens,
    Blind.group .paren tail tokens, @Blind.symbol "." (by decide) tail tokens,
    @Blind.symbol ".." (by decide) tail tokens]
  dsimp only
  split
  · -- Behind the point there are the tokens of the member, and behind these the tail.
    rename_i seen
    rcases tokens with _ | ⟨token, more⟩
    · cases seen
    · have same := method tail more
      dsimp only at same
      rw [List.cons_append, List.drop_succ_cons, List.drop_succ_cons, List.drop_zero,
        List.drop_zero, Blind.word _ tail more, same]
  · rfl

/-- The tokens between two places do not depend on what stands behind both. -/
theorem tokensBetween_append (before after more : List Token) :
    tokensBetween (before ++ more) (after ++ more) = tokensBetween before after := by
  -- What is taken is the difference of the two lengths, and it lies within the first list.
  rw [tokensBetween, tokensBetween, List.length_append, List.length_append,
    Nat.add_sub_add_right, List.take_append_of_le_length (Nat.sub_le _ _)]

/-- What a grammar reads outside of groups it also reads before a tail. -/
structure Local (g : Grammar) : Prop where
  ty (allowPlus : Bool) : (g.ty allowPlus).Local
  path (inExpr : Bool) : (g.path inExpr).Local
  expr (allowStruct : Bool) : (g.expr allowStruct).Local
  unary (allowStruct : Bool) : (g.unary allowStruct).Local
  binary (left : Expr) (allowStruct : Bool) (base : Nat) :
    (g.binary left allowStruct base).Local
  matching : g.matching.Local
  pattern : g.pattern.Local

namespace Local

variable {g : Grammar}

/-! Readers that refer to others only inside of groups. -/

theorem attr (owner : Bool) : (g.attr owner).Eager := by
  -- The mark and the group stand at the front, and an attribute of an owner has one mark more.
  refine .here_cons fun pos => .eager (.symbol _) fun _ => ?_
  refine .ite (.bind (.symbol _) fun _ => ?_) ?_ <;>
    exact .bind (.within _ _) fun _ => .pure _

theorem attrTokens (attrs : List Attribute) : (Grammar.attrTokens attrs).Local := by
  -- An attribute is noted, and it adds its tokens; the repetition over all of them is over a fixed
  -- list.
  refine .bind (.forIn (fun attr state => ?_) _) fun _ => .pure _
  split
  · exact .bind (.note _) fun _ => .pure _
  · exact .pure _

theorem outerAttrTokens : g.outerAttrTokens.Local :=
  .bind (.many (.symbol (by decide)) (attr false)) fun _ => attrTokens _

theorem anyGroup : Grammar.anyGroup.Eager := by
  -- It fails at the end and at all tokens but a group, so nothing behind that token is looked at.
  refine Single.eager ⟨.failsAt rfl, fun token => ?_⟩
  cases token with
  | group delim body opened closed => exact .inl ⟨_, fun more _ _ _ => rfl⟩
  | _ => exact .inr fun more => .failsAt rfl

theorem block : g.block.Eager := .grouped _ _

theorem constArgument : g.constArgument.Local :=
  .rest fun tokens => .test tokens .literal (.bind .literal fun _ => .pure _)
    (.test tokens .name (.bind .name fun _ => .pure _)
      (.test tokens (.group _) (.bind (.collectingHeads block) fun _ => .pure _) (.failHere _)))

theorem binder : g.binder.Local := by
  -- Without its word there is no binder; with it there is a list up to the closing angle bracket.
  refine .bind (.sees (.word _)) fun _ => .ite (.pure _) (.bind (.word _) fun _ => ?_)
  refine .bind (.symbol _) fun _ => .bind (.listUntil (.symbol (by decide)) rfl ?_) fun _ => ?_
  · exact .bind outerAttrTokens fun _ => .bind .lifetime fun _ => .pure _
  · exact .bind (.symbol _) fun _ => .pure _

theorem segmentName : Grammar.segmentName.Eager :=
  .rest fun tokens => .test tokens (.any fun _ _ => .word _) .anyName .name

theorem capture : Grammar.capture.Local :=
  .rest fun tokens => .test tokens .lifetime (.bind .lifetime fun _ => .pure _)
    (.test tokens (.or .name (.word _)) (.bind .anyName fun _ => .pure _) (.failHere _))

theorem callingWords : Grammar.callingWords.Local := by
  -- The convention may be named by a text behind its word.
  refine .bind (.word? _) fun _ => .bind (.sees (.word _)) fun _ => ?_
  refine .ite (.bind (.word _) fun _ => .bind (.sees .text) fun _ => ?_) (.pure _)
  exact .ite (.bind .text fun _ => .bind (.pure _) fun _ => .pure _)
    (.bind (.pure _) fun _ => .pure _)

theorem pathTokens (ty : Ty) : (Grammar.pathTokens ty).Local := by
  -- The heads of a path are noted, and those of another type are not.
  unfold Grammar.pathTokens
  split <;> exact .bind (.note _) fun _ => .pure _

theorem patternGroup (delim : Delimiter) : (g.patternGroup delim).Eager := .grouped _ _

theorem patternLimits : Grammar.patternLimits.Local := by
  -- A limit is one of two operators, or there is none.
  refine .rest fun tokens => .test tokens (.symbol (by decide)) ?_ (.test tokens
    (.symbol (by decide)) ?_ ?_) <;>
  exact .bind (.symbol _) fun _ => .pure _

theorem rangeLimits : Grammar.rangeLimits.Eager := by
  -- A range has one of two operators, and without them it fails.
  refine .rest fun tokens => .test tokens (.symbol (by decide)) ?_ (.test tokens
    (.and (.symbol (by decide)) (.not (.symbol (by decide)))) ?_ (.failHere _)) <;>
  exact .eager (.symbol _) fun _ => .pure _

theorem floatMember (text : String) (pos : Position) :
    (Grammar.floatMember text pos).Local := by
  -- The parts come from the text of the number, so no token is read for them.
  refine .bind (.mapM fun part => ?_) fun _ => .pure _
  split
  · exact .pure _
  · exact .failAt _ _

theorem wordBlock (spelling : String) : (g.wordBlock spelling).Local :=
  .bind (.word _) fun _ => .bind block fun _ => .pure _

theorem blockExpr : g.blockExpr.Local := .bind block fun _ => .pure _

theorem builtinCall : Grammar.builtinCall.Local := by
  -- The macro takes its words, its name and its group, and what it has taken is told by lengths.
  refine .rest fun tokens => .bind (.word _) fun _ => .bind (.symbol _) fun _ => ?_
  refine .bind .name fun _ => .bind (.grouped _ _) fun _ => .rest_pure fun after _ _ => ?_
  simp only [tokensBetween_append]

section

variable (known : Grammar.Local g)

include known

/-! Paths, generic arguments and bounds. -/

theorem namedArgument (name : Name) (arguments : Arguments) :
    (g.namedArgument name arguments).Local :=
  .bind (.symbol _) fun _ => .rest fun tokens => .test tokens (.or .literal (.group _))
    (.bind constArgument fun _ => .pure _) (.bind (known.ty _) fun _ => .pure _)

theorem callArguments : g.callArguments.Local :=
  .bind (.within _ _) fun _ => .bind (.sees (.symbol (by decide))) fun _ => .ite
    (.bind (.symbol _) fun _ => .bind (known.ty _) fun _ => .pure _) (.pure _)

theorem traitBound (allowConst : Bool) : (g.traitBound allowConst).Local := by
  have called : Blind fun tokens => Look.group .paren tokens ||
      (Look.symbol "::" tokens && Look.group .paren (tokens.drop 2)) :=
    .or (.group _) (.behindColons (.group _))
  intro inner before
  refine .bind binder fun before => .here fun place => ?_
  refine .bind (.sees (.group _)) fun bracketed => .bind (.sees (.word _)) fun marked => ?_
  -- The mark of a bound may stand in brackets, or alone, or be missing.
  refine .ite (.bind (.within _ _) fun _ => .ite .failAt_bind (.bind (.pure _)
    fun conditional => ?_)) (.ite (.bind (.word _) fun _ => .ite .failAt_bind
      (.bind (.pure _) fun conditional => ?_)) (.bind (.pure _) fun conditional => ?_))
  all_goals
    refine .bind (.symbol? (by decide)) fun relaxed => ?_
    refine .ite (.bind binder fun binder => ?_) (.bind (.pure _) fun binder => ?_)
  all_goals
    -- Behind the binder stand a path and, for some traits, the types of a call.
    refine .bind (known.path _) fun path => .rest fun tokens => ?_
    rcases path.lastSegment? with _ | ⟨name, arguments⟩
    · exact .bind (.pure _) fun path => .ite (.pure _) (.pure _)
    · refine .test tokens (.and called (.const _)) (.bind (.symbol? (by decide)) fun _ =>
        .bind known.callArguments fun _ => .bind (.pure _) fun path => ?_)
          (.bind (.pure _) fun path => ?_) <;>
      exact .ite (.pure _) (.pure _)

theorem bound (allowCapture allowConst : Bool) :
    (g.bound allowCapture allowConst).Local := by
  -- A lifetime, a list of what is captured, or a trait with or without its parentheses.
  refine .rest fun tokens => .test tokens .lifetime (.bind .lifetime fun _ => ?_)
    (.test tokens (.word _) (.here fun place => .bind (.word _) fun _ => ?_) ?_)
  · split <;> exact .pure _
  · -- What is captured is read in any case; where it is not allowed the reader fails behind it.
    refine .bind (.symbol _) fun _ => .bind (.listUntil (.symbol (by decide)) rfl capture) fun _ => ?_
    exact .bind (.symbol _) fun _ => .ite (.failAt _ _) (.pure _)
  · simp only [fun setting : Setting => Blind.group .paren setting.tail tokens]
    refine .ite (.bind (.within _ _) fun _ => .bind (.pure _) fun bound => ?_)
      (.bind (known.traitBound _) fun bound => ?_)
    all_goals
      split
      · exact .pure _
      · -- A bound that is kept as written lies between two looks at the rest.
        exact .rest_pure fun after _ _ => by simp only [tokensBetween_append]

theorem argument : g.argument.Inner := by
  refine .rest fun tokens => .test tokens (.lifetime_next (.not (.symbol (by decide))))
    (.bind .lifetime fun _ => ?_) (.test tokens (.or .literal (.group _))
      (.bind constArgument fun _ => .pure _) (.bind (known.ty _) fun ty => ?_))
  · split <;> exact .pure _
  split
  · refine .rest fun tokens => .test tokens (.symbol (by decide)) (known.namedArgument _ _)
      (.test tokens (.symbol (by decide)) (.bind (.symbol _) fun _ => ?_) (.pure _))
    refine .bind (.chain (by decide) (fun tail token more => ?_) (known.bound _ _)) fun _ => .pure _
    -- A comma ends the bounds, but here one more token has been seen before any.
    have comma : Look.symbol "," (token :: (more ++ tail.tokens)) =
        Look.symbol "," (token :: more) :=
      (symbol_cons rfl token _).trans (symbol_cons rfl token _).symm
    have angle := @Blind.symbol ">" (by decide) tail (token :: more)
    simp only [List.cons_append] at angle ⊢
    rw [comma, angle]
  · exact .pure _

theorem angleArguments : g.angleArguments.Local :=
  .bind (.symbol? (by decide)) fun _ => .bind (.symbol _) fun _ =>
    .bind (.listUntil (.symbol (by decide)) rfl known.argument) fun _ =>
      .bind (.symbol _) fun _ => .pure _

theorem segment (inExpr : Bool) : (g.segment inExpr).Local :=
  .bind segmentName fun _ => .rest fun tokens =>
    .test tokens (.and (.const _) (blind_seesArguments _))
      (.bind known.angleArguments fun _ => .pure _) (.pure _)

theorem readPath (inExpr : Bool) : (g.readPath inExpr).Local := by
  -- The leading colons change the path that is built, but not how its segments are read.
  refine .bind (.sees (.symbol (by decide))) fun _ => ?_
  refine .ite (.here_cons fun pos => .eager (.symbol _) fun _ =>
    .bind (.pure _) fun leading => ?_) (.bind (.pure _) fun leading => ?_) <;>
  exact .bind (known.segment _) fun _ => .bind (.many blind_seesSegment
    (.eager (.symbol _) fun _ => known.segment _)) fun _ => .pure _

theorem projection (inExpr : Bool) : (g.projection inExpr).Local := by
  refine .here_cons fun pos => .eager (.symbol _) fun _ => ?_
  -- The trait of the projection may be missing; what follows it is read alike.
  refine .bind (known.ty _) fun _ => .bind (.sees (.word _)) fun _ => .ite
    (.bind (.word _) fun _ => .bind (known.path _) fun _ => .bind (.pure _) fun _ => ?_)
      (.bind (.pure _) fun _ => ?_) <;>
  exact .bind (.symbol _) fun _ => .bind (.symbol _) fun _ => .bind (known.segment _) fun _ =>
    .bind (.many (.symbol (by decide)) (.eager (.symbol _) fun _ => known.segment _)) fun _ => .pure _

theorem qualifiedPath (inExpr : Bool) : (g.qualifiedPath inExpr).Local :=
  .bind (.sees (.symbol (by decide))) fun _ =>
    .ite (known.projection _) (.bind (known.path _) fun _ => .pure _)

/-! Types. -/

theorem boundList (allowPlus allowCapture allowConst : Bool) :
    (g.boundList allowPlus allowCapture allowConst).Local := by
  -- A round reads a bound and, if more are allowed, the plus behind it.
  refine .iterate (fun read => ?_) _
  refine .bind (known.bound _ _) fun _ => ?_
  dsimp only
  refine .bind (.sees (.symbol (by decide))) fun _ => ?_
  refine .ite (.last _) ?_
  exact .eager (.symbol _) fun _ => .rest fun tokens =>
    .test tokens (.or blind_seesBound (.and (.const _) (.group _))) (.pure _) (.pure _)

theorem objectBounds (keyword : BoundsKeyword) (pos : Setting → Position) (message : String)
    (allowPlus allowCapture allowConst : Bool) {inner : Bool} {before : Option (List Token)} :
    Steady (fun _ => True) inner before fun setting =>
      g.objectBounds keyword (pos setting) message allowPlus allowCapture allowConst :=
  .bind (known.boundList _ _ _) fun _ => .ite (.pure _) (.failAt _ _)

theorem bareObject (allowPlus : Bool) : (g.bareObject allowPlus).Local :=
  .here fun _ => known.objectBounds _ _ _ _ _ _

theorem plusBounds : g.plusBounds.Local :=
  .many (.symbol (by decide)) (.eager (.symbol _) fun _ => known.bound _ _)

theorem parenthesized (allowPlus : Bool) : (g.parenthesized allowPlus).Local := by
  -- What the parentheses hold has been read without a look at the tail.
  refine .bind (.within _ _) fun ⟨found, _, _⟩ => ?_
  cases found with
  | whole ty => exact .pure _
  | relaxed bound => exact .bind known.plusBounds fun _ => .pure _
  | single ty =>
    refine .bind (.sees (.symbol (by decide))) fun _ => .ite ?_ (.pure _)
    split
    · exact .bind known.plusBounds fun _ => .pure _
    · exact .pure _

theorem functionType (binder : List Token) : (g.functionType binder).Local := by
  -- The inputs stand in one group, and an arrow decides about the output.
  refine .bind callingWords fun _ => .bind (.word _) fun _ => .bind (.within _ _) fun _ => ?_
  refine .bind (.bind (.sees (.symbol (by decide))) fun _ => ?_) fun _ => .pure _
  exact .ite (.bind (.symbol _) fun _ => .bind (known.ty _) fun _ => .pure _) (.pure _)

theorem pathType (binder : List Token) (allowPlus : Bool) :
    (g.pathType binder allowPlus).Local := by
  refine .bind (known.qualifiedPath _) fun ty => ?_
  split
  · -- An invocation, several bounds with the path as the first of them, or the path alone.
    refine .rest fun tokens => .test tokens (.and (.and (.symbol (by decide))
      (.not (.symbol (by decide)))) (.const _)) ?_ (.test tokens (.or (.const _)
        (.and (.const _) (.symbol (by decide)))) ?_ (.pure _))
    · exact .bind (.symbol _) fun _ => .bind anyGroup fun _ => .pure _
    · refine .test tokens (.and (.const _) (.symbol (by decide))) (.bind (.symbol _) fun _ => ?_)
        (.pure _)
      exact .rest fun tokens => .test tokens blind_seesBound
        (.bind (known.boundList _ _ _) fun _ => .pure _) (.pure _)
  · exact .pure _

theorem dynType (allowPlus : Bool) : (g.dynType allowPlus).Local := by
  -- With a star the type is kept as written, which is the same before every tail.
  refine .rest fun tokens => .here fun _ => .bind (.word _) fun _ =>
    .bind (.symbol? (by decide)) fun _ => .bind (known.objectBounds _ _ _ _ _ _) fun _ =>
      .ite (.pure _) (.rest_pure fun after _ _ => ?_)
  simp only [tokensBetween_append]

theorem pointerType : g.pointerType.Local := by
  -- One of two words has to stand behind the asterisk.
  refine .bind (.symbol _) fun _ => .rest fun tokens =>
    .test tokens (.word _) ?_ (.test tokens (.word _) ?_ (.failHere _)) <;>
  exact .bind (.word _) fun _ => .bind (known.ty _) fun _ => .pure _

theorem referenceType : g.referenceType.Local := by
  -- The lifetime is optional, and the type behind it is read alike.
  refine .bind (.symbol _) fun _ => .bind (.sees .lifetime) fun _ =>
    .ite (.bind .lifetime fun _ => ?_) (.bind (.pure _) fun _ => ?_)
  · split <;> exact .bind (.pure _) fun _ => .bind (.word? _) fun _ =>
      .bind (known.ty _) fun _ => .pure _
  · exact .bind (.word? _) fun _ => .bind (known.ty _) fun _ => .pure _

theorem readType (allowPlus : Bool) : (g.readType allowPlus).Local := by
  -- Each step below is one test of the definition; all tests are looks that tell no comma from the
  -- end.
  refine .bind binder fun _ => .rest fun tokens => .test tokens (.and (.const _)
    (.not (.or (.or .name blind_seesFunctionType) blind_seesPlaceWord))) (.failHere _) ?_
  refine .test tokens (.group _) (known.parenthesized _) ?_
  refine .test tokens blind_seesFunctionType (known.functionType _) ?_
  refine .test tokens blind_seesTypePath (known.pathType _ _) ?_
  refine .test tokens (.word _) (known.dynType _) ?_
  refine .test tokens (.group _) (.bind (.within _ _) fun _ => .pure _) ?_
  refine .test tokens (.symbol (by decide)) known.pointerType ?_
  refine .test tokens (.symbol (by decide)) known.referenceType ?_
  refine .test tokens (.symbol (by decide)) (.bind (.symbol _) fun _ => .pure _) ?_
  refine .test tokens (.word _) (.here fun _ => .bind (.word _) fun _ => ?_) ?_
  · exact known.objectBounds _ _ _ _ _ _
  refine .test tokens (.word _) (.bind (.word _) fun _ => .pure _) ?_
  exact .test tokens .lifetime (known.bareObject _) (.failHere _)

theorem typeTokens (allowPlus : Bool) : (g.typeTokens allowPlus).Local :=
  .bind (known.ty _) fun _ => .bind (.note _) fun _ => .pure _

/-! Patterns. -/

theorem alternatives : g.alternatives.Local := by
  -- A bar in front is allowed, and each further pattern has one in front of it.
  refine .bind (.symbol? (by decide)) fun _ => .bind known.pattern fun _ =>
    .bind (.many blind_seesAlternative ?_) fun _ => .pure _
  exact .eager (.symbol _) fun _ => .bind known.pattern fun _ => .pure _

theorem patternBound : g.patternBound.Local := by
  -- A bound of a range is a literal, a path or a block; what ends the range does not start one.
  refine .rest fun tokens => .test tokens blind_endsPatternRange (.pure _) ?_
  refine .test tokens .literal .literal (.test tokens blind_seesTypePath ?_ ?_)
  · exact .bind (known.qualifiedPath _) fun _ => pathTokens _
  · exact .test tokens (.word _) (.bind (.word _) fun _ => .bind block fun _ => .pure _)
      (.failHere _)

theorem patternRange : g.patternRange.Local :=
  .bind patternLimits fun _ => .bind known.patternBound fun _ =>
    .ite (.failHere _) (.pure _)

theorem pathPattern : g.pathPattern.Local := by
  -- Behind the path there may be a `!`, a group of fields or the rest of a range.
  refine .bind (known.qualifiedPath _) fun path => .bind (pathTokens _) fun written =>
    .rest fun tokens => .test tokens (.and (.and (.const _) (.symbol (by decide)))
      (.not (.symbol (by decide)))) (.bind (.symbol _) fun _ => .bind anyGroup fun _ => .pure _) ?_
  refine .test tokens (.group _) (.bind (.grouped _ _) fun _ => .pure _) ?_
  refine .test tokens (.group _) (.bind (patternGroup _) fun _ => .pure _) ?_
  exact .test tokens (.symbol (by decide)) (.bind known.patternRange fun _ => .pure _) (.pure _)

theorem namePattern : g.namePattern.Local := by
  -- Any number of words may stand before the name.
  refine .bind (.many (.any fun _ _ => .word _) (.eager .anyName fun _ => .pure _)) fun words =>
    .bind (.sees (.word _)) fun _ => ?_
  refine .ite (.bind .anyName fun name => ?_) (.bind .name fun name => ?_) <;>
  exact .bind (.sees (.symbol (by decide))) fun _ => .ite
    (.bind (.symbol _) fun _ => .bind known.pattern fun _ => .pure _) (.pure _)

theorem readPattern : g.readPattern.Local := by
  -- Each step below is one test of the definition.
  refine .rest fun tokens => .test tokens blind_seesPathPattern known.pathPattern ?_
  refine .test tokens (.word _) (.bind (.word _) fun _ => .pure _) ?_
  refine .test tokens (.word _) (.bind (.word _) fun _ => .bind known.pattern fun _ => .pure _) ?_
  refine .test tokens (.or .literal (.word _)) (.bind known.patternBound fun _ =>
    .bind (.sees (.symbol (by decide))) fun _ => ?_) ?_
  · exact .ite (.bind known.patternRange fun _ => .pure _) (.pure _)
  refine .test tokens (.or (.any fun _ _ => .word _) .name) known.namePattern ?_
  refine .test tokens (.symbol (by decide)) (.bind (.symbol _) fun _ => .bind (.word? _) fun _ =>
    .bind known.pattern fun _ => .pure _) ?_
  refine .test tokens (.group _) (.bind (patternGroup _) fun _ => .pure _) ?_
  refine .test tokens (.group _) (.bind (patternGroup _) fun _ => .pure _) ?_
  exact .test tokens (.and (.symbol (by decide)) (.not (.symbol (by decide)))) known.patternRange
    (.failHere _)

/-! Operators and what stands behind an operand. -/

theorem rightSide (allowStruct : Bool) (binding : Nat) :
    (g.rightSide allowStruct binding).Local := by
  -- A round takes the next operator with its right side, if that operator binds more tightly.
  refine .bind (known.unary _) fun side => .iterate (fun side => .rest fun tokens => ?_) _
  simp only [fun setting : Setting => blind_nextBinding setting.tail tokens]
  refine .ite ?_ (.last _)
  -- A right side that takes nothing more ends the repetition, so every further round advances.
  exact .unless_still (known.binary _ _ _) fun _ => rfl

theorem rangeTail (start : List Token) (allowStruct : Bool) :
    (g.rangeTail start allowStruct).Eager :=
  .eager rangeLimits fun _ => .rest fun tokens =>
    .test tokens (.and (.const _) (blind_endsRange _)) (.pure _)
      (.bind (known.rightSide _ _) fun _ => .pure _)

theorem readBinary (left : Expr) (allowStruct : Bool) (base : Nat) :
    (g.readBinary left allowStruct base).Local := by
  -- The next operator does not depend on the tail, so the cases are split before anything is read.
  refine .iterate (fun left => .rest fun tokens => .ite (.last _) ?_) _
  simp only [fun setting : Setting => blind_operator? setting.tail tokens]
  rcases operator? tokens with _ | ⟨spelling, binding⟩
  · -- No binary operator comes next: an assignment, a range, a cast, or nothing.
    refine .test tokens (.and (.and (.const _) blind_seesAssign) (.const _))
      (.eager (.symbol _) fun _ => .bind (known.rightSide _ _) fun _ => .pure _) ?_
    refine .test tokens (.and (.const _) (.symbol (by decide)))
      (.eager (known.rangeTail _ _) fun _ => .pure _) ?_
    refine .test tokens (.and (.const _) (.word _)) (.eager (.word _) fun _ =>
      .bind (known.typeTokens _) fun _ => .rest fun after => ?_) (.last _)
    simp only [fun setting : Setting => blind_afterCast? setting.tail after]
    split
    · exact .failHere _
    · exact .pure _
  · exact .ite (.last _) (.ite (.failHere _) (.eager (.symbol _) fun _ =>
      .bind (known.rightSide _ _) fun _ => .pure _))

theorem memberTail : g.memberTail.Local := by
  -- A member is told by the first token alone, so the reader is taken apart by it.
  refine .rest_first (fun _ _ _ => rfl) (.failHere _) fun token more => ?_
  refine .test (token :: more) (.word _) (.bind (.word _) fun _ => .pure _)
    (.test (token :: more) .name (.bind .name fun name =>
      .bind (.sees (.symbol (by decide))) fun _ => ?_) ?_)
  · -- The arguments of a method call follow with or without a turbofish.
    refine .ite (.bind known.angleArguments fun _ => .bind (.note _) fun _ =>
      .bind (.pure _) fun _ => ?_) (.bind (.pure _) fun _ => ?_) <;>
    exact .bind (.sees (.group _)) fun _ =>
      .ite (.bind (.grouped _ _) fun _ => .pure _) (.pure _)
  · cases token with
      -- A number is an index, and the token behind it is not looked at.
    | literal text pos =>
      refine .ite ?_ (.failHere _)
      split
      · exact .take List.suffix_rfl (.pure _)
      · exact .failAt _ _
    | _ => exact .failHere _

theorem member : g.member.Eager := by
  -- A member that is no number with a point is read like one behind any other point.
  have named (dot : List Token) : (do return dot ++ (← g.memberTail) : Reader _).Local :=
    .bind known.memberTail fun _ => .pure _
  intro slack inner before
  refine .eager (.symbol _) fun dot => .rest_first (fun _ _ _ => rfl) (named dot) fun token after => ?_
  -- A number with a point gives two indices, or one and a further point.
  cases token with
  | literal text pos =>
    refine .ite (.take List.suffix_rfl (.bind (floatMember _ _) fun ⟨_, goesOn⟩ => ?_)) (named dot)
    exact .ite (.bind known.memberTail fun _ => .pure _) (.pure _)
  | _ => exact named dot

theorem trailers (expr : Expr) : (g.trailers expr).Local := by
  -- A round takes a call, a member, an index or a question mark.
  refine .iterate (fun expr => .rest fun tokens => ?_) _
  refine .test tokens (.group _) (.eager (.grouped _ _) fun _ => .pure _) ?_
  refine .test tokens (.and (.and (.symbol (by decide)) (.not (.symbol (by decide)))) (.const _))
    (.eager known.member fun _ => .pure _) ?_
  refine .test tokens (.group _) (.eager (.grouped _ _) fun _ => .pure _) ?_
  exact .test tokens (.and (.symbol (by decide)) (.const _)) (.eager (.symbol _) fun _ => .pure _)
    (.last _)

/-! Operands. -/

theorem pathExpr (allowStruct : Bool) : (g.pathExpr allowStruct).Local := by
  -- Behind the path there may be a `!` or the fields of a struct literal.
  refine .bind (known.qualifiedPath _) fun path => .bind (pathTokens _) fun written =>
    .rest fun tokens => .test tokens (.and (.and (.const _) (.symbol (by decide)))
      (.not (.symbol (by decide)))) (.bind (.symbol _) fun _ => .bind anyGroup fun _ => .pure _) ?_
  exact .test tokens (.and (.const _) (.group _)) (.bind (.grouped _ _) fun _ => .pure _) (.pure _)

theorem closureParam : g.closureParam.Local := by
  -- The type of a parameter is there exactly if a colon is.
  refine .bind outerAttrTokens fun _ => .bind known.pattern fun _ =>
    .bind (.sees (.symbol (by decide))) fun _ => .ite ?_ (.pure _)
  exact .bind (.symbol _) fun _ => .bind (known.typeTokens _) fun _ => .pure _

theorem closure (allowStruct : Bool) : (g.closure allowStruct).Local := by
  -- Up to four words stand before the parameters.
  refine .bind binder fun _ => .bind (.word? _) fun _ => .bind (.word? _) fun _ => ?_
  refine .bind (.word? _) fun _ => .bind (.word? _) fun _ => .bind (.symbol _) fun _ => ?_
  refine .bind (.listUntil (.symbol (by decide)) rfl known.closureParam) fun _ => ?_
  -- With an output type the body is a block.
  refine .bind (.symbol _) fun _ => .bind (.sees (.symbol (by decide))) fun _ => .ite ?_ ?_
  · exact .bind (.symbol _) fun _ => .bind (known.typeTokens _) fun _ =>
      .bind block fun _ => .pure _
  · exact .bind (known.expr _) fun _ => .pure _

theorem ifExpr : g.ifExpr.Local := by
  -- A round reads a condition and its block; only `else if` leads to a further one.
  refine .bind outerAttrTokens fun attrs => .iterate (fun read => ?_) _
  refine .eager (.word _) fun _ => ?_
  refine .bind (known.expr _) fun _ => .bind block fun _ => .bind (.sees (.word _)) fun _ => ?_
  refine .ite (.pure _) (.bind (.word _) fun _ => .rest fun tokens => ?_)
  exact .test tokens (.word _) (.pure _) (.test tokens (.group _) (.bind block fun _ => .pure _)
    (.failHere _))

theorem whileExpr : g.whileExpr.Local :=
  .bind (.word _) fun _ => .bind (known.expr _) fun _ => .bind block fun _ => .pure _

theorem forExpr : g.forExpr.Local :=
  .bind (.word _) fun _ => .bind known.alternatives fun _ => .bind (.word _) fun _ =>
    .bind (known.expr _) fun _ => .bind block fun _ => .pure _

theorem labelled : g.labelled.Local := by
  -- What a label can stand before is told by the next word.
  refine .bind .lifetime fun _ => .bind (.symbol _) fun _ => .rest fun tokens => ?_
  refine .test tokens (.word _) (.bind known.whileExpr fun _ => .pure _) ?_
  refine .test tokens (.word _) (.bind known.forExpr fun _ => .pure _) ?_
  refine .test tokens (.word _) (.bind (wordBlock _) fun _ => .pure _) ?_
  exact .test tokens (.group _) (.bind blockExpr fun _ => .pure _)
    (.bind (.failHere _) fun _ => .pure _)

theorem readMatching : g.readMatching.Local :=
  .bind (.word _) fun _ => .bind (known.expr _) fun _ => .bind (.grouped _ _) fun _ => .pure _

theorem valueBehind (spelling : String) (allowStruct : Bool) :
    (g.valueBehind spelling allowStruct).Local :=
  .bind (.word _) fun _ => .rest fun tokens =>
    .test tokens (.and blind_seesExpr (.or (.const _) (.not (.group _))))
      (.bind (known.expr _) fun _ => .pure _) (.pure _)

theorem breakExpr (allowStruct : Bool) : (g.breakExpr allowStruct).Local := by
  -- The label is looked for behind the word, which is not missing.
  have labelled : Blind fun more => Look.lifetime more && Look.symbol ":" (more.drop 1) :=
    .lifetime_next (.symbol (by decide))
  have never {α : Type} (next : Token → Reader α) (tail : Tail) :
      (Reader.word "break" >>= next).Leads (·.rest = tail.tokens) fun _ _ => False :=
    Leads.bind (Leads.word_tail _ tail) fun _ => Leads.never
  intro inner before
  refine .rest_cons (fun tail => ?_) fun token more => ?_
  · split
    · exact never _ _
    · split
      · exact never _ _
      · exact never _ _
  refine .test more labelled ?_ ?_
  · exact .bind (.word _) fun _ => .here fun _ => .bind (known.expr _) fun _ => .failAt _ _
  · refine .test more .lifetime (.bind (.word _) fun _ => .bind .lifetime fun _ => ?_)
      (known.valueBehind _ _)
    exact .rest fun tokens => .test tokens (.and blind_seesExpr (.or (.const _) (.not (.group _))))
      (.bind (known.expr _) fun _ => .pure _) (.pure _)

theorem atom (allowStruct : Bool) : (g.atom allowStruct).Local := by
  -- Each step below is one test of the definition, in its order.
  refine .rest fun tokens => .test tokens .literal (.bind .literal fun _ => ?_) ?_
  · simp only [fun setting : Setting => Blind.text setting.tail tokens]
    exact .pure _
  refine .test tokens blind_seesAsyncBlock (.bind (.word _) fun _ => .bind (.word? _) fun _ =>
    .bind block fun _ => .pure _) ?_
  refine .test tokens (.word_next _ (.group _)) (wordBlock _) ?_
  refine .test tokens blind_seesClosure (known.closure _) ?_
  refine .test tokens (.word_next _ (.symbol (by decide))) builtinCall ?_
  refine .test tokens (.or blind_seesTypePath (.word_next _ (.or (.symbol (by decide))
    (.symbol (by decide))))) (known.pathExpr _) ?_
  refine .test tokens (.group _) (.bind (.grouped _ _) fun _ => .pure _) ?_
  refine .test tokens (.word _) (known.breakExpr _) ?_
  refine .test tokens (.word _) (.bind (.word _) fun _ => .bind (.sees .lifetime) fun _ => ?_) ?_
  · exact .ite (.bind .lifetime fun _ => .bind (.pure _) fun _ => .pure _)
      (.bind (.pure _) fun _ => .pure _)
  refine .test tokens (.word _) (known.valueBehind _ _) ?_
  -- A literal is taken as it stands.
  refine .test tokens (.word _) (.bind (.word _) fun _ => .bind (known.expr _) fun _ =>
    .rest_pure fun after _ _ => ?_) ?_
  · simp only [tokensBetween_append]
  refine .test tokens (.group _) (.bind (.grouped _ _) fun _ => .pure _) ?_
  refine .test tokens (.word _) (.bind (.word _) fun _ => .bind known.alternatives fun _ =>
    .bind (.symbol _) fun _ => .bind (known.unary _) fun _ => .bind (known.binary _ _ _) fun _ =>
      .pure _) ?_
  refine .test tokens (.word _) known.ifExpr (.test tokens (.word _) known.whileExpr ?_)
  refine .test tokens (.word _) known.forExpr (.test tokens (.word _) (wordBlock _) ?_)
  refine .test tokens (.word _) known.matching (.test tokens (.word _) (known.valueBehind _ _) ?_)
  refine .test tokens (.word _) (wordBlock _) (.test tokens (.word _) (wordBlock _) ?_)
  refine .test tokens (.group _) blockExpr (.test tokens (.symbol (by decide))
    (known.rangeTail _ _) ?_)
  refine .test tokens (.word _) (.bind (.word _) fun _ => .pure _) ?_
  exact .test tokens .lifetime known.labelled (.failHere _)

theorem readUnary (allowStruct : Bool) : (g.readUnary allowStruct).Local := by
  -- The attributes in front are read alike, and then the operator decides.
  refine .bind outerAttrTokens fun attrs => .rest fun tokens =>
    .test tokens (.symbol (by decide)) (.bind (.symbol _) fun _ => .rest fun tokens => ?_) ?_
  · -- A raw reference is told by two words.
    have raw : Blind fun tokens => Look.word "raw" tokens &&
        (Look.word "mut" (tokens.drop 1) || Look.word "const" (tokens.drop 1)) :=
      .word_next _ (.or (.word _) (.word _))
    simp only [fun setting : Setting => raw setting.tail tokens]
    refine .ite (.bind (.word? _) fun _ => ?_) (.bind (.pure _) fun _ => ?_)
    all_goals
      refine .bind (.word? _) fun _ => .ite (.bind (.word _) fun _ =>
        .bind (.pure _) fun _ => ?_) (.bind (.pure _) fun _ => ?_) <;>
      exact .bind (known.unary _) fun _ => .pure _
  · -- Neither a sign nor an asterisk is told by what stands behind it.
    refine .test tokens (.any fun spelling inside => .symbol ?_) ?_ (.here fun place => ?_)
    · revert spelling
      decide
    · refine .test tokens (.symbol (by decide)) (.bind (.symbol _) fun _ => ?_) (.test tokens
        (.symbol (by decide)) (.bind (.symbol _) fun _ => ?_) (.bind (.symbol _) fun _ => ?_)) <;>
      exact .bind (known.unary _) fun _ => .pure _
    · -- Without an operator, the atom and what trails it are all there is.
      exact .bind (known.atom _) fun _ => .bind (known.trailers _) fun _ =>
        .ite (.failAt _ _) (.pure _)

/-! Layers. -/

/-- A layer over readers that are local is local. -/
theorem layer : Grammar.Local (layer g) where
  -- An expression is an operand and the operators behind it; every other reader has its own lemma.
  ty := known.readType
  path := known.readPath
  expr _ := .bind (known.unary _) fun _ => known.binary _ _ _
  unary := known.readUnary
  binary := known.readBinary
  matching := known.readMatching
  pattern := known.readPattern

end

end Local

/-- However many layers there are, what they read outside of groups does not depend on the tail. -/
theorem ofDepth_local (depth : Nat) : Local (ofDepth depth) := by
  -- Nothing is read without a layer, and a layer over local readers is local.
  induction depth with
  | zero =>
    exact ⟨fun _ => .failHere _, fun _ => .failHere _, fun _ => .failHere _, fun _ => .failHere _,
      fun _ _ _ => .failHere _, .failHere _, .failHere _⟩
  | succ depth ih => exact ih.layer

end KeyedCoding.Grammar
