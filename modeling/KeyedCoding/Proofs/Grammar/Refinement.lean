import KeyedCoding.Grammar
import KeyedCoding.Proofs.Token.Refinement

/-!
Readers over other readers: each reader of the grammar can do more if the readers it refers to can
do more. A lemma has the name of its reader. Its proof opens the definition, and congruence then goes
through the combinators down to the readers of the grammar, for which the relation holds.
-/

namespace KeyedCoding.Grammar

open Reader

/-- The readers of one grammar can do more than those of another. -/
structure Refines (g further : Grammar) : Prop where
  ty (allowPlus : Bool) : (g.ty allowPlus).Refines (further.ty allowPlus)
  path (inExpr : Bool) : (g.path inExpr).Refines (further.path inExpr)
  expr (allowStruct : Bool) : (g.expr allowStruct).Refines (further.expr allowStruct)
  unary (allowStruct : Bool) : (g.unary allowStruct).Refines (further.unary allowStruct)
  binary (left : Expr) (allowStruct : Bool) (base : Nat) :
    (g.binary left allowStruct base).Refines (further.binary left allowStruct base)
  matching : g.matching.Refines further.matching
  pattern : g.pattern.Refines further.pattern
  statements : g.statements.Refines further.statements
  useTree : g.useTree.Refines further.useTree
  item : g.item.Refines further.item
  -- A parameter is first tried as a receiver, and a trial that fails must not succeed later on.
  receiver_eq_ok : ∀ ⦃scope source⦄, (∃ result, further.receiver scope source = .ok result) →
    (∃ pattern between colon onward ty left, g.pattern scope source = .ok (pattern, between) ∧
      symbol ":" scope between = .ok (colon, onward) ∧
        g.ty true scope onward = .ok (ty, left)) →
    ∃ result, g.receiver scope source = .ok result

attribute [gcongr] Refines.ty Refines.path Refines.expr Refines.unary Refines.binary
attribute [gcongr] Refines.matching Refines.pattern Refines.statements Refines.useTree Refines.item

namespace Refines

variable {g further : Grammar}

/-! Attributes and blocks. -/

@[gcongr] theorem metaValue (refines : g.Refines further) :
    g.metaValue.Refines further.metaValue := by
  unfold Grammar.metaValue
  gcongr
  -- The value may be a single literal, which is read alike at every depth.
  split
  · rfl
  · gcongr

@[gcongr] theorem metaContent (refines : g.Refines further) :
    g.metaContent.Refines further.metaContent := by
  unfold Grammar.metaContent
  dsimp only
  gcongr

@[gcongr] theorem metaInside (refines : g.Refines further) :
    g.metaInside.Refines further.metaInside := by
  unfold Grammar.metaInside
  dsimp only
  gcongr

@[gcongr] theorem attr (refines : g.Refines further) (owner : Bool) :
    (g.attr owner).Refines (further.attr owner) := by
  unfold Grammar.attr
  dsimp only
  gcongr

@[gcongr] theorem outerAttrs (refines : g.Refines further) :
    g.outerAttrs.Refines further.outerAttrs := by
  unfold Grammar.outerAttrs
  gcongr

@[gcongr] theorem ownerAttrs (refines : g.Refines further) :
    g.ownerAttrs.Refines further.ownerAttrs := by
  unfold Grammar.ownerAttrs
  gcongr

@[gcongr] theorem outerAttrTokens (refines : g.Refines further) :
    g.outerAttrTokens.Refines further.outerAttrTokens := by
  unfold Grammar.outerAttrTokens
  gcongr

@[gcongr] theorem blockBody (refines : g.Refines further) :
    g.blockBody.Refines further.blockBody := by
  unfold Grammar.blockBody
  gcongr

@[gcongr] theorem block (refines : g.Refines further) : g.block.Refines further.block := by
  unfold Grammar.block
  gcongr

/-! Paths, generic arguments and bounds. -/

@[gcongr] theorem constArgument (refines : g.Refines further) :
    g.constArgument.Refines further.constArgument := by
  unfold Grammar.constArgument
  dsimp only
  gcongr

@[gcongr] theorem binder (refines : g.Refines further) : g.binder.Refines further.binder := by
  unfold Grammar.binder
  dsimp only
  gcongr

@[gcongr] theorem namedArgument (refines : g.Refines further)
    (name : Name) (arguments : Arguments) :
    (g.namedArgument name arguments).Refines (further.namedArgument name arguments) := by
  unfold Grammar.namedArgument
  gcongr

@[gcongr] theorem callArguments (refines : g.Refines further) :
    g.callArguments.Refines further.callArguments := by
  unfold Grammar.callArguments
  dsimp only
  gcongr

@[gcongr] theorem traitBound (refines : g.Refines further) (allowConst : Bool) :
    (g.traitBound allowConst).Refines (further.traitBound allowConst) := by
  unfold Grammar.traitBound
  dsimp only
  gcongr <;> split <;> gcongr

@[gcongr] theorem bound (refines : g.Refines further) (allowCapture allowConst : Bool) :
    (g.bound allowCapture allowConst).Refines (further.bound allowCapture allowConst) := by
  unfold Grammar.bound
  dsimp only
  gcongr

@[gcongr] theorem argument (refines : g.Refines further) : g.argument.Refines further.argument := by
  unfold Grammar.argument
  dsimp only
  gcongr
  -- The type that has been read decides what the argument turns out to be.
  split <;> gcongr

@[gcongr] theorem angleArguments (refines : g.Refines further) :
    g.angleArguments.Refines further.angleArguments := by
  unfold Grammar.angleArguments
  dsimp only
  gcongr

@[gcongr] theorem segment (refines : g.Refines further) (inExpr : Bool) :
    (g.segment inExpr).Refines (further.segment inExpr) := by
  unfold Grammar.segment
  gcongr

@[gcongr] theorem moreSegments (refines : g.Refines further) (inExpr : Bool) :
    (g.moreSegments inExpr).Refines (further.moreSegments inExpr) := by
  unfold Grammar.moreSegments
  gcongr

@[gcongr] theorem readPath (refines : g.Refines further) (inExpr : Bool) :
    (g.readPath inExpr).Refines (further.readPath inExpr) := by
  unfold Grammar.readPath
  dsimp only
  gcongr

@[gcongr] theorem projection (refines : g.Refines further) (inExpr : Bool) :
    (g.projection inExpr).Refines (further.projection inExpr) := by
  unfold Grammar.projection
  dsimp only
  gcongr

@[gcongr] theorem qualifiedPath (refines : g.Refines further) (inExpr : Bool) :
    (g.qualifiedPath inExpr).Refines (further.qualifiedPath inExpr) := by
  unfold Grammar.qualifiedPath
  gcongr

/-! Types. -/

@[gcongr] theorem boundList (refines : g.Refines further)
    (allowPlus allowCapture allowConst : Bool) :
    (g.boundList allowPlus allowCapture allowConst).Refines
      (further.boundList allowPlus allowCapture allowConst) := by
  unfold Grammar.boundList
  dsimp only
  gcongr

@[gcongr] theorem objectBounds (refines : g.Refines further)
    (keyword : BoundsKeyword) (pos : Position) (message : String) (allowPlus allowCapture allowConst : Bool) :
    (g.objectBounds keyword pos message allowPlus allowCapture allowConst).Refines
      (further.objectBounds keyword pos message allowPlus allowCapture allowConst) := by
  unfold Grammar.objectBounds
  dsimp only
  gcongr

@[gcongr] theorem bareObject (refines : g.Refines further) (allowPlus : Bool) :
    (g.bareObject allowPlus).Refines (further.bareObject allowPlus) := by
  unfold Grammar.bareObject
  gcongr

@[gcongr] theorem plusBounds (refines : g.Refines further) :
    g.plusBounds.Refines further.plusBounds := by
  unfold Grammar.plusBounds
  gcongr

@[gcongr] theorem inParens (refines : g.Refines further) : g.inParens.Refines further.inParens := by
  unfold Grammar.inParens
  dsimp only
  gcongr

@[gcongr] theorem parenthesized (refines : g.Refines further) (allowPlus : Bool) :
    (g.parenthesized allowPlus).Refines (further.parenthesized allowPlus) := by
  unfold Grammar.parenthesized
  refine .bind (.within refines.inParens) fun ⟨found, _, _⟩ => ?_
  -- What is read behind the parentheses depends on their content, which is the same on both sides.
  cases found with
  | whole ty => rfl
  | relaxed bound =>
    dsimp only
    gcongr
  | single ty =>
    dsimp only
    gcongr
    split <;> gcongr

@[gcongr] theorem functionInput (refines : g.Refines further)
    (isFirst : Bool) (attrs : List Token) :
    (g.functionInput isFirst attrs).Refines (further.functionInput isFirst attrs) := by
  unfold Grammar.functionInput
  dsimp only
  gcongr

@[gcongr] theorem functionInputs (refines : g.Refines further) :
    g.functionInputs.Refines further.functionInputs := by
  unfold Grammar.functionInputs
  dsimp only
  gcongr

@[gcongr] theorem output? (refines : g.Refines further) (allowPlus : Bool) :
    (g.output? allowPlus).Refines (further.output? allowPlus) := by
  unfold Grammar.output?
  gcongr

@[gcongr] theorem functionType (refines : g.Refines further) (binder : List Token) :
    (g.functionType binder).Refines (further.functionType binder) := by
  unfold Grammar.functionType
  dsimp only
  gcongr

@[gcongr] theorem pathType (refines : g.Refines further) (binder : List Token) (allowPlus : Bool) :
    (g.pathType binder allowPlus).Refines (further.pathType binder allowPlus) := by
  unfold Grammar.pathType
  dsimp only
  gcongr
  -- Only a path goes on, and any other type is done.
  split <;> gcongr

@[gcongr] theorem dynType (refines : g.Refines further) (allowPlus : Bool) :
    (g.dynType allowPlus).Refines (further.dynType allowPlus) := by
  unfold Grammar.dynType
  gcongr

@[gcongr] theorem bracketed (refines : g.Refines further) :
    g.bracketed.Refines further.bracketed := by
  unfold Grammar.bracketed
  dsimp only
  gcongr

@[gcongr] theorem pointerType (refines : g.Refines further) :
    g.pointerType.Refines further.pointerType := by
  unfold Grammar.pointerType
  gcongr

@[gcongr] theorem referenceType (refines : g.Refines further) :
    g.referenceType.Refines further.referenceType := by
  unfold Grammar.referenceType
  dsimp only
  gcongr
  -- The token that is read as a lifetime tells whether there is one.
  split <;> gcongr

@[gcongr] theorem readType (refines : g.Refines further) (allowPlus : Bool) :
    (g.readType allowPlus).Refines (further.readType allowPlus) := by
  unfold Grammar.readType
  dsimp only
  gcongr

/-! Patterns. -/

@[gcongr] theorem typeTokens (refines : g.Refines further) (allowPlus : Bool) :
    (g.typeTokens allowPlus).Refines (further.typeTokens allowPlus) := by
  unfold Grammar.typeTokens
  gcongr

@[gcongr] theorem alternatives (refines : g.Refines further) :
    g.alternatives.Refines further.alternatives := by
  unfold Grammar.alternatives
  gcongr

@[gcongr] theorem patternGroup (refines : g.Refines further) (delim : Delimiter) :
    (g.patternGroup delim).Refines (further.patternGroup delim) := by
  unfold Grammar.patternGroup
  dsimp only
  gcongr

@[gcongr] theorem fieldPattern (refines : g.Refines further) :
    g.fieldPattern.Refines further.fieldPattern := by
  unfold Grammar.fieldPattern
  gcongr

@[gcongr] theorem structPattern (refines : g.Refines further) :
    g.structPattern.Refines further.structPattern := by
  unfold Grammar.structPattern
  dsimp only
  gcongr

@[gcongr] theorem patternBound (refines : g.Refines further) :
    g.patternBound.Refines further.patternBound := by
  unfold Grammar.patternBound
  gcongr

@[gcongr] theorem patternRange (refines : g.Refines further) :
    g.patternRange.Refines further.patternRange := by
  unfold Grammar.patternRange
  dsimp only
  gcongr

@[gcongr] theorem pathPattern (refines : g.Refines further) :
    g.pathPattern.Refines further.pathPattern := by
  unfold Grammar.pathPattern
  dsimp only
  gcongr

@[gcongr] theorem namePattern (refines : g.Refines further) :
    g.namePattern.Refines further.namePattern := by
  unfold Grammar.namePattern
  dsimp only
  gcongr

@[gcongr] theorem readPattern (refines : g.Refines further) :
    g.readPattern.Refines further.readPattern := by
  unfold Grammar.readPattern
  gcongr

/-! Generic parameters and where clauses. -/

@[gcongr] theorem boundsUntil (refines : g.Refines further) (stop : List Token → Bool) :
    (g.boundsUntil stop).Refines (further.boundsUntil stop) := by
  unfold Grammar.boundsUntil
  dsimp only
  gcongr

@[gcongr] theorem typeParam (refines : g.Refines further) (attrs : List Token) :
    (g.typeParam attrs).Refines (further.typeParam attrs) := by
  unfold Grammar.typeParam
  dsimp only
  gcongr

@[gcongr] theorem constParam (refines : g.Refines further) (attrs : List Token) :
    (g.constParam attrs).Refines (further.constParam attrs) := by
  unfold Grammar.constParam
  dsimp only
  gcongr

@[gcongr] theorem genericParam (refines : g.Refines further) :
    g.genericParam.Refines further.genericParam := by
  unfold Grammar.genericParam
  gcongr

@[gcongr] theorem generics (refines : g.Refines further) : g.generics.Refines further.generics := by
  unfold Grammar.generics
  dsimp only
  gcongr

@[gcongr] theorem predicate (refines : g.Refines further) :
    g.predicate.Refines further.predicate := by
  unfold Grammar.predicate
  dsimp only
  gcongr

@[gcongr] theorem whereClause (refines : g.Refines further) :
    g.whereClause.Refines further.whereClause := by
  unfold Grammar.whereClause
  dsimp only
  gcongr

@[gcongr] theorem whereClause? (refines : g.Refines further) :
    g.whereClause?.Refines further.whereClause? := by
  unfold Grammar.whereClause?
  gcongr

@[gcongr] theorem whereTokens (refines : g.Refines further) :
    g.whereTokens.Refines further.whereTokens := by
  unfold Grammar.whereTokens
  gcongr

/-! Expressions. -/

@[gcongr] theorem rightSide (refines : g.Refines further) (allowStruct : Bool) (binding : Nat) :
    (g.rightSide allowStruct binding).Refines (further.rightSide allowStruct binding) := by
  unfold Grammar.rightSide
  dsimp only
  gcongr

@[gcongr] theorem rangeTail (refines : g.Refines further)
    (start : List Token) (allowStruct : Bool) :
    (g.rangeTail start allowStruct).Refines (further.rangeTail start allowStruct) := by
  unfold Grammar.rangeTail
  dsimp only
  gcongr

@[gcongr] theorem readBinary (refines : g.Refines further)
    (left : Expr) (allowStruct : Bool) (base : Nat) :
    (g.readBinary left allowStruct base).Refines (further.readBinary left allowStruct base) := by
  unfold Grammar.readBinary
  gcongr
  split <;> gcongr

@[gcongr] theorem readExpr (refines : g.Refines further) (allowStruct : Bool) :
    (g.readExpr allowStruct).Refines (further.readExpr allowStruct) := by
  unfold Grammar.readExpr
  gcongr

@[gcongr] theorem exprList (refines : g.Refines further) : g.exprList.Refines further.exprList := by
  unfold Grammar.exprList
  dsimp only
  gcongr

@[gcongr] theorem memberTail (refines : g.Refines further) :
    g.memberTail.Refines further.memberTail := by
  unfold Grammar.memberTail
  dsimp only
  gcongr

@[gcongr] theorem member (refines : g.Refines further) : g.member.Refines further.member := by
  unfold Grammar.member
  gcongr
  -- A number with a point is read alike at every depth; the member behind it is not.
  split
  · gcongr
    split
    gcongr
  · gcongr

@[gcongr] theorem trailers (refines : g.Refines further) (expr : Expr) :
    (g.trailers expr).Refines (further.trailers expr) := by
  unfold Grammar.trailers
  gcongr

@[gcongr] theorem fieldValue (refines : g.Refines further) :
    g.fieldValue.Refines further.fieldValue := by
  unfold Grammar.fieldValue
  gcongr

@[gcongr] theorem structBody (refines : g.Refines further) :
    g.structBody.Refines further.structBody := by
  unfold Grammar.structBody
  dsimp only
  gcongr

@[gcongr] theorem pathExpr (refines : g.Refines further) (allowStruct : Bool) :
    (g.pathExpr allowStruct).Refines (further.pathExpr allowStruct) := by
  unfold Grammar.pathExpr
  dsimp only
  gcongr

@[gcongr] theorem arrayBody (refines : g.Refines further) :
    g.arrayBody.Refines further.arrayBody := by
  unfold Grammar.arrayBody
  gcongr

@[gcongr] theorem closureParam (refines : g.Refines further) :
    g.closureParam.Refines further.closureParam := by
  unfold Grammar.closureParam
  gcongr

@[gcongr] theorem closure (refines : g.Refines further) (allowStruct : Bool) :
    (g.closure allowStruct).Refines (further.closure allowStruct) := by
  unfold Grammar.closure
  dsimp only
  gcongr

@[gcongr] theorem ifExpr (refines : g.Refines further) : g.ifExpr.Refines further.ifExpr := by
  unfold Grammar.ifExpr
  dsimp only
  gcongr

@[gcongr] theorem whileExpr (refines : g.Refines further) :
    g.whileExpr.Refines further.whileExpr := by
  unfold Grammar.whileExpr
  gcongr

@[gcongr] theorem forExpr (refines : g.Refines further) : g.forExpr.Refines further.forExpr := by
  unfold Grammar.forExpr
  gcongr

@[gcongr] theorem wordBlock (refines : g.Refines further) (spelling : String) :
    (g.wordBlock spelling).Refines (further.wordBlock spelling) := by
  unfold Grammar.wordBlock
  gcongr

@[gcongr] theorem blockExpr (refines : g.Refines further) :
    g.blockExpr.Refines further.blockExpr := by
  unfold Grammar.blockExpr
  gcongr

@[gcongr] theorem labelled (refines : g.Refines further) : g.labelled.Refines further.labelled := by
  unfold Grammar.labelled
  dsimp only
  gcongr

theorem early? (refines : g.Refines further) (tokens : List Token) :
    Option.Rel Reader.Refines (g.early? tokens) (further.early? tokens) := by
  -- Which reader comes next is decided by the tokens alone.
  unfold Grammar.early?
  dsimp only
  gcongr
  exact .none

@[gcongr] theorem earlyExpr (refines : g.Refines further) :
    g.earlyExpr.Refines further.earlyExpr := by
  unfold Grammar.earlyExpr
  refine .bind refines.outerAttrTokens fun attrs => .bind (.refl _) fun tokens => ?_
  -- Either both grammars read an expression that ends in a block, or neither does.
  have pairs := refines.early? tokens
  generalize g.early? tokens = chosen, further.early? tokens = other at pairs ⊢
  cases pairs with
  | some early =>
    dsimp only
    gcongr
  | none =>
    dsimp only
    gcongr

@[gcongr] theorem arm (refines : g.Refines further) : g.arm.Refines further.arm := by
  unfold Grammar.arm
  dsimp only
  gcongr

@[gcongr] theorem readMatching (refines : g.Refines further) :
    g.readMatching.Refines further.readMatching := by
  unfold Grammar.readMatching
  gcongr

@[gcongr] theorem valueBehind (refines : g.Refines further)
    (spelling : String) (allowStruct : Bool) :
    (g.valueBehind spelling allowStruct).Refines (further.valueBehind spelling allowStruct) := by
  unfold Grammar.valueBehind
  gcongr

@[gcongr] theorem breakExpr (refines : g.Refines further) (allowStruct : Bool) :
    (g.breakExpr allowStruct).Refines (further.breakExpr allowStruct) := by
  unfold Grammar.breakExpr
  gcongr

@[gcongr] theorem atom (refines : g.Refines further) (allowStruct : Bool) :
    (g.atom allowStruct).Refines (further.atom allowStruct) := by
  unfold Grammar.atom
  dsimp only
  gcongr

@[gcongr] theorem readUnary (refines : g.Refines further) (allowStruct : Bool) :
    (g.readUnary allowStruct).Refines (further.readUnary allowStruct) := by
  unfold Grammar.readUnary
  dsimp only
  gcongr

/-! Statements. -/

@[gcongr] theorem letStatement (refines : g.Refines further) :
    g.letStatement.Refines further.letStatement := by
  unfold Grammar.letStatement
  dsimp only
  gcongr

@[gcongr] theorem statement (refines : g.Refines further) :
    g.statement.Refines further.statement := by
  unfold Grammar.statement
  gcongr
  -- The call of a macro is read without any grammar.
  split
  · rfl
  · dsimp only
    gcongr

@[gcongr] theorem readStatements (refines : g.Refines further) :
    g.readStatements.Refines further.readStatements := by
  unfold Grammar.readStatements
  dsimp only
  gcongr

/-! Declarations. -/

@[gcongr] theorem receiver (refines : g.Refines further) : g.receiver.Refines further.receiver := by
  unfold Grammar.receiver
  dsimp only
  gcongr

@[gcongr] theorem functionParam (refines : g.Refines further) (isFirst : Bool) :
    (g.functionParam isFirst).Refines (further.functionParam isFirst) := by
  unfold Grammar.functionParam
  refine .bind refines.outerAttrTokens fun attrs => .bind (.refl _) fun start => ?_
  refine .optional refines.receiver (fun found => ?_) ?_
  · split <;> gcongr
  · -- What has been read as a parameter and is a receiver now has been a receiver before.
    rintro scope source fault value left failed read result received
    obtain ⟨pattern, between, head, tail⟩ := bind_run_iff.mp read
    obtain ⟨colon, onward, sign, tail⟩ := bind_run_iff.mp tail
    obtain ⟨ty, behind, typed, -⟩ := bind_run_iff.mp tail
    obtain ⟨before, tried⟩ := refines.receiver_eq_ok ⟨result, received⟩
      ⟨pattern, between, colon, onward, ty, behind, head, sign, typed⟩
    rw [failed] at tried
    cases tried

@[gcongr] theorem functionParams (refines : g.Refines further) :
    g.functionParams.Refines further.functionParams := by
  unfold Grammar.functionParams
  dsimp only
  gcongr

@[gcongr] theorem signature (refines : g.Refines further) :
    g.signature.Refines further.signature := by
  unfold Grammar.signature
  dsimp only
  gcongr
  -- The output type is read at the end, or there is none.
  split <;> gcongr

@[gcongr] theorem functionItem (refines : g.Refines further) (start attrs : List Token) :
    (g.functionItem start attrs).Refines (further.functionItem start attrs) := by
  unfold Grammar.functionItem
  dsimp only
  gcongr

@[gcongr] theorem valueBehindEquals (refines : g.Refines further) :
    g.valueBehindEquals.Refines further.valueBehindEquals := by
  unfold Grammar.valueBehindEquals
  gcongr

@[gcongr] theorem constant (refines : g.Refines further) : g.constant.Refines further.constant := by
  unfold Grammar.constant
  dsimp only
  gcongr

@[gcongr] theorem staticBody (refines : g.Refines further) :
    g.staticBody.Refines further.staticBody := by
  unfold Grammar.staticBody
  dsimp only
  gcongr

@[gcongr] theorem aliasBody (refines : g.Refines further) (place : AliasPlace) :
    (g.aliasBody place).Refines (further.aliasBody place) := by
  unfold Grammar.aliasBody
  dsimp only
  gcongr

@[gcongr] theorem readUseTree (refines : g.Refines further) :
    g.readUseTree.Refines further.readUseTree := by
  unfold Grammar.readUseTree
  dsimp only
  gcongr

@[gcongr] theorem useBody (refines : g.Refines further) : g.useBody.Refines further.useBody := by
  unfold Grammar.useBody
  gcongr

@[gcongr] theorem field (refines : g.Refines further) : g.field.Refines further.field := by
  unfold Grammar.field
  dsimp only
  gcongr

@[gcongr] theorem slot (refines : g.Refines further) : g.slot.Refines further.slot := by
  unfold Grammar.slot
  gcongr

@[gcongr] theorem namedFields (refines : g.Refines further) :
    g.namedFields.Refines further.namedFields := by
  unfold Grammar.namedFields
  gcongr

@[gcongr] theorem slots (refines : g.Refines further) : g.slots.Refines further.slots := by
  unfold Grammar.slots
  gcongr

@[gcongr] theorem structFields (refines : g.Refines further) :
    g.structFields.Refines further.structFields := by
  unfold Grammar.structFields
  dsimp only
  gcongr

@[gcongr] theorem typeHead (refines : g.Refines further)
    (attrs : List Attribute) (keyword : String) :
    (g.typeHead attrs keyword).Refines (further.typeHead attrs keyword) := by
  unfold Grammar.typeHead
  gcongr

@[gcongr] theorem structItem (refines : g.Refines further) (attrs : List Attribute) :
    (g.structItem attrs).Refines (further.structItem attrs) := by
  unfold Grammar.structItem
  dsimp only
  gcongr

@[gcongr] theorem variant (refines : g.Refines further) : g.variant.Refines further.variant := by
  unfold Grammar.variant
  dsimp only
  gcongr

@[gcongr] theorem enumItem (refines : g.Refines further) (attrs : List Attribute) :
    (g.enumItem attrs).Refines (further.enumItem attrs) := by
  unfold Grammar.enumItem
  dsimp only
  gcongr

@[gcongr] theorem unionItem (refines : g.Refines further) (attrs : List Attribute) :
    (g.unionItem attrs).Refines (further.unionItem attrs) := by
  unfold Grammar.unionItem
  dsimp only
  gcongr

@[gcongr] theorem traitMember (refines : g.Refines further) :
    g.traitMember.Refines further.traitMember := by
  unfold Grammar.traitMember
  dsimp only
  gcongr

@[gcongr] theorem traitBody (refines : g.Refines further) :
    g.traitBody.Refines further.traitBody := by
  unfold Grammar.traitBody
  dsimp only
  gcongr

@[gcongr] theorem implMember (refines : g.Refines further) :
    g.implMember.Refines further.implMember := by
  unfold Grammar.implMember
  dsimp only
  gcongr

@[gcongr] theorem implItem (refines : g.Refines further)
    (start : List Token) (attrs : List Attribute) :
    (g.implItem start attrs).Refines (further.implItem start attrs) := by
  unfold Grammar.implItem
  dsimp only
  gcongr

@[gcongr] theorem modItem (refines : g.Refines further) (attrs : List Attribute) :
    (g.modItem attrs).Refines (further.modItem attrs) := by
  unfold Grammar.modItem
  dsimp only
  gcongr

@[gcongr] theorem foreignMember (refines : g.Refines further) :
    g.foreignMember.Refines further.foreignMember := by
  unfold Grammar.foreignMember
  dsimp only
  gcongr

@[gcongr] theorem foreignBody (refines : g.Refines further) :
    g.foreignBody.Refines further.foreignBody := by
  unfold Grammar.foreignBody
  gcongr

@[gcongr] theorem plainItem {start attrs : List Token} {kind : ItemKind}
    {body onward : Reader (List Token × Bool)} (refines : body.Refines onward) :
    (plainItem start attrs kind body).Refines (Grammar.plainItem start attrs kind onward) := by
  unfold Grammar.plainItem
  gcongr

@[gcongr] theorem readItem (refines : g.Refines further) : g.readItem.Refines further.readItem := by
  unfold Grammar.readItem
  dsimp only
  gcongr

end Refines

end KeyedCoding.Grammar
