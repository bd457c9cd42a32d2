import KeyedCoding.Proofs.Grammar.Refinement
import KeyedCoding.Proofs.Token.Consumption

/-!
Layers of readers: what some layers read, more layers read as well. The one place where a reader
tries something first is a parameter, which may be a receiver.
-/

namespace KeyedCoding.Grammar

open Reader

variable {g further : Grammar} {words rest : List Token} {scope : Position} {source : Source}

/-! Receivers and the parameters that look like one. -/

/-- A colon opens a type only as the first of two. -/
theorem readType_fails (g : Grammar) {allowPlus joint : Bool} {pos : Position}
    (single : Look.symbol "::" (.punct ':' joint pos :: rest) = false) :
    (readType g allowPlus).Leads (·.rest = .punct ':' joint pos :: rest) fun _ _ => False := by
  -- A single colon is none of the tokens with which a type begins.
  have noBinder : (binder g).Reads (.punct ':' joint pos :: rest) []
      (.punct ':' joint pos :: rest) := Reads.bind (Reads.sees _) Reads.pure
  have noPath : seesTypePath (.punct ':' joint pos :: rest) = false := by
    simpa [seesTypePath, seesPlaceWord, Look.name, Look.word, Look.symbol, Look.afterChars?]
      using single
  refine Reads.bind_leads noBinder (Reads.bind_leads Reads.rest ?_)
  rw [noPath]
  exact Leads.failHere _

/-- No path segment starts with a colon. -/
theorem segment_fails (g : Grammar) {joint : Bool} {pos : Position} :
    (segment g true).Leads (·.rest = .punct ':' joint pos :: rest) fun _ _ => False := by
  -- A segment begins with its name, and a colon is none.
  have named : segmentName.Leads (·.rest = .punct ':' joint pos :: rest) fun _ _ => False :=
    Reads.bind_leads Reads.rest (Reads.bind_leads Reads.rest (Leads.failHere _))
  exact Leads.bind named fun _ => Leads.never

/-- The word for the receiver with three colons behind it. -/
def selfAndColons (start first second third : Position) (joint last : Bool) (rest : List Token) :
    List Token :=
  .name "self" start :: .punct ':' true first :: .punct ':' joint second ::
    .punct ':' last third :: rest

/-- No path starts with the word for the receiver and three colons. -/
theorem readPath_fails (g : Grammar) {start first second third : Position} {joint last : Bool} :
    (readPath g true).Leads (·.rest = selfAndColons start first second third joint last rest)
      fun _ _ => False := by
  -- The word is a segment, and behind two of the colons there would have to be another one.
  have word : (segment g true).Reads (selfAndColons start first second third joint last rest)
      ⟨⟨"self", start⟩, .none⟩
      (.punct ':' true first :: .punct ':' joint second :: .punct ':' last third :: rest) :=
    Reads.bind (Reads.bind Reads.rest (Reads.anyName ⟨"self", start⟩))
      (Reads.bind Reads.rest Reads.pure)
  have more : (moreSegments g true).Leads (·.rest = .punct ':' true first ::
      .punct ':' joint second :: .punct ':' last third :: rest) fun _ _ => False := by
    refine Reads.bind_leads Reads.rest (Leads.bind ?_ fun _ => Leads.never)
    refine Reads.bind_leads Reads.rest (Leads.bind ?_ fun _ => Leads.never)
    exact Reads.bind_leads (Reads.symbol rfl) (segment_fails g)
  refine Reads.bind_leads (Reads.sees _) (Reads.bind_leads Reads.pure ?_)
  exact Reads.bind_leads word (Leads.bind more fun _ => Leads.never)

/-- The words that may stand before the word for the receiver. -/
def IsMutable (words : List Token) : Prop := words = [] ∨ ∃ pos, words = [.name "mut" pos]

section Receivers

variable {start pos : Position} {joint : Bool}

/-- As the name of a pattern the word for the receiver is taken up to the colon behind it. -/
theorem namePattern_reads_self (g : Grammar) (mutable : IsMutable words) :
    (namePattern g).Reads (words ++ .name "self" start :: .punct ':' joint pos :: rest)
      (words ++ [.name "self" start]) (.punct ':' joint pos :: rest) := by
  -- The repetition over the words stops before the receiver.
  have stops : ReadsEach (do return (← anyName).token)
      (fun tokens => ["ref", "mut"].any (Look.word · tokens))
      (.name "self" start :: .punct ':' joint pos :: rest) []
      (.name "self" start :: .punct ':' joint pos :: rest) := .done rfl
  have taken : ReadsEach (do return (← anyName).token)
      (fun tokens => ["ref", "mut"].any (Look.word · tokens))
      (words ++ .name "self" start :: .punct ':' joint pos :: rest) words
      (.name "self" start :: .punct ':' joint pos :: rest) := by
    obtain rfl | ⟨pos, rfl⟩ := mutable
    · exact stops
    · exact .step rfl (Reads.bind (Reads.anyName ⟨"mut", pos⟩) Reads.pure) (by simp) stops
  refine Reads.bind (Reads.many taken) (Reads.bind (Reads.sees _) ?_)
  exact Reads.bind (Reads.anyName ⟨"self", start⟩) (Reads.bind (Reads.sees _) Reads.pure)

/-- As a pattern, too, unless the colon goes on with a path. -/
theorem readPattern_reads_self (g : Grammar) (mutable : IsMutable words)
    (single : words = [] → Look.symbol "::" (.punct ':' joint pos :: rest) = false) :
    (readPattern g).Reads (words ++ .name "self" start :: .punct ':' joint pos :: rest)
      (words ++ [.name "self" start]) (.punct ':' joint pos :: rest) := by
  -- A word for the receiver opens a path pattern only if a path goes on behind it.
  have noPath :
      seesPathPattern (words ++ .name "self" start :: .punct ':' joint pos :: rest) = false := by
    obtain rfl | ⟨pos, rfl⟩ := mutable
    · simpa [seesPathPattern, Look.word, Look.name, Look.reserved, Look.symbol, Look.afterChars?]
        using single rfl
    · rfl
  refine Reads.bind Reads.rest ?_
  rw [noPath]
  obtain rfl | ⟨pos, rfl⟩ := mutable
  · exact namePattern_reads_self g (.inl rfl)
  · exact namePattern_reads_self g (.inr ⟨pos, rfl⟩)

/-- A receiver with a colon is read exactly if the type behind the colon is. -/
theorem receiver_typed_iff (g : Grammar) (mutable : IsMutable words)
    (here : source.rest = words ++ .name "self" start :: .punct ':' joint pos :: rest) :
    (∃ result, g.receiver scope source = .ok result) ↔
      ∃ result, g.typeTokens true scope { source with rest := rest } = .ok result := by
  obtain ⟨_, heads, stray⟩ := source
  subst here
  -- All that stands before the type is taken, whatever the grammar.
  have taken : (word? "mut").Reads (words ++ .name "self" start :: .punct ':' joint pos :: rest)
      words (.name "self" start :: .punct ':' joint pos :: rest) := by
    -- The word may be left out.
    refine Reads.bind (Reads.sees _) ?_
    obtain rfl | ⟨pos, rfl⟩ := mutable
    · exact Reads.pure
    · exact fun _ _ _ => rfl
  have self : (word "self").Reads (.name "self" start :: .punct ':' joint pos :: rest)
      (.name "self" start) (.punct ':' joint pos :: rest) := fun _ _ _ => rfl
  have sign : (symbol ":").Reads (.punct ':' joint pos :: rest) (Token.symbolAt pos ":") rest :=
    Reads.symbol rfl
  have byValue :
      Look.symbol "&" (words ++ .name "self" start :: .punct ':' joint pos :: rest) = false := by
    obtain rfl | ⟨pos, rfl⟩ := mutable <;> rfl
  -- What is left of the reader is the type alone.
  have onward : g.receiver scope
      ⟨words ++ .name "self" start :: .punct ':' joint pos :: rest, heads, stray⟩ =
        (do return words ++ [.name "self" start] ++ Token.symbolAt pos ":" ++
          (← g.typeTokens true) : Reader (List Token)) scope ⟨rest, heads, stray⟩ := by
    rw [receiver, (Reads.sees _).bind_eq, byValue]
    simp only [Bool.false_eq_true, if_false]
    rw [taken.bind_eq, self.bind_eq, (Reads.sees _).bind_eq]
    exact sign.bind_eq _ _ _
  rw [onward]
  constructor
  · rintro ⟨⟨result, left⟩, read⟩
    -- The grammar decides about the type only.
    obtain ⟨ty, between, typed, -⟩ := bind_run_iff.mp read
    exact ⟨_, typed⟩
  · rintro ⟨⟨ty, left⟩, typed⟩
    exact ⟨_, bind_run_iff.mpr ⟨ty, left, typed, rfl⟩⟩

/-- One colon that comes next is a token. -/
theorem colon_cons {tokens : List Token} (seen : Look.symbol ":" tokens = true) :
    ∃ joint pos rest, tokens = .punct ':' joint pos :: rest := by
  -- Of all tokens only a colon passes the look.
  rcases tokens with _ | ⟨_ | _ | ⟨ch, joint, pos⟩ | _ | _, rest⟩
  case cons.punct =>
    by_cases same : ':' = ch
    · exact ⟨joint, pos, rest, by rw [same]⟩
    · simp [Look.symbol, Look.afterChars?, same] at seen
  all_goals cases seen

/-- Two colons that come next are two tokens, the first one joint with the second. -/
theorem colons_cons {tokens : List Token} (seen : Look.symbol "::" tokens = true) :
    ∃ first joint pos rest, tokens = .punct ':' true first :: .punct ':' joint pos :: rest := by
  -- The first colon is joint, and what stands behind it passes the look for one more.
  rcases tokens with _ | ⟨_ | _ | ⟨ch, joint, pos⟩ | _ | _, rest⟩
  case cons.punct =>
    by_cases same : ':' = ch ∧ joint = true
    · obtain ⟨rfl, rfl⟩ := same
      have next : Look.symbol ":" rest = true := by
        simpa [Look.symbol, Look.afterChars?] using seen
      obtain ⟨joint, second, rest, rfl⟩ := colon_cons next
      exact ⟨pos, joint, second, rest, rfl⟩
    · simp [Look.symbol, Look.afterChars?, same] at seen
  all_goals cases seen

end Receivers

/-- What is read as a receiver by one grammar is so by all, or has a colon and a type. -/
theorem receiver_cases {result : List Token × Source}
    (read : further.receiver scope source = .ok result) :
    (∀ g : Grammar, ∃ result, g.receiver scope source = .ok result) ∨
      ∃ words start joint pos rest, IsMutable words ∧
        source.rest = words ++ .name "self" start :: .punct ':' joint pos :: rest := by
  -- The ampersand is looked for first, then the two words and the colon.
  obtain ⟨refs, between, got, tail⟩ := bind_run_iff.mp read
  cases got
  cases refs : Look.symbol "&" source.rest with
  | true =>
    -- A receiver by reference has no type.
    rw [refs] at tail
    refine .inl fun g => ⟨result, bind_run_iff.mpr ⟨true, source, ?_, tail⟩⟩
    rw [← refs]
    rfl
  | false =>
    rw [refs] at tail
    obtain ⟨mut_, first, mutable, tail⟩ := bind_run_iff.mp tail
    obtain ⟨self, second, named, tail⟩ := bind_run_iff.mp tail
    obtain ⟨typed, third, got, tail⟩ := bind_run_iff.mp tail
    cases got
    cases typed : Look.symbol ":" second.rest with
    | true =>
      -- The words and the colon stand at the front, whatever the type behind them.
      obtain ⟨words, known, here⟩ := word?_eq_ok mutable
      obtain ⟨start, there⟩ := word_eq_ok named
      obtain ⟨joint, pos, rest, colon⟩ := colon_cons typed
      exact .inr ⟨words, start, joint, pos, rest, known, by rw [here, there, colon]⟩
    | false =>
      -- Without a colon the words are all that is read.
      rw [typed] at tail
      refine .inl fun g => ⟨result, bind_run_iff.mpr ⟨false, source, ?_, ?_⟩⟩
      · rw [← refs]
        rfl
      · refine bind_run_iff.mpr ⟨mut_, first, mutable, bind_run_iff.mpr ⟨self, second, named, ?_⟩⟩
        refine bind_run_iff.mpr ⟨false, second, ?_, tail⟩
        rw [← typed]
        rfl

/-- A grammar has no path that starts with the word for the receiver and three colons. -/
def StopsAtColons (g : Grammar) : Prop :=
  ∀ start first second third joint last rest,
    (g.path true).Leads (·.rest = selfAndColons start first second third joint last rest)
      fun _ _ => False

/-- A parameter that deeper layers read as a receiver is a receiver for the layers above, too. -/
theorem receiver_eq_ok_of_layer (stops : g.StopsAtColons)
    (received : ∃ result, (layer further).receiver scope source = .ok result)
    (parameter : ∃ pattern between colon onward ty left,
      (layer g).pattern scope source = .ok (pattern, between) ∧
        symbol ":" scope between = .ok (colon, onward) ∧
          (layer g).ty true scope onward = .ok (ty, left)) :
    ∃ result, (layer g).receiver scope source = .ok result := by
  obtain ⟨result, taken⟩ := received
  obtain any | ⟨words, start, joint, pos, rest, mutable, here⟩ := receiver_cases taken
  · exact any _
  obtain ⟨pattern, between, colon, onward, ty, left, head, sign, typed⟩ := parameter
  by_cases single : words = [] → Look.symbol "::" (.punct ':' joint pos :: rest) = false
  · -- The pattern is the word for the receiver, and the type behind the colon is the same.
    rw [receiver_typed_iff _ mutable here]
    obtain ⟨_, heads, stray⟩ := source
    subst here
    obtain ⟨-, rfl⟩ := (readPattern_reads_self g mutable single).eq head
    have colon : (symbol ":").Reads (.punct ':' joint pos :: rest) _ rest := Reads.symbol rfl
    obtain ⟨-, rfl⟩ := colon.eq sign
    exact ⟨_, bind_run_iff.mpr ⟨ty, left, typed, rfl⟩⟩
  · -- The type of the receiver starts with a colon, so with two, and these belong to no pattern.
    simp only [Classical.not_imp, Bool.not_eq_false] at single
    obtain ⟨rfl, double⟩ := single
    obtain ⟨first, again, second, more, same⟩ := colons_cons double
    simp only [List.cons.injEq, Token.punct.injEq, true_and] at same
    obtain ⟨⟨rfl, rfl⟩, rfl⟩ := same
    obtain ⟨⟨tokens, after⟩, typed⟩ := (receiver_typed_iff _ mutable here).mp ⟨result, taken⟩
    obtain ⟨ty, behind, typed, -⟩ := bind_run_iff.mp typed
    cases colons : Look.symbol "::" (.punct ':' again second :: more) with
    | false => exact (readType_fails further colons rfl typed).elim
    | true =>
      obtain ⟨_, last, third, more, same⟩ := colons_cons colons
      simp only [List.cons.injEq, Token.punct.injEq, true_and] at same
      obtain ⟨⟨rfl, rfl⟩, rfl⟩ := same
      have fails : (readPattern g).Leads
          (·.rest = selfAndColons start pos second third true last more) fun _ _ => False := by
        refine Reads.bind_leads Reads.rest (Leads.bind ?_ fun _ => Leads.never)
        refine Reads.bind_leads (Reads.sees _) ?_
        exact Leads.bind (stops _ _ _ _ _ _ _) fun _ => Leads.never
      exact (fails here head).elim

/-! Layers. -/

/-- However many layers there are, no path goes on behind three colons. -/
theorem stopsAtColons (depth : Nat) : (ofDepth depth).StopsAtColons := by
  -- The grammar without layers reads nothing, and with a layer the reader of paths is known.
  intro start first second third joint last rest
  cases depth with
  | zero => exact Leads.failHere _
  | succ depth => exact readPath_fails (ofDepth depth)

/-- A layer over readers that can do more can do more. -/
theorem Refines.layer (refines : g.Refines further) (stops : g.StopsAtColons) :
    (layer g).Refines (layer further) where
  -- All readers but that of a receiver are refined part by part; the receiver may begin as a
  -- pattern does.
  ty := refines.readType
  path := refines.readPath
  expr := refines.readExpr
  unary := refines.readUnary
  binary := refines.readBinary
  matching := refines.readMatching
  pattern := refines.readPattern
  statements := refines.readStatements
  useTree := refines.readUseTree
  item := refines.readItem
  receiver_eq_ok _ _ := receiver_eq_ok_of_layer stops

/-- Without any layer nothing can be done. -/
theorem exhausted_refines (g : Grammar) : exhausted.Refines g where
  ty _ := .failHere _
  path _ := .failHere _
  expr _ := .failHere _
  unary _ := .failHere _
  binary _ _ _ := .failHere _
  matching := .failHere _
  pattern := .failHere _
  statements := .failHere _
  useTree := .failHere _
  item := .failHere _
  receiver_eq_ok := by
    -- There is no pattern that a parameter could start with.
    rintro scope source - ⟨pattern, between, colon, onward, ty, left, head, -⟩
    exact absurd head failHere_ne_ok

/-- More layers of readers can do more. -/
theorem ofDepth_refines {depth deeper : Nat} (enough : depth ≤ deeper) :
    (ofDepth depth).Refines (ofDepth deeper) := by
  -- Each layer is compared with the one at the same height above it.
  induction depth generalizing deeper with
  | zero => exact exhausted_refines _
  | succ depth ih =>
    cases deeper with
    | zero => omega
    | succ deeper => exact (ih (by omega)).layer (stopsAtColons depth)

end KeyedCoding.Grammar
