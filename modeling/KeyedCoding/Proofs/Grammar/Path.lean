import KeyedCoding.Config.Context
import KeyedCoding.Proofs.Text.Quoted
import KeyedCoding.Proofs.Token.Consumption
import KeyedCoding.Proofs.Token.Lexer

/-!
Laws of plain paths: a path that was read consists of names, and its written form is read back as
the path.
-/

namespace KeyedCoding

open Reader Lexer Lexeme

/-- Whether a name can be a segment of a path: it is not reserved, or it is a word for a place. -/
def Name.opensSegment (name : Name) : Bool :=
  ["super", "self", "crate", "try", "Self"].contains name.spelling ||
    !Look.reserved.contains name.spelling

/-- The name without its place. -/
def Name.unplaced (name : Name) : Name := ⟨name.spelling, .origin⟩

namespace Path

/-- The plain path of some names. -/
def ofNames (leading : Option Position) (names : List Name) : Path :=
  ⟨leading, names.map fun name => ⟨name, .none⟩⟩

/-- A plain path of names that can be its segments. -/
inductive Named : Path → Prop
  | intro {leading : Option Position} {first : Name} {more : List Name}
      (spelled : ∀ name ∈ first :: more, IsName name.spelling)
      (opens : ∀ name ∈ first :: more, name.opensSegment = true) :
        Named (ofNames leading (first :: more))

/-- The path without the places of its names. -/
def unplaced (path : Path) : Path :=
  ⟨path.leading.map fun _ => .origin, path.segments.map fun segment =>
    ⟨segment.name.unplaced, segment.arguments⟩⟩

/-- The tokens of the segments after the first one. -/
def tailTokens (names : List Name) : List Token :=
  names.flatMap fun name => Token.symbol "::" ++ [name.token]

/-- The tokens before the first segment. -/
def leadingTokens (leading : Option Position) : List Token :=
  match leading with
  | some pos => Token.symbolAt pos "::"
  | none => []

variable {leading : Option Position} {first : Name} {more names : List Name} {path : Path}

/-- A path is plain exactly if no segment has arguments. -/
theorem isPlain_iff :
    path.isPlain = true ↔ ∀ segment ∈ path.segments, segment.arguments = .none := by
  -- The path is tested segment by segment.
  rw [isPlain, List.all_eq_true]
  refine forall₂_congr fun segment inside => ?_
  cases segment.arguments <;> simp

/-- Without arguments the segments of a path are their names. -/
theorem eq_ofNames {segments : List Segment}
    (plain : ∀ segment ∈ segments, segment.arguments = .none) :
    (⟨leading, segments⟩ : Path) = ofNames leading (segments.map (·.name)) := by
  -- A segment without arguments is determined by its name.
  rw [ofNames, List.map_map]
  congr 1
  refine (List.map_id' _).symm.trans (List.map_congr_left fun segment inside => ?_)
  rw [Function.comp_apply, ← plain segment inside]
  cases segment
  rfl

/-- Without its places, the path of some names is the path of the names without theirs. -/
theorem unplaced_ofNames : (ofNames leading names).unplaced =
    ofNames (leading.map fun _ => .origin) (names.map Name.unplaced) := by
  -- A name without its place is a name, and a segment of it has no arguments.
  simp [unplaced, ofNames]

/-- The segments of a path are written one after another. -/
theorem tokens_ofNames :
    (ofNames leading (first :: more)).tokens =
      leadingTokens leading ++ first.token :: tailTokens more := by
  -- The double colon before a segment belongs to that segment.
  have segments : ∀ (first : Name), separate (Token.symbol "::") false
      (segmentTokens ((first :: more).map fun name => ⟨name, .none⟩)) =
        first.token :: tailTokens more := by
    induction more with
    | nil => exact fun first => rfl
    | cons second rest ih =>
      intro first
      have others := ih second
      rw [List.map_cons, segmentTokens] at others
      rw [List.map_cons, List.map_cons, segmentTokens, segmentTokens,
        separate.eq_3 _ _ _ _ (by simp), others]
      simp [Segment.tokens, Arguments.tokens, tailTokens]
  cases leading with
  | none => rw [ofNames, Path.tokens, segments, leadingTokens]
  | some pos => rw [ofNames, Path.tokens, segments, leadingTokens]

section Written

/-- The text of a segment behind the first one. -/
theorem render_tailTokens_cons {name : Name} :
    (Token.renderRest false (tailTokens (name :: names))).toList =
      ' ' :: ':' :: ':' :: ' ' :: (name.spelling.toList ++
        (Token.renderRest false (tailTokens names)).toList) := by
  -- Between two segments stand two colons, with a blank on each side of them.
  have tokens : tailTokens (name :: names) =
      .punct ':' true .origin :: .punct ':' false .origin :: name.token :: tailTokens names := rfl
  simp [tokens, Token.renderRest, Token.render, Token.isJoint, Name.token]

/-- The text of the segments after the first one starts with a blank, if there are any. -/
theorem endsName_tailTokens : EndsName (Token.renderRest false (tailTokens names)).toList := by
  -- A further segment is written behind a blank.
  cases names with
  | nil => exact .inl (by simp [tailTokens, Token.renderRest])
  | cons name rest => exact .inr ⟨_, render_tailTokens_cons⟩

/-- The segments after the first one are read as they are written. -/
theorem lexes_tailTokens (spelled : ∀ name ∈ names, IsName name.spelling) :
    Lexes (Token.renderRest false (tailTokens names)).toList (tailTokens names) := by
  induction names with
  | nil => exact Lexes.nil
  | cons name rest ih =>
    rw [List.forall_mem_cons] at spelled
    -- The name ends where the next double colon starts with its blank.
    have behind := Lexes.name (.inr rfl) spelled.1 endsName_tailTokens (ih spelled.2)
    rw [render_tailTokens_cons]
    exact Lexes.colons (.inr rfl) behind

/-- Moving the tokens of a path moves its names. -/
theorem moveAllTo_tokens : Token.moveAllTo .origin (ofNames leading (first :: more)).tokens =
    (ofNames leading (first :: more)).unplaced.tokens := by
  -- Every token behind the first name is moved on its own.
  have tail : Token.moveAllTo .origin (tailTokens more) = tailTokens (more.map Name.unplaced) := by
    induction more with
    | nil => rfl
    | cons name rest ih =>
      have tokens (name : Name) (rest : List Name) : tailTokens (name :: rest) =
          .punct ':' true .origin :: .punct ':' false .origin :: name.token :: tailTokens rest :=
        rfl
      rw [List.map_cons, tokens, tokens, Token.moveAllTo, Token.moveAllTo, Token.moveAllTo, ih]
      rfl
  rw [unplaced_ofNames, List.map_cons, tokens_ofNames, tokens_ofNames, ← tail]
  cases leading <;> rfl

/-- The written form of a path of names is read as the tokens of the path. -/
theorem Named.ofSource_renderAll (named : path.Named) :
    ∃ found, Token.ofSource (Token.renderAll path.tokens) = .ok found ∧
      Token.moveAllTo .origin found = path.unplaced.tokens := by
  obtain ⟨spelled, opens⟩ := named
  rename_i leading first more
  rw [List.forall_mem_cons] at spelled
  have tail := lexes_tailTokens spelled.2
  have ends : EndsName (Token.renderRest false (tailTokens more)).toList := endsName_tailTokens
  -- It is enough that the text is read as the tokens of the path, apart from their places.
  suffices lexes : ∃ cs, (Token.renderAll (ofNames leading (first :: more)).tokens).toList = cs ∧
      cs.head? ≠ some '\ufeff' ∧ Lexes cs ((leading.map fun _ => Token.symbol "::").getD [] ++
        first.token :: tailTokens more) by
    obtain ⟨cs, text, noMark, lexes⟩ := lexes
    obtain ⟨found, read, moved⟩ := ofSource_of_lexes (text ▸ noMark) (text ▸ lexes)
    refine ⟨found, read, ?_⟩
    rw [moved, ← moveAllTo_tokens, tokens_ofNames]
    cases leading <;> rfl
  rw [tokens_ofNames]
  cases leading with
  | none =>
    -- A relative path starts with its first name.
    refine ⟨first.spelling.toList ++ (Token.renderRest false (tailTokens more)).toList, ?_, ?_, ?_⟩
    · simp [leadingTokens, Token.renderAll, Token.render, Token.isJoint, Name.token]
    · obtain ⟨c, rest, shape, -, -, noMark, -⟩ := found?_name spelled.1 ends .origin
      rw [shape]
      simpa using noMark
    · exact Lexes.name (.inl rfl) spelled.1 ends tail
  | some pos =>
    -- An absolute path starts with a double colon.
    refine ⟨':' :: ':' :: ' ' :: (first.spelling.toList ++
      (Token.renderRest false (tailTokens more)).toList), ?_, ?_, ?_⟩
    · have tokens : leadingTokens (some pos) = [.punct ':' true pos, .punct ':' false pos] := rfl
      simp [tokens, Token.renderAll, Token.renderRest, Token.render, Token.isJoint, Name.token]
    · simp
    · exact Lexes.colons (.inl rfl) (Lexes.name (.inr rfl) spelled.1 ends tail)

end Written

end Path

namespace Grammar

open KeyedCoding.Path

variable {g : Grammar} {leading : Option Position} {name first : Name} {more names : List Name}
    {path : Path}

/-- A name is one of some words if it is spelled like one. -/
theorem any_word {words : List String} {left : List Token} :
    words.any (Look.word · (name.token :: left)) = words.contains name.spelling := by
  -- The next token is the name, so it is compared with each word.
  rw [List.contains_eq_any_beq]
  rfl

/-- The name of a segment is taken as it is. -/
theorem segmentName_reads {left : List Token} (opens : name.opensSegment = true) :
    segmentName.Reads (name.token :: left) name left := by
  refine Reads.bind Reads.rest ?_
  rw [any_word]
  -- The words for places are reserved, so they are taken without a check.
  cases place : ["super", "self", "crate", "try", "Self"].contains name.spelling with
  | true => exact Reads.anyName name
  | false =>
    rw [Name.opensSegment, place, Bool.false_or, Bool.not_eq_true'] at opens
    exact Reads.name opens

/-- Whether a path ends before some tokens: neither arguments nor a further segment come next. -/
def EndsPath (inExpr : Bool) (left : List Token) : Prop :=
  seesArguments inExpr left = false ∧ seesSegment left = false

/-- A segment without arguments is read up to the next one. -/
theorem segment_reads {inExpr : Bool} {left : List Token} (ends : EndsPath inExpr left)
    (opens : name.opensSegment = true) :
    (g.segment inExpr).Reads (name.token :: (tailTokens more ++ left)) ⟨name, .none⟩
      (tailTokens more ++ left) := by
  refine Reads.bind (segmentName_reads opens) (Reads.bind Reads.rest ?_)
  -- Neither what ends the path nor a double colon before a name opens arguments.
  have none : seesArguments inExpr (tailTokens more ++ left) = false := by
    cases more with
    | nil => exact ends.1
    | cons next rest => cases inExpr <;> rfl
  rw [none, Bool.and_false]
  exact Reads.pure

/-- The segments after the first one are read one by one. -/
theorem moreSegments_reads {inExpr : Bool} {left : List Token} (ends : EndsPath inExpr left)
    (opens : ∀ name ∈ names, name.opensSegment = true) :
    ReadsEach (do let _ ← symbol "::"; g.segment inExpr) seesSegment (tailTokens names ++ left)
      (names.map fun name => ⟨name, .none⟩) left := by
  -- Each round takes the two colons and the name behind them.
  induction names with
  | nil => exact .done ends.2
  | cons name rest ih =>
    rw [List.forall_mem_cons] at opens
    have colons : (symbol "::").Reads (tailTokens (name :: rest) ++ left) (Token.symbol "::")
        (name.token :: (tailTokens rest ++ left)) := Reads.symbol rfl
    refine .step rfl (Reads.bind colons (segment_reads ends opens.1)) ?_ (ih opens.2)
    simp only [tailTokens, List.flatMap_cons, List.length_append, List.length_singleton]
    omega

/-- A path of names is read from its tokens, up to what ends it. -/
theorem readPath_reads_before {inExpr : Bool} {left : List Token} (ends : EndsPath inExpr left)
    (named : path.Named) : (g.readPath inExpr).Reads (path.tokens ++ left) path left := by
  obtain ⟨-, opens⟩ := named
  rename_i leading first more
  rw [List.forall_mem_cons] at opens
  -- Behind the leading colons stand one segment and then the others.
  have segments : (do
      return (⟨leading, (← g.segment inExpr) :: (← g.moreSegments inExpr)⟩ : Path)).Reads
      (first.token :: (tailTokens more ++ left)) (ofNames leading (first :: more)) left :=
    Reads.bind (segment_reads ends opens.1)
      (Reads.bind (Reads.many (moreSegments_reads ends opens.2)) Reads.pure)
  rw [tokens_ofNames, List.append_assoc, List.cons_append]
  -- A path is absolute exactly if a double colon comes first.
  cases leading with
  | none =>
    have relative : Look.symbol "::" (first.token :: (tailTokens more ++ left)) = false := rfl
    refine Reads.bind (Reads.sees _) ?_
    rw [leadingTokens, List.nil_append, relative]
    exact Reads.bind Reads.pure segments
  | some pos =>
    have colons : (symbol "::").Reads
        (leadingTokens (some pos) ++ first.token :: (tailTokens more ++ left))
        (Token.symbolAt pos "::") (first.token :: (tailTokens more ++ left)) := Reads.symbol rfl
    exact Reads.bind (Reads.sees _) (Reads.bind (Reads.here _ _)
      (Reads.bind colons (Reads.bind Reads.pure segments)))

/-- A path of names is read from its tokens. -/
theorem readPath_reads (named : path.Named) : (g.readPath false).Reads path.tokens path [] := by
  -- Nothing stands behind the tokens, which ends the path.
  have whole := @readPath_reads_before g path false [] ⟨rfl, rfl⟩ named
  rwa [List.append_nil] at whole

/-- Where all names to come are spelled as names. -/
def NamesOnly (source : Source) : Prop := ∀ token ∈ source.rest, token.Named

/-- A name that can be a segment. -/
def IsSegmentName (name : Name) : Prop := IsName name.spelling ∧ name.opensSegment = true

/-- The name of a segment is a name that can be one. -/
theorem segmentName_leads :
    segmentName.Leads NamesOnly fun name source => IsSegmentName name ∧ NamesOnly source := by
  -- Taking a name leaves only tokens that were there before.
  have taken {name : Name} {source left : Source} (next : source.rest = name.token :: left.rest)
      (known : NamesOnly source) (opens : name.opensSegment = true) :
      IsSegmentName name ∧ NamesOnly left := by
    rw [NamesOnly, next, List.forall_mem_cons] at known
    exact ⟨⟨known.1 name.spelling name.pos rfl, opens⟩, known.2⟩
  refine Leads.bind Leads.rest fun tokens => ?_
  cases place : ["super", "self", "crate", "try", "Self"].any (Look.word · tokens) with
  | true =>
    -- The word has been seen before it is taken.
    rintro scope source name left ⟨known, seen⟩ read
    have next := anyName_eq_ok read
    refine taken next known ?_
    rw [seen, next, any_word] at place
    rw [Name.opensSegment, place, Bool.true_or]
  | false =>
    rintro scope source name left ⟨known, -⟩ read
    obtain ⟨next, plain⟩ := name_eq_ok read
    exact taken next known (by rw [Name.opensSegment, plain, Bool.not_false, Bool.or_true])

/-- A segment without arguments is a name that can be one. -/
theorem segment_leads {inExpr : Bool} : (g.segment inExpr).Leads NamesOnly fun segment source =>
    segment.arguments = .none → IsSegmentName segment.name ∧ NamesOnly source := by
  -- The arguments come last, so without them nothing follows the name.
  refine Leads.bind segmentName_leads fun name => Leads.bind Leads.rest fun tokens => ?_
  split
  · -- Arguments in angle brackets are arguments.
    have some : g.angleArguments.Gives (· ≠ .none) :=
      Gives.then fun _ => Gives.then fun _ => Gives.then fun _ => Gives.then fun _ =>
        Gives.pure (by simp)
    refine Leads.bind (Leads.mono some (fun _ _ => trivial) fun _ _ has => has) fun arguments => ?_
    exact Leads.pure fun source has none => absurd none has
  · exact Leads.pure fun source known _ => known.1

/--
The segments after the first one are names that can be segments if none of them has arguments.
-/
theorem moreSegments_leads (first : Segment) : (g.moreSegments false).Leads
    (fun source => first.arguments = .none → IsSegmentName first.name ∧ NamesOnly source)
    fun others _ => (∀ segment ∈ first :: others, segment.arguments = .none) →
      ∀ segment ∈ first :: others, IsSegmentName segment.name := by
  -- As long as there are no arguments, all tokens to come are tokens of the source.
  let keeps (read : List Segment) (source : Source) : Prop :=
    (∀ segment ∈ first :: read, segment.arguments = .none) →
      (∀ segment ∈ first :: read, IsSegmentName segment.name) ∧ NamesOnly source
  have each (read : List Segment) : (do let _ ← symbol "::"; g.segment false).Leads
      (fun source => keeps read source ∧ seesSegment source.rest = true)
      fun segment source => keeps (segment :: read) source := by
    -- A double colon is skipped, and what is left are some of the same tokens.
    have skips : (symbol "::").Leads (keeps read) fun _ source => keeps read source := by
      refine @Leads.symbol (fun tokens => (∀ segment ∈ first :: read, segment.arguments = .none) →
        (∀ segment ∈ first :: read, IsSegmentName segment.name) ∧ ∀ token ∈ tokens,
          token.Named) ?_ "::"
      exact fun tokens rest ends known plain =>
        ⟨(known plain).1, fun token inside => (known plain).2 token (ends.subset inside)⟩
    refine Leads.bind (skips.mono (fun source known => known.1) fun _ _ has => has) fun _ => ?_
    intro scope source segment left known taken plain
    -- The segments so far are without arguments if all of them are in the end.
    have before : ∀ other ∈ first :: read, other.arguments = .none :=
      fun other inside => plain other (by simp only [List.mem_cons] at inside ⊢; tauto)
    obtain ⟨names, named⟩ := known before
    obtain ⟨spelled, rest⟩ := segment_leads named taken (plain segment (by simp))
    refine ⟨fun other inside => ?_, rest⟩
    simp only [List.mem_cons] at inside
    rcases inside with rfl | rfl | inside
    · exact names _ (by simp)
    · exact spelled
    · exact names other (by simp [inside])
  have steps := Leads.many keeps each
  refine steps.mono (fun source known plain => ?_) fun others source has plain => ?_
  · obtain ⟨spelled, rest⟩ := known (plain first (by simp))
    exact ⟨by simpa using spelled, rest⟩
  · have all := (has (by simpa using plain)).1
    simpa using all

/-- The segments of a plain path are names that can be segments. -/
theorem readPath_leads :
    (g.readPath false).Leads NamesOnly fun path _ => path.isPlain = true → path.Named := by
  -- With or without leading colons, the segments are read in the same way.
  have segments (leading : Option Position) :
      (do
        return (⟨leading, (← g.segment false) :: (← g.moreSegments false)⟩ : Path)).Leads NamesOnly
        fun path _ => path.isPlain = true → path.Named := by
    -- The segments are the first and what stands behind colons.
    refine Leads.bind segment_leads fun first => Leads.bind (moreSegments_leads first)
      fun others => ?_
    refine Leads.pure fun source known plain => ?_
    have none := isPlain_iff.mp plain
    have names := known none
    -- A path without arguments is the path of its names.
    have path : (⟨leading, first :: others⟩ : Path) = ofNames leading
        (first.name :: others.map (·.name)) :=
      eq_ofNames none
    have each : ∀ name ∈ first.name :: others.map (·.name), IsSegmentName name := by
      rw [← List.map_cons, List.forall_mem_map]
      exact names
    rw [path]
    exact .intro (fun name inside => (each name inside).1) fun name inside => (each name inside).2
  refine Leads.bind (Leads.sees _) fun absolute => ?_
  split
  · -- The colons in front are no name, and the tokens behind them are still names.
    have skips : (symbol "::").Leads NamesOnly fun _ => NamesOnly :=
      @Leads.symbol (fun tokens => ∀ token ∈ tokens, token.Named)
        (fun tokens rest ends known token inside => known token (ends.subset inside)) "::"
    refine Leads.bind (Leads.mono Leads.here (fun _ known => known.1) fun _ _ has => has)
      fun pos => ?_
    have leads : (pure (some pos) : Reader (Option Position)).Leads NamesOnly fun _ => NamesOnly :=
      Leads.pure fun _ known => known
    exact Leads.bind skips fun _ => Leads.bind leads segments
  · exact Leads.bind (Leads.pure fun _ known => known.1) segments

end Grammar

namespace Path

/-- Where the path of the runtime can come from: it is the standard one, or a text holds it. -/
inductive Written : Path → Prop
  | standard : Written Context.standardRuntime
  | setting {text : String} {path : Path} (read : ofSetting text = .ok path) : Written path
  | literal {literal : Token} {path : Path} (read : ofLiteral literal = .ok path) : Written path

/-- A plain path that is read from the tokens of a source is a path of names. -/
theorem named_of_read {tokens : List Token} {close : Position} {path : Path}
    (named : ∀ token ∈ tokens, token.Named)
    (read : Grammar.read (·.path false) tokens close = .ok path)
    (plain : path.isPlain = true) : path.Named := by
  -- All tokens of the source are spelled as names where they are names.
  have leads : (Reader.Leads ((Grammar.forTokens tokens).path false) Grammar.NamesOnly
    fun path _ => path.isPlain = true → path.Named) := Grammar.readPath_leads
  exact leads.of_run named read plain

/-- A plain path that some source of paths gives is a path of names. -/
theorem Written.named {path : Path} (written : path.Written) (plain : path.isPlain = true) :
    path.Named := by
  cases written with
  | standard =>
    -- The standard path is a single name.
    have spelled : IsName "codable_synth" :=
      .inl ⟨'c', "odable_synth".toList, rfl, by decide, by decide⟩
    refine @Named.intro (some .origin) ⟨"codable_synth", .origin⟩ [] (fun name inside => ?_)
      (by decide)
    rw [List.mem_singleton.mp inside]
    exact spelled
  -- A setting is a text of its own.
  | setting read =>
    rw [ofSetting, mapError_eq_ok_iff, ofSource, Grammar.readSource] at read
    split at read
    · cases read
    · rename_i lexed
      exact named_of_read (named_of_ofSource lexed .origin).1 read plain
  -- A literal holds the text, whose tokens are moved to the place of the literal.
  | literal read =>
    rw [Path.ofLiteral] at read
    split at read
    · cases read
    · rename_i lexed
      obtain ⟨found, inside, suffix⟩ := bind_eq_ok_iff.mp read
      split at suffix
      · cases suffix
        exact named_of_read (named_of_ofSource lexed _).2 inside plain
      · cases suffix

/-- The literal of a path of names holds the path. -/
theorem Named.ofLiteral {path : Path} (named : path.Named) :
    Path.ofLiteral (.literal (Text.Quoted.literal (Token.renderAll path.tokens)) .origin) =
      .ok path.unplaced := by
  -- The text of the literal is the written path, and that is read as the path.
  obtain ⟨found, lexed, moved⟩ := named.ofSource_renderAll
  -- Places do not matter for what can be a segment.
  have again : path.unplaced.Named := by
    obtain ⟨spelled, opens⟩ := named
    rw [unplaced_ofNames, List.map_cons]
    exact .intro (by simpa [Name.unplaced] using spelled)
      (by simpa [Name.unplaced, Name.opensSegment] using opens)
  have read : Grammar.read (·.path false) path.unplaced.tokens .origin = .ok path.unplaced :=
    Reads.run (Grammar.readPath_reads again) .origin
  rw [Path.ofLiteral, Token.textValue, Text.Quoted.value?_literal, Option.getD_some, lexed]
  simp only [Token.pos, moved, read, Token.textSuffix, Text.Quoted.suffix_literal]
  rfl

end Path

end KeyedCoding
