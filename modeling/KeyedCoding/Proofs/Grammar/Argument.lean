import KeyedCoding.Grammar
import KeyedCoding.Proofs.Grammar.Path

/-!
Reading arguments: a name on its own or with a literal behind an equals sign is read back as it is
written.
-/

namespace KeyedCoding

/-- A path has a single name exactly if it is the path of that name. -/
theorem Path.singleName?_eq_some_iff {path : Path} {name : Name} :
    path.singleName? = some name ↔ path = .ofName name := by
  -- Only the path of one name without arguments has a single name.
  constructor
  · intro single
    unfold singleName? at single
    split at single
    · cases single
      rfl
    · cases single
  · rintro rfl
    rfl

/-- Whether a name can open an argument of an attribute. -/
def Name.opensArgument (name : Name) : Bool :=
  name.spelling == "unsafe" || Grammar.opensPlainSegment [name.token]

/-- Where an argument ends: at the end of the list or before a comma. -/
def Look.endsArgument (tokens : List Token) : Prop :=
  tokens = [] ∨ ∃ joint pos more, tokens = .punct ',' joint pos :: more

namespace Grammar

open Reader

variable {left : List Token} {name : Name}

/-- Names with double colons between them are read up to what does not continue them. -/
theorem plainNames_reads (ends : Look.symbol "::" left = false) {first : Name} {more : List Name}
    (opens : ∀ name ∈ first :: more, opensPlainSegment [name.token] = true) :
    ReadsChain anyName (fun tokens => !opensPlainSegment tokens) "::"
      (first.token :: (Path.tailTokens more ++ left)) (first :: more) left := by
  -- Whether a segment opens is decided by its name alone.
  have begins (behind : List Token) (name : Name) (inside : opensPlainSegment [name.token] = true) :
      (!opensPlainSegment (name.token :: behind)) = false := by
    rw [Bool.not_eq_false']
    exact inside
  induction more generalizing first with
  | nil => exact .last (begins _ first (opens first (by simp))) (Reads.anyName first) ends
  | cons next rest ih =>
    rw [List.forall_mem_cons] at opens
    have colons : (symbol "::").Reads (Path.tailTokens (next :: rest) ++ left)
        (Token.symbol "::") (next.token :: (Path.tailTokens rest ++ left)) := Reads.symbol rfl
    refine .more (begins _ first opens.1) (Reads.anyName first) rfl colons ?_ (ih opens.2)
    simp only [Path.tailTokens, List.flatMap_cons, List.length_cons, List.length_append]
    omega

/-- A path of names without arguments is read up to what does not continue it. -/
theorem plainPath_reads_names {leading : Option Position} {first : Name} {more : List Name}
    (opens : ∀ name ∈ first :: more, opensPlainSegment [name.token] = true)
    (ends : Look.symbol "::" left = false) :
    plainPath.Reads ((Path.ofNames leading (first :: more)).tokens ++ left)
      (Path.ofNames leading (first :: more)) left := by
  have names := Reads.chain (plainNames_reads ends opens)
  rw [Path.tokens_ofNames, List.append_assoc, List.cons_append]
  -- A path is absolute exactly if a double colon comes first.
  cases leading with
  | none =>
    have relative : Look.symbol "::" (first.token :: (Path.tailTokens more ++ left)) = false := rfl
    refine Reads.bind (Reads.sees _) ?_
    simp only [Path.leadingTokens, List.nil_append, relative, Bool.false_eq_true, if_false]
    exact Reads.bind Reads.pure (Reads.bind names Reads.pure)
  | some pos =>
    refine Reads.bind (Reads.sees _) (Reads.bind (Reads.here _ _) ?_)
    exact Reads.bind (Reads.symbol rfl) (Reads.bind Reads.pure (Reads.bind names Reads.pure))

/-- Names of which one cannot be a segment give none, or end behind a double colon. -/
theorem plainNames_lead {first : Name} {more : List Name}
    (closed : ∃ name ∈ first :: more, opensPlainSegment [name.token] = false) :
    (chain (fun tokens => !opensPlainSegment tokens) "::" anyName).Leads
      (·.rest = first.token :: (Path.tailTokens more ++ left))
      fun result _ => result.1 = [] ∨ result.2 = true := by
  -- As long as names are read, the one that cannot be read is among those to come.
  let keeps (_ : List Name) (source : Source) : Prop :=
    ∃ head tail, (∃ name ∈ head :: tail, opensPlainSegment [name.token] = false) ∧
      source.rest = head.token :: (Path.tailTokens tail ++ left)
  refine Leads.mono (Leads.iterate keeps (fun read => ?_) [])
    (fun source here => ⟨first, more, closed, here⟩) fun _ _ has => has
  rintro scope source result after ⟨head, tail, ⟨bad, among, cannot⟩, here⟩ step
  refine (?_ : Leads _ (·.rest = head.token :: (Path.tailTokens tail ++ left))
    fun result source => Sum.elim (keeps · source)
      (fun found => found.1 = [] ∨ found.2 = true) result) here step
  refine Reads.bind_leads Reads.rest ?_
  cases opens : opensPlainSegment [head.token] with
  | false =>
    -- The names end here, and what has been read before ends in a double colon.
    have stopped : opensPlainSegment (head.token :: (Path.tailTokens tail ++ left)) = false := opens
    simp only [stopped, Bool.not_false, if_true]
    refine Leads.pure fun _ _ => ?_
    cases read <;> simp
  | true =>
    have begins : opensPlainSegment (head.token :: (Path.tailTokens tail ++ left)) = true := opens
    simp only [begins, Bool.not_true, Bool.false_eq_true, if_false]
    cases tail with
    | nil =>
      -- The name that cannot be read would be the one that has just been read.
      rw [List.mem_singleton.mp among, opens] at cannot
      cases cannot
    | cons next rest =>
      -- It is not the first one, so it is among the others.
      have later : bad ∈ next :: rest := by
        rcases List.mem_cons.mp among with rfl | later
        · rw [opens] at cannot
          cases cannot
        · exact later
      have colons : (symbol "::").Reads (Path.tailTokens (next :: rest) ++ left)
          (Token.symbol "::") (next.token :: (Path.tailTokens rest ++ left)) := Reads.symbol rfl
      have goesOn : Look.symbol "::" (Path.tailTokens (next :: rest) ++ left) = true := rfl
      refine Reads.bind_leads (Reads.anyName head) (Reads.bind_leads (Reads.sees _) ?_)
      rw [goesOn]
      exact Reads.bind_leads colons (Leads.pure fun source known =>
        ⟨next, rest, ⟨bad, later, cannot⟩, known⟩)

/-- A path of names of which one cannot be a segment is refused. -/
theorem plainPath_never {leading : Option Position} {first : Name} {more : List Name}
    (closed : ∃ name ∈ first :: more, opensPlainSegment [name.token] = false) :
    plainPath.Leads (·.rest = (Path.ofNames leading (first :: more)).tokens ++ left)
      fun _ _ => False := by
  -- No name at all is refused, and so is a double colon at the end.
  have refused (place : Option Position) (segments : List Name) (trailing : Bool) :
      (if segments.isEmpty then do
        let _ ← Reader.name
        failHere "expected identifier"
      else if trailing then failHere "expected path segment after `::`"
      else return (⟨place, segments.map fun name => ⟨name, .none⟩⟩ : Path)).Leads
        (fun _ => segments = [] ∨ trailing = true) fun _ _ => False := by
    split
    · have never : (do let _ ← Reader.name; failHere "expected identifier" : Reader Path).Gives
          fun _ => False := Gives.then fun _ => Gives.failHere _
      exact Leads.mono never (fun _ _ => trivial) fun _ _ has => has
    · split
      · exact Leads.failHere _
      · rename_i some whole
        refine Leads.pure fun _ known => ?_
        rcases known with none | trailing
        · exact some (by simp [none])
        · exact whole trailing
  have onward (place : Option Position) := Leads.bind (@plainNames_lead left first more closed)
    fun result => refused place result.1 result.2
  rw [Path.tokens_ofNames, List.append_assoc, List.cons_append]
  refine Reads.bind_leads (Reads.sees _) ?_
  -- A path is absolute exactly if a double colon comes first.
  cases leading with
  | none =>
    have relative : Look.symbol "::" (Path.leadingTokens none ++
        (first.token :: (Path.tailTokens more ++ left))) = false := rfl
    rw [relative]
    exact Reads.bind_leads Reads.pure (onward none)
  | some pos =>
    have absolute : Look.symbol "::" (Path.leadingTokens (some pos) ++
        (first.token :: (Path.tailTokens more ++ left))) = true := rfl
    rw [absolute]
    exact Reads.bind_leads (Reads.here _ _) (Reads.bind_leads (Reads.symbol rfl)
      (Reads.bind_leads Reads.pure (onward (some pos))))

/-- A path of one name is read up to what does not continue it. -/
theorem plainPath_reads (opens : opensPlainSegment [name.token] = true)
    (ends : Look.symbol "::" left = false) :
    plainPath.Reads (name.token :: left) (.ofName name) left :=
  @plainPath_reads_names left none name []
    (fun _ inside => List.mem_singleton.mp inside ▸ opens) ends

/-- An argument opens with its name, and goes on with its content. -/
theorem metaInside_eq {g : Grammar} {between : List Token} (opens : name.opensArgument = true)
    (single : Look.symbol "::" between = false) (scope : Position) (heads : List String)
    (stray : Option Fault) :
    metaInside g scope ⟨name.token :: between, heads, stray⟩ =
      (do return ⟨.ofName name, ← metaContent g⟩ : Reader Meta) scope ⟨between, heads, stray⟩ := by
  refine ((Reads.sees _).bind_eq _ _ _).trans ?_
  -- One reserved word opens an argument, but no other path.
  cases marked : Look.word "unsafe" (name.token :: between) with
  | true => exact ((Reads.anyName name).bind_eq _ _ _).trans (Reads.pure.bind_eq _ _ _)
  | false =>
    have plain : opensPlainSegment [name.token] = true := by
      have other : (name.spelling == "unsafe") = false := marked
      simpa [Name.opensArgument, other] using opens
    exact (plainPath_reads plain single).bind_eq _ _ _

/-- An argument opens with its name, and its content follows. -/
theorem metaInside_reads {g : Grammar} {content : MetaContent} {between : List Token}
    (opens : name.opensArgument = true) (single : Look.symbol "::" between = false)
    (reads : (metaContent g).Reads between content left) :
    (metaInside g).Reads (name.token :: between) ⟨.ofName name, content⟩ left :=
  fun scope heads stray => (metaInside_eq opens single scope heads stray).trans
    (bind_run_eq (reads scope heads stray))

/-- What ends an argument does not continue the path before it, and gives it no content. -/
theorem endsArgument_looks (ends : Look.endsArgument left) :
    Look.symbol "::" left = false ∧ seesGroup left = false ∧ Look.symbol "=" left = false := by
  -- Both ends are told by the first token.
  obtain rfl | ⟨joint, pos, more, rfl⟩ := ends <;> exact ⟨rfl, rfl, rfl⟩

/-- An argument without a value is a name. -/
theorem metaInside_reads_name (g : Grammar) (opens : name.opensArgument = true)
    (ends : Look.endsArgument left) :
    (metaInside g).Reads (name.token :: left) ⟨.ofName name, .none⟩ left := by
  obtain ⟨single, noGroup, noValue⟩ := endsArgument_looks ends
  -- What follows opens neither a group nor a value.
  have content : (metaContent g).Reads left .none left := by
    refine Reads.bind Reads.rest ?_
    simp only [noGroup, noValue, Bool.false_eq_true, if_false, Bool.false_and]
    exact Reads.pure
  exact metaInside_reads opens single content

section Literals

variable {written : String} {pos place : Position} {joint : Bool} {more : List Token}

/-- Without a hash there are no attributes. -/
theorem outerAttrTokens_reads_none (g : Grammar) {tokens : List Token}
    (none : Look.symbol "#" tokens = false) :
    (outerAttrTokens g).Reads tokens [] tokens := by
  -- The attributes are a repetition that stops at once.
  have attrs : (outerAttrs g).Reads tokens [] tokens := Reads.many (.done none)
  exact Reads.bind attrs fun _ _ _ => rfl

/-- An operand is read with what belongs to it behind it. -/
theorem readUnary_reads (g : Grammar) {token : Token} {tokens between : List Token}
    {first expr : Expr}
    (plain : ["#", "&", "*", "!", "-"].any (Look.symbol · (token :: tokens)) = false)
    (atom : (atom g true).Reads (token :: tokens) first between)
    (trailers : (trailers g first).Reads between expr left) :
    (readUnary g true).Reads (token :: tokens) expr left := by
  -- No attribute and no sign stands before the operand.
  simp only [List.any_cons, List.any_nil, Bool.or_eq_false_iff] at plain
  obtain ⟨hash, amp, star, bang, minus, -⟩ := plain
  refine Reads.bind (outerAttrTokens_reads_none g hash) (Reads.bind Reads.rest ?_)
  simp only [amp, star, bang, minus, List.any_cons, List.any_nil, Bool.or_false, Bool.false_eq_true,
    if_false]
  exact Reads.bind (Reads.here _ _) (Reads.bind atom (Reads.bind trailers Reads.pure))

/-- An operand that ends an argument is read on its own. -/
theorem readUnary_reads_atom (g : Grammar) {token : Token} {tokens : List Token} {expr : Expr}
    (plain : ["#", "&", "*", "!", "-"].any (Look.symbol · (token :: tokens)) = false)
    (atom : (atom g true).Reads (token :: tokens) expr left) (ends : Look.endsArgument left) :
    (readUnary g true).Reads (token :: tokens) expr left := by
  -- Nothing that could follow an operand stands behind it.
  refine readUnary_reads g plain atom ?_
  obtain rfl | ⟨joint, place, more, rfl⟩ := ends <;>
  exact Reads.iterate (Reads.iterateUpTo_inr (Reads.bind Reads.rest Reads.pure))

/-- A literal that ends an argument is a whole operand. -/
theorem readUnary_reads_literal (g : Grammar) (ends : Look.endsArgument left) :
    (readUnary g true).Reads (.literal written pos :: left)
      ⟨[.literal written pos], if Look.isText written then .textLiteral else .other⟩ left :=
  readUnary_reads_atom g rfl
    (Reads.bind Reads.rest (Reads.bind (Reads.literal written pos) Reads.pure)) ends

/-- An operand that ends an argument is a whole expression. -/
theorem expr_reads_operand (g : Grammar) {tokens : List Token} {expr : Expr}
    (unary : (readUnary g true).Reads tokens expr left) (ends : Look.endsArgument left) :
    ((layer (layer g)).expr true).Reads tokens expr left := by
  -- No operator stands behind the operand.
  refine Reads.bind unary (Reads.iterate (Reads.iterateUpTo_inr (Reads.bind Reads.rest ?_)))
  split
  · exact Reads.pure
  · obtain rfl | ⟨joint, place, more, rfl⟩ := ends <;> exact Reads.pure

/-- A literal at the end of an argument is its whole value. -/
theorem metaValue_reads_literal (g : Grammar) (ends : Look.endsArgument left) :
    ∃ shape, (metaValue (layer (layer g))).Reads
      (.literal written pos :: left) ⟨[.literal written pos], shape⟩ left := by
  -- At the end of the list the literal stands alone, and else a comma ends the expression.
  obtain rfl | ⟨joint, place, more, rfl⟩ := ends
  · exact ⟨_, Reads.bind Reads.rest (Reads.bind (Reads.literal written pos) Reads.pure)⟩
  · have before : Look.endsArgument (.punct ',' joint place :: more) := .inr ⟨_, _, _, rfl⟩
    exact ⟨_, Reads.bind Reads.rest
      (expr_reads_operand g (readUnary_reads_literal g before) before)⟩

/-- An argument with a literal behind an equals sign has that literal as its value. -/
theorem metaInside_reads_literal (g : Grammar) (opens : name.opensArgument = true)
    (ends : Look.endsArgument left) :
    (metaInside (layer (layer g))).Reads
      (name.token :: .punct '=' joint place :: .literal written pos :: left)
      ⟨.ofName name, .value place ⟨[.literal written pos], []⟩⟩ left := by
  -- The equals sign tells that a value follows.
  refine metaInside_reads opens rfl (Reads.bind Reads.rest ?_)
  obtain ⟨shape, value⟩ := metaValue_reads_literal g ends
  have sign : (symbol "=").Reads (.punct '=' joint place :: .literal written pos :: left)
      (Token.symbolAt place "=") (.literal written pos :: left) := Reads.symbol rfl
  have single : (Look.symbol "=" (.punct '=' joint place :: .literal written pos :: left) &&
      !Look.symbol "==" (.punct '=' joint place :: .literal written pos :: left) &&
      !Look.symbol "=>" (.punct '=' joint place :: .literal written pos :: left)) = true := by
    simp [Look.symbol, Look.afterChars?]
  simp only [single, if_true]
  exact Reads.bind (Reads.here _ _)
    (Reads.bind sign (Reads.bind (Reads.collectingHeads value) Reads.pure))

end Literals

/-- The tokens of an argument: a name, and behind an equals sign a literal if there is one. -/
def argumentTokens (argument : Name × Option String) : List Token :=
  argument.1.token ::
    match argument.2 with
    | none => []
    | some written => Token.symbol "=" ++ [.literal written .origin]

/-- An argument as it is read. -/
def argumentMeta (argument : Name × Option String) : Meta where
  path := .ofName argument.1
  content :=
    match argument.2 with
    | none => .none
    | some written => .value .origin ⟨[.literal written .origin], []⟩

/-- An argument is read as it is written. -/
theorem metaInside_reads_argument (g : Grammar) {argument : Name × Option String}
    (opens : argument.1.opensArgument = true) (ends : Look.endsArgument left) :
    (metaInside (layer (layer g))).Reads (argumentTokens argument ++ left)
      (argumentMeta argument) left := by
  obtain ⟨name, value⟩ := argument
  -- An argument has a literal or stands alone.
  cases value with
  | none => exact metaInside_reads_name _ opens ends
  | some written => exact metaInside_reads_literal g opens ends

/-- A comma stands between the first argument and the others. -/
theorem arguments_cons (first second : Name × Option String) (rest : List (Name × Option String)) :
    commaSeparated false ((first :: second :: rest).map argumentTokens) =
      argumentTokens first ++
        (Token.symbol "," ++ commaSeparated false ((second :: rest).map argumentTokens)) := by
  -- With another argument behind it, the first one is followed by a comma.
  rw [← List.append_assoc]
  rfl

/-- Arguments with commas between them are read as they are written, if there is one. -/
theorem arguments_separated (g : Grammar) {arguments : List (Name × Option String)}
    (opens : ∀ argument ∈ arguments, argument.1.opensArgument = true) (some : arguments ≠ []) :
    ReadsSeparated (metaInside (layer (layer g))) List.isEmpty ","
      (commaSeparated false (arguments.map argumentTokens)) (arguments.map argumentMeta) [] := by
  -- The last argument ends with the list, and every other one with a comma.
  induction arguments with
  | nil => exact absurd rfl some
  | cons argument rest ih =>
    rw [List.forall_mem_cons] at opens
    cases rest with
    | nil => exact .last rfl (metaInside_reads_argument g opens.1 (.inl rfl)) rfl
    | cons second rest =>
      -- The comma behind the first argument separates it from the others.
      have first := metaInside_reads_argument g opens.1
        (.inr ⟨false, .origin, commaSeparated false ((second :: rest).map argumentTokens), rfl⟩)
      have comma : (symbol ",").Reads
          (Token.symbol "," ++ commaSeparated false ((second :: rest).map argumentTokens))
            (Token.symbol ",")
          (commaSeparated false ((second :: rest).map argumentTokens)) := Reads.symbol rfl
      have onward := ih opens.2 (by simp)
      rw [arguments_cons]
      refine .more rfl first rfl comma ?_ onward
      simp only [List.length_append]
      have comma : (Token.symbol ",").length = 1 := rfl
      omega

/-- Arguments are read back from their tokens. -/
theorem read_arguments {arguments : List (Name × Option String)}
    (opens : ∀ argument ∈ arguments, argument.1.opensArgument = true) :
    Grammar.read (fun g => commaList g.metaInside)
      (commaSeparated false (arguments.map argumentTokens)) =
        .ok (arguments.map argumentMeta, false) := by
  -- All tokens are taken, so nothing is left over.
  refine Reads.run ?_ .origin
  cases arguments with
  | nil => exact Reads.iterate (Reads.iterateUpTo_inr (Reads.bind Reads.rest Reads.pure))
  | cons argument rest => exact Reads.listUntil (arguments_separated _ opens (by simp))

/-- A name that cannot open an argument opens none. -/
theorem metaInside_fails (g : Grammar) (closed : name.opensArgument = false) :
    (metaInside g).Leads (·.rest = name.token :: left) fun _ _ => False := by
  have other : Look.word "unsafe" (name.token :: left) = false := by
    rw [Name.opensArgument, Bool.or_eq_false_iff] at closed
    exact closed.1
  have noSegment : opensPlainSegment [name.token] = false := by
    rw [Name.opensArgument, Bool.or_eq_false_iff] at closed
    exact closed.2
  -- The name would have to be the only segment of a path.
  have refused := @plainPath_never left none name [] ⟨name, by simp, noSegment⟩
  refine Reads.bind_leads (Reads.sees _) ?_
  simp only [other, Bool.false_eq_true, if_false]
  exact Leads.bind refused fun path => Leads.never

/-- Arguments of which one has a name that cannot open an argument are not read. -/
theorem arguments_fail (g : Grammar) {arguments : List (Name × Option String)}
    (closed : ∃ argument ∈ arguments, argument.1.opensArgument = false) :
    (commaList (metaInside (layer (layer g)))).Leads
      (·.rest = commaSeparated false (arguments.map argumentTokens)) fun _ _ => False := by
  -- As long as arguments are read, the one that cannot be read is among those to come.
  let keeps (_ : List Meta) (source : Source) : Prop :=
    ∃ coming : List (Name × Option String),
      (∃ argument ∈ coming, argument.1.opensArgument = false) ∧
        source.rest = commaSeparated false (coming.map argumentTokens)
  refine Leads.mono (Leads.iterate keeps (fun read => ?_) [])
    (fun source here => ⟨arguments, closed, here⟩)
    fun _ _ never => never
  rintro scope source result left ⟨coming, ⟨bad, among, opens⟩, here⟩ step
  refine (?_ : Leads _ (·.rest = commaSeparated false (coming.map argumentTokens))
    fun result source =>
    Sum.elim (keeps · source) (fun _ => False) result) here step
  cases coming with
  | nil => cases among
  | cons argument others =>
    cases first : argument.1.opensArgument with
    | false =>
      -- The first argument cannot be read.
      have begins : ∃ tail, commaSeparated false ((argument :: others).map argumentTokens) =
          argument.1.token :: tail := by
        cases others with
        | nil => exact ⟨_, rfl⟩
        | cons second rest => exact ⟨_, arguments_cons argument second rest⟩
      obtain ⟨tail, shape⟩ := begins
      rw [shape]
      refine Reads.bind_leads Reads.rest ?_
      exact Leads.bind (metaInside_fails _ first) fun _ => Leads.never
    | true =>
      cases others with
      | nil =>
        rw [List.mem_singleton.mp among, first] at opens
        cases opens
      | cons second rest =>
        -- The first argument is read, and the others are still to come.
        have reads := metaInside_reads_argument g first
          (.inr ⟨false, .origin, commaSeparated false ((second :: rest).map argumentTokens), rfl⟩)
        have later : bad ∈ second :: rest := by
          rcases List.mem_cons.mp among with rfl | later
          · simp [first] at opens
          · exact later
        rw [arguments_cons]
        refine Reads.bind_leads Reads.rest (Reads.bind_leads reads (Reads.bind_leads Reads.rest ?_))
        refine Reads.bind_leads (Reads.symbol rfl) (Leads.pure fun source known => ?_)
        exact ⟨second :: rest, ⟨bad, later, opens⟩, known⟩

/-- Arguments of which one has a name that cannot open an argument are refused. -/
theorem read_arguments_ne_ok {arguments : List (Name × Option String)} {result : List Meta × Bool}
    (closed : ∃ argument ∈ arguments, argument.1.opensArgument = false) :
    Grammar.read (fun g => commaList g.metaInside)
      (commaSeparated false (arguments.map argumentTokens)) ≠ .ok result :=
  fun read => Leads.of_run (arguments_fail _ closed) rfl read

/-- What a plain path consists of are names that can open a segment. -/
theorem plainPath_gives : plainPath.Gives fun path => ∀ segment ∈ path.segments,
    opensPlainSegment [segment.name.token] = true := by
  have names : (chain (fun tokens => !opensPlainSegment tokens) "::" anyName).Gives fun result =>
      ∀ name ∈ result.1, opensPlainSegment [name.token] = true := by
    refine Gives.chain fun scope source name left goesOn read => ?_
    -- Only the first token decides whether a segment opens.
    simp only [anyName_eq_ok read] at goesOn
    have opens : opensPlainSegment (name.token :: left.rest) = true := by simpa using goesOn
    exact opens
  have path (leading : Option Position) (segments : List Name) (trailing : Bool)
      (known : ∀ name ∈ segments, opensPlainSegment [name.token] = true) :
      (if segments.isEmpty then do
        let _ ← Reader.name
        failHere "expected identifier"
      else if trailing then failHere "expected path segment after `::`"
      else return (⟨leading, segments.map fun name => ⟨name, .none⟩⟩ : Path)).Gives fun path =>
        ∀ segment ∈ path.segments, opensPlainSegment [segment.name.token] = true := by
    split
    · exact Gives.then fun _ => Gives.failHere _
    · split
      · exact Gives.failHere _
      · exact Gives.pure (by simpa using known)
  -- Whether the path is absolute makes no difference to its segments.
  refine Gives.then fun seen => ?_
  have read (leading : Option Position) := Gives.bind names fun result known =>
    path leading result.1 result.2 known
  split
  · exact Gives.then fun pos => Gives.then fun _ => Gives.then fun leading => read leading
  · exact Gives.then fun leading => read leading

/-- A single name that an argument opens with can open one. -/
theorem metaInside_gives (g : Grammar) : (metaInside g).Gives fun inside =>
    ∀ name, inside.path.singleName? = some name → name.opensArgument = true := by
  -- The content does not change the path.
  have rest (path : Path)
      (known : ∀ name, path.singleName? = some name → name.opensArgument = true) :
      (do return (⟨path, ← metaContent g⟩ : Meta)).Gives fun inside =>
        ∀ name, inside.path.singleName? = some name → name.opensArgument = true :=
    Gives.then fun content => Gives.pure known
  refine Leads.bind (Leads.sees _) fun seen => ?_
  cases seen with
  | true =>
    -- The reserved word is taken as it is.
    have word : anyName.Leads (fun source => True ∧ true = Look.word "unsafe" source.rest)
        fun name _ => name.opensArgument = true := by
      intro scope source name left known read
      simp only [anyName_eq_ok read, true_and] at known
      simp [Name.opensArgument, show (name.spelling == "unsafe") = true from known.symm]
    refine Leads.bind word fun name => Leads.of_gives fun opens =>
      rest (.ofName name) fun single same => ?_
    rw [Path.singleName?_eq_some_iff] at same
    cases same
    exact opens
  | false =>
    -- Any other single name is that of a segment, which has passed the check.
    have plain : plainPath.Gives fun path => ∀ name, path.singleName? = some name →
      name.opensArgument = true := by
      refine Gives.mono plainPath_gives fun path known name single => ?_
      obtain rfl := Path.singleName?_eq_some_iff.mp single
      have opens := known ⟨name, .none⟩ (by simp [Path.ofName])
      simp [Name.opensArgument, opens]
    exact Leads.mono (Gives.bind plain rest) (fun _ _ => trivial) fun _ _ has => has

end Grammar

end KeyedCoding
