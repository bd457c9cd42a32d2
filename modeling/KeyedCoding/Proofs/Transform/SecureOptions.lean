import KeyedCoding.Proofs.Token.Separated
import KeyedCoding.Proofs.Transform.Arguments

/-!
The options of a secure field as they are written: which tokens inside an attribute are read, and that
the order of the named options does not matter.
-/

namespace KeyedCoding.SecureOptions

open Reader Grammar

/--
Tokens that say an option with its name: a key is a string literal, and a store is all that a grammar
reads as an expression.
-/
inductive Argument.Writes (g : Grammar) : Argument → List Token → Prop
  | key {written : String} (pos place at_ : Position) (joint : Bool)
      (text : Look.isText written = true) :
      Writes g (.key (.literal written at_))
        [.name "key" pos, .punct '=' joint place, .literal written at_]
  | store {body : List Token} {close : Position} {value : Expr} (pos place : Position) (joint : Bool)
      (read : (g.expr true).run body close = .ok value) :
      Writes g (.store value) (.name "store" pos :: .punct '=' joint place :: body)

/-- A named option as it is written, with what it says. -/
structure WrittenArgument (g : Grammar) where
  tokens : List Token
  argument : Argument
  writes : argument.Writes g tokens

/--
The tokens inside an attribute: a key may lead, and named options follow, with commas between all of
them and perhaps one behind the last.
-/
structure Inside (g : Grammar) (leading : Option Token) (entries : List (WrittenArgument g))
    (trailing : Bool) (tokens : List Token) : Prop where
  text : ∀ key ∈ leading, Look.text [key] = true
  separated : Token.Separated trailing
    (leading.toList.map ([·]) ++ entries.map (·.tokens)) tokens

/-- The keys that are given, the leading one and the named ones. -/
def keysOf {g : Grammar} (leading : Option Token) (entries : List (WrittenArgument g)) :
    List Token :=
  leading.toList ++ entries.filterMap (·.argument.key?)

/-- The stores that are given. -/
def storesOf {g : Grammar} (entries : List (WrittenArgument g)) : List Expr :=
  entries.filterMap (·.argument.store?)

variable {g : Grammar} {found start last : Partial} {heads : List String} {stray : Option Fault}
  {scope close : Position} {left tokens : List Token} {options : SecureOptions}

/-! What can be added. -/

/-- Options can be added one after the other exactly if no place is filled twice. -/
theorem foldlM_add?_iff {arguments : List Argument} :
    arguments.foldlM Partial.add? start = some last ↔
      start.key.toList ++ arguments.filterMap Argument.key? = last.key.toList ∧
        start.store.toList ++ arguments.filterMap Argument.store? = last.store.toList := by
  -- The induction is on the arguments, each of which fills the place of its kind if that is empty.
  induction arguments generalizing start with
  | nil =>
    -- With no argument left, the two sides say that both places are the same.
    obtain ⟨key, store⟩ := start
    obtain ⟨key', store'⟩ := last
    cases key <;> cases key' <;> cases store <;> cases store' <;> simp
  | cons argument rest ih =>
    obtain ⟨key, store⟩ := start
    cases argument with
    | key literal =>
      cases key with
      | none => simp [Partial.add?, ih, Argument.key?, Argument.store?, List.filterMap_cons]
      | some before =>
        -- Two keys are more than one.
        have twice : before :: literal :: rest.filterMap Argument.key? ≠ last.key.toList := by
          cases last.key <;> simp
        simp [Partial.add?, Argument.key?, twice]
    | store value =>
      cases store with
      | none => simp [Partial.add?, ih, Argument.key?, Argument.store?, List.filterMap_cons]
      | some before =>
        have twice : before :: value :: rest.filterMap Argument.store? ≠ last.store.toList := by
          cases last.store <;> simp
        simp [Partial.add?, Argument.store?, twice]

/-! Options that are written are read. -/

/-- What follows the name of an option and the equals sign goes on behind them. -/
theorem named_eq {α : Type} {next : Name → Reader α} {spelling : String} {pos place : Position}
    {joint : Bool} (plain : Look.reserved.contains spelling = false) :
    (do
      let name ← name
      let _ ← symbol "="
      next name : Reader α) scope
        ⟨.name spelling pos :: .punct '=' joint place :: left, heads, stray⟩ =
      next ⟨spelling, pos⟩ scope ⟨left, heads, stray⟩ := by
  -- Two tokens are read: the name, which is not reserved, and the sign behind it.
  have name : Reader.name.Reads (.name spelling pos :: .punct '=' joint place :: left)
      ⟨spelling, pos⟩ (.punct '=' joint place :: left) := @Reads.name _ ⟨spelling, pos⟩ plain
  have sign : (symbol "=").Reads (.punct '=' joint place :: left) (Token.symbolAt place "=") left :=
    Reads.symbol rfl
  exact (name.bind_eq _ _ _).trans (sign.bind_eq _ _ _)

/-- A written option is read before a tail and added, or refused if its place is filled. -/
theorem readOption_written (known : Grammar.Local g) (entry : WrittenArgument g) (tail : Tail)
    (fresh : found.store = none → heads = []) :
    (∀ next, found.add? entry.argument = some next → ∃ noted, (next.store = none → noted = []) ∧
      readOption g found scope ⟨entry.tokens ++ tail.tokens, heads, none⟩ =
        .ok (next, ⟨tail.tokens, noted, none⟩)) ∧
    (found.add? entry.argument = none → ∀ next after,
      readOption g found scope ⟨entry.tokens ++ tail.tokens, heads, none⟩ ≠ .ok (next, after)) := by
  obtain ⟨key, store⟩ := found
  obtain ⟨tokens, argument, writes⟩ := entry
  -- The two options differ in what is read behind the equals sign, and in the place that they fill.
  cases writes with
  | @key written pos place at_ joint text =>
    have same : readOption g ⟨key, store⟩ scope
        ⟨.name "key" pos :: .punct '=' joint place :: .literal written at_ :: tail.tokens, heads,
          none⟩ = _ := named_eq rfl
    cases key with
    | none =>
      -- The place for the key is empty, and the text is read into it.
      refine ⟨fun next added => ⟨heads, ?_⟩, fun refused => by cases refused⟩
      cases added
      refine ⟨fresh, same.trans ?_⟩
      exact (Reads.text text).bind_eq _ _ _
    | some before =>
      -- The place is taken, so the second key is refused before its text is read.
      refine ⟨fun next added => (by cases added), fun _ next after read => ?_⟩
      cases same.symm.trans read
  | @store body close value pos place joint read =>
    have same : readOption g ⟨key, store⟩ scope
        ⟨.name "store" pos :: .punct '=' joint place :: (body ++ tail.tokens), heads, none⟩ = _ :=
      named_eq rfl
    cases store with
    | none =>
      obtain rfl := fresh rfl
      obtain ⟨noted, alone⟩ := run_eq_ok_iff.mp read
      -- The local reader finds the same expression before the tail as it does alone.
      have whole : (g.expr true) scope ⟨body ++ tail.tokens, [], none⟩ =
          .ok (value, ⟨tail.tokens, noted, none⟩) := (known.expr true).before alone tail
      refine ⟨fun next added => ⟨noted, ?_⟩, fun refused => by cases refused⟩
      cases added
      exact ⟨fun impossible => (by cases impossible), same.trans (bind_run_eq whole)⟩
    | some before =>
      -- As for the key, a second store is refused before its expression is read.
      refine ⟨fun next added => (by cases added), fun _ next after read => ?_⟩
      cases same.symm.trans read

/-- What separates an option from what is left behind it: nothing at the end, and else a comma. -/
inductive Separates : List Token → List Token → Prop
  | nothing : Separates [] []
  | comma (joint : Bool) (pos : Position) (left : List Token) :
      Separates (.punct ',' joint pos :: left) left

/-- What separates options can stand behind an argument. -/
def Separates.tail {between : List Token} (separates : Separates between left) : Tail where
  tokens := between
  comma token first := by
    cases separates with
    | nothing => cases first
    | comma joint pos _ =>
      cases first
      exact ⟨joint, pos, rfl⟩

/-- The separator takes what separates two options. -/
theorem separator_run_iff {source after : Source} :
    separator scope source = .ok ((), after) ↔
      Separates source.rest after.rest ∧ after = { source with rest := after.rest } := by
  -- At the end nothing is read, and before a token only a comma separates.
  obtain ⟨tokens, heads, stray⟩ := source
  obtain ⟨rest, noted, found⟩ := after
  rw [separator, Reads.atEnd.bind_eq]
  cases tokens with
  | nil =>
    constructor
    · -- At the end, the reader answers without reading and leaves the source as it is.
      intro read
      cases read
      exact ⟨.nothing, rfl⟩
    · rintro ⟨separates, same⟩
      cases separates
      cases same
      rfl
  | cons token more =>
    -- Before a token, the reader is the one for a comma, which leaves the heads and the stray
    -- alone.
    change (symbol "," >>= fun _ => pure () : Reader Unit) scope _ = _ ↔ _
    rw [bind_run_iff]
    constructor
    · rintro ⟨_, _, taken, same⟩
      cases same
      obtain ⟨behind, comma, -, same⟩ := symbol_run_iff.mp taken
      cases same
      have first : Look.afterChars? [','] (token :: more) = some rest := comma
      obtain ⟨joint, pos, whole⟩ := Look.cons_of_afterChars? first
      cases whole
      exact ⟨.comma joint pos _, rfl⟩
    · rintro ⟨separates, same⟩
      cases separates with
      | comma joint pos _ =>
        obtain ⟨-, rfl, rfl⟩ := Source.mk.inj same
        exact ⟨_, _, symbol_run_iff.mpr ⟨_, rfl, rfl, rfl⟩, rfl⟩

/-- A round that goes on reads an option and what separates it from the others. -/
theorem readRound_cons {token : Token} {more : List Token} {result : Partial ⊕ Partial}
    {source : Source} :
    readRound (readOption g) found scope ⟨token :: more, heads, stray⟩ = .ok (result, source) ↔
      ∃ next between, readOption g found scope ⟨token :: more, heads, stray⟩ = .ok (next, between) ∧
        separator scope between = .ok ((), source) ∧ result = .inl next := by
  -- The test for the end fails, so the round has two steps.
  have round : readRound (readOption g) found scope ⟨token :: more, heads, stray⟩ =
      (do
        let next ← readOption g found
        separator
        return .inl next : Reader (Partial ⊕ Partial)) scope ⟨token :: more, heads, stray⟩ :=
    Reads.atEnd.bind_eq _ _ _
  rw [round, bind_run_iff]
  constructor
  · rintro ⟨next, between, option, behind⟩
    obtain ⟨_, _, separated, same⟩ := bind_run_iff.mp behind
    cases same
    exact ⟨next, between, option, separated, rfl⟩
  · rintro ⟨next, between, option, separated, rfl⟩
    exact ⟨next, between, option, bind_run_iff.mpr ⟨(), source, separated, rfl⟩⟩

/-- A written option has a first token. -/
theorem WrittenArgument.exists_cons (entry : WrittenArgument g) :
    ∃ token more, entry.tokens = token :: more := by
  -- Both forms start with the name of their option.
  obtain ⟨tokens, argument, writes⟩ := entry
  cases writes <;> exact ⟨_, _, rfl⟩

/--
Rounds that begin with a written option add it and go on behind what separates it from the others,
or give nothing if its place is filled.
-/
theorem rounds_written (known : Grammar.Local g) (entry : WrittenArgument g) {between : List Token}
    (separates : Separates between left) (fresh : found.store = none → heads = []) (count : Nat) :
    (∀ next, found.add? entry.argument = some next → ∃ noted, (next.store = none → noted = []) ∧
      iterateUpTo (readRound (readOption g)) (count + 1) found scope
          ⟨entry.tokens ++ between, heads, none⟩ =
        iterateUpTo (readRound (readOption g)) count next scope ⟨left, noted, none⟩) ∧
    (found.add? entry.argument = none → ∀ last after,
      iterateUpTo (readRound (readOption g)) (count + 1) found scope
        ⟨entry.tokens ++ between, heads, none⟩ ≠ .ok (last, after)) := by
  -- The tail is what separates the option from the next one, and the option is not empty.
  obtain ⟨adds, refuses⟩ := @readOption_written _ found heads scope known entry separates.tail fresh
  obtain ⟨token, more, begins⟩ := entry.exists_cons
  have whole : entry.tokens ++ between = token :: (more ++ between) := by rw [begins]; rfl
  change ∀ next, _ → ∃ noted, _ ∧ readOption g found scope ⟨entry.tokens ++ between, heads, none⟩ =
    .ok (next, ⟨between, noted, none⟩) at adds
  change _ → ∀ next after, readOption g found scope ⟨entry.tokens ++ between, heads, none⟩ ≠ _
    at refuses
  rw [whole] at adds refuses ⊢
  constructor
  · intro next added
    -- The option is read up to the separator, and the round is that option and the separator.
    obtain ⟨noted, clean, option⟩ := adds next added
    have round : readRound (readOption g) found scope ⟨token :: (more ++ between), heads, none⟩ =
        .ok (.inl next, ⟨left, noted, none⟩) :=
      readRound_cons.mpr ⟨next, _, option, separator_run_iff.mpr ⟨separates, rfl⟩, rfl⟩
    exact ⟨noted, clean, bind_run_eq round⟩
  · intro none last after read
    -- A round begins with an option, whether it goes on or ends, and this option is refused.
    rcases iterateUpTo_succ_iff.mp read with ⟨_, _, round, -⟩ | round
    · obtain ⟨_, _, option, -⟩ := readRound_cons.mp round
      exact refuses none _ _ option
    · obtain ⟨_, _, option, -⟩ := readRound_cons.mp round
      exact refuses none _ _ option

/-- Rounds add a written option first if behind it they add the others. -/
theorem rounds_cons (known : Grammar.Local g) (entry : WrittenArgument g)
    {entries : List (WrittenArgument g)} {between : List Token} {count : Nat}
    (separates : Separates between left) (fresh : found.store = none → heads = [])
    (others : ∀ next noted, (next.store = none → noted = []) →
      ((∃ last_, iterateUpTo (readRound (readOption g)) count next scope ⟨left, noted, none⟩ =
        .ok (last, ⟨[], last_, none⟩)) ↔
          (entries.map (·.argument)).foldlM Partial.add? next = some last)) :
    (∃ noted, iterateUpTo (readRound (readOption g)) (count + 1) found scope
        ⟨entry.tokens ++ between, heads, none⟩ = .ok (last, ⟨[], noted, none⟩)) ↔
      ((entry :: entries).map (·.argument)).foldlM Partial.add? found = some last := by
  obtain ⟨goesOn, refuses⟩ := @rounds_written g found heads scope left known entry between separates
    fresh count
  rw [List.map_cons, List.foldlM_cons, Option.bind_eq_bind, Option.bind_eq_some_iff]
  -- If the place of the option is filled, neither side gives anything.
  cases added : found.add? entry.argument with
  | none =>
    constructor
    · rintro ⟨_, read⟩
      exact absurd read (refuses added _ _)
    · rintro ⟨_, impossible, -⟩
      cases impossible
  | some next =>
    obtain ⟨noted, clean, same⟩ := goesOn next added
    rw [same, others next noted clean]
    simp

/-- Written options are read as they are added one after the other. -/
theorem rounds_separated (known : Grammar.Local g) {trailing : Bool} {chunks : List (List Token)}
    (separated : Token.Separated trailing chunks tokens) {entries : List (WrittenArgument g)}
    (same : chunks = entries.map (·.tokens)) {count : Nat} (enough : tokens.length + 1 < count)
    (fresh : found.store = none → heads = []) :
    (∃ noted, iterateUpTo (readRound (readOption g)) count found scope ⟨tokens, heads, none⟩ =
      .ok (last, ⟨[], noted, none⟩)) ↔
        (entries.map (·.argument)).foldlM Partial.add? found = some last := by
  -- Where nothing is left, the next round ends the repetition with what has been found.
  have ends (state : Partial) (noted : List String) (rounds : Nat) :
      iterateUpTo (readRound (readOption g)) (rounds + 1) state scope ⟨[], noted, none⟩ =
        .ok (state, ⟨[], noted, none⟩) := rfl
  -- The induction is on how the chunks are separated; each round uses up one of them.
  induction separated generalizing entries found heads count with
  | none =>
    -- No chunk means no entry, and the only round ends at once.
    obtain rfl := List.map_eq_nil_iff.mp same.symm
    obtain _ | count := count
    · omega
    · simp [ends]
  | last chunk =>
    -- The last entry stands at the end without a separator.
    obtain ⟨entry, rest, rfl, rfl, none⟩ := List.map_eq_cons_iff.mp same.symm
    obtain rfl := List.map_eq_nil_iff.mp none
    obtain _ | _ | count := count
    · omega
    · omega
    rw [← List.append_nil entry.tokens]
    exact rounds_cons known entry .nothing fresh fun next noted _ => by simp [ends]
  | more chunk joint pos others ih =>
    -- The comma separates this entry from the others, for which the hypothesis has a round less.
    obtain ⟨entry, rest, rfl, rfl, behind⟩ := List.map_eq_cons_iff.mp same.symm
    obtain _ | count := count
    · omega
    have fewer := enough
    simp only [List.length_append, List.length_cons] at fewer
    exact rounds_cons known entry (.comma joint pos _) fresh fun next noted clean =>
      ih behind.symm (by omega) clean

/-! Options that are read are written. -/

/-- What follows the name of an option and the equals sign has both before it. -/
theorem exists_named {α : Type} {next : Name → Reader α} {value : α} {source after : Source}
    (read : (do
      let name ← name
      let _ ← symbol "="
      next name : Reader α) scope source = .ok (value, after)) :
    ∃ spelling pos place joint left,
      source.rest = .name spelling pos :: .punct '=' joint place :: left ∧
        next ⟨spelling, pos⟩ scope { source with rest := left } = .ok (value, after) := by
  -- The name and the sign are taken one after the other, and each is a single token.
  obtain ⟨word, behind, named, goesOn⟩ := bind_run_iff.mp read
  obtain ⟨first, -⟩ := name_eq_ok named
  obtain ⟨_, rfl, -⟩ := Single.name.exists_token named
  obtain ⟨_, _, sign, follows⟩ := bind_run_iff.mp goesOn
  obtain ⟨left, equals, -, rfl⟩ := symbol_run_iff.mp sign
  have operator : Look.afterChars? ['='] behind.rest = some left := equals
  obtain ⟨joint, place, second⟩ := Look.cons_of_afterChars? operator
  exact ⟨_, _, place, joint, left, first.trans (congrArg _ second), follows⟩

/--
An option that is read is written before what separates it from the others, if everything in it is
read. Only a store can leave something in a group, and only a store notes type heads.
-/
theorem exists_written (known : Grammar.Local g) {next : Partial} {source between : Source}
    (read : readOption g found scope source = .ok (next, between))
    (separates : Separates between.rest left)
    (fresh : found.store = none → source.heads = [] ∧ source.stray = none) :
    (next.store = none → between.heads = [] ∧ between.stray = none) ∧
      (between.stray = none → source.stray = none ∧ ∃ entry : WrittenArgument g,
        source.rest = entry.tokens ++ between.rest) := by
  -- An option is a name and an equals sign, and what follows depends on the name alone.
  obtain ⟨spelling, pos, place, joint, value, begins, follows⟩ := exists_named read
  obtain ⟨key, store⟩ := found
  dsimp only at follows
  split at follows
  · rename_i isKey
    obtain rfl : spelling = "key" := by simpa using isKey
    cases key with
    -- A key that is given already refuses this one, so nothing was read.
    | some before => cases follows
    | none =>
      -- The reader for a text leaves the heads and the stray as they were.
      obtain ⟨_, _, taken, same⟩ := bind_run_iff.mp follows
      cases same
      obtain ⟨same, written, at_, text, rfl⟩ := text_eq_ok taken
      obtain ⟨rfl, heads, stray⟩ := Source.mk.inj same
      exact ⟨heads ▸ stray ▸ fresh, fun whole => ⟨stray.trans whole,
        ⟨_, _, .key pos place at_ joint text⟩, begins⟩⟩
  · split at follows
    · rename_i isStore
      obtain rfl : spelling = "store" := by simpa using isStore
      cases store with
      -- The same holds of a store that is given already.
      | some before => cases follows
      | none =>
        obtain ⟨body, _, taken, same⟩ := bind_run_iff.mp follows
        cases same
        refine ⟨fun impossible => (by cases impossible), fun whole => ?_⟩
        obtain ⟨clean, bare⟩ := fresh rfl
        -- The expression is read of the tokens before the separator alone.
        obtain ⟨tokens, same, read⟩ :=
          @Steady.exists_alone _ _ (known.expr true) scope _ _ _ _ separates.tail taken rfl
        have alone : (g.expr true).run tokens scope = .ok body := by
          refine run_eq_ok_iff.mpr ⟨between.heads, ?_⟩
          rwa [clean, bare, whole] at read
        refine ⟨bare, ⟨_, _, .store pos place joint alone⟩, begins.trans ?_⟩
        exact congrArg (fun behind => .name "store" pos :: .punct '=' joint place :: behind) same
    · -- No other name is an option.
      cases follows

/-- Rounds that read everything read options that are written there with commas between them. -/
theorem exists_separated (known : Grammar.Local g) {source : Source} {count : Nat}
    {noted : List String}
    (read : iterateUpTo (readRound (readOption g)) count found scope source =
      .ok (last, ⟨[], noted, none⟩))
    (fresh : found.store = none → source.heads = [] ∧ source.stray = none) :
    source.stray = none ∧ ∃ (trailing : Bool) (entries : List (WrittenArgument g)),
      Token.Separated trailing (entries.map (·.tokens)) source.rest := by
  -- The induction is on the rounds; each takes an option, and the last one finds nothing left.
  induction count generalizing found source with
  | zero => exact absurd read failHere_ne_ok
  | succ count ih =>
    obtain ⟨_ | ⟨token, more⟩, heads, stray⟩ := source
    · -- Nothing is left, so nothing was read.
      cases read
      exact ⟨rfl, true, [], .none⟩
    · rcases iterateUpTo_succ_iff.mp read with ⟨next, after, round, others⟩ | round
      · -- The round is an option and a separator, and the hypothesis takes the others apart.
        obtain ⟨_, between, option, separated, same⟩ := readRound_cons.mp round
        cases same
        obtain ⟨separates, same⟩ := separator_run_iff.mp separated
        obtain ⟨clean, written⟩ := exists_written known option separates fresh
        obtain ⟨left, _, _⟩ := after
        obtain ⟨between, noted, found⟩ := between
        -- A separator hands on what the option has noted.
        obtain ⟨-, rfl, rfl⟩ := Source.mk.inj same
        obtain ⟨whole, trailing, entries, behind⟩ := ih others clean
        obtain ⟨bare, entry, begins⟩ := written whole
        refine ⟨bare, ?_⟩
        -- Without a comma nothing stands behind the option, so it is the last one.
        cases separates with
        | nothing => exact ⟨false, [entry], begins ▸ (List.append_nil entry.tokens).symm ▸ .last _⟩
        | comma joint pos => exact ⟨trailing, entry :: entries, begins ▸ .more _ joint pos behind⟩
      · obtain ⟨_, _, -, -, same⟩ := readRound_cons.mp round
        -- A round does not end before a token.
        cases same

/-! The key that may stand first. -/

/-- A key that stands first is read with what separates it from the named options. -/
theorem readLeadingKey_text {key : Token} {between : List Token} (text : Look.text [key] = true)
    (separates : Separates between left) :
    readLeadingKey scope ⟨key :: between, heads, stray⟩ =
      .ok ({ key := some key }, ⟨left, heads, stray⟩) := by
  cases key with
  | literal written pos =>
    -- The look at a text succeeds, so the key is taken and a separator is read behind it.
    have same : readLeadingKey scope ⟨.literal written pos :: between, heads, stray⟩ =
        (do
          let key ← Reader.text
          separator
          return { key := some key } : Reader Partial)
            scope ⟨.literal written pos :: between, heads, stray⟩ := by
      refine (Reads.sees Look.text).bind_eq _ _ _ |>.trans ?_
      rw [show Look.text (.literal written pos :: between) = true from text]
      rfl
    rw [same, (Reads.text text).bind_eq]
    exact bind_run_eq (separator_run_iff.mpr ⟨separates, rfl⟩)
  | _ => cases text

/-- Without a key that stands first nothing is read. -/
theorem readLeadingKey_none {source : Source} (plain : Look.text source.rest = false) :
    readLeadingKey scope source = .ok ({}, source) := by
  -- The reader looks for a text, and starts with no option if there is none.
  refine ((Reads.sees Look.text).bind_eq _ _ _).trans ?_
  rw [plain]
  rfl

/-- Behind the first of some chunks stands what separates it from the others. -/
theorem exists_separates {trailing : Bool} {chunk : List Token} {chunks : List (List Token)}
    (separated : Token.Separated trailing (chunk :: chunks) tokens) :
    ∃ between left, tokens = chunk ++ between ∧ Separates between left ∧
      ∃ ends, Token.Separated ends chunks left := by
  -- Either the chunk is the last one, or a comma stands behind it.
  cases separated with
  | last => exact ⟨[], [], (List.append_nil _).symm, .nothing, true, .none⟩
  | more _ joint pos others => exact ⟨_, _, rfl, .comma joint pos _, _, others⟩

/-- The leading key of written options is read, and the named options are left. -/
theorem Inside.exists_left {leading : Option Token} {entries : List (WrittenArgument g)}
    {trailing : Bool} (inside : Inside g leading entries trailing tokens) :
    ∃ (left : List Token) (ends : Bool), Token.Separated ends (entries.map (·.tokens)) left ∧
      ∀ scope, readLeadingKey scope ⟨tokens, [], none⟩ = .ok (⟨leading, none⟩, ⟨left, [], none⟩) := by
  obtain ⟨text, separated⟩ := inside
  cases leading with
  | none =>
    refine ⟨tokens, trailing, separated, fun scope => readLeadingKey_none ?_⟩
    -- A named option begins with its name.
    cases entries with
    | nil =>
      cases separated
      rfl
    | cons entry rest =>
      obtain ⟨_, _, rfl, -⟩ := exists_separates separated
      obtain ⟨_, _, writes⟩ := entry
      cases writes <;> rfl
  | some key =>
    obtain ⟨between, left, rfl, separates, ends, others⟩ := exists_separates separated
    exact ⟨left, ends, others, fun scope => readLeadingKey_text (text key rfl) separates⟩

/-- Behind the leading key, the named options are read in rounds, and one key has to be known. -/
theorem read_run_iff {start : Partial} {source between after : Source}
    (first : readLeadingKey scope source = .ok (start, between)) :
    read g scope source = .ok (options, after) ↔
      iterateUpTo (readRound (readOption g)) (between.rest.length + 2) start scope between =
        .ok (⟨some options.key, options.store⟩, after) := by
  rw [read, bind_run_eq first, bind_run_iff]
  constructor
  · -- Without a key the options are refused at the end.
    rintro ⟨⟨_ | key, store⟩, _, found, given⟩
    · exact absurd given failHere_ne_ok
    · cases given
      exact found
  · intro found
    exact ⟨_, after, found, rfl⟩

/-- Options are read of what is written exactly if one key is given, and at most one store. -/
theorem read_inside (known : Grammar.Local g) {leading : Option Token}
    {entries : List (WrittenArgument g)} {trailing : Bool}
    (inside : Inside g leading entries trailing tokens) :
    (read g).run tokens close = .ok options ↔
      keysOf leading entries = [options.key] ∧ storesOf entries = options.store.toList := by
  -- Behind the leading key the entries are separated, and the rounds read just them.
  obtain ⟨left, ends, separated, first⟩ := inside.exists_left
  have added := @foldlM_add?_iff ⟨leading, none⟩ ⟨some options.key, options.store⟩
    (entries.map (·.argument))
  rw [← @rounds_separated _ _ _ [] close _ known _ _ separated _ rfl (left.length + 2) (by omega)
    fun _ => rfl] at added
  simp only [List.filterMap_map, Option.toList_none, List.nil_append, Option.toList_some] at added
  change _ ↔ keysOf leading entries = _ ∧ storesOf entries = _ at added
  rw [← added, run_eq_ok_iff]
  exact exists_congr fun noted => read_run_iff (first close)

/-- What is read as options is written. -/
theorem exists_inside (known : Grammar.Local g) (given : (read g).run tokens close = .ok options) :
    ∃ leading entries trailing, Inside g leading entries trailing tokens := by
  -- Reading consists of the start, where a leading key may stand, and the rounds behind it.
  obtain ⟨noted, whole⟩ := run_eq_ok_iff.mp given
  obtain ⟨start, between, first, -⟩ := bind_run_iff.mp whole
  have rounds := (read_run_iff first).mp whole
  obtain ⟨_, _, got, key⟩ := bind_run_iff.mp first
  cases got
  -- The text at the start is the leading key, and the entries stand behind its separator.
  split at key
  · obtain ⟨_, behind, taken, key⟩ := bind_run_iff.mp key
    obtain ⟨same, written, pos, text, rfl⟩ := text_eq_ok taken
    obtain ⟨_, _, separated, key⟩ := bind_run_iff.mp key
    cases key
    obtain ⟨separates, stays⟩ := separator_run_iff.mp separated
    obtain ⟨left, _, _⟩ := between
    obtain ⟨behind, _, _⟩ := behind
    obtain ⟨-, rfl, rfl⟩ := Source.mk.inj stays
    obtain ⟨rfl, rfl, rfl⟩ := Source.mk.inj same
    obtain ⟨-, trailing, entries, others⟩ := exists_separated known rounds fun _ => ⟨rfl, rfl⟩
    have leads : ∀ key ∈ some (Token.literal written pos), Look.text [key] = true := by
      rintro _ ⟨⟩
      exact text
    -- Without a comma behind the key there are no entries.
    cases separates with
    | nothing => exact ⟨some _, [], false, leads, .last _⟩
    | comma joint place => exact ⟨some _, entries, trailing, leads, .more _ joint place others⟩
  · cases key
    -- Without a text at the start, the rounds begin at the first token.
    obtain ⟨-, trailing, entries, others⟩ := exists_separated known rounds fun _ => ⟨rfl, rfl⟩
    exact ⟨none, entries, trailing, by simp, others⟩

/-- At most one value is alone in every order. -/
theorem eq_toList_of_perm {α : Type} {values others : List α} (given : Option α)
    (same : values.Perm others) : values = given.toList ↔ others = given.toList := by
  -- A list of at most one value has no other order.
  cases given with
  | none => exact ⟨fun empty => (empty ▸ same).nil_eq.symm, fun empty => (empty ▸ same).eq_nil⟩
  | some value =>
    constructor
    · rintro rfl
      exact List.perm_singleton.mp same.symm
    · rintro rfl
      exact List.perm_singleton.mp same

/--
Options are read exactly of their grammar: a key may lead, named options follow, with commas between
them, one key is given and at most one store; the order of the named options does not matter.
-/
theorem read_settles (tokens : List Token) (close : Position) :
    (∀ options, Grammar.read read tokens close = .ok options ↔
      ∃ leading entries trailing, Inside (Grammar.forTokens tokens) leading entries trailing tokens ∧
        keysOf leading entries = [options.key] ∧ storesOf entries = options.store.toList) ∧
    ∀ leading entries reordered trailing others,
      Inside (Grammar.forTokens tokens) leading entries trailing tokens →
      Inside (Grammar.forTokens tokens) leading reordered trailing others →
      entries.Perm reordered → ∀ place options,
        Grammar.read read tokens close = .ok options ↔
          Grammar.read read others place = .ok options := by
  have known : Grammar.Local (Grammar.forTokens tokens) := Grammar.ofDepth_local _
  constructor
  · intro options
    constructor
    · intro given
      obtain ⟨leading, entries, trailing, inside⟩ := exists_inside known given
      exact ⟨leading, entries, trailing, inside, (read_inside known inside).mp given⟩
    · rintro ⟨leading, entries, trailing, inside, rules⟩
      exact (read_inside known inside).mpr rules
  · intro leading entries reordered trailing others one other same place options
    -- Both weigh the same, so they are read with the same grammar.
    have weights : Token.weightAll tokens = Token.weightAll others :=
      one.separated.weightAll_eq other.separated ((same.map _).append_left _)
    have grammars : Grammar.forTokens others = Grammar.forTokens tokens := by
      rw [Grammar.forTokens, Grammar.forTokens, weights]
    rw [Grammar.read, Grammar.read, grammars, read_inside known one, read_inside known other]
    exact and_congr (eq_toList_of_perm (some options.key) ((same.filterMap _).append_left _))
      (eq_toList_of_perm options.store (same.filterMap _))

/-- The key of a store is read behind the store as well as before it. -/
theorem read_settles_swapped :
    ∃ options,
      Grammar.read read
        [.name "key" .origin, .punct '=' false .origin, .literal "\"a\"" .origin,
          .punct ',' false .origin, .name "store" .origin, .punct '=' false .origin,
          .name "b" .origin] .origin = .ok options ∧
      Grammar.read read
        [.name "store" .origin, .punct '=' false .origin, .name "b" .origin,
          .punct ',' false .origin, .name "key" .origin, .punct '=' false .origin,
          .literal "\"a\"" .origin] .origin = .ok options := by
  have settled := read_settles
    [.name "key" .origin, .punct '=' false .origin, .literal "\"a\"" .origin,
      .punct ',' false .origin, .name "store" .origin, .punct '=' false .origin,
      .name "b" .origin] .origin
  -- The grammar only has to read the name of the store.
  generalize grammar : Grammar.forTokens _ = g at settled
  obtain ⟨value, read⟩ : ∃ value, (g.expr true).run [.name "b" .origin] .origin = .ok value := by
    subst grammar
    exact ⟨_, rfl⟩
  obtain ⟨key, written⟩ : ∃ key : WrittenArgument g, key =
      ⟨[.name "key" .origin, .punct '=' false .origin, .literal "\"a\"" .origin], _,
        .key .origin .origin .origin false rfl⟩ := ⟨_, rfl⟩
  obtain ⟨store, body⟩ : ∃ store : WrittenArgument g, store =
      ⟨.name "store" .origin :: .punct '=' false .origin :: [.name "b" .origin], _,
        .store .origin .origin false read⟩ := ⟨_, rfl⟩
  -- The two arguments can stand in either order.
  have keyFirst : Inside g none [key, store] false _ :=
    ⟨by simp, .more _ false .origin (.last _)⟩
  have storeFirst : Inside g none [store, key] false _ :=
    ⟨by simp, .more _ false .origin (.last _)⟩
  subst written body
  have first := (settled.1 ⟨.literal "\"a\"" .origin, some value⟩).mpr
    ⟨none, _, false, keyFirst, rfl, rfl⟩
  exact ⟨_, first, (settled.2 _ _ _ _ _ keyFirst storeFirst (.swap ..) .origin _).mp first⟩

end KeyedCoding.SecureOptions
