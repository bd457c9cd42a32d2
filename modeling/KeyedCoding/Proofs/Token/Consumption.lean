import KeyedCoding.Proofs.Token.Reader

/-! Exact consumption: which tokens a reader takes for which result, whatever stands around them. -/

namespace KeyedCoding.Reader

variable {α β σ : Type}

/-- A reader takes the first of some tokens for a value and leaves the others; it notes nothing. -/
def Reads (reader : Reader α) (tokens : List Token) (value : α) (left : List Token) : Prop :=
  ∀ scope heads stray, reader scope ⟨tokens, heads, stray⟩ = .ok (value, ⟨left, heads, stray⟩)

variable {reader : Reader α} {next : α → Reader β} {tokens between left : List Token} {value : α}
  {result : β}

/--
Two readers in a row take what the first one takes, and then what the second one takes of the rest.
-/
theorem Reads.bind (first : reader.Reads tokens value between)
    (second : (next value).Reads between result left) :
    (reader >>= next).Reads tokens result left :=
  fun scope heads stray =>
    bind_run_iff.mpr ⟨value, _, first scope heads stray, second scope heads stray⟩

/-- What follows a reader that takes some tokens goes on from the tokens that it leaves. -/
theorem Reads.bind_eq (first : reader.Reads tokens value between) (scope : Position)
    (heads : List String) (stray : Option Fault) :
    (reader >>= next) scope ⟨tokens, heads, stray⟩ = next value scope ⟨between, heads, stray⟩ :=
  bind_run_eq (first scope heads stray)

/-- A reader that takes some tokens has no other outcome on them. -/
theorem Reads.eq (reads : reader.Reads tokens value left) {scope : Position} {heads : List String}
    {stray : Option Fault} {found : α} {source : Source}
    (read : reader scope ⟨tokens, heads, stray⟩ = .ok (found, source)) :
    found = value ∧ source = ⟨left, heads, stray⟩ := by
  -- A reader is a function, so both outcomes are the same.
  rw [reads scope heads stray] at read
  cases read
  exact ⟨rfl, rfl⟩

/-- What follows a reader that takes some tokens leads on from the tokens that it leaves. -/
theorem Reads.bind_leads {after : β → Source → Prop} (first : reader.Reads tokens value between)
    (second : (next value).Leads (·.rest = between) after) :
    (reader >>= next).Leads (·.rest = tokens) after := by
  -- The first reader has only one outcome on these tokens.
  rintro scope ⟨_, heads, stray⟩ found left rfl read
  obtain ⟨here, middle, head, tail⟩ := bind_run_iff.mp read
  rw [first scope heads stray] at head
  cases head
  exact second rfl tail

/-- A reader that consumes nothing takes nothing. -/
theorem Reads.pure : (Pure.pure value : Reader α).Reads tokens value tokens := fun _ _ _ => rfl

/-- Looking at the tokens to come takes none of them. -/
theorem Reads.rest : Reader.rest.Reads tokens tokens tokens := fun _ _ _ => rfl

/-- A test of the tokens to come takes none of them. -/
theorem Reads.sees (test : List Token → Bool) :
    (Reader.sees test).Reads tokens (test tokens) tokens :=
  fun _ _ _ => rfl

/-- Asking whether there are more tokens takes none of them. -/
theorem Reads.atEnd : Reader.atEnd.Reads tokens tokens.isEmpty tokens := fun _ _ _ => rfl

/-- The place of the next token is found without taking it. -/
theorem Reads.here (token : Token) (rest : List Token) :
    Reader.here.Reads (token :: rest) token.pos (token :: rest) := fun _ _ _ => rfl

/-- A word is taken as it is. -/
theorem Reads.anyName (found : Name) : Reader.anyName.Reads (found.token :: left) found left :=
  fun _ _ _ => rfl

/-- A name that is not reserved is taken as it is. -/
theorem Reads.name {found : Name} (plain : Look.reserved.contains found.spelling = false) :
    Reader.name.Reads (found.token :: left) found left := by
  -- The look ahead shows the name, which passes the check.
  refine Reads.bind Reads.rest fun scope heads stray => ?_
  simp only [Name.token, plain, Bool.false_eq_true, if_false]
  rfl

/-- A string literal is read as it stands. -/
theorem Reads.text {written : String} {pos : Position} (text : Look.isText written = true) :
    Reader.text.Reads (.literal written pos :: left) (.literal written pos) left := by
  -- The reader looks at the first token and accepts it.
  refine Reads.bind Reads.rest ?_
  simp only [text, if_true]
  exact Reads.pure

/-- An operator takes its characters. -/
theorem Reads.symbol {spelling : String} {token : Token} {rest : List Token}
    (operator : Look.afterChars? spelling.toList (token :: rest) = some left) :
    (Reader.symbol spelling).Reads (token :: rest) (Token.symbolAt token.pos spelling) left := by
  -- The characters are compared with the tokens to come, and their place is that of the first one.
  refine Reads.bind (Reads.here token rest) (Reads.bind Reads.rest fun scope heads stray => ?_)
  simp only [operator]
  rfl

/-- A literal is taken as it is written. -/
theorem Reads.literal (written : String) (pos : Position) :
    Reader.literal.Reads (.literal written pos :: left) [.literal written pos] left :=
  fun _ _ _ => rfl

/-- Collecting the heads of a reader that notes none finds none. -/
theorem Reads.collectingHeads (reads : reader.Reads tokens value left) :
    (Reader.collectingHeads reader).Reads tokens (value, []) left := by
  -- The heads of before are put aside, and put back behind those of the reader.
  intro scope heads stray
  refine bind_run_iff.mpr ⟨_, _, rfl, bind_run_iff.mpr ⟨_, _, rfl, ?_⟩⟩
  exact bind_run_iff.mpr ⟨value, _, reads scope [] stray, rfl⟩

/-- A group takes its tokens if its content takes all of them. -/
theorem Reads.within {delim : Delimiter} {body : List Token} {opened closed : Position}
    (content : reader.Reads body value []) :
    (Reader.within delim reader).Reads (.group delim body opened closed :: left)
      (value, opened, closed) left := by
  -- Nothing is left over inside, so there is nothing to remember.
  refine Reads.bind Reads.rest fun scope heads stray => ?_
  dsimp only
  rw [if_pos rfl]
  refine bind_run_iff.mpr ⟨_, _, rfl, bind_run_iff.mpr ⟨value, _, content closed heads stray, ?_⟩⟩
  cases stray <;> rfl

/-- A group of which the content cannot be read cannot be read itself. -/
theorem Leads.within_never {delim : Delimiter} {body : List Token} {opened closed : Position}
    (inside : reader.Leads (·.rest = body) fun _ _ => False) :
    (within delim reader).Leads (·.rest = .group delim body opened closed :: left)
      fun _ _ => False := by
  refine Reads.bind_leads Reads.rest ?_
  dsimp only
  rw [if_pos rfl]
  -- The content is read from the tokens inside the group.
  intro scope source value after known read
  obtain ⟨_, between, entered, read⟩ := bind_run_iff.mp read
  cases entered
  obtain ⟨found, _, content, -⟩ := bind_run_iff.mp read
  exact inside rfl content

section Loops

variable {step : σ → Reader (σ ⊕ α)} {state further : σ} {count : Nat}

/-- A repetition goes on where a step has ended. -/
theorem Reads.iterateUpTo_inl (first : (step state).Reads tokens (.inl further) between)
    (others : (iterateUpTo step count further).Reads between value left) :
    (iterateUpTo step (count + 1) state).Reads tokens value left :=
  Reads.bind first others

/-- A repetition ends with the step that gives its result. -/
theorem Reads.iterateUpTo_inr (last : (step state).Reads tokens (.inr value) left) :
    (iterateUpTo step (count + 1) state).Reads tokens value left :=
  Reads.bind last Reads.pure

/-- A repetition may take as many steps as there are tokens, and two more. -/
theorem Reads.iterate
    (steps : (iterateUpTo step (tokens.length + 2) state).Reads tokens value left) :
    (Reader.iterate step state).Reads tokens value left :=
  Reads.bind Reads.rest steps

end Loops

/-- Tokens that are read as items one after another, while a test holds. -/
inductive ReadsEach (item : Reader α) (goesOn : List Token → Bool) :
    List Token → List α → List Token → Prop
  | done {tokens : List Token} (stops : goesOn tokens = false) :
      ReadsEach item goesOn tokens [] tokens
  | step {tokens between left : List Token} {value : α} {values : List α}
      (more : goesOn tokens = true) (reads : item.Reads tokens value between)
      (shorter : between.length < tokens.length)
      (others : ReadsEach item goesOn between values left) :
      ReadsEach item goesOn tokens (value :: values) left

/-- A repetition takes items one after another. -/
theorem Reads.many {item : Reader α} {goesOn : List Token → Bool} {values : List α}
    (each : ReadsEach item goesOn tokens values left) :
    (Reader.many goesOn item).Reads tokens values left := by
  -- The items read so far are kept in reverse, and every step leaves fewer tokens.
  have general : ∀ (read : List α) (count : Nat), tokens.length < count →
      (iterateUpTo (fun read => do
        if goesOn (← Reader.rest) then return .inl ((← item) :: read) else return .inr read.reverse)
        count read).Reads tokens (read.reverse ++ values) left := by
    induction each with
    -- Where the test fails, the items are returned in the order in which they stand.
    | done stops =>
      rintro read (_ | count) enough
      · omega
      · refine Reads.iterateUpTo_inr (Reads.bind Reads.rest ?_)
        rw [stops, List.append_nil]
        exact Reads.pure
    -- An item is put in front of those read, and one step of the count is used.
    | step more reads shorter _ ih =>
      rename_i value values _
      rintro read (_ | count) enough
      · omega
      · have onward := ih (value :: read) count (by omega)
        rw [List.reverse_cons, List.append_assoc, List.singleton_append] at onward
        refine Reads.iterateUpTo_inl (Reads.bind Reads.rest ?_) onward
        rw [more]
        exact Reads.bind reads Reads.pure
  exact Reads.iterate (general [] _ (by omega))

/-- Tokens that are read as items with separators between them, up to where a test holds. -/
inductive ReadsSeparated (item : Reader α) (stop : List Token → Bool) (separator : String) :
    List Token → List α → List Token → Prop
  | last {tokens left : List Token} {value : α} (begins : stop tokens = false)
      (reads : item.Reads tokens value left) (ends : stop left = true) :
      ReadsSeparated item stop separator tokens [value] left
  | more {tokens between next left written : List Token} {value : α} {values : List α}
      (begins : stop tokens = false) (reads : item.Reads tokens value between)
      (goesOn : stop between = false) (separates : (symbol separator).Reads between written next)
      (shorter : next.length < tokens.length)
      (others : ReadsSeparated item stop separator next values left) :
      ReadsSeparated item stop separator tokens (value :: values) left

/-- A separated list takes items with separators between them. -/
theorem Reads.listUntil {item : Reader α} {stop : List Token → Bool} {separator : String}
    {values : List α}
    (each : ReadsSeparated item stop separator tokens values left) :
    (Reader.listUntil stop separator item).Reads tokens (values, false) left := by
  -- Again the items are kept in reverse, and every separator leaves fewer tokens.
  have general : ∀ (read : List α) (count : Nat), tokens.length < count →
      (iterateUpTo (fun read => do
        if stop (← Reader.rest) then return .inr (read.reverse, !read.isEmpty)
        else
          let value ← item
          if stop (← Reader.rest) then return .inr ((value :: read).reverse, false)
          else
            let _ ← Reader.symbol separator
            return .inl (value :: read)) count read).Reads tokens
              (read.reverse ++ values, false) left := by
    induction each with
    | last begins reads ends =>
      rintro read (_ | count) enough
      · omega
      · -- The last item stands before the stop, so the round ends with it.
        refine Reads.iterateUpTo_inr (Reads.bind Reads.rest ?_)
        simp only [begins, Bool.false_eq_true, if_false]
        refine Reads.bind reads (Reads.bind Reads.rest ?_)
        rw [ends, List.reverse_cons]
        exact Reads.pure
    | more begins reads goesOn separates shorter _ ih =>
      rename_i value values _
      rintro read (_ | count) enough
      · omega
      · -- The separator goes on to the others, which take a round less.
        have onward := ih (value :: read) count (by omega)
        rw [List.reverse_cons, List.append_assoc, List.singleton_append] at onward
        refine Reads.iterateUpTo_inl (Reads.bind Reads.rest ?_) onward
        simp only [begins, Bool.false_eq_true, if_false]
        refine Reads.bind reads (Reads.bind Reads.rest ?_)
        simp only [goesOn, Bool.false_eq_true, if_false]
        exact Reads.bind separates Reads.pure
  -- There is a round more than there are tokens.
  exact Reads.iterate (general [] _ (by omega))

/-- Tokens that are read as items as long as a separator stands behind them. -/
inductive ReadsChain (item : Reader α) (stop : List Token → Bool) (separator : String) :
    List Token → List α → List Token → Prop
  | last {tokens left : List Token} {value : α} (begins : stop tokens = false)
      (reads : item.Reads tokens value left) (ends : Look.symbol separator left = false) :
      ReadsChain item stop separator tokens [value] left
  | more {tokens between next left written : List Token} {value : α} {values : List α}
      (begins : stop tokens = false) (reads : item.Reads tokens value between)
      (goesOn : Look.symbol separator between = true)
      (separates : (symbol separator).Reads between written next)
      (shorter : next.length < tokens.length)
      (others : ReadsChain item stop separator next values left) :
      ReadsChain item stop separator tokens (value :: values) left

/-- A chain takes items with separators between them. -/
theorem Reads.chain {item : Reader α} {stop : List Token → Bool} {separator : String}
    {values : List α} (each : ReadsChain item stop separator tokens values left) :
    (Reader.chain stop separator item).Reads tokens (values, false) left := by
  -- As before, the items are kept in reverse, and every separator leaves fewer tokens.
  have general : ∀ (read : List α) (count : Nat), tokens.length < count →
      (iterateUpTo (fun read => do
        if stop (← Reader.rest) then return .inr (read.reverse, !read.isEmpty)
        else
          let value ← item
          if ← Reader.sees (Look.symbol separator) then
            let _ ← Reader.symbol separator
            return .inl (value :: read)
          else return .inr ((value :: read).reverse, false)) count read).Reads tokens
            (read.reverse ++ values, false) left := by
    induction each with
    | last begins reads ends =>
      rintro read (_ | count) enough
      · omega
      · -- No separator stands behind the last item, so the round ends with it.
        refine Reads.iterateUpTo_inr (Reads.bind Reads.rest ?_)
        simp only [begins, Bool.false_eq_true, if_false]
        refine Reads.bind reads (Reads.bind (Reads.sees _) ?_)
        rw [ends, List.reverse_cons]
        exact Reads.pure
    | more begins reads goesOn separates shorter _ ih =>
      rename_i value values _
      rintro read (_ | count) enough
      · omega
      · -- The separator goes on to the others, which take a round less.
        have onward := ih (value :: read) count (by omega)
        rw [List.reverse_cons, List.append_assoc, List.singleton_append] at onward
        refine Reads.iterateUpTo_inl (Reads.bind Reads.rest ?_) onward
        simp only [begins, Bool.false_eq_true, if_false]
        refine Reads.bind reads (Reads.bind (Reads.sees _) ?_)
        rw [goesOn]
        exact Reads.bind separates Reads.pure
  exact Reads.iterate (general [] _ (by omega))

/-- A reader that takes all of some tokens succeeds on them. -/
theorem Reads.run (reads : reader.Reads tokens value []) (close : Position) :
    reader.run tokens close = .ok value := by
  -- Nothing is left that would have to be refused.
  rw [Reader.run, reads close [] none]

end KeyedCoding.Reader
