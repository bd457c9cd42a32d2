import KeyedCoding.Token.Reader
import KeyedCoding.Proofs.Success

/-!
Laws of readers: what the results of a reader have in common, given what is known of the tokens
before it.
-/

namespace KeyedCoding.Reader

variable {α β σ : Type}

/--
Two readers in a row succeed exactly if the second one succeeds where the first one has ended.
-/
theorem bind_run_iff {reader : Reader α} {next : α → Reader β} {scope : Position}
    {source left : Source}
    {result : β} :
    (reader >>= next) scope source = .ok (result, left) ↔
      ∃ value between, reader scope source = .ok (value, between) ∧
        next value scope between = .ok (result, left) := by
  -- The second reader starts from the source that the first one leaves.
  constructor
  · intro read
    obtain ⟨⟨value, between⟩, head, tail⟩ := bind_eq_ok_iff.mp read
    exact ⟨value, between, head, tail⟩
  · rintro ⟨value, between, head, tail⟩
    exact bind_eq_ok_iff.mpr ⟨(value, between), head, tail⟩

/-- What follows a reader that succeeds goes on where it has ended. -/
theorem bind_run_eq {reader : Reader α} {next : α → Reader β} {scope : Position}
    {source between : Source} {value : α} (read : reader scope source = .ok (value, between)) :
    (reader >>= next) scope source = next value scope between := by
  -- A reader is a function of its source, and the second one starts with what the first one leaves.
  change (reader scope source >>= fun result => next result.1 scope result.2) = _
  rw [read]
  rfl

/-- A repetition succeeds if a round goes on to one that does, or ends it. -/
theorem iterateUpTo_succ_iff {step : σ → Reader (σ ⊕ α)} {count : Nat} {state : σ} {last : α}
    {scope : Position} {source left : Source} :
    iterateUpTo step (count + 1) state scope source = .ok (last, left) ↔
      (∃ next between, step state scope source = .ok (.inl next, between) ∧
        iterateUpTo step count next scope between = .ok (last, left)) ∨
      step state scope source = .ok (.inr last, left) := by
  -- A round gives the next state or the final value.
  rw [iterateUpTo, bind_run_iff]
  constructor
  · rintro ⟨next | value, between, round, others⟩
    · exact .inl ⟨next, between, round, others⟩
    · cases others
      exact .inr round
  · rintro (⟨next, between, round, others⟩ | round)
    · exact ⟨_, between, round, others⟩
    · exact ⟨_, left, round, rfl⟩

/-- All of some tokens are read if nothing is left of them, and nothing in a group inside them. -/
theorem run_eq_ok_iff {reader : Reader α} {tokens : List Token} {close : Position} {value : α} :
    reader.run tokens close = .ok value ↔
      ∃ noted, reader close ⟨tokens, [], none⟩ = .ok (value, ⟨[], noted, none⟩) := by
  unfold run
  constructor
  · intro read
    split at read
    · cases read
    · rename_i found source ended
      obtain ⟨tokens, noted, stray⟩ := source
      -- Only without any leftover the value is given.
      rcases stray with _ | fault
      · rcases tokens with _ | ⟨token, more⟩
        · cases read
          exact ⟨noted, ended⟩
        · cases read
      · cases read
  · rintro ⟨noted, read⟩
    rw [read]

/-- From a source with one property, a reader leads to results and sources with another. -/
def Leads (reader : Reader α) (before : Source → Prop) (after : α → Source → Prop) : Prop :=
  ∀ ⦃scope source value left⦄, before source → reader scope source = .ok (value, left) →
    after value left

section Leads

variable {reader : Reader α} {next : α → Reader β} {before : Source → Prop}
    {middle : α → Source → Prop}
  {after : β → Source → Prop}

/-- Two readers in a row lead where the second one leads from where the first one has led. -/
theorem Leads.bind (first : reader.Leads before middle)
    (second : ∀ value, (next value).Leads (middle value) after) :
    (reader >>= next).Leads before after := by
  -- What the first reader has led to is what the second one starts from.
  intro scope source value left known read
  obtain ⟨found, between, head, tail⟩ := bind_run_iff.mp read
  exact second found (first known head) tail

/-- A reader that consumes nothing leads where it starts. -/
theorem Leads.pure {value : α} (known : ∀ source, before source → middle value source) :
    (Pure.pure value : Reader α).Leads before middle := by
  -- The source is left as it was.
  intro scope source found left has read
  cases read
  exact known _ has

/-- A reader that fails leads anywhere. -/
theorem Leads.failAt (pos : Position) (message : String) :
    (failAt pos message : Reader α).Leads before middle := by
  -- There is no result to speak of.
  intro scope source found left has read
  cases read

/-- A reader that fails where it stands leads anywhere. -/
theorem Leads.failHere (message : String) : (failHere message : Reader α).Leads before middle := by
  intro scope source found left has read
  obtain ⟨state, between, -, tail⟩ := bind_run_iff.mp read
  -- The failure does not depend on what comes next, only its words do.
  cases tokens : state.rest with
  | nil =>
    simp only [tokens] at tail
    obtain ⟨pos, again, -, failed⟩ := bind_run_iff.mp tail
    cases failed
  | cons token rest =>
    simp only [tokens] at tail
    cases tail

/-- From nowhere, a reader leads anywhere. -/
theorem Leads.never : reader.Leads (fun _ => False) middle := fun _ _ _ _ never => never.elim

/-- More may be known of the source, and less of the result. -/
theorem Leads.mono (leads : reader.Leads before middle) {stronger : Source → Prop}
    {weaker : α → Source → Prop} (strengthen : ∀ source, stronger source → before source)
    (weaken : ∀ value source, middle value source → weaker value source) :
    reader.Leads stronger weaker :=
  fun _ _ _ _ known read => weaken _ _ (leads (strengthen _ known) read)

/-- Whichever side of a choice is taken leads where both do. -/
theorem Leads.ite {condition : Prop} [Decidable condition] {yes no : Reader α}
    (one : condition → yes.Leads before middle) (other : no.Leads before middle) :
    (if condition then yes else no).Leads before middle := by
  -- Each side has its own condition at hand.
  split
  · rename_i holds
    exact one holds
  · exact other

/-- The tokens to come are the result, and stay. -/
theorem Leads.rest :
    Reader.rest.Leads before fun tokens source => before source ∧ tokens = source.rest := by
  -- The source is left as it was.
  intro scope source value left known read
  cases read
  exact ⟨known, rfl⟩

/-- A look at the tokens to come tells whether they pass, and leaves them. -/
theorem Leads.sees (test : List Token → Bool) :
    (Reader.sees test).Leads before fun seen source => before source ∧ seen = test source.rest := by
  -- The source is left as it was.
  intro scope source value left known read
  cases read
  exact ⟨known, rfl⟩

/-- Asking for the place leaves everything as it is. -/
theorem Leads.here : Reader.here.Leads before fun _ source => before source := by
  intro scope source value left known read
  -- At the end the place is that of the closing mark, and else that of the next token.
  obtain ⟨state, between, got, tail⟩ := bind_run_iff.mp read
  cases got
  cases tokens : source.rest with
  | nil =>
    simp only [tokens] at tail
    cases tail
    exact known
  | cons token rest =>
    simp only [tokens] at tail
    cases tail
    exact known

/--
A repeated step leads where its last step leads, if the states before have what the step needs.
-/
theorem Leads.iterateUpTo {step : σ → Reader (σ ⊕ α)} {keeps : σ → Source → Prop}
    (each : ∀ state, (step state).Leads (keeps state)
      fun result source => Sum.elim (keeps · source) (middle · source) result)
    (count : Nat) (start : σ) : (iterateUpTo step count start).Leads (keeps start) middle := by
  -- Every step leaves a state that has what the next step needs.
  induction count generalizing start with
  -- Without a step left the repetition fails.
  | zero => exact Leads.failHere _
  | succ count ih =>
    refine Leads.bind (each start) fun result => ?_
    -- A step either goes on with a state or ends with a result.
    cases result with
    | inl state => exact ih state
    | inr value => exact Leads.pure fun _ known => known

/-- A repetition leads where its last step leads. -/
theorem Leads.iterate {step : σ → Reader (σ ⊕ α)} (keeps : σ → Source → Prop)
    (each : ∀ state, (step state).Leads (keeps state)
      fun result source => Sum.elim (keeps · source) (middle · source) result)
    (start : σ) : (iterate step start).Leads (keeps start) middle := by
  -- The number of tokens only bounds the steps.
  refine Leads.bind Leads.rest fun tokens => ?_
  exact (Leads.iterateUpTo each _ start).mono (fun _ known => known.1) fun _ _ known => known

/-- A repetition of items, each read where the test holds, leads where the last item has led. -/
theorem Leads.many {goesOn : List Token → Bool} (keeps : List α → Source → Prop)
    (each : ∀ read, reader.Leads (fun source => keeps read source ∧ goesOn source.rest = true)
      fun value source => keeps (value :: read) source) :
    (many goesOn reader).Leads (keeps []) fun items source => keeps items.reverse source := by
  -- The items read so far are kept in reverse.
  refine Leads.iterate keeps (fun read => ?_) []
  refine Leads.bind Leads.rest fun tokens => ?_
  split
  · -- The test has been made on the tokens that the item is read from.
    rename_i seen
    refine Leads.bind ((each read).mono (fun source known => ⟨known.1, known.2 ▸ seen⟩)
      fun _ _ has => has) ?_
    exact fun value => Leads.pure fun _ known => known
  · exact Leads.pure fun _ known => by simpa using known.1

/-- What is read of all tokens is where the reader leads from them. -/
theorem Leads.of_run {holds : α → Prop} (leads : reader.Leads before fun value _ => holds value)
    {tokens : List Token} {close : Position} {value : α} (known : before ⟨tokens, [], none⟩)
    (read : reader.run tokens close = .ok value) : holds value := by
  -- The reader has succeeded before its leftovers are looked at.
  rw [run] at read
  split at read
  · cases read
  · rename_i found source ended
    have has : holds found := leads known ended
    split at read
    · cases read
    · cases read
    · cases read
      exact has

end Leads

section Tokens

variable {scope : Position} {source left : Source} {found : Name}

/-- What follows an operator is the end of the tokens it starts. -/
theorem suffix_of_afterChars? {chars : List Char} {tokens after : List Token}
    (operator : Look.afterChars? chars tokens = some after) : after <:+ tokens := by
  -- Every character of the operator takes one token, and the last one ends it.
  fun_induction Look.afterChars? chars tokens with
  | case1 => cases operator; exact List.suffix_cons ..
  | case2 => cases operator
  | case3 => rename_i ih; exact (ih operator).trans (List.suffix_cons ..)
  | case4 => cases operator
  | case5 => cases operator

/-- An operator that is consumed leaves the end of the tokens. -/
theorem symbol_eq_ok {spelling : String} {written : List Token}
    (read : symbol spelling scope source = .ok (written, left)) : left.rest <:+ source.rest := by
  -- The place is asked for first, which consumes nothing.
  obtain ⟨pos, between, here, tail⟩ := bind_run_iff.mp read
  have stays : Reader.here.Leads (source = ·) fun _ other => source = other := Leads.here
  have same : source = between := stays rfl here
  obtain ⟨tokens, again, got, tail⟩ := bind_run_iff.mp tail
  cases got
  -- Only where all characters are there does the operator succeed.
  cases operator : Look.afterChars? spelling.toList between.rest with
  | none =>
    simp only [operator] at tail
    cases tail
  | some after =>
    simp only [operator] at tail
    cases tail
    subst same
    exact suffix_of_afterChars? operator

/-- What holds of the tokens to come, and of every end of them, still holds after an operator. -/
theorem Leads.symbol {holds : List Token → Prop} (ends : ∀ a b, b <:+ a → holds a → holds b)
    (spelling : String) :
    (Reader.symbol spelling).Leads (fun source => holds source.rest)
      fun _ source => holds source.rest :=
  fun _ _ _ _ known read => ends _ _ (symbol_eq_ok read) known

/-- A reader that fails where it stands gives no result. -/
theorem failHere_ne_ok {message : String} {value : α} :
    (failHere message : Reader α) scope source ≠ .ok (value, left) := by
  -- A reader that fails leads anywhere, so also to what is false.
  intro read
  have never : (Reader.failHere message : Reader α).Leads (fun _ => True) fun _ _ => False :=
    Leads.failHere message
  exact never trivial read

/-- Any word that is consumed has been the next token. -/
theorem anyName_eq_ok (read : anyName scope source = .ok (found, left)) :
    source.rest = found.token :: left.rest := by
  obtain ⟨tokens, between, got, tail⟩ := bind_run_iff.mp read
  cases got
  -- The look ahead shows the next token, which has to be a word.
  cases next : source.rest with
  | nil =>
    simp only [next] at tail
    exact absurd tail failHere_ne_ok
  | cons token after =>
    simp only [next] at tail
    cases token with
    | name spelling pos =>
      cases tail
      rfl
    | _ => exact absurd tail failHere_ne_ok

/-- A name that is consumed has been the next token, and is not reserved. -/
theorem name_eq_ok (read : name scope source = .ok (found, left)) :
    source.rest = found.token :: left.rest ∧ Look.reserved.contains found.spelling = false := by
  obtain ⟨tokens, between, got, tail⟩ := bind_run_iff.mp read
  cases got
  -- Beyond being a word, the next token has to pass the check for reserved ones.
  cases next : source.rest with
  | nil =>
    simp only [next] at tail
    exact absurd tail failHere_ne_ok
  | cons token after =>
    simp only [next] at tail
    cases token with
    | name spelling pos =>
      cases reserved : Look.reserved.contains spelling with
      | true =>
        simp only [reserved, if_true] at tail
        exact absurd tail failHere_ne_ok
      | false =>
        simp only [reserved, Bool.false_eq_true, if_false] at tail
        cases tail
        exact ⟨rfl, reserved⟩
    | _ => exact absurd tail failHere_ne_ok

/-- A string literal that is consumed has been the next token. -/
theorem text_eq_ok {literal : Token} (read : text scope source = .ok (literal, left)) :
    source = { left with rest := literal :: left.rest } ∧
      ∃ written pos, Look.isText written = true ∧ literal = .literal written pos := by
  obtain ⟨tokens, heads, stray⟩ := source
  obtain ⟨_, _, got, tail⟩ := bind_run_iff.mp read
  cases got
  -- The look ahead shows the next token, which has to be a literal that is a text.
  cases tokens with
  | nil => exact absurd tail failHere_ne_ok
  | cons token after =>
    cases token with
    | literal written pos =>
      dsimp only at tail
      split at tail
      · rename_i text
        cases tail
        exact ⟨rfl, written, pos, text, rfl⟩
      · exact absurd tail failHere_ne_ok
    | _ => exact absurd tail failHere_ne_ok

/-- A given word that is consumed has been the next token. -/
theorem word_eq_ok {spelling : String} {token : Token}
    (read : word spelling scope source = .ok (token, left)) :
    ∃ pos, source.rest = .name spelling pos :: left.rest := by
  obtain ⟨tokens, between, got, tail⟩ := bind_run_iff.mp read
  cases got
  cases next : source.rest with
  | nil =>
    simp only [next] at tail
    exact absurd tail failHere_ne_ok
  | cons token after =>
    simp only [next] at tail
    cases token with
    | name found pos =>
      -- Only the word itself is consumed.
      cases same : found == spelling with
      | true =>
        simp only [same, if_true] at tail
        cases tail
        exact ⟨pos, by rw [beq_iff_eq.mp same]⟩
      | false =>
        simp only [same, Bool.false_eq_true, if_false] at tail
        exact absurd tail failHere_ne_ok
    | _ => exact absurd tail failHere_ne_ok

/-- A given word that may come next has been consumed or not. -/
theorem word?_eq_ok {spelling : String} {words : List Token}
    (read : word? spelling scope source = .ok (words, left)) :
    ∃ taken, (taken = [] ∨ ∃ pos, taken = [.name spelling pos]) ∧
      source.rest = taken ++ left.rest := by
  -- The reader looks first, so it reads the word only where it stands.
  obtain ⟨seen, between, got, tail⟩ := bind_run_iff.mp read
  cases got
  split at tail
  · obtain ⟨token, after, word, same⟩ := bind_run_iff.mp tail
    cases same
    obtain ⟨pos, here⟩ := word_eq_ok word
    exact ⟨_, .inr ⟨pos, rfl⟩, here⟩
  · cases tail
    exact ⟨[], .inl rfl, rfl⟩

end Tokens

/-- Whatever a reader gives has a property. -/
def Gives (reader : Reader α) (holds : α → Prop) : Prop :=
  reader.Leads (fun _ => True) fun value _ => holds value

section Gives

variable {reader : Reader α} {next : α → Reader β} {holds : α → Prop} {goal : β → Prop}

/-- What a reader gives under a condition, it gives from where the condition is known. -/
theorem Leads.of_gives {fact : Prop} (gives : fact → reader.Gives holds) :
    reader.Leads (fun _ => fact) fun value _ => holds value :=
  fun _ _ _ _ known read => gives known trivial read

/-- What is given from anywhere is given from where more is known. -/
theorem Gives.leads {before : Source → Prop} (gives : reader.Gives holds) :
    reader.Leads before fun value _ => holds value :=
  Leads.mono gives (fun _ _ => trivial) fun _ _ has => has

/-- A choice between two readers gives what both of them give. -/
theorem Gives.ite {condition : Prop} [Decidable condition] {yes no : Reader α}
    (one : yes.Gives holds) (other : no.Gives holds) :
    (if condition then yes else no).Gives holds :=
  Leads.ite (fun _ => one) other

/-- Two readers in a row give what the second one gives after a result of the first. -/
theorem Gives.bind (first : reader.Gives holds)
    (second : ∀ value, holds value → (next value).Gives goal) :
    (reader >>= next).Gives goal := by
  -- What is given does not depend on where the readers start and end.
  exact Leads.bind first fun value => Leads.of_gives (second value)

/-- Two readers in a row give what the second one gives, whatever the first one gives. -/
theorem Gives.then (second : ∀ value, (next value).Gives goal) : (reader >>= next).Gives goal :=
  Gives.bind (fun _ _ _ _ _ _ => trivial : reader.Gives fun _ => True) fun value _ => second value

/-- A reader that consumes nothing gives its value. -/
theorem Gives.pure {value : α} (has : holds value) : (Pure.pure value : Reader α).Gives holds :=
  Leads.pure fun _ _ => has

/-- A reader that fails gives nothing. -/
theorem Gives.failAt (pos : Position) (message : String) :
    (failAt pos message : Reader α).Gives holds :=
  Leads.failAt pos message

/-- A reader that fails where it stands gives nothing. -/
theorem Gives.failHere (message : String) : (failHere message : Reader α).Gives holds :=
  Leads.failHere message

/-- What is known of a result holds in a weaker form, too. -/
theorem Gives.mono (first : reader.Gives holds) {weaker : α → Prop}
    (weaken : ∀ value, holds value → weaker value) :
    reader.Gives weaker :=
  Leads.mono first (fun _ known => known) fun value _ => weaken value

/-- A repetition gives what its last step gives. -/
theorem Gives.iterate {step : σ → Reader (σ ⊕ α)} (keeps : σ → Prop)
    (each : ∀ state, keeps state → (step state).Gives (Sum.elim keeps holds)) {start : σ}
    (begins : keeps start) : (iterate step start).Gives holds := by
  -- The states are kept whatever the tokens are, so the rule for tokens can be used.
  have leads :
      (Reader.iterate step start).Leads (fun _ => keeps start) fun value _ => holds value :=
    Leads.iterate (fun state _ => keeps state) (fun state => Leads.of_gives (each state)) start
  exact leads.mono (fun _ _ => begins) fun _ _ has => has

/-- A repetition of items gives items that have what each of them has. -/
theorem Gives.many {goesOn : List Token → Bool} (each : reader.Gives holds) :
    (many goesOn reader).Gives fun items => ∀ item ∈ items, holds item := by
  have leads : (Reader.many goesOn reader).Leads (fun _ => ∀ item ∈ [], holds item)
      fun items _ => ∀ item ∈ items.reverse, holds item := by
    -- The items are collected in reverse, which does not matter for what each of them has.
    refine Leads.many (fun read _ => ∀ item ∈ read, holds item) fun read => ?_
    intro scope source value left known found
    have has := each trivial found
    simpa [has] using known.1
  exact leads.mono (fun _ _ => by simp) fun items _ has => by simpa using has

/-- A separated list gives items that have what each of them has. -/
theorem Gives.listUntil {stop : List Token → Bool} {separator : String}
    (each : reader.Gives holds) :
    (listUntil stop separator reader).Gives fun result => ∀ item ∈ result.1, holds item := by
  -- All items read so far have the property, at every round of the list.
  refine Gives.iterate (fun read => ∀ item ∈ read, holds item) (fun read known => ?_) (by simp)
  refine Gives.then fun tokens => ?_
  split
  · exact Gives.pure (by simpa using known)
  · refine Gives.bind each fun item has => Gives.then fun tokens => ?_
    have grown : ∀ other ∈ item :: read, holds other := by simpa [has] using known
    split
    · exact Gives.pure fun other inside => grown other (List.mem_reverse.mp inside)
    · exact Gives.then fun _ => Gives.pure grown

/-- A chain gives items that have what each item has that is read where the chain does not stop. -/
theorem Gives.chain {stop : List Token → Bool} {separator : String}
    (each : reader.Leads (fun source => stop source.rest = false) fun value _ => holds value) :
    (chain stop separator reader).Gives fun result => ∀ item ∈ result.1, holds item := by
  -- As in a list, but an item is only read where the chain does not stop.
  refine Gives.iterate (fun read => ∀ item ∈ read, holds item) (fun read known => ?_) (by simp)
  refine Leads.bind Leads.rest fun tokens => ?_
  split
  · exact Leads.pure fun _ _ => by simpa using known
  · rename_i goesOn
    have item :
        reader.Leads (fun source => True ∧ tokens = source.rest) fun value _ => holds value :=
      each.mono (fun source seen => by simpa [← seen.2] using goesOn) fun _ _ has => has
    refine Leads.bind item fun value => Leads.of_gives fun has => Gives.then fun seen => ?_
    have grown : ∀ other ∈ value :: read, holds other := by simpa [has] using known
    split
    · exact Gives.then fun _ => Gives.pure grown
    · exact Gives.pure fun other inside => grown other (List.mem_reverse.mp inside)

/-- The content of a group is what its reader gives. -/
theorem Gives.within {delim : Delimiter} (each : reader.Gives holds) :
    (within delim reader).Gives fun result => holds result.1 := by
  -- The tokens inside the group are read as a source of their own.
  refine Gives.then fun tokens => ?_
  split
  · split
    · rename_i closed _ _
      have content : (withReader (fun _ => closed) reader : Reader α).Gives holds := by
        intro scope source value left known read
        exact each known read
      exact Gives.then fun _ => Gives.bind content fun _ has => Gives.then fun _ => Gives.pure has
    · exact Gives.failHere _
  · exact Gives.failHere _

/-- What is read of all tokens is what the reader gives. -/
theorem Gives.of_run (each : reader.Gives holds) {tokens : List Token} {close : Position}
    {value : α}
    (read : reader.run tokens close = .ok value) : holds value :=
  Leads.of_run each trivial read

end Gives

end KeyedCoding.Reader
