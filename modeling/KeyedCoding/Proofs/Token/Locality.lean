import KeyedCoding.Proofs.Token.Consumption
import KeyedCoding.Proofs.Token.Looks

/-!
Reading before a comma: what a reader takes of some tokens it takes wherever these stand, at the end
or before a comma and more, if none of its looks tells a comma from the end.
-/

namespace KeyedCoding

/-- A source with a tail behind its tokens. -/
def Source.before (source : Source) (tail : Tail) : Source :=
  { source with rest := source.rest ++ tail.tokens }

/-- Nothing stands behind the tokens. -/
def Tail.none : Tail := ⟨[], fun _ absent => nomatch absent⟩

/-- Before no tail a source is as it is. -/
@[simp]
theorem Source.before_none (source : Source) : source.before .none = source := by
  -- Appending nothing leaves the tokens.
  simp [Source.before, Tail.none]

/-- Where tokens are read: what stands behind them, and where their group ends. -/
structure Setting where
  tail : Tail
  close : Position

namespace Reader

variable {α β σ : Type} {slack : α → Prop} {inner : Bool} {known : Option (List Token)}

/--
Readers, one for each setting, that do not notice in which setting they read.

What they leave is an end of what they find, and all of it only if the value is slack. Whatever they
give and leave before one tail, they give and leave before any other one, too; the inner ones may
notice the tail once they have come to it. What stands before the tail may be known.
-/
structure Steady (slack : α → Prop) (inner : Bool) (known : Option (List Token))
    (readers : Setting → Reader α) : Prop where
  shrinks : ∀ (setting : Setting) ⦃scope : Position⦄ ⦃source left : Source⦄ ⦃value : α⦄,
    (∀ tokens ∈ known, source.rest = tokens ++ setting.tail.tokens) →
      readers setting scope source = .ok (value, left) →
        left.rest <:+ source.rest ∧ (left.rest = source.rest → slack value)
  trades : ∀ ⦃setting : Setting⦄ (other : Setting) ⦃source left : Source⦄ ⦃value : α⦄,
    (∀ tokens ∈ known, source.rest = tokens) → (inner = true → left.rest ≠ []) →
      readers setting setting.close (source.before setting.tail) =
          .ok (value, left.before setting.tail) →
        readers other other.close (source.before other.tail) = .ok (value, left.before other.tail)

/-- A reader that gives and leaves the same before every tail. -/
abbrev Local (reader : Reader α) : Prop :=
  ∀ {inner known}, Steady (fun _ => True) inner known fun _ => reader

/-- A local reader that always consumes something. -/
abbrev Eager (reader : Reader α) : Prop :=
  ∀ {slack inner known}, Steady slack inner known fun _ => reader

/-- A reader that is local as long as it does not come to the tail. -/
abbrev Inner (reader : Reader α) : Prop :=
  ∀ {known}, Steady (fun _ => True) true known fun _ => reader

/-- A local step of a repetition, which consumes something if the repetition goes on. -/
abbrev Advancing (inner : Bool) (step : Reader (σ ⊕ α)) : Prop :=
  Steady (·.isRight = true) inner none fun _ => step

section Ends

variable {source left between : Source} {tail : Tail}

/-- What is known of the tokens before a tail tells what stands there together with it. -/
theorem known_before (has : ∀ tokens ∈ known, source.rest = tokens) :
    ∀ tokens ∈ known, (source.before tail).rest = tokens ++ tail.tokens :=
  fun tokens given => congrArg (· ++ tail.tokens) (has tokens given)

/-- What stands before a tail is told by both together. -/
theorem before_inj (same : source.before tail = left.before tail) : source = left := by
  -- Both sources have the same tail behind their tokens, and the tail can be cancelled.
  obtain ⟨tokens, heads, stray⟩ := source
  obtain ⟨others, noted, found⟩ := left
  simp only [Source.before, Source.mk.injEq, List.append_cancel_right_eq] at same ⊢
  exact same

/-- An end that has a tail behind it is an end before the tail. -/
theorem suffix_of_before (suffix : (left.before tail).rest <:+ (source.before tail).rest) :
    left.rest <:+ source.rest := by
  -- The tail is the end of both, and is taken off.
  obtain ⟨front, whole⟩ := suffix
  refine ⟨front, (List.append_left_inj tail.tokens).mp ?_⟩
  rwa [List.append_assoc]

/-- What has an end with a tail behind it has that tail behind it. -/
theorem exists_before (suffix : (left.before tail).rest <:+ between.rest) :
    ∃ source : Source, between = source.before tail ∧ left.rest <:+ source.rest := by
  -- What stands in front of the end is kept, and the tail is cut off.
  obtain ⟨front, whole⟩ := suffix
  refine ⟨{ between with rest := front ++ left.rest }, ?_, front, rfl⟩
  rw [Source.before, List.append_assoc]
  exact congrArg (fun rest => { between with rest := rest }) whole.symm

end Ends

/-- The place of the next token is that of the end if there is none. -/
theorem here_eq (scope : Position) (source : Source) :
    Reader.here scope source =
      .ok ((source.rest.head?.map Token.pos).getD scope, source) := by
  -- There is a first token or there is none.
  obtain ⟨_ | ⟨token, more⟩, heads, stray⟩ := source <;> rfl

/-- An operator is read exactly if it comes next. -/
theorem symbol_run_iff {spelling : String} {scope : Position} {source left : Source}
    {written : List Token} :
    Reader.symbol spelling scope source = .ok (written, left) ↔ ∃ after,
      Look.afterChars? spelling.toList source.rest = some after ∧
        written = Token.symbolAt ((source.rest.head?.map Token.pos).getD scope) spelling ∧
          left = { source with rest := after } := by
  -- The reader looks at the place first and then at the characters to come.
  have looked : Reader.rest scope source = .ok (source.rest, source) := rfl
  rw [Reader.symbol, bind_run_eq (here_eq scope source), bind_run_eq looked]
  cases Look.afterChars? spelling.toList source.rest with
  | none =>
    refine iff_of_false (fun read => by cases read) ?_
    rintro ⟨_, impossible, -⟩
    cases impossible
  | some after =>
    constructor
    · intro read
      cases read
      exact ⟨after, rfl, rfl, rfl⟩
    · rintro ⟨_, same, rfl, rfl⟩
      cases same
      rfl

/-- A reader gives nothing where the look at what comes first makes it fail. -/
theorem Leads.failsAt {next : List Token → Reader α} {tokens : List Token} {message : String}
    (failure : next tokens = Reader.failHere message) :
    (Reader.rest >>= next).Leads (·.rest = tokens) fun _ _ => False :=
  Reads.bind_leads Reads.rest (failure ▸ Leads.failHere _)

/--
A reader of a single token: whether it gives something is told by the token that comes next, and it
takes nothing else.
-/
structure Single (reader : Reader α) : Prop where
  ends : reader.Leads (·.rest = []) fun _ _ => False
  each : ∀ token, (∃ value, ∀ more, reader.Reads (token :: more) value more) ∨
    ∀ more, reader.Leads (·.rest = token :: more) fun _ _ => False

namespace Single

variable {reader : Reader α} {scope : Position} {source left : Source} {value : α}

/-- What a reader of a single token takes is the next token. -/
theorem exists_token (single : Single reader) (read : reader scope source = .ok (value, left)) :
    ∃ token, source = { left with rest := token :: left.rest } ∧
      ∀ more, reader.Reads (token :: more) value more := by
  -- At the end nothing is read, so there is a next token.
  obtain ⟨_ | ⟨token, more⟩, heads, stray⟩ := source
  · exact (single.ends rfl read).elim
  · rcases single.each token with ⟨found, reads⟩ | never
    · rw [reads more scope heads stray] at read
      cases read
      exact ⟨token, rfl, reads⟩
    · exact (never more rfl read).elim

/-- A reader of a single token takes it before every tail. -/
theorem eager (single : Single reader) : Eager reader := by
  -- Neither side looks at more than the one token, so both follow from how that token is read.
  intro slack inner known
  constructor
  · intro setting scope source left value _ read
    obtain ⟨token, rfl, -⟩ := single.exists_token read
    exact ⟨List.suffix_cons .., fun same => by simp at same⟩
  · intro setting other source left value _ _ read
    obtain ⟨token, whole, reads⟩ := single.exists_token read
    have before : source = { left with rest := token :: left.rest } := before_inj whole
    rw [before]
    exact reads _ _ _ _

theorem word (spelling : String) : Single (Reader.word spelling) := by
  refine ⟨Leads.failsAt rfl, fun token => ?_⟩
  -- Of all tokens only a name can be the word.
  cases token with
  | name found pos =>
    cases same : found == spelling with
    | true =>
      refine .inl ⟨.name found pos, fun more => Reads.bind Reads.rest ?_⟩
      simp only [same, if_true]
      exact fun _ _ _ => rfl
    | false => exact .inr fun more => Leads.failsAt (if_neg (by simp [same]))
  | _ => exact .inr fun more => Leads.failsAt rfl

theorem anyName : Single Reader.anyName := by
  refine ⟨Leads.failsAt rfl, fun token => ?_⟩
  -- Every name is read, and nothing else.
  cases token with
  | name found pos => exact .inl ⟨_, fun more => Reads.anyName ⟨found, pos⟩⟩
  | _ => exact .inr fun more => Leads.failsAt rfl

theorem name : Single Reader.name := by
  refine ⟨Leads.failsAt rfl, fun token => ?_⟩
  -- A name is read unless it is reserved.
  cases token with
  | name found pos =>
    cases reserved : Look.reserved.contains found with
    | true => exact .inr fun more => Leads.failsAt (if_pos reserved)
    | false => exact .inl ⟨_, fun more => @Reads.name _ ⟨found, pos⟩ reserved⟩
  | _ => exact .inr fun more => Leads.failsAt rfl

theorem lifetime : Single Reader.lifetime := by
  refine ⟨Leads.failsAt rfl, fun token => ?_⟩
  -- A lifetime is a token of its own kind.
  cases token with
  | lifetime found pos => exact .inl ⟨_, fun more _ _ _ => rfl⟩
  | _ => exact .inr fun more => Leads.failsAt rfl

theorem text : Single Reader.text := by
  refine ⟨Leads.failsAt rfl, fun token => ?_⟩
  -- A literal is read if it is a text.
  cases token with
  | literal written pos =>
    cases text : Look.isText written with
    | true => exact .inl ⟨_, fun more => Reads.text text⟩
    | false => exact .inr fun more => Leads.failsAt (if_neg (by simp [text]))
  | _ => exact .inr fun more => Leads.failsAt rfl

end Single

/-- There is no word in the place of a tail. -/
theorem Leads.word_tail (spelling : String) (tail : Tail) :
    (Reader.word spelling).Leads (·.rest = tail.tokens) fun _ _ => False := by
  -- A tail is empty or begins with a comma, and neither is a word.
  obtain ⟨_ | ⟨token, more⟩, begins⟩ := tail
  · exact Leads.failsAt rfl
  · obtain ⟨joint, pos, rfl⟩ := begins token rfl
    exact Leads.failsAt rfl

namespace Steady

variable {readers : Setting → Reader α} {next : Setting → α → Reader β} {goal : β → Prop}

/-- What always consumes something does not read from nothing what it leaves before a tail. -/
theorem not_of_nil (steady : Steady (fun _ => False) inner known readers) {setting : Setting}
    {scope : Position} {source left : Source} {value : α}
    (has : ∀ tokens ∈ known, source.rest = tokens) (empty : source.rest = []) :
    readers setting scope (source.before setting.tail) ≠ .ok (value, left.before setting.tail) := by
  -- Nothing would be left before the tail either, so nothing would have been consumed.
  intro read
  obtain ⟨suffix, stays⟩ := steady.shrinks setting (known_before has) read
  have none : left.rest = [] := List.suffix_nil.mp (empty ▸ suffix_of_before suffix)
  exact stays (congrArg (· ++ setting.tail.tokens) (none.trans empty.symm))

/-- What always consumes something finds something. -/
theorem ne_nil {reader : Reader α} (steady : Steady (fun _ => False) false none fun _ => reader)
    {scope : Position} {source left : Source} {value : α}
    (read : reader scope source = .ok (value, left)) : source.rest ≠ [] := by
  -- With nothing to read, what is left would be all there was.
  intro empty
  obtain ⟨suffix, stays⟩ := steady.shrinks ⟨.none, scope⟩ (by simp) read
  exact stays ((List.suffix_nil.mp (empty ▸ suffix)).trans empty.symm)

/-- What is read and left at the end is also read and left before a tail. -/
theorem before {reader : Reader α} (steady : Steady (fun _ => True) false none fun _ => reader)
    {close scope : Position} {source left : Source} {value : α}
    (read : reader close source = .ok (value, left)) (tail : Tail) :
    reader scope (source.before tail) = .ok (value, left.before tail) := by
  -- The end is the place before the empty tail.
  have alone : reader close (source.before .none) = .ok (value, left.before .none) := by
    simpa using read
  exact @Steady.trades _ _ _ _ _ steady ⟨.none, close⟩ ⟨tail, scope⟩ _ _ _ (by simp) (by simp) alone

/-- What is read and left before a tail is also read and left at the end. -/
theorem alone {reader : Reader α} (steady : Steady (fun _ => True) false none fun _ => reader)
    {close scope : Position} {source left : Source} {value : α} {tail : Tail}
    (read : reader scope (source.before tail) = .ok (value, left.before tail)) :
    reader close source = .ok (value, left) := by
  -- The end is the place before the empty tail, which is taken off again.
  have bare := @Steady.trades _ _ _ _ _ steady ⟨tail, scope⟩ ⟨.none, close⟩ source left value
    (by simp) (by simp) read
  simpa using bare

/-- What stands before a tail that is left is all that is read, and it is read at the end, too. -/
theorem exists_alone {reader : Reader α} (steady : Steady (fun _ => True) false none fun _ => reader)
    {close scope : Position} {source left : Source} {value : α} (tail : Tail)
    (read : reader scope source = .ok (value, left)) (stays : left.rest = tail.tokens) :
    ∃ tokens, source.rest = tokens ++ tail.tokens ∧
      reader close { source with rest := tokens } = .ok (value, { left with rest := [] }) := by
  -- What is left is the tail behind nothing at all, so the reader can be moved to the end.
  have whole : left = Source.before { left with rest := [] } tail := by
    rw [Source.before, List.nil_append, ← stays]
  obtain ⟨suffix, -⟩ := steady.shrinks ⟨.none, scope⟩ (by simp) read
  rw [whole] at read suffix
  obtain ⟨before, rfl, -⟩ := exists_before suffix
  exact ⟨before.rest, rfl, steady.alone read⟩

/-- Two readers in a row are steady if both are. -/
theorem bind (first : Steady (fun _ => True) inner known readers)
    (second : ∀ value, Steady goal inner none fun setting => next setting value) :
    Steady goal inner known fun setting => readers setting >>= next setting where
  shrinks setting scope source left value has read := by
    obtain ⟨found, between, head, taken⟩ := bind_run_iff.mp read
    obtain ⟨front, -⟩ := first.shrinks setting has head
    obtain ⟨back, stays⟩ := (second found).shrinks setting (by simp) taken
    refine ⟨back.trans front, fun same => stays ?_⟩
    exact back.eq_of_length_le (same ▸ front.length_le)
  trades setting other source left value has fit read := by
    obtain ⟨found, between, head, taken⟩ := bind_run_iff.mp read
    -- The tail is still there after the first reader, as the second one leaves it.
    obtain ⟨between, rfl, back⟩ := exists_before ((second found).shrinks setting (by simp) taken).1
    have some : inner = true → between.rest ≠ [] := fun only empty =>
      fit only (List.suffix_nil.mp (empty ▸ back))
    exact bind_run_iff.mpr ⟨found, _, first.trades other has some head,
      (second found).trades other (by simp) fit taken⟩

/-- What follows a reader that consumes something may consume nothing. -/
theorem eager (first : Steady (fun _ => False) inner known readers)
    (second : ∀ value, Steady (fun _ => True) inner none fun setting => next setting value) :
    Steady goal inner known fun setting => readers setting >>= next setting where
  shrinks setting scope source left value has read := by
    -- Two ends of equal length are the same, so what the first one consumes is not given back.
    obtain ⟨found, between, head, taken⟩ := bind_run_iff.mp read
    obtain ⟨front, stays⟩ := first.shrinks setting has head
    obtain ⟨back, -⟩ := (second found).shrinks setting (by simp) taken
    refine ⟨back.trans front, fun same => (stays ?_).elim⟩
    exact front.eq_of_length_le (same ▸ back.length_le)
  -- That nothing is consumed can only fail for the first reader, which always consumes something.
  trades setting other source left value has fit read :=
    (bind ⟨fun setting _ _ _ _ has read => ⟨(first.shrinks setting has read).1, fun _ => trivial⟩,
      first.trades⟩ second).trades other has fit read

/-- A value that is not read leaves everything. -/
theorem done {value : α} (has : slack value) :
    Steady slack inner known fun _ => Pure.pure value where
  shrinks setting scope source left found _ read := by
    -- The value is given at once, with the source as it was.
    cases read
    exact ⟨List.suffix_rfl, fun _ => has⟩
  trades setting other source left found _ _ read := by
    obtain ⟨rfl, rest⟩ := Prod.mk.inj (Except.ok.inj read)
    rw [before_inj rest]
    rfl

theorem pure (value : α) : Local (Pure.pure value : Reader α) := done trivial

/-- What never gives anything is steady. -/
theorem fails (never : ∀ setting scope source value left,
    readers setting scope source ≠ .ok (value, left)) : Steady slack inner known readers where
  -- There is no result that would have to be traded.
  shrinks _ _ _ _ _ _ read := absurd read (never _ _ _ _ _)
  trades _ _ _ _ _ _ _ read := absurd read (never _ _ _ _ _)

theorem failAt (pos : Setting → Position) (message : String) :
    Steady slack inner known fun setting => (Reader.failAt (pos setting) message : Reader α) :=
  fails fun _ _ _ _ _ read => by cases read

theorem failHere (message : String) : Eager (Reader.failHere message : Reader α) :=
  fails fun _ _ _ _ _ => failHere_ne_ok

theorem failAt_bind {pos : Setting → Position} {message : String} :
    Steady goal inner known fun setting =>
      (Reader.failAt (pos setting) message : Reader α) >>= next setting :=
  fails fun _ _ _ _ _ read => by cases read

/-! Looks at the tokens to come. -/

/-- All tokens that are found stand before the tail of which nothing is left. -/
theorem shrinks_bare {tokens : List Token} {next : List Token → Reader β}
    (steady : Steady goal inner (some tokens) fun setting => next (tokens ++ setting.tail.tokens))
    {scope : Position} {source left : Source} {value : β} (has : source.rest = tokens)
    (read : next tokens scope source = .ok (value, left)) :
    left.rest <:+ source.rest ∧ (left.rest = source.rest → goal value) := by
  -- The reader is looked at in the setting without a tail, where the tokens are all there is.
  have bare : tokens ++ Tail.none.tokens = tokens := List.append_nil _
  have taken : next (tokens ++ Tail.none.tokens) scope source = .ok (value, left) :=
    bare.symm ▸ read
  refine steady.shrinks ⟨.none, scope⟩ ?_ taken
  rintro _ ⟨⟩
  exact has.trans bare.symm

/-- The tokens to come have the tail behind them. -/
theorem rest {next : List Token → Reader β}
    (each : ∀ tokens,
      Steady goal inner (some tokens) fun setting => next (tokens ++ setting.tail.tokens)) :
    Steady goal inner known fun _ => Reader.rest >>= next where
  shrinks setting scope source left value _ read := by
    -- Reading the rest changes nothing, so the second reader starts where the first did.
    obtain ⟨tokens, between, got, taken⟩ := bind_run_iff.mp read
    cases got
    exact shrinks_bare (each source.rest) rfl taken
  trades setting other source left value _ fit read := by
    obtain ⟨tokens, between, got, taken⟩ := bind_run_iff.mp read
    cases got
    exact bind_run_iff.mpr ⟨_, _, rfl, (each source.rest).trades other (by simp) fit taken⟩

/-- The tokens to come are known if all tokens are. -/
theorem rest_known {tokens : List Token} {next : Setting → List Token → Reader β}
    (each : Steady goal inner (some tokens) fun setting =>
      next setting (tokens ++ setting.tail.tokens)) :
    Steady goal inner (some tokens) fun setting => Reader.rest >>= next setting where
  shrinks setting scope source left value has read := by
    -- What is found is what is known, so the second reader has to be steady for it alone.
    obtain ⟨found, between, got, taken⟩ := bind_run_iff.mp read
    cases got
    rw [has tokens rfl] at taken
    exact each.shrinks setting has taken
  trades setting other source left value has fit read := by
    obtain ⟨found, between, got, taken⟩ := bind_run_iff.mp read
    cases got
    have here (tail : Tail) : (source.before tail).rest = tokens ++ tail.tokens :=
      congrArg (· ++ tail.tokens) (has tokens rfl)
    rw [here] at taken
    refine bind_run_iff.mpr ⟨_, _, rfl, ?_⟩
    rw [here]
    exact each.trades other has fit taken

/-- A value that is made of the tokens to come is the same in all settings if the tail is left out. -/
theorem rest_pure {value : Setting → List Token → α}
    (same : ∀ tokens (setting other : Setting), value setting (tokens ++ setting.tail.tokens) =
      value other (tokens ++ other.tail.tokens)) :
    Steady (fun _ => True) inner known fun setting =>
      Reader.rest >>= fun tokens => Pure.pure (value setting tokens) where
  shrinks setting scope source left found _ read := by
    -- The value is given at once, so nothing is consumed.
    cases read
    exact ⟨List.suffix_rfl, fun _ => trivial⟩
  trades setting other source left found _ _ read := by
    -- In two settings the looks differ by the tail, and the value does not depend on that.
    obtain ⟨tokens, between, got, taken⟩ := bind_run_iff.mp read
    cases got
    obtain ⟨rfl, rest⟩ := Prod.mk.inj (Except.ok.inj taken)
    rw [← before_inj rest]
    exact bind_run_iff.mpr ⟨_, _, rfl,
      congrArg (fun value => Except.ok (value, source.before other.tail))
        (same source.rest other setting)⟩

theorem sees {look : List Token → Bool} (blind : Look.Blind look) : Local (Reader.sees look) :=
  rest_pure fun tokens setting other =>
    (blind setting.tail tokens).trans (blind other.tail tokens).symm

/-- A choice that is made alike in all settings is steady if both sides are. -/
theorem ite {condition : Prop} [Decidable condition] {yes no : Setting → Reader α}
    (one : Steady slack inner known yes) (two : Steady slack inner known no) :
    Steady slack inner known fun setting => if condition then yes setting else no setting := by
  -- The condition has the same truth value in every setting.
  by_cases holds : condition
  · simp only [if_pos holds]
    exact one
  · simp only [if_neg holds]
    exact two

/-- A choice after a blind look is made alike in all settings. -/
theorem test {look : List Token → Bool} (tokens : List Token) (blind : Look.Blind look)
    {yes no : Setting → Reader α} (one : Steady slack inner known yes)
    (two : Steady slack inner known no) :
    Steady slack inner known fun setting =>
      if look (tokens ++ setting.tail.tokens) then yes setting else no setting := by
  -- The test does not see the tail, so it is the same choice everywhere.
  simp only [fun setting : Setting => blind setting.tail tokens]
  exact ite one two

/-- A place that only a failure tells does not matter. -/
theorem here {next : Setting → Position → Reader β}
    (each : ∀ place : Setting → Position,
      Steady goal inner known fun setting => next setting (place setting)) :
    Steady goal inner known fun setting => Reader.here >>= next setting where
  shrinks setting scope source left value has read := by
    -- A reader may ask for a place and go on, and the place is a value that each setting has for
    -- itself.
    rw [bind_run_eq (here_eq scope source)] at read
    exact (each fun _ => _).shrinks setting has read
  trades setting other source left value has fit read := by
    rw [bind_run_eq (here_eq _ _)] at read ⊢
    exact (each fun setting =>
      ((source.before setting.tail).rest.head?.map Token.pos).getD setting.close).trades
        other has fit read

/-- The place of what is consumed is that of a token before the tail. -/
theorem here_cons {next : Setting → Position → Reader β}
    (each : ∀ pos, Steady (fun _ => False) inner known fun setting => next setting pos) :
    Steady goal inner known fun setting => Reader.here >>= next setting where
  shrinks setting scope source left value has read := by
    -- The place is that of the first token, and there is one, as something is consumed.
    rw [bind_run_eq (here_eq scope source)] at read
    obtain ⟨suffix, stays⟩ := (each _).shrinks setting has read
    exact ⟨suffix, fun same => (stays same).elim⟩
  trades setting other source left value has fit read := by
    rw [bind_run_eq (here_eq _ _)] at read ⊢
    cases tokens : source.rest with
    | nil => exact absurd read ((each _).not_of_nil has tokens)
    | cons token more =>
      have place (tail : Tail) : (source.before tail).rest.head? = some token := by
        simp [Source.before, tokens]
      rw [place] at read ⊢
      exact (each _).trades other has fit read

/-- What follows goes on before the tail as at the end if a comma is for it like the end. -/
theorem rest_first {next : List Token → Reader β}
    (comma : ∀ joint pos more, next (.punct ',' joint pos :: more) = next [])
    (ends : Steady goal inner (some []) fun _ => next [])
    (each : ∀ token more, Steady goal inner (some (token :: more)) fun setting =>
      next (token :: more ++ setting.tail.tokens)) :
    Steady goal inner known fun _ => Reader.rest >>= next := by
  -- Either a token comes next, or the tail; and a tail is empty or begins with a comma.
  refine rest fun tokens => ?_
  rcases tokens with _ | ⟨token, more⟩
  · have same (tail : Tail) : next ([] ++ tail.tokens) = next [] := by
      obtain ⟨_ | ⟨token, more⟩, begins⟩ := tail
      · rfl
      · obtain ⟨joint, pos, rfl⟩ := begins token rfl
        exact comma joint pos more
    simp only [same]
    exact ends
  · exact each token more

/-- Where nothing is read of a tail, there is a first token. -/
theorem rest_cons {next : List Token → Reader β}
    (ends : ∀ tail : Tail, (next tail.tokens).Leads (·.rest = tail.tokens) fun _ _ => False)
    (each : ∀ token more, Steady goal inner (some (token :: more)) fun setting =>
      next (token :: more ++ setting.tail.tokens)) :
    Steady goal inner known fun _ => Reader.rest >>= next := by
  -- Before a token the reader is steady, and without one it never gives anything.
  refine rest fun tokens => ?_
  cases tokens with
  | nil =>
    constructor
    · intro setting scope source left value has read
      exact (ends setting.tail (has [] rfl) read).elim
    · intro setting other source left value has _ read
      exact (ends setting.tail (known_before has [] rfl) read).elim
  | cons token more => exact each token more

/-- What does not come to the tail has a first token. -/
theorem rest_inner {next : List Token → Reader β}
    (ends : Steady goal true (some []) fun _ => next [])
    (each : ∀ token more, Steady goal true (some (token :: more)) fun setting =>
      next (token :: more ++ setting.tail.tokens)) :
    Steady goal true known fun _ => Reader.rest >>= next := by
  -- A reader that may look at all tokens shrinks what is left, since it does so in every case.
  have shrinks ⦃scope : Position⦄ ⦃source left : Source⦄ ⦃value : β⦄
      (read : (Reader.rest >>= next) scope source = .ok (value, left)) :
      left.rest <:+ source.rest ∧ (left.rest = source.rest → goal value) := by
    obtain ⟨tokens, between, got, taken⟩ := bind_run_iff.mp read
    cases got
    cases tokens : source.rest with
    -- Nothing is left before the tail, which is then empty as well.
    | nil =>
      rw [tokens] at taken
      refine tokens ▸ ends.shrinks ⟨.none, scope⟩ ?_ taken
      rintro _ ⟨⟩
      exact tokens
    | cons token more =>
      rw [tokens] at taken
      exact tokens ▸ shrinks_bare (each token more) tokens taken
  constructor
  · intro setting scope source left value _ read
    exact shrinks read
  · intro setting other source left value _ fit read
    -- Only of something before the tail something can be left there.
    obtain ⟨tokens, between, got, taken⟩ := bind_run_iff.mp read
    have back := suffix_of_before (shrinks read).1
    cases tokens : source.rest with
    | nil => exact absurd (List.suffix_nil.mp (tokens ▸ back)) (fit rfl)
    | cons token more =>
      cases got
      have here (tail : Tail) : (source.before tail).rest = token :: more ++ tail.tokens :=
        congrArg (· ++ tail.tokens) tokens
      rw [here] at taken
      refine bind_run_iff.mpr ⟨_, _, rfl, ?_⟩
      rw [here]
      exact (each token more).trades other (by simp [tokens]) fit taken

/-- A reader may notice the tail if the next one has to find something before it. -/
theorem bind_inner (first : Steady (fun _ => True) true known readers)
    (second : ∀ value, Steady goal inner none fun setting => next setting value)
    (ends : ∀ value, Steady (fun _ => False) inner (some []) fun setting => next setting value) :
    Steady goal inner known fun setting => readers setting >>= next setting where
  shrinks setting scope source left value has read := by
    -- As in `bind`, the second reader gives an end of what the first one has left.
    obtain ⟨found, between, head, taken⟩ := bind_run_iff.mp read
    obtain ⟨front, -⟩ := first.shrinks setting has head
    obtain ⟨back, stays⟩ := (second found).shrinks setting (by simp) taken
    refine ⟨back.trans front, fun same => stays ?_⟩
    exact back.eq_of_length_le (same ▸ front.length_le)
  trades setting other source left value has fit read := by
    obtain ⟨found, between, head, taken⟩ := bind_run_iff.mp read
    obtain ⟨between, rfl, -⟩ := exists_before ((second found).shrinks setting (by simp) taken).1
    -- Nothing before the tail would make the second reader consume something of it.
    have some : between.rest ≠ [] := fun empty =>
      (ends found).not_of_nil (by simp [empty]) empty taken
    exact bind_run_iff.mpr ⟨found, _, first.trades other has (fun _ => some) head,
      (second found).trades other (by simp) fit taken⟩

/-- Going on behind a known token consumes it. -/
theorem take {token : Token} {more after : List Token} (suffix : after <:+ more)
    {next : Setting → Unit → Reader β}
    (each : Steady (fun _ => True) inner none fun setting => next setting ()) :
    Steady goal inner (some (token :: more)) fun setting =>
      Reader.setRest (after ++ setting.tail.tokens) >>= next setting where
  shrinks setting scope source left value has read := by
    obtain ⟨_, between, got, taken⟩ := bind_run_iff.mp read
    cases got
    obtain ⟨back, -⟩ := each.shrinks setting (by simp) taken
    -- What is left lies behind the known token, so it is shorter than what was found.
    have front : left.rest <:+ more ++ setting.tail.tokens := by
      obtain ⟨before, whole⟩ := suffix
      refine back.trans ⟨before, ?_⟩
      rw [← whole, List.append_assoc]
    rw [has _ rfl]
    refine ⟨front.trans (List.suffix_cons ..), fun same => ?_⟩
    have fewer := front.length_le
    simp only [same, List.length_append, List.length_cons] at fewer
    omega
  trades setting other source left value has fit read := by
    obtain ⟨_, between, got, taken⟩ := bind_run_iff.mp read
    cases got
    refine bind_run_iff.mpr ⟨_, _, rfl, ?_⟩
    -- The rest that is set stands before the tail again.
    let behind : Source := { source with rest := after }
    have onward := @Steady.trades _ _ _ _ _ each setting other behind left value (by simp) fit
    exact onward taken

theorem note (heads : List String) : Local (Reader.note heads) := by
  -- Noting heads touches no token.
  intro inner known
  constructor
  · intro setting scope source left value _ read
    cases read
    exact ⟨List.suffix_rfl, fun _ => trivial⟩
  · intro setting other source left value _ _ read
    obtain ⟨rfl, same⟩ := Prod.mk.inj (Except.ok.inj read)
    have noted : { source with heads := source.heads ++ heads } = left := before_inj same
    rw [← noted]
    rfl

/-- The last step of a repetition may leave everything. -/
theorem last (value : α) : Steady (fun result : σ ⊕ α => result.isRight = true) inner known
    fun _ => Pure.pure (Sum.inr value) := done rfl

/-! The readers of single tokens. -/

theorem symbol (spelling : String) : Eager (Reader.symbol spelling) := by
  intro slack inner known
  constructor
  · -- What the operator leaves is a suffix, and a shorter one.
    intro setting scope source left written _ read
    obtain ⟨after, operator, -, rfl⟩ := symbol_run_iff.mp read
    refine ⟨suffix_of_afterChars? operator, fun same => ?_⟩
    have fewer := Look.length_lt_of_afterChars? operator
    rw [show after = source.rest from same] at fewer
    exact absurd fewer (Nat.lt_irrefl _)
  · intro setting other source left written _ _ read
    -- The operator ends before the tail, so it is found without the tail.
    obtain ⟨after, operator, rfl, same⟩ := symbol_run_iff.mp read
    obtain ⟨tokens, heads, stray⟩ := source
    obtain ⟨others, noted, found⟩ := left
    simp only [Source.before, Source.mk.injEq] at same
    obtain ⟨rfl, rfl, rfl⟩ := same
    have alone := Look.afterChars?_of_append operator
    -- The operator has a first token, so its place is not that of the end.
    have fewer : others.length < tokens.length := Look.length_lt_of_afterChars? alone
    obtain ⟨token, more, rfl⟩ : ∃ token more, tokens = token :: more :=
      List.exists_cons_of_length_pos (by omega)
    exact symbol_run_iff.mpr ⟨_, Look.afterChars?_append _ alone, rfl, rfl⟩

theorem word (spelling : String) : Eager (Reader.word spelling) := (Single.word spelling).eager

theorem anyName : Eager Reader.anyName := Single.anyName.eager

theorem name : Eager Reader.name := Single.name.eager

theorem lifetime : Eager Reader.lifetime := Single.lifetime.eager

theorem text : Eager Reader.text := Single.text.eager

theorem symbol? {spelling : String} (plain : ',' ∉ spelling.toList) :
    Local (Reader.symbol? spelling) :=
  bind (sees (.symbol plain)) fun _ => ite (symbol spelling) (pure _)

theorem word? (spelling : String) : Local (Reader.word? spelling) :=
  bind (sees (.word spelling)) fun _ => ite (eager (word spelling) fun _ => pure _) (pure _)

theorem literal : Eager Reader.literal := by
  refine rest_first (fun _ _ _ => rfl) (failHere _) fun token more => ?_
  cases token with
  -- A literal is the first token, and nothing behind it is looked at.
  | literal written pos => exact take List.suffix_rfl (pure _)
  -- The two words for truth values are literals as well.
  | name found pos => exact ite (take List.suffix_rfl (pure _)) (failHere _)
  | punct ch joint pos =>
    by_cases minus : ch = '-'
    · subst minus
      -- Only a number may stand behind the sign.
      rcases more with _ | ⟨second, more⟩
      · refine fails fun setting scope source value left => ?_
        obtain ⟨⟨_ | ⟨second, more⟩, begins⟩, close⟩ := setting
        · exact failHere_ne_ok
        · obtain ⟨other, place, rfl⟩ := begins second rfl
          exact failHere_ne_ok
      · cases second with
        | literal written at_ => exact ite (take (List.suffix_cons ..) (pure _)) (failHere _)
        | _ => exact failHere _
    · -- Another character than the minus begins no literal.
      refine fails fun setting scope source value left => ?_
      generalize whole : Token.punct ch joint pos :: more ++ setting.tail.tokens = tokens
      split
      · cases whole
      · cases whole
      · obtain ⟨same, -⟩ := List.cons.inj whole
        cases same
        exact absurd rfl minus
      · exact failHere_ne_ok
  | _ => exact failHere _

/-! Groups and repetitions. -/

/-- A group is read alike whatever stands behind it. -/
theorem within (delim : Delimiter) (content : Reader α) : Eager (Reader.within delim content) := by
  refine rest_first (fun _ _ _ => rfl) (failHere _) fun token more => ?_
  cases token with
  | group found body opened closed =>
    refine ite ?_ (failHere _)
    -- Inside the group the same tokens are read in all settings.
    constructor
    · -- The group is one token, so something has been consumed.
      intro setting scope source left value has read
      obtain ⟨_, inside, got, read⟩ := bind_run_iff.mp read
      cases got
      obtain ⟨given, behind, taken, read⟩ := bind_run_iff.mp read
      cases read
      rw [has _ rfl]
      exact ⟨List.suffix_cons .., fun same => by simp at same⟩
    · -- What is left inside the group is noted alike, whatever the tail.
      intro setting other source left value has _ read
      obtain ⟨_, inside, got, read⟩ := bind_run_iff.mp read
      cases got
      obtain ⟨given, behind, taken, read⟩ := bind_run_iff.mp read
      obtain ⟨rfl, same⟩ := Prod.mk.inj (Except.ok.inj read)
      have behind_group : left = { behind with
          rest := more, stray := behind.stray.orElse fun _ => leftover delim behind.rest } :=
        before_inj same.symm
      subst behind_group
      exact bind_run_iff.mpr ⟨(), _, rfl, bind_run_iff.mpr ⟨given, behind, taken, rfl⟩⟩
  | _ => exact failHere _

theorem grouped (delim : Delimiter) (content : Reader (List Token)) :
    Eager (Reader.grouped delim content) :=
  eager (within delim content) fun _ => pure _

section Loops

variable {step : σ → Reader (σ ⊕ α)} {item : Reader α}

/-- A repetition leaves an end of what it has found. -/
theorem suffix_of_iterateUpTo (each : ∀ state, Advancing inner (step state)) {count : Nat}
    {start : σ} {scope : Position} {source left : Source} {value : α}
    (read : Reader.iterateUpTo step count start scope source = .ok (value, left)) :
    left.rest <:+ source.rest := by
  -- Every round leaves an end of what the round before it has left.
  induction count generalizing start source with
  | zero => exact absurd read failHere_ne_ok
  | succ count ih =>
    obtain ⟨result, between, head, taken⟩ := bind_run_iff.mp read
    have first := ((each start).shrinks ⟨.none, scope⟩ (by simp) head).1
    cases result with
    | inl state => exact (ih taken).trans first
    | inr found =>
      cases taken
      exact first

/-- A repetition has steps enough if there are more of them than tokens before the tail. -/
theorem iterateUpTo_trades (each : ∀ state, Advancing inner (step state)) {count more : Nat}
    {start : σ} {setting : Setting} (other : Setting) {source left : Source} {value : α}
    (enough : source.rest.length < more) (fit : inner = true → left.rest ≠ [])
    (read : Reader.iterateUpTo step count start setting.close (source.before setting.tail) =
      .ok (value, left.before setting.tail)) :
    Reader.iterateUpTo step more start other.close (source.before other.tail) =
      .ok (value, left.before other.tail) := by
  induction count generalizing start source more with
  -- Without a step there is no result.
  | zero => exact absurd read failHere_ne_ok
  | succ count ih =>
    -- There are as many steps left as there are tokens at least, so one is left here.
    obtain ⟨more, rfl⟩ : ∃ fewer, more = fewer + 1 := ⟨more - 1, by omega⟩
    obtain ⟨result, between, head, taken⟩ := bind_run_iff.mp read
    cases result with
    | inl state =>
      obtain ⟨between, rfl, back⟩ := exists_before (suffix_of_iterateUpTo each taken)
      have some : inner = true → between.rest ≠ [] := fun only empty =>
        fit only (List.suffix_nil.mp (empty ▸ back))
      -- A step that goes on has consumed something.
      obtain ⟨suffix, stays⟩ := (each start).shrinks setting (by simp) head
      have fewer : between.rest.length < source.rest.length := by
        have front := suffix_of_before suffix
        refine Nat.lt_of_le_of_ne front.length_le fun same => ?_
        have whole := front.eq_of_length same
        cases stays (congrArg (· ++ setting.tail.tokens) whole)
      exact bind_run_iff.mpr ⟨.inl state, _, (each start).trades other (by simp) some head,
        ih (by omega) taken⟩
    | inr found =>
      -- The step that ends the repetition hands on what it has found.
      obtain ⟨rfl, rfl⟩ := Prod.mk.inj (Except.ok.inj taken)
      exact bind_run_iff.mpr ⟨.inr _, _, (each start).trades other (by simp) fit head, rfl⟩

theorem iterate (each : ∀ state, Advancing inner (step state)) (start : σ) :
    Steady (fun _ => True) inner known fun _ => Reader.iterate step start where
  shrinks setting scope source left value _ read := by
    -- The bound of the repetition is the number of tokens, and a tail only makes it larger.
    obtain ⟨tokens, between, got, taken⟩ := bind_run_iff.mp read
    cases got
    exact ⟨suffix_of_iterateUpTo each taken, fun _ => trivial⟩
  trades setting other source left value _ fit read := by
    obtain ⟨tokens, between, got, taken⟩ := bind_run_iff.mp read
    cases got
    refine bind_run_iff.mpr ⟨_, _, rfl, iterateUpTo_trades each other ?_ fit taken⟩
    simp only [Source.before, List.length_append]
    omega

theorem many {goesOn : List Token → Bool} (blind : Look.Blind goesOn) (each : Eager item) :
    Local (Reader.many goesOn item) :=
  iterate (fun _ => rest fun tokens =>
    test tokens blind (eager each fun _ => pure _) (last _)) []

/-- An item may notice the tail, because behind it comes a separator or the end of the list. -/
theorem listUntil {stop : List Token → Bool} {separator : String} (blind : Look.Blind stop)
    (ends : stop [] = false) (each : Inner item) :
    Local (Reader.listUntil stop separator item) := by
  -- The repetition ends at the stop, or behind an item without a separator.
  refine iterate (fun read => rest fun tokens => test tokens blind (last _)
    (bind_inner each (fun value => ?_) fun value => rest_known ?_)) []
  · exact rest fun tokens => test tokens blind (last _) (eager (symbol _) fun _ => pure _)
  · -- Before the tail there is neither of them.
    simp only [fun setting : Setting => blind setting.tail [], ends, Bool.false_eq_true, if_false]
    exact eager (symbol _) fun _ => pure _

/-- A chain that a comma stops goes on at the end, so it must not come there. -/
theorem chain {stop : List Token → Bool} {separator : String} (plain : ',' ∉ separator.toList)
    (blind : ∀ (tail : Tail) token more,
      stop (token :: more ++ tail.tokens) = stop (token :: more)) (each : Local item) :
    Inner (Reader.chain stop separator item) := by
  -- Each round reads an item and looks for the separator; at the end of the tokens there is no
  -- item.
  refine iterate (fun read => rest_inner ?_ fun token more => ?_) []
  · exact ite (last _) (bind each fun _ => bind (sees (.symbol plain)) fun _ =>
      ite (eager (symbol _) fun _ => pure _) (last _))
  · simp only [fun setting : Setting => blind setting.tail token more]
    exact ite (last _) (bind each fun _ => bind (sees (.symbol plain)) fun _ =>
      ite (eager (symbol _) fun _ => pure _) (last _))

/-- A step that ends the repetition where it has consumed nothing need not consume anything. -/
theorem unless_still {reader : Reader β} {stay more : β → σ ⊕ α} {tokens : List Token}
    (first : Steady (fun _ => True) inner (some tokens) fun _ => reader)
    (ends : ∀ value, (stay value).isRight = true) :
    Steady (fun result : σ ⊕ α => result.isRight = true) inner (some tokens) fun setting =>
      reader >>= fun value => Reader.rest >>= fun after =>
        if after.length == (tokens ++ setting.tail.tokens).length then Pure.pure (stay value)
        else Pure.pure (more value) where
  shrinks setting scope source left value has read := by
    obtain ⟨found, between, head, taken⟩ := bind_run_iff.mp read
    obtain ⟨after, _, got, taken⟩ := bind_run_iff.mp taken
    cases got
    obtain ⟨suffix, -⟩ := first.shrinks setting has head
    -- Where nothing has been consumed, the reader ends by hypothesis.
    split at taken
    · cases taken
      exact ⟨suffix, fun _ => ends found⟩
    · -- Otherwise what is left is shorter, so it cannot be all that there was.
      rename_i moved
      cases taken
      refine ⟨suffix, fun same => (moved ?_).elim⟩
      rw [beq_iff_eq, same, has tokens rfl]
  trades setting other source left value has fit read := by
    obtain ⟨found, between, head, taken⟩ := bind_run_iff.mp read
    obtain ⟨after, _, got, taken⟩ := bind_run_iff.mp taken
    cases got
    -- Nothing has been consumed in one setting exactly if that is so in the other one.
    have still (tail : Tail) : ((left.before tail).rest.length == (tokens ++ tail.tokens).length) =
        (left.rest.length == tokens.length) := by
      simp [Source.before]
    -- Both branches read on in the same way, and the test decides alike.
    split at taken
    all_goals
      rename_i moved
      obtain ⟨rfl, rfl⟩ := Prod.mk.inj (Except.ok.inj taken)
      refine bind_run_iff.mpr ⟨found, _, first.trades other has fit head,
        bind_run_iff.mpr ⟨_, _, rfl, ?_⟩⟩
      rw [still] at moved ⊢
    · rw [if_pos moved]
      rfl
    · rw [if_neg moved]
      rfl

theorem mapM {items : List β} {each : β → Reader α} (one : ∀ item, Local (each item)) :
    Local (items.mapM each) := by
  -- The readers stand in a row, one for each item.
  induction items with
  | nil => exact pure _
  | cons item items ih =>
    intro inner known
    rw [List.mapM_cons]
    exact bind (one item) fun _ => bind ih fun _ => pure _

theorem forIn {items : List β} {each : β → σ → Reader (ForInStep σ)}
    (one : ∀ item state, Local (each item state)) (state : σ) :
    Local (ForIn.forIn items state each) := by
  -- Each item gives the state for the next one, or ends the loop.
  induction items generalizing state with
  | nil => exact pure _
  | cons item items ih =>
    intro inner known
    rw [List.forIn_cons]
    refine bind (one item state) fun step => ?_
    cases step with
    | done state => exact pure _
    | yield state => exact ih state

theorem collectingHeads (each : Local item) : Local (Reader.collectingHeads item) := by
  intro inner known
  have content : Steady (fun _ => True) inner none fun _ => item := each
  constructor
  · -- What is consumed is what the item consumes.
    intro setting scope source left value _ read
    obtain ⟨_, _, got, read⟩ := bind_run_iff.mp read
    cases got
    obtain ⟨_, _, got, read⟩ := bind_run_iff.mp read
    cases got
    obtain ⟨found, between, taken, read⟩ := bind_run_iff.mp read
    cases read
    exact ⟨(content.shrinks setting (by simp) taken).1, fun _ => trivial⟩
  · intro setting other source left value _ fit read
    obtain ⟨_, _, got, read⟩ := bind_run_iff.mp read
    cases got
    obtain ⟨_, _, got, read⟩ := bind_run_iff.mp read
    cases got
    obtain ⟨found, between, taken, read⟩ := bind_run_iff.mp read
    obtain ⟨rfl, same⟩ := Prod.mk.inj (Except.ok.inj read)
    -- The heads are put aside and back in the same way in all settings.
    obtain ⟨tokens, heads, stray⟩ := source
    obtain ⟨others, noted, found'⟩ := left
    obtain ⟨rest, between, kept⟩ := between
    simp only [Source.before, Source.mk.injEq] at same
    obtain ⟨rfl, rfl, rfl⟩ := same
    -- The item is read with no heads noted, and its steadiness is that of any source.
    have onward := @Steady.trades _ _ _ _ _ content setting other ⟨tokens, [], stray⟩
      ⟨others, between, kept⟩ _ (by simp) fit taken
    exact bind_run_iff.mpr ⟨_, _, rfl, bind_run_iff.mpr ⟨_, _, rfl,
      bind_run_iff.mpr ⟨_, _, onward, rfl⟩⟩⟩

end Loops

end Steady

end Reader

end KeyedCoding
