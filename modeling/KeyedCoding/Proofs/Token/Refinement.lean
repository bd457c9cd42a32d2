import KeyedCoding.Proofs.Token.Reader
import Mathlib.Tactic.GCongr

/-! Readers that can do more: where a reader succeeds, the other one gives the same and leaves the same. -/

namespace KeyedCoding.Reader

variable {α β σ : Type}

/-- Whatever a reader gives and leaves, the other reader gives and leaves as well. -/
def Refines (reader further : Reader α) : Prop :=
  ∀ ⦃scope source value left⦄, reader scope source = .ok (value, left) →
    further scope source = .ok (value, left)

variable {reader further : Reader α} {next after : α → Reader β} {step onward : σ → Reader (σ ⊕ α)}
  {start : σ}

namespace Refines

/-- A reader does what it does. -/
@[refl] theorem refl (reader : Reader α) : reader.Refines reader := fun _ _ _ _ read => read

/-- Two readers in a row can do more if each of them can. -/
@[gcongr] theorem bind (first : reader.Refines further)
    (second : ∀ value, (next value).Refines (after value)) :
    (reader >>= next).Refines (further >>= after) := by
  -- What the first reader gives and leaves is the same on both sides.
  intro scope source value left read
  obtain ⟨found, between, head, tail⟩ := bind_run_iff.mp read
  exact bind_run_iff.mpr ⟨found, between, first head, second found tail⟩

/-- A choice can do more if both of its branches can. -/
@[gcongr] theorem ite {condition : Prop} [Decidable condition] {other beyond : Reader α}
    (yes : reader.Refines further) (no : other.Refines beyond) :
    (if condition then reader else other).Refines (if condition then further else beyond) := by
  -- The condition is the same on both sides.
  split
  · exact yes
  · exact no

/-- A chosen reader can do more if it can do more. -/
@[gcongr] theorem option_some (chosen : reader.Refines further) :
    Option.Rel Refines (some reader) (some further) := .some chosen

/-- A choice whether to read can do more if both of its branches can. -/
@[gcongr] theorem option_ite {condition : Prop} [Decidable condition]
    {yes yes' no no' : Option (Reader α)} (one : Option.Rel Refines yes yes')
    (other : Option.Rel Refines no no') :
    Option.Rel Refines (if condition then yes else no) (if condition then yes' else no') := by
  -- The condition is the same on both sides.
  split
  · exact one
  · exact other

/-- A reader that fails where it stands can do less than any other. -/
theorem failHere (message : String) : (Reader.failHere message).Refines further :=
  fun _ _ _ _ read => absurd read failHere_ne_ok

/-- Behind a trial more can be done if no trial succeeds that has failed on the way to a result. -/
theorem optional {others beyond : Option α → Reader β} (trial : reader.Refines further)
    (second : ∀ found, (others found).Refines (beyond found))
    (fails : ∀ ⦃scope source fault value left⦄, reader scope source = .error fault →
      others none scope source = .ok (value, left) → ∀ result, further scope source ≠ .ok result) :
    (Reader.optional reader >>= others).Refines (Reader.optional further >>= beyond) := by
  intro scope source value left read
  obtain ⟨found, between, head, tail⟩ := bind_run_iff.mp read
  refine bind_run_iff.mpr ⟨found, between, ?_, second found tail⟩
  unfold Reader.optional at head ⊢
  -- A trial that succeeds gives the same on both sides, and one that fails must fail on both.
  cases tried : reader scope source with
  | ok result =>
    rw [trial tried]
    rwa [tried] at head
  | error fault =>
    rw [tried] at head
    cases head
    cases again : further scope source with
    | ok result => exact absurd again (fails tried tail result)
    | error fault => rfl

/-- Inside a group more can be done if the reader of its content can do more. -/
@[gcongr] theorem within {delim : Delimiter} (content : reader.Refines further) :
    (Reader.within delim reader).Refines (Reader.within delim further) := by
  -- The content is read with the end of the group as its end, on both sides.
  refine bind (refl _) fun tokens => ?_
  split
  · refine ite (bind (refl _) fun _ => bind ?_ fun _ => refl _) (refl _)
    exact fun scope source value left read => content read
  · exact refl _

/-- A group of tokens can do more if the reader of its content can. -/
@[gcongr] theorem grouped {delim : Delimiter} {tokens others : Reader (List Token)}
    (content : tokens.Refines others) :
    (Reader.grouped delim tokens).Refines (Reader.grouped delim others) :=
  bind (within content) fun _ => refl _

/-- A bounded repetition can do more if each of its steps can. -/
theorem iterateUpTo (each : ∀ state, (step state).Refines (onward state)) (count : Nat) (start : σ) :
    (Reader.iterateUpTo step count start).Refines (Reader.iterateUpTo onward count start) := by
  -- The number of steps is the same on both sides.
  induction count generalizing start with
  | zero => exact refl _
  | succ count ih =>
    refine bind (each start) fun result => ?_
    cases result with
    | inl state => exact ih state
    | inr value => exact refl _

/-- A repetition can do more if each of its steps can. -/
@[gcongr] theorem iterate (each : ∀ state, (step state).Refines (onward state)) :
    (Reader.iterate step start).Refines (Reader.iterate onward start) :=
  bind (refl _) fun _ => iterateUpTo each _ _

/-- A repetition of items can do more if the reader of an item can. -/
@[gcongr] theorem many {goesOn : List Token → Bool} (item : reader.Refines further) :
    (Reader.many goesOn reader).Refines (Reader.many goesOn further) := by
  -- Each step of the repetition reads one item, and tests alike whether to go on.
  unfold Reader.many
  gcongr

/-- A separated list can do more if the reader of an item can. -/
@[gcongr] theorem listUntil {stop : List Token → Bool} {separator : String}
    (item : reader.Refines further) :
    (Reader.listUntil stop separator reader).Refines (Reader.listUntil stop separator further) := by
  unfold Reader.listUntil
  gcongr

/-- A list with commas can do more if the reader of an item can. -/
@[gcongr] theorem commaList (item : reader.Refines further) :
    (Reader.commaList reader).Refines (Reader.commaList further) := listUntil item

/-- A chain can do more if the reader of an item can. -/
@[gcongr] theorem chain {stop : List Token → Bool} {separator : String}
    (item : reader.Refines further) :
    (Reader.chain stop separator reader).Refines (Reader.chain stop separator further) := by
  unfold Reader.chain
  gcongr

/-- Collecting type heads does not change what a reader can do. -/
@[gcongr] theorem collectingHeads (content : reader.Refines further) :
    (Reader.collectingHeads reader).Refines (Reader.collectingHeads further) := by
  -- The heads are put aside before the content is read, and put together after it.
  unfold Reader.collectingHeads
  dsimp only
  gcongr

end Refines

end KeyedCoding.Reader
