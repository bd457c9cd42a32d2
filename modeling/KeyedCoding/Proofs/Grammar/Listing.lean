import Mathlib.Data.List.Duplicate
import KeyedCoding.Proofs.Token.Reader
import KeyedCoding.Record.Options

/-!
Listed arguments: a reader that adds each argument to what the ones before it gave reads what a
reader that only collects them does, and adds them one after the other. What can be added that way
holds no checked name twice, and each place holds the last value that is given for it.
-/

namespace KeyedCoding

namespace Reader

variable {α β σ : Type} {add? : σ → α → Option σ}

/--
A step that adds the items of a round to a state, beside one that only collects them: both read the
same, and the first one succeeds where the items can be added.
-/
structure Collects (add? : σ → α → Option σ) (step : σ → Reader (σ ⊕ σ))
    (collect : List α → Reader (List α ⊕ List α)) : Prop where
  goesOn : ∀ state found scope source next left,
    step state scope source = .ok (.inl next, left) ↔ ∃ more,
      collect found scope source = .ok (.inl (found ++ more), left) ∧
        more.foldlM add? state = some next
  ends : ∀ state found scope source last left,
    step state scope source = .ok (.inr last, left) ↔ ∃ more,
      collect found scope source = .ok (.inr (found ++ more), left) ∧
        more.foldlM add? state = some last
  keeps : ∀ found scope source result left, collect found scope source = .ok (result, left) →
    ∃ more, result = .inl (found ++ more) ∨ result = .inr (found ++ more)

/-- What has been collected before a repetition is still there behind it. -/
theorem Collects.exists_more {step : σ → Reader (σ ⊕ σ)}
    {collect : List α → Reader (List α ⊕ List α)} (collects : Collects add? step collect)
    {count : Nat} {found all : List α} {scope : Position} {source left : Source}
    (read : iterateUpTo collect count found scope source = .ok (all, left)) :
    ∃ more, all = found ++ more := by
  -- The induction is on the rounds, and each of them adds at the end of the list.
  induction count generalizing found source with
  | zero => exact absurd read failHere_ne_ok
  | succ count ih =>
    rcases iterateUpTo_succ_iff.mp read with ⟨next, between, round, others⟩ | round
    · obtain ⟨first, same | same⟩ := collects.keeps _ _ _ _ _ round
      · cases same
        obtain ⟨rest, rfl⟩ := ih others
        exact ⟨first ++ rest, List.append_assoc _ _ _⟩
      · cases same
    · obtain ⟨more, same | same⟩ := collects.keeps _ _ _ _ _ round
      · cases same
      · cases same
        exact ⟨more, rfl⟩

/-- Repeating both steps reads the same, too, and adds what has been collected. -/
theorem Collects.iterateUpTo {step : σ → Reader (σ ⊕ σ)}
    {collect : List α → Reader (List α ⊕ List α)} (collects : Collects add? step collect)
    {count : Nat} {state last : σ} {found : List α} {scope : Position} {source left : Source} :
    iterateUpTo step count state scope source = .ok (last, left) ↔ ∃ more,
      iterateUpTo collect count found scope source = .ok (found ++ more, left) ∧
        more.foldlM add? state = some last := by
  -- The induction is on the rounds: both steps go on together, or they end together.
  induction count generalizing state found source with
  | zero =>
    exact ⟨fun read => absurd read failHere_ne_ok, fun ⟨_, read, _⟩ => absurd read failHere_ne_ok⟩
  | succ count ih =>
    simp only [iterateUpTo_succ_iff]
    constructor
    · rintro (⟨next, between, round, others⟩ | round)
      · obtain ⟨first, here, added⟩ := (collects.goesOn _ found _ _ _ _).mp round
        obtain ⟨rest, behind, onward⟩ := (@ih next (found ++ first) between).mp others
        refine ⟨first ++ rest, .inl ⟨_, between, here, by rwa [← List.append_assoc]⟩, ?_⟩
        rw [List.foldlM_append, added]
        exact onward
      · obtain ⟨more, here, added⟩ := (collects.ends _ found _ _ _ _).mp round
        exact ⟨more, .inr here, added⟩
    · rintro ⟨more, ⟨collected, between, here, behind⟩ | here, added⟩
      · -- What a round has collected opens the list of what all rounds do.
        obtain ⟨first, same | same⟩ := collects.keeps _ _ _ _ _ here
        · cases same
          obtain ⟨rest, same⟩ := collects.exists_more behind
          rw [List.append_assoc, List.append_cancel_left_eq] at same
          subst same
          rw [List.foldlM_append, Option.bind_eq_bind, Option.bind_eq_some_iff] at added
          obtain ⟨next, one, onward⟩ := added
          refine .inl ⟨next, between, (collects.goesOn _ _ _ _ _ _).mpr ⟨first, here, one⟩, ?_⟩
          exact ih.mpr ⟨rest, by rwa [List.append_assoc], onward⟩
        · cases same
      · exact .inr ((collects.ends _ found _ _ _ _).mpr ⟨more, here, added⟩)

/--
A reader that adds to a state, beside one that only gives what is added: both read the same, and the
first one succeeds where it can be added.
-/
def Adds (add? : σ → α → Option σ) (state : σ) (step : Reader σ) (one : Reader α) : Prop :=
  ∀ scope source next left, step scope source = .ok (next, left) ↔
    ∃ argument, one scope source = .ok (argument, left) ∧ add? state argument = some next

/-- A refusal adds nothing. -/
theorem Adds.failAt {state : σ} (pos : Position) (message : String) :
    Adds add? state (failAt pos message) (failAt pos message) := by
  -- Neither reader gives anything.
  intro scope source next left
  constructor
  · intro refused
    cases refused
  · rintro ⟨_, refused, -⟩
    cases refused

/-- An argument without a value is added as it stands. -/
theorem Adds.pure {state next : σ} {argument : α} (adds : add? state argument = some next) :
    Adds add? state (pure next) (pure argument) := by
  -- Neither reader takes a token, so the argument alone decides.
  intro scope source after left
  constructor
  · intro read
    cases read
    exact ⟨argument, rfl, adds⟩
  · rintro ⟨_, read, added⟩
    cases read
    cases adds.symm.trans added
    rfl

/-- What is read in front of both changes nothing. -/
theorem Adds.bind {state : σ} {first : Reader β} {step : β → Reader σ} {one : β → Reader α}
    (each : ∀ value, Adds add? state (step value) (one value)) :
    Adds add? state (first >>= step) (first >>= one) := by
  -- The first reader is the same on both sides, and gives the same value.
  intro scope source next left
  simp only [bind_run_iff]
  constructor
  · rintro ⟨value, between, read, stepped⟩
    obtain ⟨argument, found, added⟩ := (each value _ _ _ _).mp stepped
    exact ⟨argument, ⟨value, between, read, found⟩, added⟩
  · rintro ⟨argument, ⟨value, between, read, found⟩, added⟩
    exact ⟨value, between, read, (each value _ _ _ _).mpr ⟨argument, found, added⟩⟩

/-- A value that may be given is read as an argument and then added. -/
theorem Adds.given {state : σ} {reader : Reader β} {set : β → σ} {argument : β → α}
    (adds : ∀ value, add? state (argument value) = some (set value)) :
    Adds add? state (do return set (← reader)) (do return argument (← reader)) :=
  .bind fun value => .pure (adds value)

/-- A value that may be given once is read as an argument and then added. -/
theorem Adds.once {state : σ} {reader : Reader β} {set : β → σ} {argument : β → α} {given : Bool}
    {pos : Position} {message : String}
    (adds : ∀ value, add? state (argument value) = if given then none else some (set value)) :
    Adds add? state (if given then Reader.failAt pos message else do return set (← reader))
      (do return argument (← reader)) := by
  cases given with
  | false => exact .given adds
  | true =>
    -- What is given already can neither be read again nor added again.
    intro scope source next left
    constructor
    · intro refused
      cases refused
    · rintro ⟨_, read, added⟩
      obtain ⟨value, _, -, same⟩ := bind_run_iff.mp read
      cases same
      rw [adds] at added
      cases added

/-- Repeating them from nothing adds all that is collected to the start. -/
theorem Collects.iterate {step : σ → Reader (σ ⊕ σ)}
    {collect : List α → Reader (List α ⊕ List α)} (collects : Collects add? step collect)
    (found : List α) {start last : σ} {scope : Position} {source left : Source} :
    Reader.iterate step start scope source = .ok (last, left) ↔ ∃ more,
      Reader.iterate collect found scope source = .ok (found ++ more, left) ∧
        more.foldlM add? start = some last := by
  -- Both have as many rounds as there are tokens.
  simp only [Reader.iterate, bind_run_iff]
  constructor
  · rintro ⟨_, _, got, read⟩
    cases got
    obtain ⟨more, collected, added⟩ := collects.iterateUpTo.mp read
    exact ⟨more, ⟨_, _, rfl, collected⟩, added⟩
  · rintro ⟨more, ⟨_, _, got, collected⟩, added⟩
    cases got
    exact ⟨_, _, rfl, collects.iterateUpTo.mpr ⟨more, collected, added⟩⟩

/--
A step in rounds: at the end of the tokens nothing is added; else an argument is read and added, and
what stands behind it tells whether there is another round.
-/
def Rounds (add? : σ → α → Option σ) (one : Reader α)
    (behind : Position → Source → Bool → Source → Prop) (step : σ → Reader (σ ⊕ σ)) : Prop :=
  ∀ state scope source result left, step state scope source = .ok (result, left) ↔
    source.rest.isEmpty = true ∧ result = .inr state ∧ left = source ∨
    source.rest.isEmpty = false ∧ ∃ argument between next goesOn,
      one scope source = .ok (argument, between) ∧ add? state argument = some next ∧
        behind scope between goesOn left ∧ result = if goesOn then .inl next else .inr next

/-- The list with one more argument. -/
def collected (found : List α) (argument : α) : Option (List α) := some (found ++ [argument])

/-- Reading one argument and putting it behind the others adds it. -/
theorem collected_adds (found : List α) (one : Reader α) :
    Adds collected found (do return found ++ [← one]) one := by
  -- Putting an argument at the end always works, so only its reader matters.
  intro scope source all left
  rw [bind_run_iff]
  constructor
  · rintro ⟨argument, _, read, same⟩
    cases same
    exact ⟨argument, read, rfl⟩
  · rintro ⟨argument, read, same⟩
    cases same
    exact ⟨argument, left, read, rfl⟩

/-- Rounds that add arguments find what rounds that collect them do. -/
theorem Rounds.collects {one : Reader α} {behind : Position → Source → Bool → Source → Prop}
    {step : σ → Reader (σ ⊕ σ)} {collect : List α → Reader (List α ⊕ List α)}
    (adds : Rounds add? one behind step) (collects : Rounds collected one behind collect) :
    Collects add? step collect where
  goesOn state found scope source next left := by
    -- In each direction, one round of the one step is turned into a round of the other.
    rw [adds]
    simp only [collects _ _ _ _ _]
    constructor
    · rintro (⟨-, same, -⟩ | ⟨more, argument, between, after, goesOn, read, added, ends, same⟩)
      · cases same
      · cases goesOn <;> cases same
        refine ⟨[argument], .inr ⟨more, argument, between, _, true, read, rfl, ends, rfl⟩, ?_⟩
        simpa using added
    · rintro ⟨all, ⟨-, same, -⟩ | ⟨more, argument, between, after, goesOn, read, put, ends, same⟩,
        added⟩
      · cases same
      · cases put
        cases goesOn
        · cases same
        · obtain rfl := List.append_cancel_left (Sum.inl.inj same)
          exact .inr ⟨more, argument, between, next, true, read, by simpa using added, ends, rfl⟩
  ends state found scope source last left := by
    -- A round that ends may or may not have read a last argument.
    rw [adds]
    simp only [collects _ _ _ _ _]
    constructor
    · rintro (⟨ended, same, rfl⟩ | ⟨more, argument, between, after, goesOn, read, added, ends, same⟩)
      · cases same
        exact ⟨[], .inl ⟨ended, by rw [List.append_nil], rfl⟩, rfl⟩
      · cases goesOn <;> cases same
        refine ⟨[argument], .inr ⟨more, argument, between, _, false, read, rfl, ends, rfl⟩, ?_⟩
        simpa using added
    · rintro ⟨all, ⟨ended, same, rfl⟩ | ⟨more, argument, between, after, goesOn, read, put, ends, same⟩,
        added⟩
      · obtain rfl := List.append_right_eq_self.mp (Sum.inr.inj same)
        cases added
        exact .inl ⟨ended, rfl, rfl⟩
      · cases put
        cases goesOn
        · obtain rfl := List.append_cancel_left (Sum.inr.inj same)
          exact .inr ⟨more, argument, between, last, false, read, by simpa using added, ends, rfl⟩
        · cases same
  keeps found scope source result left read := by
    -- A round that collects adds what it has read, or nothing at all.
    rw [collects] at read
    rcases read with ⟨-, rfl, -⟩ | ⟨-, argument, _, _, goesOn, -, put, -, rfl⟩
    · exact ⟨[], .inr (by rw [List.append_nil])⟩
    · cases put
      cases goesOn
      · exact ⟨[argument], .inr rfl⟩
      · exact ⟨[argument], .inl rfl⟩

end Reader

namespace Grammar

open Reader

variable {α σ : Type} {add? : σ → α → Option σ} {step : σ → Path → Reader σ}
  {one : Path → Reader α}

/-- Collects the arguments that are listed, with every occurrence of one. -/
def collectArguments (one : Path → Reader α) : Reader (List α) :=
  arguments (fun found path => return found ++ [← one path]) []

/-- Behind an argument the group ends, or a comma is taken. -/
def BehindArgument (scope : Position) (between : Source) (goesOn : Bool) (left : Source) : Prop :=
  between.rest.isEmpty = !goesOn ∧
    if goesOn then ∃ comma, symbol "," scope between = .ok (comma, left) else left = between

/-- What comes behind an argument decides whether there is another round. -/
theorem behindArgument_iff {next : σ} {scope : Position} {between left : Source} {result : σ ⊕ σ} :
    (do
      if ← atEnd then return .inr next
      else
        let _ ← symbol ","
        return .inl next : Reader (σ ⊕ σ)) scope between = .ok (result, left) ↔
      ∃ goesOn, BehindArgument scope between goesOn left ∧
        result = if goesOn then .inl next else .inr next := by
  rw [bind_run_iff]
  constructor
  · rintro ⟨_, _, got, read⟩
    cases got
    -- The group ends here, or a comma has been taken.
    split at read
    · rename_i ended
      cases read
      exact ⟨false, ⟨ended, rfl⟩, rfl⟩
    · rename_i more
      obtain ⟨comma, _, taken, read⟩ := bind_run_iff.mp read
      cases read
      exact ⟨true, ⟨by simpa using more, comma, taken⟩, rfl⟩
  · rintro ⟨goesOn, ⟨ended, further⟩, rfl⟩
    refine ⟨_, _, rfl, ?_⟩
    cases goesOn with
    | false =>
      cases further
      rw [ended]
      rfl
    | true =>
      obtain ⟨comma, taken⟩ := further
      rw [ended]
      exact bind_run_iff.mpr ⟨comma, _, taken, rfl⟩

/-- Arguments are read in rounds. -/
theorem argumentStep_rounds (steps : ∀ state path, Adds add? state (step state path) (one path)) :
    Rounds add? (argumentPath >>= one) BehindArgument (argumentStep step) := by
  intro state scope source result left
  rw [argumentStep, bind_run_iff]
  constructor
  · rintro ⟨_, _, got, read⟩
    cases got
    split at read
    · rename_i ended
      cases read
      exact .inl ⟨ended, rfl, rfl⟩
    · -- The path and the value behind it are one argument, which is added at once.
      rename_i more
      obtain ⟨path, _, named, read⟩ := bind_run_iff.mp read
      obtain ⟨next, between, stepped, read⟩ := bind_run_iff.mp read
      obtain ⟨argument, found, added⟩ := (steps _ _ _ _ _ _).mp stepped
      obtain ⟨goesOn, ends, same⟩ := behindArgument_iff.mp read
      exact .inr ⟨by simpa using more, argument, between, next, goesOn,
        bind_run_iff.mpr ⟨path, _, named, found⟩, added, ends, same⟩
  · rintro (⟨ended, rfl, rfl⟩ | ⟨more, argument, between, next, goesOn, read, added, ends, same⟩)
    · exact ⟨_, _, rfl, by rw [ended]; rfl⟩
    · obtain ⟨path, _, named, found⟩ := bind_run_iff.mp read
      have stepped := (steps _ _ _ _ _ _).mpr ⟨argument, found, added⟩
      refine ⟨_, _, rfl, ?_⟩
      rw [more]
      exact bind_run_iff.mpr ⟨path, _, named, bind_run_iff.mpr ⟨next, between, stepped,
        behindArgument_iff.mpr ⟨goesOn, ends, same⟩⟩⟩

/--
Reading arguments adds all that are listed one after the other, if each of them is read alike
whatever came before it.
-/
theorem arguments_eq_ok_iff {start last : σ} {scope : Position} {source left : Source}
    (steps : ∀ state path, Adds add? state (step state path) (one path)) :
    arguments step start scope source = .ok (last, left) ↔ ∃ listed,
      collectArguments one scope source = .ok (listed, left) ∧
        listed.foldlM add? start = some last :=
  ((argumentStep_rounds steps).collects
    (argumentStep_rounds fun found path => collected_adds found (one path))).iterate []

/-- The same holds where all of some tokens are arguments. -/
theorem read_arguments_eq_ok_iff {step : Grammar → σ → Path → Reader σ}
    {one : Grammar → Path → Reader α} {start last : σ} {tokens : List Token} {close : Position}
    (steps : ∀ g state path, Adds add? state (step g state path) (one g path)) :
    read (fun g => arguments (step g) start) tokens close = .ok last ↔ ∃ listed,
      read (fun g => collectArguments (one g)) tokens close = .ok listed ∧
        listed.foldlM add? start = some last := by
  -- Both sides start without heads, and the heads that are noted are the same.
  simp only [read, run_eq_ok_iff, arguments_eq_ok_iff (steps _)]
  constructor
  · rintro ⟨noted, listed, collected, added⟩
    exact ⟨listed, ⟨noted, collected⟩, added⟩
  · rintro ⟨listed, ⟨noted, collected⟩, added⟩
    exact ⟨noted, listed, collected, added⟩

end Grammar

/-! Adding the arguments that are listed. -/

namespace Listing

variable {α β σ : Type} {add? : σ → α → Option σ} {name? : α → Option String}
  {checked : String → Bool} {taken : σ → String → Prop} {start last : σ} {listed : List α}

/--
A state takes arguments by their names: one without a name is refused, and so is one with a checked
name that is taken already.
-/
def Takes (add? : σ → α → Option σ) (name? : α → Option String) (checked : String → Bool)
    (taken : σ → String → Prop) : Prop :=
  ∀ state argument next, add? state argument = some next → ∃ name, name? argument = some name ∧
    (checked name = true → ¬taken state name) ∧
      ∀ other, taken next other ↔ taken state other ∨ other = name

/-- What can be added has names, and no checked one twice; after it all these names are taken. -/
theorem Takes.foldlM (takes : Takes add? name? checked taken)
    (added : listed.foldlM add? start = some last) :
    (∀ argument ∈ listed, (name? argument).isSome = true) ∧
      ((listed.filterMap name?).filter checked).Nodup ∧
      (∀ name ∈ listed.filterMap name?, checked name = true → ¬taken start name) ∧
      ∀ name, taken last name ↔ taken start name ∨ name ∈ listed.filterMap name? := by
  -- The induction is along the arguments, with the names that are taken left open.
  induction listed generalizing start with
  | nil =>
    cases added
    simp
  | cons argument rest ih =>
    rw [List.foldlM_cons, Option.bind_eq_bind, Option.bind_eq_some_iff] at added
    obtain ⟨next, first, others⟩ := added
    obtain ⟨name, named, free, notes⟩ := takes _ _ _ first
    obtain ⟨names, apart, untaken, all⟩ := ih others
    rw [List.filterMap_cons_some named]
    refine ⟨?_, ?_, ?_, fun other => ?_⟩
    · exact List.forall_mem_cons.mpr ⟨by rw [named]; rfl, names⟩
    · -- A later argument of the same name would find it taken.
      rw [List.filter_cons]
      split
      · rename_i check
        refine List.nodup_cons.mpr ⟨fun again => ?_, apart⟩
        exact untaken name (List.mem_of_mem_filter again) check ((notes name).mpr (.inr rfl))
      · exact apart
    · refine List.forall_mem_cons.mpr ⟨free, fun other inside check before => ?_⟩
      exact untaken other inside check ((notes other).mpr (.inl before))
    · rw [all, notes, List.mem_cons, or_assoc]

/-- Arguments with names can be added if no checked one of them is taken, and none stands twice. -/
theorem Takes.exists_last (takes : Takes add? name? checked taken)
    (accepts : ∀ state argument name, name? argument = some name →
      (checked name = true → ¬taken state name) → ∃ next, add? state argument = some next)
    (names : ∀ argument ∈ listed, (name? argument).isSome = true)
    (apart : ((listed.filterMap name?).filter checked).Nodup)
    (untaken : ∀ name ∈ listed.filterMap name?, checked name = true → ¬taken start name) :
    ∃ last, listed.foldlM add? start = some last := by
  -- Every argument finds its name free, and leaves the names of the others free.
  induction listed generalizing start with
  | nil => exact ⟨start, rfl⟩
  | cons argument rest ih =>
    rw [List.forall_mem_cons] at names
    obtain ⟨name, named⟩ := Option.isSome_iff_exists.mp names.1
    rw [List.filterMap_cons_some named] at apart untaken
    rw [List.forall_mem_cons] at untaken
    obtain ⟨next, first⟩ := accepts start argument name named untaken.1
    obtain ⟨same, named', -, notes⟩ := takes _ _ _ first
    obtain rfl : name = same := Option.some.inj (named.symm.trans named')
    rw [List.filter_cons] at apart
    have onward : ((rest.filterMap name?).filter checked).Nodup := by
      split at apart
      · exact (List.nodup_cons.mp apart).2
      · exact apart
    obtain ⟨last, others⟩ := @ih next names.2 onward fun other inside check now => by
      rcases (notes other).mp now with before | rfl
      · exact untaken.2 other inside check before
      · -- The name that has just been taken does not come again.
        rw [if_pos check] at apart
        exact (List.nodup_cons.mp apart).1 (List.mem_filter.mpr ⟨inside, check⟩)
    exact ⟨last, by rw [List.foldlM_cons, first]; exact others⟩

/--
To nothing, arguments can be added exactly if no checked name stands twice among theirs, and then
they give what can be gathered from them.
-/
theorem Takes.foldlM_eq_some_iff {name : α → String} {gathered : σ}
    (takes : Takes add? (fun argument => some (name argument)) checked taken)
    (accepts : ∀ state argument, (∃ next, add? state argument = some next) ↔
      (checked (name argument) = true → ¬taken state (name argument)))
    (nothing : ∀ name, ¬taken start name)
    (gives : ∀ last, listed.foldlM add? start = some last → last = gathered) :
    listed.foldlM add? start = some last ↔
      ((listed.map name).filter checked).Nodup ∧ last = gathered := by
  -- Here every argument has a name, so the names that are filtered are all names.
  rw [← List.filterMap_eq_map']
  constructor
  · intro added
    exact ⟨(takes.foldlM added).2.1, gives last added⟩
  · rintro ⟨apart, rfl⟩
    have accepts' (state : σ) (argument : α) (named : String) (same : some (name argument) = some named)
        (free : checked named = true → ¬taken state named) :
        ∃ next, add? state argument = some next := by
      obtain rfl := Option.some.inj same
      exact (accepts state argument).mpr free
    obtain ⟨found, added⟩ :=
      takes.exists_last accepts' (fun _ _ => rfl) apart fun other _ _ => nothing other
    rw [added, gives found added]

/-- A place that some arguments fill holds the last value that is given for it. -/
theorem held_of_foldlM {value? : α → Option β} {held : σ → Option β}
    (added : listed.foldlM add? start = some last)
    (fills : ∀ state argument next, add? state argument = some next →
      held next = (value? argument).or (held state)) :
    held last = (listed.filterMap value?).getLast?.or (held start) := by
  -- A later value takes the place of an earlier one, so the last one is what remains.
  induction listed generalizing start with
  | nil =>
    cases added
    rfl
  | cons argument rest ih =>
    rw [List.foldlM_cons, Option.bind_eq_bind, Option.bind_eq_some_iff] at added
    obtain ⟨next, first, others⟩ := added
    rw [ih others, fills _ _ _ first, List.filterMap_cons]
    cases value? argument with
    | none => rfl
    | some value =>
      rw [List.getLast?_cons]
      cases (rest.filterMap value?).getLast? <;> rfl

end Listing

end KeyedCoding
