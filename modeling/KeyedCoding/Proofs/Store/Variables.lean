import KeyedCoding.Proofs.Store.Entries
import KeyedCoding.Store.AccessorCall
import KeyedCoding.Store.AccessorCode
import Mathlib.Data.List.Forall2

/-!
Accessors with stores or keys of their own behave as optional variables that know nothing of each
other.
-/

namespace KeyedCoding

namespace StoreGetter

variable {α : Type} {format : TextFormat α}

/-- What a getter makes of a stored value; nothing if it is of another kind. -/
def seen? (format : TextFormat α) : (getter : StoreGetter) → StoredValue → Option (getter.Value α)
  | text, stored => stored.text?
  | flag, stored => stored.flag?
  | data, stored => stored.bytes?
  | parsed, stored => stored.text?.bind format.parse?

/-- What is stored for a value is seen as the value. -/
theorem seen?_stored {getter : StoreGetter}
    (faithful : getter = .parsed → ∀ value, format.parse? (format.render value) = some value)
    (value : getter.Value α) : getter.seen? format (getter.stored format value) = some value := by
  -- Three kinds of values are stored as they are; the last one is rendered and parsed.
  cases getter with
  | text => rfl
  | flag => rfl
  | data => rfl
  | parsed => exact faithful rfl value

end StoreGetter

namespace Accessor

variable {α : Type} {accessor : Accessor α} {store other : Store}

/-- Where values are parsed, what a value is rendered as parses as the value. -/
def Faithful (accessor : Accessor α) : Prop :=
  accessor.getter = .parsed →
    ∀ value, accessor.format.parse? (accessor.format.render value) = some value

/-- A getter gives what it sees under its key. -/
theorem get_eq_bind (accessor : Accessor α) (store : Store) :
    accessor.get store =
      (store.get? accessor.key).bind (accessor.getter.seen? accessor.format) := by
  -- Parsed values are stored as texts, so for them two steps are joined.
  obtain ⟨key, getter, format⟩ := accessor
  cases getter with
  | text => rfl
  | flag => rfl
  | data => rfl
  | parsed => exact Option.bind_assoc (store.get? key) StoredValue.text? format.parse?

/-- What is not under its key makes no difference to a getter. -/
theorem get_congr (same : store.get? accessor.key = other.get? accessor.key) :
    accessor.get store = accessor.get other := by
  -- A getter looks under its own key only.
  rw [get_eq_bind, get_eq_bind, same]

/-- Where nothing is under its key, a getter gives nothing. -/
theorem get_eq_none (nothing : store.get? accessor.key = none) : accessor.get store = none := by
  -- There is nothing to convert.
  rw [get_eq_bind, nothing, Option.bind_none]

/-- A getter asks, and leaves the store as it is. -/
theorem after_read (accessor : Accessor α) (store : Store) : store.after accessor.read = store := by
  -- Each of the four getters makes a request that only reads.
  obtain ⟨key, getter, format⟩ := accessor
  cases getter <;> rfl

/-- What a setter leaves under a key: under its own the value that it stores, if there is one. -/
theorem get?_after_write (accessor : Accessor α) (store : Store) (value : Option accessor.Value)
    (asked : String) :
    (store.after (accessor.write value)).get? asked =
      if asked = accessor.key then value.map (accessor.getter.stored accessor.format)
      else store.get? asked := by
  -- Without a value the key is erased, and with one the value is inserted.
  cases value with
  | none => exact store.get?_erase accessor.key asked
  | some value => exact store.get?_insert accessor.key asked _

/-- A getter gives what the setter was given. -/
theorem get_after_write (faithful : accessor.Faithful) (store : Store)
    (value : Option accessor.Value) :
    accessor.get (store.after (accessor.write value)) = value := by
  -- The setter has left its value under the key, or has cleared it.
  rw [get_eq_bind, get?_after_write, if_pos rfl]
  cases value with
  | none => rfl
  | some value => exact StoreGetter.seen?_stored faithful value

end Accessor

section Calls

variable {ι σ : Type} {α : ι → Type} {accessors : (i : ι) → Accessor (α i)}

/-- An optional variable for each accessor. -/
abbrev Variables (accessors : (i : ι) → Accessor (α i)) := (i : ι) → Option (accessors i).Value

namespace Variables

/-- The variables after a call: a setter changes its own, and nothing else changes any. -/
def after [DecidableEq ι] (values : Variables accessors) :
    AccessorCall accessors → Variables accessors
  | .get _ => values
  | .set i value => Function.update values i value

/-- What the variables answer to a call. -/
def answer (values : Variables accessors) :
    AccessorCall accessors → AccessorCall.Answer accessors
  | .get i => .value i (values i)
  | .set _ _ => .done

/-- What the variables answer to calls one after the other. -/
def answers [DecidableEq ι] (values : Variables accessors) :
    List (AccessorCall accessors) → List (AccessorCall.Answer accessors)
  | [] => []
  | call :: rest => values.answer call :: (values.after call).answers rest

/-- In stores that agree with variables, each accessor has the value of its variable. -/
def Agree (places : ι → σ) (stores : σ → Store) (values : Variables accessors) : Prop :=
  ∀ i, (accessors i).get (stores (places i)) = values i

variable {places : ι → σ} {stores : σ → Store} {values : Variables accessors}

/-- A call is answered as the variables answer it. -/
theorem Agree.answer_eq (agree : Agree places stores values) (call : AccessorCall accessors) :
    call.answer ((stores (places call.index)).reply call.request) = values.answer call := by
  -- The answer of a getter is what the values agree on, and a setter has none.
  cases call with
  | get i => exact congrArg (AccessorCall.Answer.value i) (agree i)
  | set i value => rfl

variable [DecidableEq ι] [DecidableEq σ]

/--
What a call leaves agrees with the variables after it, if no two accessors share place and key.
-/
theorem Agree.after (apart : Function.Injective fun i => (places i, (accessors i).key))
    (faithful : ∀ i, (accessors i).Faithful) (agree : Agree places stores values)
    (call : AccessorCall accessors) :
    Agree places (Function.update stores (places call.index)
      ((stores (places call.index)).after call.request)) (values.after call) := by
  intro i
  cases call with
  | get j =>
    -- Reading leaves the store, and so all stores.
    rw [AccessorCall.request, Accessor.after_read, Function.update_eq_self]
    exact agree i
  | set j value =>
    rw [AccessorCall.request, AccessorCall.index, Variables.after]
    by_cases same : i = j
    · subst same
      rw [Function.update_self, Function.update_self]
      exact Accessor.get_after_write (faithful i) _ value
    · rw [Function.update_of_ne same]
      refine Eq.trans (Accessor.get_congr ?_) (agree i)
      by_cases shared : places i = places j
      · -- In the same store the keys differ.
        have other : (accessors i).key ≠ (accessors j).key := fun keys =>
          same (apart (Prod.ext shared keys))
        rw [shared, Function.update_self, Accessor.get?_after_write, if_neg other]
      · rw [Function.update_of_ne shared]

/-- Calls one after the other are answered as the variables answer them. -/
theorem Agree.run_answers (apart : Function.Injective fun i => (places i, (accessors i).key))
    (faithful : ∀ i, (accessors i).Faithful) (agree : Agree places stores values)
    (calls : List (AccessorCall accessors)) :
    (AccessorCall.run places stores calls).map (·.answer) = values.answers calls := by
  -- The stores agree with the variables after each call.
  induction calls generalizing stores values with
  | nil => rfl
  | cons call rest ih =>
    rw [AccessorCall.run, List.map_cons, answers, ih (agree.after apart faithful call)]
    exact congrArg (· :: _) (agree.answer_eq call)

end Variables

namespace AccessorCall

/-- A getter asks for what is under its key, a setter sets or deletes it. -/
def Asks : AccessorCall accessors → Store.Request → Prop
  | get i, request => request = .getText (accessors i).key ∨ request = .getFlag (accessors i).key ∨
      request = .getData (accessors i).key
  | set i (some _), request => ∃ stored, request = .set (accessors i).key stored
  | set i none, request => request = .delete (accessors i).key

/-- The request of a call is about the key of its accessor. -/
theorem asks_request (call : AccessorCall accessors) : call.Asks call.request := by
  -- A getter asks in the way of its kind; a setter writes or deletes.
  cases call with
  | get i =>
    rw [Asks, request, Accessor.read]
    cases (accessors i).getter with
    | text | parsed => exact .inl rfl
    | flag => exact .inr (.inl rfl)
    | data => exact .inr (.inr rfl)
  | set i value =>
    cases value with
    | none => rfl
    | some value => exact ⟨_, rfl⟩

/-- Each of several calls makes one request, of the store at its place and about its key. -/
theorem run_asks [DecidableEq σ] (places : ι → σ) (stores : σ → Store)
    (calls : List (AccessorCall accessors)) :
    List.Forall₂ (fun call event => event.place = places call.index ∧ call.Asks event.request)
      calls (run places stores calls) := by
  -- Asking for a key does not depend on what the store holds, so the induction leaves the stores
  -- open.
  induction calls generalizing stores with
  | nil => exact .nil
  | cons call rest ih => exact .cons ⟨rfl, call.asks_request⟩ (ih _)

end AccessorCall

end Calls

namespace AccessorCode

variable {σ : Type}

/--
Accessors whose values are kept apart: they use one store, each under a key of its own, where
nothing is yet, and what is rendered parses as the same value.
-/
structure KeptApart (codes : List AccessorCode) {α : Fin codes.length → Type}
    (formats : (i : Fin codes.length) → TextFormat (α i)) (denotes : List Token → σ) (shared : σ)
    (store : Store) : Prop where
  one : ∀ i, denotes (codes.get i).store = shared
  distinct : Function.Injective fun i => (codes.get i).key
  faithful : ∀ i, (accessors codes formats i).Faithful
  fresh : ∀ i, store.get? (codes.get i).key = none

variable {codes : List AccessorCode} {α : Fin codes.length → Type}
  {formats : (i : Fin codes.length) → TextFormat (α i)} {denotes : List Token → σ} {shared : σ}
  {stores : σ → Store}

/-- Calls of such accessors are answered by optional variables; at first none has a value. -/
theorem KeptApart.run_answers [DecidableEq σ]
    (apart : KeptApart codes formats denotes shared (stores shared))
    (calls : List (AccessorCall (accessors codes formats))) :
    (AccessorCall.run (fun i => denotes (codes.get i).store) stores calls).map (·.answer) =
      Variables.answers (fun _ => none) calls := by
  -- Two accessors with the same slot are one, and at first every slot is empty.
  refine Variables.Agree.run_answers ?_ apart.faithful ?_ calls
  · exact fun i j same => apart.distinct (congrArg Prod.snd same)
  · intro i
    show (accessors codes formats i).get (stores (denotes (codes.get i).store)) = none
    rw [apart.one]
    exact Accessor.get_eq_none (apart.fresh i)

end AccessorCode

end KeyedCoding
