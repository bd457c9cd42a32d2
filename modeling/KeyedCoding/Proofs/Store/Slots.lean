import KeyedCoding.Proofs.Store.Variables

/-!
Slots: the places that accessors keep their values in. Accessors of one slot are one variable, seen
in several ways, and those of different slots know nothing of each other.
-/

namespace KeyedCoding

variable {ι σ : Type} {α : ι → Type} {accessors : (i : ι) → Accessor (α i)}

/-- Where there is a value of its own type to be parsed, a getter has a value to give. -/
theorem StoreGetter.nonempty_value {β : Type} (some : Nonempty β) (getter : StoreGetter) :
    Nonempty (getter.Value β) := by
  -- The types of values that are not parsed have one value each that is known.
  cases getter with
  | text => exact ⟨""⟩
  | flag => exact ⟨true⟩
  | data => exact ⟨[]⟩
  | parsed => exact some

namespace AccessorCall

variable [DecidableEq σ] {places : ι → σ} {stores : σ → Store} {i j : ι}

/-- The stores that calls leave behind, made one after the other. -/
def leaves (places : ι → σ) (stores : σ → Store) : List (AccessorCall accessors) → σ → Store
  | [] => stores
  | call :: rest =>
    leaves places (Function.update stores (places call.index)
      ((stores (places call.index)).after call.request)) rest

/-- The answer to a getter that is called after other calls. -/
def answerAfter (places : ι → σ) (stores : σ → Store) (calls : List (AccessorCall accessors))
    (i : ι) : Option (Answer accessors) :=
  (run places stores (calls ++ [.get i])).getLast?.map (·.answer)

/-- A setter disturbs a getter if some call of it, after some other calls, makes a difference. -/
def Disturbs (accessors : (i : ι) → Accessor (α i)) (places : ι → σ) (j i : ι) : Prop :=
  ∃ (stores : σ → Store) (calls : List (AccessorCall accessors))
    (value : Option (accessors j).Value),
    answerAfter places stores (calls ++ [.set j value]) i ≠ answerAfter places stores calls i

/-- Two accessors share a slot if they keep their values at one place and under one key. -/
def SameSlot (accessors : (i : ι) → Accessor (α i)) (places : ι → σ) (i j : ι) : Prop :=
  places i = places j ∧ (accessors i).key = (accessors j).key

instance : Decidable (SameSlot accessors places i j) := inferInstanceAs (Decidable (_ ∧ _))

/-- Calls that follow others are made on the stores that those leave. -/
theorem run_append (calls more : List (AccessorCall accessors)) :
    run places stores (calls ++ more) =
      run places stores calls ++ run places (leaves places stores calls) more := by
  -- The stores change with every call, so the induction is for all of them.
  induction calls generalizing stores with
  | nil => rfl
  | cons call rest ih =>
    rw [List.cons_append, run, run, ih]
    rfl

/-- What more calls leave, they leave of what the first ones do. -/
theorem leaves_append (calls more : List (AccessorCall accessors)) :
    leaves places stores (calls ++ more) = leaves places (leaves places stores calls) more := by
  -- The first calls are carried out one by one.
  induction calls generalizing stores with
  | nil => rfl
  | cons call rest ih => exact ih

/-- A getter answers with what it finds in the stores that the calls before it leave. -/
theorem answerAfter_eq (places : ι → σ) (stores : σ → Store)
    (calls : List (AccessorCall accessors)) (i : ι) :
    answerAfter places stores calls i =
      some (.value i ((accessors i).get (leaves places stores calls (places i)))) := by
  -- The last answer of the run is that of the getter, which is called last.
  rw [answerAfter, run_append, run, run, List.getLast?_concat]
  rfl

/-- What a setter leaves at a place: at its own the store after its write. -/
theorem leaves_set (calls : List (AccessorCall accessors)) (value : Option (accessors j).Value)
    (place : σ) :
    leaves places stores (calls ++ [.set j value]) place =
      if place = places j then
        (leaves places stores calls place).after ((accessors j).write value)
      else leaves places stores calls place := by
  -- The last call is the setter, and it touches one place.
  rw [leaves_append, leaves, leaves]
  split
  · next same => rw [same]; exact Function.update_self ..
  · next other => exact Function.update_of_ne other ..

/--
After a setter of its slot a getter gives what it sees of the value that was set; a setter of another
slot makes no difference to it.
-/
theorem answerAfter_set (stores : σ → Store) (calls : List (AccessorCall accessors))
    (value : Option (accessors j).Value) :
    answerAfter places stores (calls ++ [.set j value]) i =
      if SameSlot accessors places i j then
        some (.value i ((value.map ((accessors j).getter.stored (accessors j).format)).bind
          ((accessors i).getter.seen? (accessors i).format)))
      else answerAfter places stores calls i := by
  rw [answerAfter_eq, leaves_set]
  by_cases place : places i = places j
  · rw [if_pos place, Accessor.get_eq_bind, Accessor.get?_after_write]
    by_cases key : (accessors i).key = (accessors j).key
    · rw [if_pos key, if_pos ⟨place, key⟩]
    · -- At the same place the keys differ, and the getter looks at its own.
      rw [if_neg key, if_neg fun same => key same.2, answerAfter_eq, Accessor.get_eq_bind]
  · rw [if_neg place, if_neg fun same => place same.1, answerAfter_eq]

/--
A setter disturbs a getter exactly if they share a slot, provided that the getter has a value to give
and gives what its own setter was given.
-/
theorem disturbs_iff (faithful : (accessors i).Faithful) (some : Nonempty (α i)) :
    Disturbs accessors places j i ↔ SameSlot accessors places i j := by
  constructor
  · rintro ⟨stores, calls, value, differs⟩
    by_contra other
    exact differs (by rw [answerAfter_set, if_neg other])
  · intro same
    -- What the getter's own setter was given is gone when the other one clears the slot.
    obtain ⟨value⟩ := (accessors i).getter.nonempty_value some
    refine ⟨fun _ => {}, [.set i (.some value)], none, ?_⟩
    have given : answerAfter places (fun _ => {}) [.set i (.some value)] i =
        .some (.value i (.some value)) := by
      change answerAfter places (fun _ => {}) ([] ++ [.set i (.some value)]) i = _
      rw [answerAfter_set, if_pos ⟨rfl, rfl⟩, Option.map_some, Option.bind_some,
        StoreGetter.seen?_stored faithful]
    rw [given, answerAfter_set, if_pos same]
    intro impossible
    cases impossible

end AccessorCall

end KeyedCoding
