import KeyedCoding.Proofs.Coding.Encoder
import KeyedCoding.Proofs.History

/-!
Calls through containers: each takes effect as a whole or not at all, and what an object holds in the
end is what was last written under each text, through whichever container and key.
-/

namespace KeyedCoding

namespace KeyedCall

variable {κ : Type}

/-- The key of a call. -/
def key : KeyedCall κ → κ
  | encode key _ => key
  | encodeIfPresent key _ => key

/-- The value that a call is to write, if there is one. -/
def value? : KeyedCall κ → Option Datum
  | encode _ value => some value
  | encodeIfPresent _ value => value

end KeyedCall

namespace KeyedContainer

variable (container : KeyedContainer) (call : KeyedCall container.Key)

/-- A call writes under the text of its key. -/
theorem key_write : (container.write call).key = container.text call.key := by
  -- Both methods of a container encode their key before anything else.
  cases call <;> rfl

/-- A call writes its value. -/
theorem value?_write : (container.write call).value? = call.value? := by
  -- What a call is given is handed on; a missing value stays missing.
  cases call <;> rfl

end KeyedContainer

/-- A write puts JSON under a name: the name is its key, and the JSON the form of its value. -/
def KeyedWrite.Puts (name : String) (json : Json) (request : KeyedWrite) : Prop :=
  request.key = name ∧ ∃ value ∈ request.value?, value.toJson = .ok json

/-- The last of several writes that puts something under a name puts this there. -/
def KeyedWrite.LastPuts (writes : List KeyedWrite) (name : String) (json : Json) : Prop :=
  LastOf (fun request => ∃ other, request.Puts name other) (·.Puts name json) writes

namespace Encoder

open KeyedWrite

variable {encoder : Encoder} {writes : List KeyedWrite} {request first second : KeyedWrite}

/-- What a write can come to: it is refused, has nothing to write, or puts in its value. -/
theorem attempt_cases (encoder : Encoder) (request : KeyedWrite) :
    (∃ error, request.Refuses error ∧ encoder.attempt request = (some error, encoder)) ∨
      (request.value? = none ∧ encoder.attempt request = (none, encoder)) ∨
      ∃ json, request.Puts request.key json ∧
        encoder.attempt request = (none, ⟨encoder.entries.insert request.key json⟩) := by
  -- Without a value nothing is written, and with one it depends on its JSON form.
  rw [attempt]
  cases present : request.value? with
  | none =>
    rw [write_absent present]
    exact .inr (.inl ⟨rfl, rfl⟩)
  | some value =>
    rw [write_present present, encode]
    cases form : value.toJson with
    | error fault => exact .inl ⟨_, ⟨value, present, fault, form, rfl⟩, rfl⟩
    | ok json => exact .inr (.inr ⟨json, ⟨rfl, value, present, form⟩, rfl⟩)

/-- An attempt fails exactly if the value has no JSON form, and the error names the key. -/
theorem attempt_error_iff {error : EncodingError} :
    (encoder.attempt request).1 = some error ↔ request.Refuses error := by
  -- The error of an attempt is that of its write, which knows when it fails.
  rw [← @write_error_iff encoder, attempt]
  cases encoder.write request <;> simp

/-- What fails leaves the object as it was. -/
theorem attempt_of_failed (failed : (encoder.attempt request).1 ≠ none) :
    (encoder.attempt request).2 = encoder := by
  -- Of the three outcomes only the last one changes the object, and it is no failure.
  obtain ⟨error, -, same⟩ | ⟨-, same⟩ | ⟨json, -, same⟩ := attempt_cases encoder request
  · rw [same]
  · rw [same]
  · exact absurd (congrArg Prod.fst same) failed

/-- A missing value is no failure, and it leaves the object as it was. -/
theorem attempt_of_absent (absent : request.value? = none) :
    encoder.attempt request = (none, encoder) := by
  -- A write without a value succeeds with the encoder that it was given.
  rw [attempt, write_absent absent]

/-- A write that is refused puts nothing in. -/
theorem not_puts_of_refuses {error : EncodingError} {name : String} {json : Json}
    (refused : request.Refuses error) : ¬request.Puts name json := by
  rintro ⟨-, value, present, form⟩
  obtain ⟨other, also, fault, failed, -⟩ := refused
  -- There is one value at most, and its form is one or the other.
  obtain rfl := Option.some.inj (present.symm.trans also)
  exact absurd (failed.symm.trans form) (by simp)

/-- A write without a value puts nothing in. -/
theorem not_puts_of_absent {name : String} {json : Json} (absent : request.value? = none) :
    ¬request.Puts name json := by
  -- What is put in would have to be the value of the request.
  rintro ⟨-, value, present, -⟩
  exact absurd (absent.symm.trans present) (by simp)

/-- What a write puts in is known from the write. -/
theorem eq_of_puts {name other : String} {json found : Json} (puts : request.Puts name json)
    (also : request.Puts other found) : other = name ∧ found = json := by
  -- The key and the value of a write are its own, and a value has one JSON form.
  obtain ⟨rfl, value, present, form⟩ := puts
  obtain ⟨rfl, again, same, reform⟩ := also
  obtain rfl := Option.some.inj (present.symm.trans same)
  exact ⟨rfl, Except.ok.inj (reform.symm.trans form)⟩

/-- What is under a name after a write was put there by it, or was there and is not replaced. -/
theorem get?_attempt_eq_some_iff (encoder : Encoder) (request : KeyedWrite) (name : String)
    (json : Json) :
    (encoder.attempt request).2.entries.get? name = some json ↔ request.Puts name json ∨
      (¬∃ other, request.Puts name other) ∧ encoder.entries.get? name = some json := by
  obtain ⟨error, refused, same⟩ | ⟨absent, same⟩ | ⟨found, puts, same⟩ :=
    attempt_cases encoder request
  · simp [same, not_puts_of_refuses refused]
  · simp [same, not_puts_of_absent absent]
  · -- The value is put under the key of the write, and nothing under any other name.
    rw [same, Json.Entries.get?_insert]
    by_cases own : name = request.key
    · subst own
      have only : request.Puts request.key json ↔ found = json :=
        ⟨fun also => (eq_of_puts puts also).2.symm, fun same => same ▸ puts⟩
      have some : ∃ other, request.Puts request.key other := ⟨found, puts⟩
      simp [only, some]
    · have none (other : Json) : ¬request.Puts name other := fun also =>
        own (eq_of_puts puts also).1
      simp [own, none]

/-- An attempted write keeps the entries in order. -/
theorem ordered_attempt (ordered : encoder.entries.Ordered) (request : KeyedWrite) :
    (encoder.attempt request).2.entries.Ordered := by
  -- Only a write that puts in a value changes the entries, and an insertion keeps their order.
  obtain ⟨error, -, same⟩ | ⟨-, same⟩ | ⟨json, -, same⟩ := attempt_cases encoder request
  · rwa [same]
  · rwa [same]
  · rw [same]
    exact ordered.insert _ _

/-- Writes under different keys may be made in either order. -/
theorem attempt_comm (ordered : encoder.entries.Ordered) (different : first.key ≠ second.key) :
    ((encoder.attempt first).2.attempt second).2 = ((encoder.attempt second).2.attempt first).2 := by
  -- What is found under a name is put there by one of the two at most.
  have apart (name : String) :
      (∀ json, ¬first.Puts name json) ∨ ∀ json, ¬second.Puts name json := by
    by_cases own : first.key = name
    · exact .inr fun json puts => different (own.trans puts.1.symm)
    · exact .inl fun json puts => own puts.1
  refine congrArg Encoder.mk (Json.Entries.Ordered.ext
    (ordered_attempt (ordered_attempt ordered _) _) (ordered_attempt (ordered_attempt ordered _) _)
    fun name => Option.ext fun json => ?_)
  simp only [get?_attempt_eq_some_iff]
  rcases apart name with none | none
  · simp [none]
  · simp [none]

/-- The object after writes: in order, and with what was last put under each name. -/
structure Reflects (writes : List KeyedWrite) (encoder : Encoder) : Prop where
  ordered : encoder.entries.Ordered
  entries : ∀ name json, (name, json) ∈ encoder.entries ↔ LastPuts writes name json

/-- At first there is nothing. -/
theorem Reflects.empty : Reflects [] {} where
  -- The empty object is ordered, and no write says anything of it.
  ordered := List.Pairwise.nil
  entries _ _ := iff_of_false List.not_mem_nil not_lastOf_nil

/-- One more attempted write is reflected, too. -/
theorem Reflects.attempt (reflects : Reflects writes encoder) (request : KeyedWrite) :
    Reflects (writes ++ [request]) (encoder.attempt request).2 where
  -- The object stays ordered, and its entries are those of the writes and of this one behind them.
  ordered := ordered_attempt reflects.ordered request
  entries name json := by
    rw [(ordered_attempt reflects.ordered request).mem_iff, get?_attempt_eq_some_iff,
      ← reflects.ordered.mem_iff, reflects.entries, LastPuts, LastPuts, lastOf_concat_iff]

/-- So are all writes that are attempted one after the other. -/
theorem Reflects.attemptAll {earlier : List KeyedWrite} (reflects : Reflects earlier encoder)
    (writes : List KeyedWrite) : Reflects (earlier ++ writes) (encoder.attemptAll writes) := by
  -- The writes that have been attempted before are left open, as each further one joins them.
  induction writes generalizing earlier encoder with
  | nil =>
    rw [List.append_nil]
    exact reflects
  | cons request rest ih =>
    have final := ih (reflects.attempt request)
    rw [List.append_assoc] at final
    exact final

/-- The calls of containers are writes one after the other, wherever one container ends. -/
theorem fillAll_eq (encoder : Encoder) (containers : List KeyedContainer) :
    encoder.fillAll containers = encoder.attemptAll (containers.flatMap (·.writes)) := by
  -- One fold over the calls of one container after the other is a fold over all of them.
  simp only [fillAll, Encoder.attemptAll, List.foldl_flatMap, KeyedContainer.writes, List.foldl_map]
  rfl

/-- Neighbouring writes under different keys may be swapped among others. -/
theorem attemptAll_swap (before after : List KeyedWrite) (different : first.key ≠ second.key) :
    ({} : Encoder).attemptAll (before ++ first :: second :: after) =
      ({} : Encoder).attemptAll (before ++ second :: first :: after) := by
  -- The writes before the two leave an ordered object, and on such an object the two commute.
  have ordered := (Reflects.empty.attemptAll before).ordered
  simp only [attemptAll, List.foldl_append, List.foldl_cons] at ordered ⊢
  rw [attempt_comm ordered different]

/--
What containers that are opened one after the other make of an object. It has an entry for each name
under which something was written, and this entry is from the last successful write under the name.
A further call fails exactly if its value has no JSON form; the error names the text of its key, and
the object stays as it was. A missing optional value is no failure, and it changes nothing, either.
Nor does it matter in which order neighbouring calls under different texts are made.
-/
theorem fillAll_reflects (containers : List KeyedContainer) :
    Reflects (containers.flatMap (·.writes)) (fillAll {} containers) ∧
      (∀ (container : KeyedContainer) (call : KeyedCall container.Key) (error : EncodingError),
        ((fillAll {} containers).attempt (container.write call)).1 = some error ↔
          ∃ value ∈ call.value?, ∃ fault, value.toJson = .error fault ∧
            error = ⟨container.text call.key, fault⟩) ∧
      (∀ (container : KeyedContainer) (call : KeyedCall container.Key),
        ((fillAll {} containers).attempt (container.write call)).1 ≠ none →
          ((fillAll {} containers).attempt (container.write call)).2 = fillAll {} containers) ∧
      (∀ (container : KeyedContainer) (call : KeyedCall container.Key), call.value? = none →
        (fillAll {} containers).attempt (container.write call) = (none, fillAll {} containers)) ∧
      ∀ others before first second after,
        containers.flatMap (·.writes) = before ++ first :: second :: after →
          others.flatMap (·.writes) = before ++ second :: first :: after →
            first.key ≠ second.key → fillAll {} others = fillAll {} containers := by
  -- All containers together are one list of writes, attempted one after the other.
  refine ⟨?_, fun container call error => ?_, fun _ _ => attempt_of_failed,
    fun container call absent => ?_, fun others before first second after whole swapped other => ?_⟩
  · rw [fillAll_eq]
    exact Reflects.empty.attemptAll _
  · rw [attempt_error_iff, Refuses, container.value?_write, container.key_write]
  · exact attempt_of_absent ((container.value?_write call).trans absent)
  · rw [fillAll_eq, fillAll_eq, whole, swapped]
    exact (attemptAll_swap before after other).symm

end Encoder

end KeyedCoding
