import KeyedCoding.Proofs.History
import KeyedCoding.Proofs.Store.Entries

/-!
A store as a map of last writes: what it answers to a request depends on what was written last under
the key that the request is about, and on nothing else.
-/

namespace KeyedCoding.Store

/-- A request writes to a key if it sets or deletes the key. -/
def Request.Writes (key : String) : Request → Prop
  | set written _ => written = key
  | delete written => written = key
  | getText _ | getFlag _ | getData _ | size => False

/-- The last request of a history that writes to a key has set this value there. -/
def LastSets (history : List Request) (key : String) (value : StoredValue) : Prop :=
  LastOf (·.Writes key) (· = .set key value) history

/--
What is to be answered to a request after a history: a read gives what the last write under its key
has left there, in the form that is asked for. Texts and bytes stand for each other as far as bytes
are those of a text; flags stand for nothing else.
-/
def Answers (history : List Request) : Request → Reply → Prop
  | .getText key, .text answer => ∀ text, answer = some text ↔
      LastSets history key (.text text) ∨ LastSets history key (.data (Text.Utf8.encode text))
  | .getFlag key, .flag answer => ∀ flag, answer = some flag ↔ LastSets history key (.flag flag)
  | .getData key, .data answer => ∀ bytes, answer = some bytes ↔
      LastSets history key (.data bytes) ∨
        ∃ text, Text.Utf8.encode text = bytes ∧ LastSets history key (.text text)
  | .set _ _, .done success => success = true
  | .delete key, .done success => success = true ↔ ∃ value, LastSets history key value
  | .size, .size count => ∃ keys : List String, keys.Nodup ∧ keys.length = count ∧
      ∀ key, key ∈ keys ↔ ∃ value, LastSets history key value
  | _, _ => False

/-- Replies to requests in a row, each of which is the answer after everything before it. -/
inductive Answered : List Request → List Request → List Reply → Prop
  | nil (history : List Request) : Answered history [] []
  | cons {history : List Request} {request : Request} {reply : Reply} {rest : List Request}
      {replies : List Reply} (first : Answers history request reply)
      (others : Answered (history ++ [request]) rest replies) :
      Answered history (request :: rest) (reply :: replies)

/-- A store in which each key holds what the last write to it has set. -/
structure Reflects (history : List Request) (store : Store) : Prop where
  distinct : store.keys.Nodup
  holds : ∀ key value, store.get? key = some value ↔ LastSets history key value

variable {store : Store} {history : List Request} {request : Request} {key : String}

/-- What is under a key after a request was set by it, or was there and is not written to. -/
theorem get?_after_eq_some_iff (store : Store) (request : Request) (key : String)
    (value : StoredValue) :
    (store.after request).get? key = some value ↔
      request = .set key value ∨ ¬request.Writes key ∧ store.get? key = some value := by
  -- Only the two kinds of writes change what is under a key, and each only under its own.
  cases request with
  | set written new =>
    rw [after, get?_insert]
    by_cases same : key = written
    · simp [same, Request.Writes]
    · simp [same, Request.Writes, Ne.symm same]
  | delete written =>
    rw [after, get?_erase]
    by_cases same : key = written
    · simp [same, Request.Writes]
    · simp [same, Request.Writes, Ne.symm same]
  | getText | getFlag | getData | size => simp [after, Request.Writes]

/-- A request leaves every key alone that it does not write to. -/
theorem get?_after_of_not_writes (silent : ¬request.Writes key) :
    (store.after request).get? key = store.get? key := by
  -- Both sides find the same values.
  refine Option.ext fun value => ?_
  have other : request ≠ .set key value := by
    rintro rfl
    exact silent rfl
  rw [get?_after_eq_some_iff]
  simp [other, silent]

/-- A request that writes nowhere leaves the store as it is. -/
theorem after_eq_self (reads : ∀ key, ¬request.Writes key) : store.after request = store := by
  -- Only setting and deleting touch the entries, and both write their key.
  cases request with
  | set written | delete written => exact absurd rfl (reads written)
  | getText | getFlag | getData | size => rfl

namespace Reflects

/-- A fresh store reflects that nothing has been written. -/
theorem fresh : Reflects [] {} where
  distinct := List.nodup_nil
  holds key value := iff_of_false (by simp [get?]) not_lastOf_nil

/-- What a request leaves reflects the request, too. -/
theorem after (reflects : Reflects history store) (request : Request) :
    -- The keys stay distinct, and a lookup finds what the request sets or what was there before.
    Reflects (history ++ [request]) (store.after request) where
  distinct := keys_nodup_after reflects.distinct request
  holds key value := by
    rw [get?_after_eq_some_iff, LastSets, lastOf_concat_iff, reflects.holds]
    rfl

/-- What is asked for under a key is found by way of the value that was set last. -/
theorem bind_eq_some_iff (reflects : Reflects history store) {α : Type}
    {form : StoredValue → Option α} {answer : α} :
    (store.get? key).bind form = some answer ↔
      -- A lookup finds exactly the values that were set last.
      ∃ value, LastSets history key value ∧ form value = some answer := by
  simp only [Option.bind_eq_some_iff, reflects.holds]

/-- A store that reflects a history answers as is to be answered after it. -/
theorem answers (reflects : Reflects history store) (request : Request) :
    Answers history request (store.reply request) := by
  -- Each request goes by its own kind of value; the last write under the key is what it sees.
  cases request with
  | getText key =>
    intro text
    rw [reflects.bind_eq_some_iff]
    constructor
    · rintro ⟨value, last, form⟩
      cases value with
      | text written =>
        cases form
        exact .inl last
      | flag flag => cases form
      | data bytes =>
        -- Bytes that are read as a text are those of the text.
        rw [StoredValue.text?] at form
        exact .inr (Text.Utf8.encode_of_decode? form ▸ last)
    · rintro (last | last)
      · exact ⟨_, last, rfl⟩
      · exact ⟨_, last, Text.Utf8.decode?_encode text⟩
  | getFlag key =>
    intro flag
    rw [reflects.bind_eq_some_iff]
    constructor
    · rintro ⟨value, last, form⟩
      cases value with
      | flag written =>
        cases form
        exact last
      | text | data => cases form
    · exact fun last => ⟨_, last, rfl⟩
  | getData key =>
    intro bytes
    rw [reflects.bind_eq_some_iff]
    constructor
    · rintro ⟨value, last, form⟩
      cases value with
      | text written => exact .inr ⟨written, Option.some.inj form, last⟩
      | flag flag => cases form
      | data written =>
        cases form
        exact .inl last
    · rintro (last | ⟨text, rfl, last⟩)
      · exact ⟨_, last, rfl⟩
      · exact ⟨_, last, rfl⟩
  | set key value => rfl
  | delete key =>
    show (store.get? key).isSome = true ↔ _
    simp only [Option.isSome_iff_exists, reflects.holds]
  | size =>
    -- The keys of the store are those whose last write was a set.
    refine ⟨store.keys, reflects.distinct, List.length_map _, fun key => ?_⟩
    simp only [mem_keys_iff, reflects.holds]

/-- Where a text can be read, the bytes that can be read are those of the text. -/
theorem getData_of_getText {text : String}
    (read : store.reply (.getText key) = .text (some text)) :
    store.reply (.getData key) = .data (some (Text.Utf8.encode text)) := by
  -- The bytes of a text are its encoding, and bytes that are a text are that encoding.
  obtain ⟨value, found, form⟩ := Option.bind_eq_some_iff.mp (Reply.text.inj read)
  rw [reply, found, Option.bind_some]
  cases value with
  | text written =>
    cases form
    rfl
  | flag flag => cases form
  | data bytes => rw [StoredValue.bytes?, Text.Utf8.encode_of_decode? form]

/-- Requests in a row are answered as is to be answered, and what they leave reflects them all. -/
theorem serve (reflects : Reflects history store) (requests : List Request) :
    Answered history requests (store.serve requests).1 ∧
      Reflects (history ++ requests) (store.serve requests).2 := by
  -- The store reflects what has been requested so far, before each request and after it.
  induction requests generalizing history store with
  | nil =>
    rw [List.append_nil]
    exact ⟨.nil history, reflects⟩
  | cons request rest ih =>
    obtain ⟨others, final⟩ := ih (reflects.after request)
    rw [List.append_assoc, List.singleton_append] at final
    exact ⟨.cons (reflects.answers request) others, final⟩

end Reflects

/--
A fresh store is a map of last writes. Each of the requests that it serves is answered by what was
written last under its key; what they leave holds just that. A request changes nothing under a key
that it does not write to, and a read changes nothing at all; and where a text can be read, the bytes
under the key are those of the text.
-/
theorem serve_reflects (requests : List Request) :
    Answered [] requests (serve {} requests).1 ∧ Reflects requests (serve {} requests).2 ∧
      (∀ request key, ¬request.Writes key →
        ((serve {} requests).2.after request).get? key = (serve {} requests).2.get? key) ∧
      (∀ request, (∀ key, ¬request.Writes key) →
        (serve {} requests).2.after request = (serve {} requests).2) ∧
      ∀ key text, (serve {} requests).2.reply (.getText key) = .text (some text) →
        (serve {} requests).2.reply (.getData key) = .data (some (Text.Utf8.encode text)) := by
  -- A fresh store reflects that nothing has been requested yet.
  obtain ⟨answered, reflects⟩ := Reflects.fresh.serve requests
  rw [List.nil_append] at reflects
  exact ⟨answered, reflects, fun _ _ => get?_after_of_not_writes, fun _ => after_eq_self,
    fun _ _ => Reflects.getData_of_getText⟩

/-- A text reads as its bytes and not as a flag, and a key that was deleted is none of the store's. -/
example : (serve {} [.set "a" (.text "x"), .set "b" (.flag true), .delete "b", .getData "a",
    .getFlag "a", .getFlag "b", .size]).1 =
      [.done true, .done true, .done true, .data (some [120]), .flag none, .flag none, .size 1] := by
  decide +kernel

end KeyedCoding.Store
