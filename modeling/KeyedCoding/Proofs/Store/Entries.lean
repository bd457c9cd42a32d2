import KeyedCoding.Store.Basic
import Mathlib.Data.List.Nodup

/-! Laws of stores: what is under a key after a change, and that no key stands there twice. -/

namespace KeyedCoding.Store

/-- Under the key that is erased there is nothing, and under others is what was there. -/
theorem get?_erase (store : Store) (key asked : String) :
    (store.erase key).get? asked = if asked = key then none else store.get? asked := by
  rw [get?, get?, erase]
  induction store.entries with
  | nil => simp
  | cons entry rest ih =>
    obtain ⟨found, value⟩ := entry
    by_cases same : found = key
    · -- The entry goes, and where it would be found nothing else is looked for.
      subst same
      simp only [bne_self_eq_false, Bool.false_eq_true, not_false_iff, List.filter_cons_of_neg, ih,
        List.lookup_cons]
      by_cases asks : asked = found
      · simp [asks]
      · simp [asks, beq_eq_false_iff_ne.mpr asks]
    · rw [List.filter_cons_of_pos (by simpa using same), List.lookup_cons, List.lookup_cons, ih]
      by_cases asks : asked = found
      · simp [asks, same]
      · simp [beq_eq_false_iff_ne.mpr asks]

/-- Under the key that is set there is the value, and under others is what was there. -/
theorem get?_insert (store : Store) (key asked : String) (value : StoredValue) :
    (store.insert key value).get? asked =
      if asked = key then some value else store.get? asked := by
  -- What has been erased is not found under the other key either.
  have others := store.get?_erase key asked
  rw [get?] at others
  rw [get?, insert, List.lookup_cons, others]
  by_cases asks : asked = key
  · simp [asks]
  · simp [asks, beq_eq_false_iff_ne.mpr asks]

/-- The keys that hold values, as often as they stand in the store. -/
def keys (store : Store) : List String := store.entries.map Prod.fst

/-- A key has a value exactly if it stands in the store. -/
theorem mem_keys_iff (store : Store) (key : String) :
    key ∈ store.keys ↔ ∃ value, store.get? key = some value := by
  -- The first entry with the key is the one that is found.
  rw [keys, get?]
  induction store.entries with
  | nil => simp
  | cons entry rest ih =>
    obtain ⟨found, value⟩ := entry
    rw [List.map_cons, List.mem_cons, ih, List.lookup_cons]
    by_cases asks : key = found
    · simp [asks]
    · simp [asks, beq_eq_false_iff_ne.mpr asks]

/-- Erasing takes keys away and moves none. -/
theorem keys_erase (store : Store) (key : String) :
    (store.erase key).keys = store.keys.filter (· != key) := by
  -- An entry is filtered by its key alone.
  rw [keys, keys, erase, List.filter_map]
  rfl

/-- A key that is set stands in front of the others. -/
theorem keys_insert (store : Store) (key : String) (value : StoredValue) :
    (store.insert key value).keys = key :: store.keys.filter (· != key) :=
  congrArg (key :: ·) (store.keys_erase key)

/-- No request puts a key where it stands already. -/
theorem keys_nodup_after {store : Store} (distinct : store.keys.Nodup) (request : Request) :
    (store.after request).keys.Nodup := by
  -- A key that is set is erased before it is put in front; all other requests at most erase.
  cases request with
  | set key value =>
    rw [after, keys_insert, List.nodup_cons]
    exact ⟨by simp, distinct.filter _⟩
  | delete key =>
    rw [after, keys_erase]
    exact distinct.filter _
  | getText | getFlag | getData | size => exact distinct

end KeyedCoding.Store
