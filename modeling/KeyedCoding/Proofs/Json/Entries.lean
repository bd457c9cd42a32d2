import KeyedCoding.Json.Basic

/-!
Laws of object entries: what stands under a key after another entry has been put in, and which
entries there are. Where the keys are in order, what stands under each of them is all there is.
-/

namespace KeyedCoding.Json.Entries

/-- No key has a value among no entries. -/
@[simp] theorem get?_nil (key : String) : get? [] key = none := rfl

/-- The first entry decides about its own key and no other. -/
theorem get?_cons (head key : String) (value : Json) (rest : Entries) :
    get? ((head, value) :: rest) key = if key = head then some value else rest.get? key := by
  -- A lookup compares keys as booleans.
  simp only [get?, List.lookup_cons]
  by_cases same : key = head
  · simp [same]
  · have different : (key == head) = false := beq_false_of_ne same
    simp [same, different]

/-- Putting a value under a key changes what stands there and nothing else. -/
theorem get?_insert (entries : Entries) (key other : String) (value : Json) :
    (entries.insert key value).get? other =
      if other = key then some value else entries.get? other := by
  -- The new entry stands before every older one of its key, so the older ones are never found.
  induction entries with
  | nil => rw [insert, get?_cons]
  | cons entry rest ih =>
    obtain ⟨head, old⟩ := entry
    rw [insert]
    split
    · -- The entry of the same key is replaced at its place.
      rename_i same
      subst same
      rw [get?_cons, get?_cons]
      split <;> rfl
    · split
      · -- The place of the key is before a greater one.
        rw [get?_cons]
      · -- Past a smaller key, the rest takes the entry.
        rename_i different _
        rw [get?_cons, get?_cons, ih]
        by_cases atHead : other = head
        · subst atHead
          simp [Ne.symm different]
        · simp [atHead]

/-- A key has a value exactly if there is an entry of it, whatever the value is. -/
theorem isSome_get?_iff (entries : Entries) (key : String) :
    (entries.get? key).isSome = true ↔ key ∈ entries.map Prod.fst := by
  -- The first entry decides about its own key, and the others about every other one.
  induction entries with
  | nil => simp
  | cons entry rest ih =>
    obtain ⟨head, value⟩ := entry
    rw [get?_cons, List.map_cons, List.mem_cons, ← ih]
    split
    · rename_i same
      simp [same]
    · rename_i different
      simp [different]

/-- An entry under a new key joins those that are there. -/
theorem insert_perm (entries : Entries) (key : String) (value : Json)
    (fresh : key ∉ entries.map Prod.fst) :
    (entries.insert key value).Perm ((key, value) :: entries) := by
  induction entries with
  | nil => rw [insert]
  | cons entry rest ih =>
    obtain ⟨head, old⟩ := entry
    rw [List.map_cons, List.mem_cons, not_or] at fresh
    -- The key is not the first one, so the entry goes before that one or among the rest.
    rw [insert, if_neg fresh.1]
    split
    · rfl
    · exact ((ih fresh.2).cons _).trans (.swap _ _ _)

/-- Every entry is the new one, or it has been there before. -/
theorem mem_insert (entries : Entries) (key : String) (value : Json) {entry : String × Json}
    (inside : entry ∈ entries.insert key value) : entry = (key, value) ∨ entry ∈ entries := by
  induction entries with
  | nil => exact .inl (List.mem_singleton.mp inside)
  | cons first rest ih =>
    obtain ⟨head, old⟩ := first
    rw [insert] at inside
    split at inside
    · -- The new entry has taken the place of the first one.
      rcases List.mem_cons.mp inside with new | later
      · exact .inl new
      · exact .inr (List.mem_cons_of_mem _ later)
    · split at inside
      · exact List.mem_cons.mp inside
      · rcases List.mem_cons.mp inside with same | later
        · exact .inr (List.mem_cons.mpr (.inl same))
        · exact (ih later).imp_right (List.mem_cons_of_mem _)

/-- Entries in the order of their keys, of which none is there twice. -/
def Ordered (entries : Entries) : Prop := entries.Pairwise fun first second => first.1 < second.1

/-- A new entry finds its place in the order. -/
theorem Ordered.insert {entries : Entries} (ordered : entries.Ordered) (key : String)
    (value : Json) : (entries.insert key value).Ordered := by
  induction entries with
  | nil => exact List.pairwise_singleton _ _
  | cons first rest ih =>
    obtain ⟨head, old⟩ := first
    obtain ⟨least, others⟩ := List.pairwise_cons.mp ordered
    rw [Entries.insert]
    split
    · rename_i same
      subst same
      exact List.pairwise_cons.mpr ⟨least, others⟩
    · rename_i different
      split
      · -- A key before the first one is before all of them.
        rename_i less
        refine List.pairwise_cons.mpr ⟨?_, ordered⟩
        rw [List.forall_mem_cons]
        exact ⟨less, fun entry inside => String.lt_trans less (least entry inside)⟩
      · -- Any other key is behind the first one.
        rename_i notLess
        have greater : head < key := String.not_le.mp fun before =>
          different (String.le_antisymm before (String.not_lt.mp notLess))
        refine List.pairwise_cons.mpr ⟨fun entry inside => ?_, ih others⟩
        rcases mem_insert _ _ _ inside with rfl | old
        · exact greater
        · exact least entry old

/-- In order, an entry is there exactly if its value is found under its key. -/
theorem Ordered.mem_iff {entries : Entries} (ordered : entries.Ordered) (key : String)
    (value : Json) : (key, value) ∈ entries ↔ entries.get? key = some value := by
  induction entries with
  | nil => simp
  | cons first rest ih =>
    obtain ⟨head, found⟩ := first
    obtain ⟨least, others⟩ := List.pairwise_cons.mp ordered
    rw [get?_cons, List.mem_cons, ih others]
    by_cases same : key = head
    · -- No later entry has the key of the first one.
      subst same
      have only : get? rest key ≠ some value := fun later =>
        String.lt_irrefl key (least _ ((ih others).mpr later))
      simp [only, eq_comm]
    · simp [same]

/-- Entries in order are known by what is found under each key. -/
theorem Ordered.ext {entries others : Entries} (ordered : entries.Ordered)
    (alike : others.Ordered) (same : ∀ key, entries.get? key = others.get? key) :
    entries = others := by
  -- No entry is there twice, so both have the same ones, and the order is the same.
  have distinct {list : Entries} (ordered : list.Ordered) : list.Nodup := by
    refine List.Pairwise.imp (fun {first second} less equal => ?_) ordered
    subst equal
    exact String.lt_irrefl _ less
  refine List.Perm.eq_of_pairwise ?_ ordered alike ?_
  · exact fun first second _ _ less greater => absurd greater (String.lt_asymm less)
  · rw [List.perm_ext_iff_of_nodup (distinct ordered) (distinct alike)]
    rintro ⟨key, value⟩
    rw [ordered.mem_iff, alike.mem_iff, same]

end KeyedCoding.Json.Entries
