import KeyedCoding.Coding.Encoding
import KeyedCoding.Proofs.Json.Entries
import KeyedCoding.Proofs.Success

/-!
Laws of encoders: a write acts on its own key alone, a run leaves the last entry of every key, and
the first value without a JSON form ends it.
-/

namespace KeyedCoding

namespace KeyedWrite

/-- The key that a write is about. -/
def key : KeyedWrite → String
  | always key _ => key
  | ifPresent key _ => key

/-- The value that a write puts in, if there is one. -/
def value? : KeyedWrite → Option Datum
  | always _ value => some value
  | ifPresent _ value => value

/-- What a write leaves under its key: the JSON form of its value. -/
def written? (request : KeyedWrite) : Option Json :=
  request.value?.bind fun value => value.toJson.toOption

/-- The entry that a write puts in, if there is one. -/
def pair? (request : KeyedWrite) : Option (String × Json) :=
  request.written?.map ((request.key, ·))

/-- Whether the value of a write has a JSON form; an absent one needs none. -/
def Serializes (request : KeyedWrite) : Prop :=
  ∀ value ∈ request.value?, ∃ written, value.toJson = .ok written

/-- The value of a write has no JSON form. -/
def Refuses (request : KeyedWrite) (error : EncodingError) : Prop :=
  ∃ value ∈ request.value?, ∃ fault, value.toJson = .error fault ∧ error = ⟨request.key, fault⟩

/-- The entries of writes have keys of these writes, each at its place. -/
theorem keys_sublist (writes : List KeyedWrite) :
    ((writes.filterMap pair?).map Prod.fst).Sublist (writes.map key) := by
  -- A write without an entry is left out, and the others keep their places.
  induction writes with
  | nil => exact .slnil
  | cons request rest ih =>
    cases entry : request.pair? with
    | none =>
      rw [List.filterMap_cons_none entry]
      exact ih.cons _
    | some pair =>
      obtain ⟨json, -, rfl⟩ := Option.map_eq_some_iff.mp entry
      rw [List.filterMap_cons_some entry]
      exact ih.cons_cons _

end KeyedWrite

namespace Encoder

variable {encoder after : Encoder} {request : KeyedWrite} {writes : List KeyedWrite}
  {error : EncodingError}

/-- A write of an absent value leaves the object as it is. -/
theorem write_absent (absent : request.value? = none) : encoder.write request = .ok encoder := by
  -- Only an optional write can be without a value.
  cases request with
  | always key value => simp [KeyedWrite.value?] at absent
  | ifPresent key value =>
    simp only [KeyedWrite.value?] at absent
    subst absent
    rfl

/-- A write of a value puts its JSON form under the key, or fails for want of one. -/
theorem write_present {value : Datum} (present : request.value? = some value) :
    encoder.write request = encoder.encode request.key value := by
  -- An optional write of a value is an ordinary one.
  cases request with
  | always key written =>
    simp only [KeyedWrite.value?, Option.some.injEq] at present
    subst present
    rfl
  | ifPresent key written =>
    simp only [KeyedWrite.value?] at present
    subst present
    rfl

/-- A write succeeds exactly if its value has a JSON form. -/
theorem write_ok_iff : (∃ after, encoder.write request = .ok after) ↔ request.Serializes := by
  -- Without a value there is nothing that could fail.
  cases present : request.value? with
  | none => simp [write_absent present, KeyedWrite.Serializes, present]
  | some value =>
    -- The encoder asks for nothing but the JSON form.
    rw [write_present present]
    cases form : value.toJson with
    | error fault => simp [encode, form, KeyedWrite.Serializes, present]
    | ok written => simp [encode, form, KeyedWrite.Serializes, present]

/-- A write fails exactly if its value has no JSON form, and the error names its key. -/
theorem write_error_iff : encoder.write request = .error error ↔ request.Refuses error := by
  -- Without a value there is nothing that could fail.
  cases present : request.value? with
  | none => simp [write_absent present, KeyedWrite.Refuses, present]
  | some value =>
    -- The encoder asks for nothing but the JSON form.
    rw [write_present present]
    cases form : value.toJson with
    | error fault => simp [encode, form, KeyedWrite.Refuses, present, eq_comm]
    | ok written => simp [encode, form, KeyedWrite.Refuses, present]

/-- A write under a new key adds its entry, if it has one. -/
theorem perm_write (written : encoder.write request = .ok after)
    (fresh : request.key ∉ encoder.entries.map Prod.fst) :
    after.entries.Perm (request.pair?.toList ++ encoder.entries) := by
  cases present : request.value? with
  | none =>
    -- Nothing is written, and there is no entry.
    rw [write_absent present] at written
    cases written
    simp [KeyedWrite.pair?, KeyedWrite.written?, present]
  | some value =>
    rw [write_present present, encode] at written
    cases form : value.toJson with
    | error fault => simp [form] at written
    | ok json =>
      simp only [form, Except.ok.injEq] at written
      subst written
      have entry : request.pair? = some (request.key, json) := by
        simp [KeyedWrite.pair?, KeyedWrite.written?, present, form, Except.toOption]
      rw [entry]
      exact Json.Entries.insert_perm _ _ _ fresh

/-- After a write its key holds what it has written, and every other key what it held before. -/
theorem get?_write (written : encoder.write request = .ok after) (key : String) :
    after.entries.get? key =
      (if request.key = key then request.written? else none).or (encoder.entries.get? key) := by
  cases present : request.value? with
  | none =>
    -- Nothing is written, and nothing is left under the key of the write.
    rw [write_absent present] at written
    cases written
    simp [KeyedWrite.written?, present]
  -- Of two keys the one that is written holds the new form, and the other one is left alone.
  | some value =>
    rw [write_present present, encode] at written
    cases form : value.toJson with
    | error fault => simp [form] at written
    | ok json =>
      simp only [form, Except.ok.injEq] at written
      subst written
      rw [Json.Entries.get?_insert]
      by_cases same : request.key = key
      · simp [same, KeyedWrite.written?, present, form, Except.toOption]
      · simp [same, Ne.symm same]

/-- What the last write under a key with a value leaves there. -/
def lastWritten? (key : String) (writes : List KeyedWrite) : Option Json :=
  writes.reverse.findSome? fun request => if request.key = key then request.written? else none

/-- One more write in front counts only for a key that no later write fills. -/
theorem lastWritten?_cons (key : String) (request : KeyedWrite) (writes : List KeyedWrite) :
    lastWritten? key (request :: writes) =
      (lastWritten? key writes).or (if request.key = key then request.written? else none) := by
  -- The search runs backwards, so the first write is looked at last.
  simp [lastWritten?, List.findSome?_append]

/-- After a run every key holds what its last write has left, or what it held before. -/
theorem get?_writeAll (run : encoder.writeAll writes = .ok after) (key : String) :
    after.entries.get? key = (lastWritten? key writes).or (encoder.entries.get? key) := by
  -- The run is one write and a shorter run from the object which that write leaves.
  induction writes generalizing encoder with
  | nil =>
    cases run
    simp [lastWritten?]
  | cons request rest ih =>
    rw [writeAll, List.foldlM_cons, bind_eq_ok_iff] at run
    obtain ⟨next, head, tail⟩ := run
    -- What the later writes leave takes precedence over what the first one leaves.
    rw [ih tail, get?_write head, lastWritten?_cons, Option.or_assoc]

/-- A run succeeds exactly if every value that is written has a JSON form. -/
theorem writeAll_ok_iff :
    (∃ after, encoder.writeAll writes = .ok after) ↔ ∀ request ∈ writes, request.Serializes := by
  -- No write asks anything of the object that earlier writes have left.
  induction writes generalizing encoder with
  | nil => simp [writeAll, pure, Except.pure]
  | cons request rest ih =>
    simp only [List.forall_mem_cons]
    constructor
    · rintro ⟨after, run⟩
      rw [writeAll, List.foldlM_cons, bind_eq_ok_iff] at run
      obtain ⟨next, head, tail⟩ := run
      exact ⟨write_ok_iff.mp ⟨next, head⟩, ih.mp ⟨after, tail⟩⟩
    · rintro ⟨first, others⟩
      obtain ⟨next, head⟩ : ∃ next, encoder.write request = .ok next := write_ok_iff.mpr first
      obtain ⟨after, tail⟩ : ∃ after, next.writeAll rest = .ok after := ih.mpr others
      refine ⟨after, ?_⟩
      rw [writeAll, List.foldlM_cons, bind_eq_ok_iff]
      exact ⟨next, head, tail⟩

/-- A run fails exactly at the first value without a JSON form, and the error names its key. -/
theorem writeAll_error_iff :
    encoder.writeAll writes = .error error ↔
      FailsFirst KeyedWrite.Serializes (KeyedWrite.Refuses · error) writes := by
  -- What earlier writes have left does not matter, so the object stays open.
  induction writes generalizing encoder with
  | nil => simp [writeAll, pure, Except.pure]
  | cons request rest ih =>
    rw [writeAll, List.foldlM_cons, bind_eq_error_iff, failsFirst_cons_iff, write_error_iff]
    refine or_congr_right ?_
    constructor
    · rintro ⟨next, head, tail⟩
      exact ⟨write_ok_iff.mp ⟨next, head⟩, ih.mp tail⟩
    · rintro ⟨first, others⟩
      obtain ⟨next, head⟩ : ∃ next, encoder.write request = .ok next := write_ok_iff.mpr first
      exact ⟨next, head, ih.mpr others⟩

/-- A run under keys that are new and do not repeat adds the entries of its writes. -/
theorem perm_writeAll (run : encoder.writeAll writes = .ok after)
    (distinct : (writes.map KeyedWrite.key).Nodup)
    (fresh : ∀ request ∈ writes, request.key ∉ encoder.entries.map Prod.fst) :
    after.entries.Perm (writes.filterMap KeyedWrite.pair? ++ encoder.entries) := by
  induction writes generalizing encoder with
  | nil =>
    cases run
    simp
  | cons request rest ih =>
    rw [writeAll, List.foldlM_cons, bind_eq_ok_iff] at run
    obtain ⟨next, head, tail⟩ := run
    rw [List.map_cons, List.nodup_cons] at distinct
    rw [List.forall_mem_cons] at fresh
    have first := perm_write head fresh.1
    -- The keys of later writes are new to what the first one leaves, too.
    have later : ∀ other ∈ rest, other.key ∉ next.entries.map Prod.fst := by
      intro other inside among
      rw [(first.map Prod.fst).mem_iff, List.map_append, List.mem_append] at among
      rcases among with own | old
      · obtain ⟨entry, written, same⟩ := List.mem_map.mp own
        obtain ⟨json, -, rfl⟩ := Option.map_eq_some_iff.mp (Option.mem_toList.mp written)
        exact distinct.1 (List.mem_map.mpr ⟨other, inside, same.symm⟩)
      · exact fresh.2 other inside old
    -- The entry of the first write comes to stand before those of the later ones.
    have front : (request :: rest).filterMap KeyedWrite.pair? ++ encoder.entries =
        request.pair?.toList ++ (rest.filterMap KeyedWrite.pair? ++ encoder.entries) := by
      cases entry : request.pair? <;> simp [entry]
    rw [front]
    exact ((ih tail distinct.2 later).trans (first.append_left _)).trans
      (List.perm_append_comm_assoc _ _ _)

/-- If no key is written twice, every write is the last one under its key. -/
theorem lastWritten?_of_mem (distinct : (writes.map KeyedWrite.key).Nodup)
    (inside : request ∈ writes) :
    lastWritten? request.key writes = request.written? := by
  -- The write is the first one or a later one, and the keys tell which.
  induction writes with
  | nil => simp at inside
  | cons head rest ih =>
    simp only [List.map_cons, List.nodup_cons] at distinct
    rw [lastWritten?_cons]
    rcases List.mem_cons.mp inside with rfl | later
    · -- No later write has the key of the first one.
      have silent : lastWritten? request.key rest = none := by
        rw [lastWritten?, List.findSome?_eq_none_iff]
        intro other found
        have different : other.key ≠ request.key := fun same =>
          distinct.1 (List.mem_map.mpr ⟨other, List.mem_reverse.mp found, same⟩)
        simp [different]
      simp [silent]
    · -- The first write has another key than a later one.
      have different : head.key ≠ request.key := fun same =>
        distinct.1 (same ▸ List.mem_map_of_mem later)
      simp [different, ih distinct.2 later]

end Encoder

end KeyedCoding
