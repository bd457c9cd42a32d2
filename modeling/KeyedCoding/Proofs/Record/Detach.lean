import KeyedCoding.Proofs.Record.Reassembly
import KeyedCoding.Tree.Detach

/-!
Taking an attribute off a record: what is taken off its struct is taken off the declaration that
holds it.
-/

namespace KeyedCoding

namespace Attribute

variable {name : String} {attributes : List Attribute}

/-- No attribute is taken off exactly if none is found. -/
theorem detach?_eq_none_iff : detach? name attributes = none ↔ find? attributes name = none := by
  -- Both searches go through the list in the same way.
  induction attributes with
  | nil => simp [detach?, find?]
  | cons attr rest ih =>
    rw [detach?, find?, List.find?_cons]
    -- The first attribute is taken exactly if it is found.
    cases named : attr.path.lastName? == some name with
    | true => simp
    | false => simpa [find?] using ih

end Attribute

namespace Item

variable {name : String} {items more : List Item} {start index : Nat} {old decl : Struct}

/-- Declarations of which none is a struct have nothing taken off. -/
theorem detachFirst?_eq_none (others : ∀ item ∈ items, ¬item.IsStruct) :
    detachFirst? name items = none := by
  -- The search passes over every declaration.
  induction items with
  | nil => rfl
  | cons item rest ih =>
    rw [List.forall_mem_cons] at others
    have none := ih others.2
    cases item with
    | struct decl => exact absurd ⟨decl, rfl⟩ others.1
    | _ => simp [detachFirst?, none]

/-- What is taken off a body is taken off its only struct. -/
theorem detachFirst?_set (only : Module.structsFrom start items = [(start + index, old)])
    (plain : ∀ other ∈ more, ¬other.IsStruct) :
    detachFirst? name (items.set index (.struct decl) ++ more) =
      (decl.detach? name).map fun found =>
        (found.1, items.set index (.struct found.2) ++ more) := by
  induction items generalizing start index with
  | nil => simp [Module.structsFrom] at only
  | cons item rest ih =>
    by_cases struct : item.IsStruct
    · -- The first declaration is the struct, and no other one is.
      obtain ⟨first, rfl⟩ := struct
      rw [Module.structsFrom_cons] at only
      simp only [List.cons.injEq, Prod.mk.injEq] at only
      obtain ⟨⟨place, -⟩, none⟩ := only
      obtain rfl : index = 0 := by omega
      have others : ∀ item ∈ rest ++ more, ¬item.IsStruct := by
        rw [List.forall_mem_append]
        exact ⟨Module.structsFrom_eq_nil_iff.mp none, plain⟩
      simp only [List.set_cons_zero, List.cons_append, detachFirst?, detachFirst?_eq_none others]
      cases decl.detach? name <;> rfl
    · -- The struct stands in the rest, one place back.
      rw [Module.structsFrom_cons_of_not struct] at only
      obtain ⟨offset, place, -⟩ := Module.getElem?_of_mem_structsFrom
        (show (start + index, old) ∈ Module.structsFrom (start + 1) rest by simp [only])
      obtain rfl : index = offset + 1 := by omega
      have moved : start + (offset + 1) = start + 1 + offset := by omega
      rw [moved] at only
      have inner := ih only
      rw [List.set_cons_succ, List.cons_append]
      cases item with
      | struct first => exact absurd ⟨first, rfl⟩ struct
      | _ =>
        simp only [detachFirst?, inner]
        cases decl.detach? name <;> rfl

end Item

namespace Record

variable {name : String} {item : Item} {record : Record} {generated : List Item} {decl : Struct}

/-- What is taken off a declaration is taken off the struct that stands in the record's place. -/
theorem detach?_place (found : item.asRecord = .ok record)
    (plain : ∀ other ∈ generated, ¬other.IsStruct) :
    (record.place decl generated).detach? name =
      (decl.detach? name).map fun taken => (taken.1, record.place taken.2 generated) := by
  obtain ⟨-, ⟨-, bare⟩ | ⟨attributes, modHead, modName, items, index, -, inside, only⟩⟩ :=
    Item.asRecord_eq_ok_iff.mp found
  · -- A struct on its own is the whole declaration.
    simp [place, bare, Item.detach?]
  · -- In a module the struct is the only one, so it is the first one that has the attribute.
    have shifted : Module.structsFrom 0 items = [(0 + index, record.decl)] := by simp [only]
    simp only [place, inside, Option.map_some, Item.detach?, Item.detachFirst?_set shifted plain,
      Option.map_map]
    rfl

end Record

end KeyedCoding
