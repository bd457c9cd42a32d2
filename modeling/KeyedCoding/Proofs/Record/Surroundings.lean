import KeyedCoding.KeyMapping.Arguments
import KeyedCoding.Proofs.KeyMapping.Entries
import KeyedCoding.Proofs.Record.Reassembly

/-!
Laws of what surrounds a record: when its declarations hold a key mapping, and what new ones add to
that.
-/

namespace KeyedCoding

/-- Whether a declaration next to a struct is a key mapping for it. -/
def Item.mapsKeys (name : Name) (item : Item) : Bool :=
  match item with
  | .enum decl => decl.head.name.spelling == "CodingKeys" ||
      decl.head.name == Target.keysNameOf name
  | .impl decl =>
    decl.target.name? == some name.spelling &&
      (decl.trait.map fun trait => trait.path.lastName? == some "KeyMapped").getD false
  | _ => false

namespace Target

variable {target : Target} {trait : Option Path} {members : List Member}

/-- An impl is no struct. -/
theorem implement_not_isStruct : ¬(target.implement trait members).IsStruct := by
  -- They are different forms of an item.
  rintro ⟨decl, struct⟩
  cases struct

/-- The type that an impl is for has the name of the declared type. -/
@[simp] theorem name?_self : target.self.name? = some target.name.spelling := by
  -- The type is a path of that one name.
  simp [self, Ty.name?, Ty.asPath?, Path.lastName?, Path.lastSegment?]

/-- An impl of a trait for a type maps its keys exactly by the last name of the trait. -/
theorem mapsKeys_implement (name : Name) (generics : Generics) (path : Path) :
    (implement ⟨name, generics⟩ (some path) members).mapsKeys name =
      (path.lastName? == some "KeyMapped") := by
  -- The impl is for the type, so only the trait is left to compare.
  simp [implement, Item.mapsKeys]

end Target

namespace ExistingMembers

variable {existing : ExistingMembers} {name : Name} {item : Item} {items : List Item}

/-- A noted mapping is the first one. -/
theorem keyMapping_withMapping {pos : Position} : (existing.withMapping pos).keyMapping ≠ none := by
  -- An earlier mapping is kept, so there is one in any case.
  rw [withMapping]
  cases existing.keyMapping <;> simp

/-- Members of an impl of the type's own are noted in the two coder flags, and nowhere else. -/
theorem exists_foldl_withMember (members : List Member) (existing : ExistingMembers) :
    ∃ decoder encoder, members.foldl withMember existing =
      { existing with decoder := decoder, encoder := encoder } := by
  -- What is noted grows with the members, so the induction is for all that may be noted before them.
  induction members generalizing existing with
  | nil => exact ⟨_, _, rfl⟩
  | cons member rest ih =>
    have noted : ∃ decoder encoder, existing.withMember member =
        { existing with decoder := decoder, encoder := encoder } := by
      rw [withMember]
      -- A member may be a decoder or an encoder, and nothing else.
      split
      · split <;> exact ⟨_, _, rfl⟩
      · exact ⟨_, _, rfl⟩
    obtain ⟨decoder, encoder, same⟩ := noted
    rw [List.foldl_cons, same]
    exact ih _

/-- An implemented trait is a key mapping exactly by its last name. -/
theorem keyMapping_withTrait (path : Path) :
    (existing.withTrait path).keyMapping = none ↔
      existing.keyMapping = none ∧ path.lastName? ≠ some "KeyMapped" := by
  rw [withTrait]
  cases path.lastName? with
  | none => simp
  | some last =>
    dsimp only
    split
    · simp [keyMapping_withMapping]
    · simp
    · simp
    · -- Any other trait is noted by its name alone.
      rename_i other _ _
      have unlike : some last ≠ some "KeyMapped" := fun same => other (Option.some.inj same)
      simp [unlike]

/-- A declaration leaves a struct without a key mapping exactly if it is none. -/
theorem keyMapping_withItem :
    (withItem name existing item).keyMapping = none ↔
      existing.keyMapping = none ∧ item.mapsKeys name = false := by
  -- Only enums and impls can be key mappings.
  cases item with
  | enum decl =>
    rw [withItem, Item.mapsKeys]
    split
    · rename_i maps
      simp [keyMapping_withMapping, maps]
    · rename_i other
      simp [other]
  | impl decl =>
    rw [withItem, Item.mapsKeys]
    split
    · rename_i target
      rw [target, Bool.true_and, withImpl]
      cases decl.trait with
      | none =>
        obtain ⟨_, _, same⟩ := exists_foldl_withMember decl.members existing
        simp [same]
      | some trait => simp [keyMapping_withTrait]
    · rename_i other
      simp [other]
  | _ => simp [withItem, Item.mapsKeys]

/-- Declarations leave a struct without a key mapping exactly if none of them is one. -/
theorem keyMapping_foldl_withItem :
    (items.foldl (withItem name) existing).keyMapping = none ↔
      existing.keyMapping = none ∧ ∀ item ∈ items, item.mapsKeys name = false := by
  -- Every declaration adds its own condition to those before it.
  induction items generalizing existing with
  | nil => simp
  | cons item rest ih =>
    rw [List.foldl_cons, ih, keyMapping_withItem, List.forall_mem_cons, and_assoc]

end ExistingMembers

namespace Record

variable {item : Item} {record : Record} {generated : List Item}

/--
What is generated around a record brings a key mapping only in a module, where it stands next to the
struct.
-/
theorem keyMapping_existingAmong (found : item.asRecord = .ok record) :
    (existingAmong record.head (record.container.around generated)).keyMapping = none ↔
      record.existing.keyMapping = none ∧
        (record.container = .bare ∨ ∀ other ∈ generated, other.mapsKeys record.name = false) := by
  -- Both the old record and the new one are looked at in their surroundings.
  rw [(Item.asRecord_eq_ok_iff.mp found).1, existingAmong, existingAmong]
  rw [ExistingMembers.keyMapping_foldl_withItem, ExistingMembers.keyMapping_foldl_withItem]
  cases container : record.container with
  -- A struct on its own has no surroundings, so nothing new is seen.
  | bare => simp [Container.around]
  | module decl index =>
    -- The old declarations of the module come first, and the new ones add to them.
    simp only [Container.around, List.append_nil, List.forall_mem_append, reduceCtorEq, false_or]
    exact and_assoc.symm

/--
A record carries a mapping: an attribute of the name that mappings are attached under, or a
declaration next to the struct that is one.
-/
def CarriesMapping (record : Record) : Prop :=
  (∃ attr ∈ record.head.attributes, attr.path.lastName? = some KeyMapping.attributeName) ∨
    ∃ other ∈ record.container.around [], other.mapsKeys record.name = true

/-- A record carries a mapping exactly if one is found. -/
theorem carriesMapping_iff (found : item.asRecord = .ok record) :
    record.CarriesMapping ↔ ∃ pos, record.existing.keyMapping = some pos := by
  -- No mapping is found exactly if there is neither such an attribute nor such a declaration.
  rw [← Option.ne_none_iff_exists', (Item.asRecord_eq_ok_iff.mp found).1, existingAmong, ne_eq,
    ExistingMembers.keyMapping_foldl_withItem, not_and_or, CarriesMapping]
  refine or_congr ?_ ?_
  · rw [ExistingMembers.ofAttributes, Option.map_eq_none_iff, Attribute.find?,
      List.find?_eq_none]
    simp [KeyMapping.attributeName]
  · simp [name]

/-- A record carries no mapping exactly if none is found. -/
theorem not_carriesMapping_iff (found : item.asRecord = .ok record) :
    ¬record.CarriesMapping ↔ record.existing.keyMapping = none := by
  -- Carrying a mapping means that one is found.
  rw [carriesMapping_iff found, ← Option.ne_none_iff_exists', not_not]

end Record

end KeyedCoding
