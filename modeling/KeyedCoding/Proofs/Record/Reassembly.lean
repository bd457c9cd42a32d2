import KeyedCoding.Record.Inspection
import KeyedCoding.Proofs.Success

/-!
Laws of reassembled records: a struct that is put back is found again, among the same declarations.
-/

namespace KeyedCoding

/-- A declaration that is a struct. -/
def Item.IsStruct (item : Item) : Prop := ∃ decl, item = .struct decl

namespace Module

variable {items before after : List Item} {start index : Nat} {found decl : Struct}

/-- A declaration that is no struct is passed over. -/
theorem structsFrom_cons_of_not {item : Item} (other : ¬item.IsStruct) :
    structsFrom start (item :: items) = structsFrom (start + 1) items := by
  -- Only a struct is kept with its position, and the others are looked at one position later.
  cases item with
  | struct decl => exact absurd ⟨decl, rfl⟩ other
  | _ => rfl

/-- A struct is listed with its index. -/
theorem structsFrom_cons : structsFrom start (.struct decl :: items) =
    (start, decl) :: structsFrom (start + 1) items := rfl

/-- Declarations list no struct exactly if none of them is one. -/
theorem structsFrom_eq_nil_iff : structsFrom start items = [] ↔ ∀ item ∈ items, ¬item.IsStruct := by
  -- A struct is listed, and anything else is passed over.
  induction items generalizing start with
  | nil => simp [structsFrom]
  | cons item rest ih =>
    rw [List.forall_mem_cons]
    cases item with
    | struct decl => simp [structsFrom_cons, Item.IsStruct]
    | _ => simp [structsFrom, ih, Item.IsStruct]

/-- The structs of more declarations follow those of the first ones. -/
theorem structsFrom_append (start : Nat) (items more : List Item) :
    structsFrom start (items ++ more) =
      structsFrom start items ++ structsFrom (start + items.length) more := by
  -- The index at which the later ones start grows with the number of the first ones.
  induction items generalizing start with
  | nil => simp [structsFrom]
  | cons item rest ih =>
    have moved : start + (item :: rest).length = start + 1 + rest.length := by
      rw [List.length_cons]
      omega
    rw [moved, List.cons_append]
    cases item with
    | struct decl => rw [structsFrom_cons, structsFrom_cons, ih, List.cons_append]
    | _ => exact ih (start + 1)

/-- A listed struct stands at its index. -/
theorem getElem?_of_mem_structsFrom (listed : (index, found) ∈ structsFrom start items) :
    ∃ offset, index = start + offset ∧ items[offset]? = some (.struct found) := by
  induction items generalizing start with
  | nil => simp [structsFrom] at listed
  | cons item rest ih =>
    -- A struct that is not the first declaration stands one place further in the rest.
    have later (inside : (index, found) ∈ structsFrom (start + 1) rest) :
        ∃ offset, index = start + offset ∧ (item :: rest)[offset]? = some (.struct found) := by
      obtain ⟨offset, place, stands⟩ := ih inside
      exact ⟨offset + 1, by omega, by simpa using stands⟩
    -- The first declaration may be the listed struct itself, or stand before it.
    by_cases struct : item.IsStruct
    · obtain ⟨decl, rfl⟩ := struct
      rcases List.mem_cons.mp listed with same | inside
      · cases same
        exact ⟨0, rfl, rfl⟩
      · exact later inside
    · rw [structsFrom_cons_of_not struct] at listed
      exact later listed

/-- The only struct stands at its index. -/
theorem getElem?_of_only (only : structsFrom 0 items = [(index, found)]) :
    items[index]? = some (.struct found) := by
  obtain ⟨offset, place, stands⟩ := getElem?_of_mem_structsFrom
    (show (index, found) ∈ structsFrom 0 items by simp [only])
  -- Counting starts at zero.
  obtain rfl : index = offset := by omega
  exact stands

/-- Nothing changes where the only struct takes its own place. -/
theorem set_only (only : structsFrom 0 items = [(index, found)]) :
    items.set index (.struct found) = items := by
  -- At the index stands the struct itself, so putting it there changes nothing.
  obtain ⟨within, same⟩ := List.getElem?_eq_some_iff.mp (getElem?_of_only only)
  rw [← same, List.set_getElem_self]

/-- A struct in the place of the only one is the only one. -/
theorem structsFrom_set (decl : Struct)
    (only : structsFrom start items = [(start + index, found)]) :
    structsFrom start (items.set index (.struct decl)) = [(start + index, decl)] := by
  -- The induction follows the list to the place of the struct.
  induction items generalizing start index with
  | nil => simp [structsFrom] at only
  | cons item rest ih =>
    by_cases struct : item.IsStruct
    · -- The first declaration is the struct, so its place is the one that is set.
      obtain ⟨first, rfl⟩ := struct
      rw [structsFrom_cons] at only
      simp only [List.cons.injEq, Prod.mk.injEq] at only
      obtain ⟨⟨place, -⟩, none⟩ := only
      obtain rfl : index = 0 := by omega
      rw [List.set_cons_zero, structsFrom_cons, none, Nat.add_zero]
    · -- The struct stands in the rest, one place back.
      rw [structsFrom_cons_of_not struct] at only
      obtain ⟨offset, place, -⟩ := getElem?_of_mem_structsFrom
        (show (start + index, found) ∈ structsFrom (start + 1) rest by simp [only])
      obtain rfl : index = offset + 1 := by omega
      have moved : start + (offset + 1) = start + 1 + offset := by omega
      rw [moved] at only ⊢
      rw [List.set_cons_succ, structsFrom_cons_of_not struct, ih only]

/-- A struct is the only one of a list exactly if there is none before it and none behind it. -/
theorem structsFrom_append_cons_eq_singleton_iff {listed : Nat × Struct} :
    structsFrom start (before ++ .struct decl :: after) = [listed] ↔
      (∀ item ∈ before, ¬item.IsStruct) ∧ (∀ item ∈ after, ¬item.IsStruct) ∧
        listed = (start + before.length, decl) := by
  -- What is found before, at and behind the struct is found in this order.
  rw [structsFrom_append, structsFrom_cons, List.append_eq_singleton_iff,
    structsFrom_eq_nil_iff]
  constructor
  · rintro (⟨front, one⟩ | ⟨-, none⟩)
    · obtain ⟨rfl, rest⟩ := List.cons.inj one
      exact ⟨front, structsFrom_eq_nil_iff.mp rest, rfl⟩
    · cases none
  · rintro ⟨front, back, rfl⟩
    exact .inl ⟨front, by rw [structsFrom_eq_nil_iff.mpr back]⟩

end Module

namespace ExistingMembers

variable {items : List Item} {index : Nat} {name : Name} {existing : ExistingMembers}

/-- What stands around a struct does not change when one struct takes the place of another. -/
theorem foldl_withItem_set {old decl : Struct} (stands : items[index]? = some (.struct old)) :
    (items.set index (.struct decl)).foldl (withItem name) existing =
      items.foldl (withItem name) existing := by
  -- The declarations are passed one by one, and only the replaced one differs.
  induction items generalizing index existing with
  | nil => rfl
  | cons item rest ih =>
    cases index with
    -- A struct provides nothing, the old one as little as the new one.
    | zero =>
      obtain rfl : item = .struct old := by simpa using stands
      rfl
    | succ index =>
      rw [List.set_cons_succ, List.foldl_cons, List.foldl_cons]
      exact ih (by simpa using stands)

end ExistingMembers

/-- The declarations next to a struct once others are generated; on its own it has none. -/
def Container.around (container : Container) (generated : List Item) : List Item :=
  match container with
  | .bare => []
  | .module decl _ => decl.body.getD [] ++ generated

/-- The container of a struct that has taken the place of a record, once others are generated. -/
def Container.holding (container : Container) (decl : Struct) (generated : List Item) : Container :=
  match container with
  | .bare => .bare
  | .module ⟨attributes, head, name, body⟩ index =>
    .module ⟨attributes, head, name,
      body.map fun items => items.set index (.struct decl) ++ generated⟩ index

/-- A struct stands on its own exactly if the one whose place it has taken did. -/
theorem Container.holding_eq_bare_iff {container : Container} {decl : Struct}
    {generated : List Item} : container.holding decl generated = .bare ↔ container = .bare := by
  -- A module stays a module.
  rcases container with _ | ⟨⟨attributes, head, name, body⟩, index⟩ <;> simp [holding]

namespace Record

/-- What a record of a given head has among given declarations. -/
def existingAmong (head : TypeHead) (items : List Item) : ExistingMembers :=
  items.foldl (.withItem head.name) (.ofAttributes head.attributes)

end Record

namespace Item

variable {item : Item} {record : Record}

/-- A record is a struct on its own, or the only one of a module. -/
theorem asRecord_eq_ok_iff :
    item.asRecord = .ok record ↔
      record.existing = Record.existingAmong record.head (record.container.around []) ∧
        (item = .struct record.decl ∧ record.container = .bare ∨
          ∃ attributes head name items index,
            item = .mod ⟨attributes, head, name, some items⟩ ∧
              record.container = .module ⟨attributes, head, name, some items⟩ index ∧
                Module.structsFrom 0 items = [(index, record.decl)]) := by
  constructor
  · -- Of all declarations only these two can be records.
    intro found
    cases item with
    | struct decl =>
      obtain ⟨head, fields⟩ := decl
      cases fields with
      -- The fields have names, so the struct is a record that stands alone.
      | named fields trailing =>
        cases found
        exact ⟨rfl, .inl ⟨rfl, rfl⟩⟩
      | positional slots trailing => cases found
      | unit => cases found
    | mod decl =>
      obtain ⟨attributes, modHead, name, body⟩ := decl
      cases body with
      | none => cases found
      | some items =>
        simp only [asRecord, Module.asRecord] at found
        -- A module is a record if exactly one struct stands directly in it.
        split at found
        · rename_i index decl only
          obtain ⟨inner, asStruct, same⟩ := bind_eq_ok_iff.mp found
          cases same
          obtain ⟨head, fields⟩ := decl
          cases fields with
          | named fields trailing =>
            cases asStruct
            refine ⟨?_, .inr ⟨attributes, modHead, name, items, index, rfl, rfl, only⟩⟩
            simp [Record.existingAmong, Container.around, Record.name]
          | positional slots trailing => cases asStruct
          | unit => cases asStruct
        · cases found
    | _ => cases found
  · -- Conversely, what the record says of its surroundings is what is found there.
    obtain ⟨head, fields, trailing, container, existing⟩ := record
    rintro ⟨provided, ⟨rfl, bare⟩ | ⟨attributes, modHead, name, items, index, rfl, inside, only⟩⟩
    · -- Alone, the struct provides nothing, as its record says.
      simp only at bare
      subst bare
      simp only at provided
      subst provided
      rfl
    · simp only at inside
      subst inside
      simp only at provided
      subst provided
      simp only [asRecord, Module.asRecord, only]
      simp [Record.existingAmong, Container.around, Record.name, Record.decl, Struct.asRecord, bind,
        Except.bind, pure, Except.pure]

end Item

namespace Record

variable {item : Item} {record : Record} {generated : List Item}

/--
The declaration that holds a struct in the record's place: the struct, or the module around it.
-/
def place (record : Record) (decl : Struct) (generated : List Item) : Item :=
  match record.container with
  | .bare => .struct decl
  | .module ⟨attributes, head, name, body⟩ index =>
    .mod ⟨attributes, head, name, body.map fun items => items.set index (.struct decl) ++ generated⟩

/-- The declarations that stand beside that declaration; in a module they stand inside. -/
def beside (record : Record) (generated : List Item) : List Item :=
  match record.container with
  | .bare => generated
  | .module _ _ => []

/-- A struct is put back first, and before all that stands beside it. -/
theorem reassemble_eq (decl : Struct) :
    record.reassemble decl generated = record.place decl generated :: record.beside generated := by
  rw [reassemble, place, beside]
  -- A struct alone and a module differ only in where the generated items go.
  cases record.container with
  | bare => rfl
  | module decl index =>
    cases decl
    rfl

/-- In a module, nothing stands beside the declaration that holds the struct. -/
theorem beside_eq_nil (inside : record.container ≠ .bare) : record.beside generated = [] := by
  -- Only a struct on its own has items beside it.
  rw [beside]
  cases container : record.container with
  | bare => exact absurd container inside
  | module decl index => rfl

/-- Nothing changes where the struct of a record takes its own place. -/
theorem place_decl (found : item.asRecord = .ok record) : record.place record.decl [] = item := by
  -- A struct on its own is the item itself.
  obtain ⟨-, ⟨rfl, bare⟩ | ⟨attributes, head, name, items, index, rfl, inside, only⟩⟩ :=
    Item.asRecord_eq_ok_iff.mp found
  · rw [place, bare]
  · -- The struct stands at its index already.
    simp [place, inside, Module.set_only only]

/-- The struct of a record takes its own place where nothing is generated. -/
theorem reassemble_decl (found : item.asRecord = .ok record) :
    record.reassemble record.decl [] = [item] := by
  -- Where nothing is generated, nothing stands beside the declaration either.
  have beside : record.beside [] = [] := by
    rw [Record.beside]
    cases record.container <;> rfl
  rw [reassemble_eq, beside, place_decl found]

/--
A struct that takes the place of a record is a record, with what the old surroundings and the
generated declarations provide.
-/
theorem asRecord_place (found : item.asRecord = .ok record)
    (plain : ∀ other ∈ generated, ¬other.IsStruct)
    (head : TypeHead) (fields : List Field) (trailing : Bool) :
    (record.place ⟨head, .named fields trailing⟩ generated).asRecord =
      .ok ⟨head, fields, trailing, record.container.holding ⟨head, .named fields trailing⟩ generated,
        existingAmong head (record.container.around generated)⟩ := by
  obtain ⟨-, ⟨-, bare⟩ | ⟨attributes, modHead, name, items, index, -, inside, only⟩⟩ :=
    Item.asRecord_eq_ok_iff.mp found
  · -- What is generated stands beside a struct on its own.
    rw [place, bare, Item.asRecord_eq_ok_iff]
    exact ⟨by simp [Container.around, Container.holding], .inl ⟨rfl, rfl⟩⟩
  · -- What is generated follows the declarations of the module, in which the struct is still the
    -- only one.
    let body := items.set index (.struct ⟨head, .named fields trailing⟩) ++ generated
    -- No generated declaration is a struct, so the new one is the only one.
    have alone : Module.structsFrom 0 body = [(index, ⟨head, .named fields trailing⟩)] := by
      rw [Module.structsFrom_append, Module.structsFrom_eq_nil_iff.mpr plain, List.append_nil]
      have shifted : Module.structsFrom 0 items = [(0 + index, record.decl)] := by simp [only]
      simpa using Module.structsFrom_set ⟨head, .named fields trailing⟩ shifted
    rw [Record.place, inside, Item.asRecord_eq_ok_iff]
    refine ⟨?_, .inr ⟨attributes, modHead, name, body, index, rfl, rfl, alone⟩⟩
    simp only [existingAmong, Container.around, Container.holding, Option.map_some,
      Option.getD_some, List.foldl_append, List.foldl_nil]
    -- The only struct stands where the new one is put.
    rw [ExistingMembers.foldl_withItem_set (Module.getElem?_of_only only)]

/-- A record that holds a struct in its place is put back where the record was. -/
theorem place_holding (found : item.asRecord = .ok record) {left : Record} {old : Struct}
    (holds : left.container = record.container.holding old generated) (decl : Struct)
    (more : List Item) :
    left.place decl more = record.place decl (generated ++ more) ∧
      left.beside more = record.beside more := by
  obtain ⟨-, ⟨-, bare⟩ | ⟨attributes, modHead, name, items, index, -, inside, only⟩⟩ :=
    Item.asRecord_eq_ok_iff.mp found
  · rw [bare, Container.holding] at holds
    simp [place, beside, holds, bare]
  · -- The struct is put at the same index of the same module, before all that is generated.
    obtain ⟨within, -⟩ := List.getElem?_eq_some_iff.mp (Module.getElem?_of_only only)
    rw [inside, Container.holding] at holds
    have again : (items.set index (.struct old) ++ generated).set index (.struct decl) =
        items.set index (.struct decl) ++ generated := by
      rw [List.set_append_left _ _ (by simpa using within), List.set_set]
    simp [Record.place, beside, holds, inside, again]

end Record

namespace Item

variable {item : Item} {record : Record}

/--
A record is a struct on its own, or one that stands between declarations which are no structs; there
another one can take its place.
-/
theorem shape_of_asRecord (found : item.asRecord = .ok record) :
    (item = .struct record.decl ∧ record.container = .bare) ∨
      ∃ attributes head name before after,
        item = .mod ⟨attributes, head, name, some (before ++ .struct record.decl :: after)⟩ ∧
        (∀ other ∈ before ++ after, ¬other.IsStruct) ∧ record.container ≠ .bare ∧
        ∀ decl generated, record.place decl generated =
          .mod ⟨attributes, head, name, some (before ++ .struct decl :: (after ++ generated))⟩ := by
  obtain ⟨-, alone | ⟨attributes, head, name, items, index, whole, inside, only⟩⟩ :=
    asRecord_eq_ok_iff.mp found
  · exact .inl alone
  · -- The declarations before the struct and behind it are those before and behind its index.
    obtain ⟨within, same⟩ := List.getElem?_eq_some_iff.mp (Module.getElem?_of_only only)
    have split : items = items.take index ++ .struct record.decl :: items.drop (index + 1) := by
      rw [← same, ← List.drop_eq_getElem_cons within, List.take_append_drop]
    rw [split] at only
    obtain ⟨front, back, -⟩ := Module.structsFrom_append_cons_eq_singleton_iff.mp only
    refine .inr ⟨attributes, head, name, _, _, split ▸ whole,
      List.forall_mem_append.mpr ⟨front, back⟩, by simp [inside], fun decl generated => ?_⟩
    simp [Record.place, inside, List.set_eq_take_append_cons_drop, within]

end Item

end KeyedCoding
