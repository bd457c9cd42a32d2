import KeyedCoding.Proofs.Record.Directions

/-!
Detection: which modules are records, and that what stands next to a struct is noted exactly and in
no matter what order it stands.
-/

namespace KeyedCoding

/-- A type ends in a name: that of the last segment of a path, which may stand in parentheses. -/
inductive Ty.EndsIn (name : String) : Ty → Prop
  | path {path : Path} (last : path.lastName? = some name) : EndsIn name (.path path)
  | projection {pos : Position} {source : Ty} {base : Option Path} {rest : List Segment}
      {path : Path} (whole : (Ty.projection pos source base rest).asPath? = some path)
      (last : path.lastName? = some name) : EndsIn name (.projection pos source base rest)
  | paren {inner : Ty} (ends : EndsIn name inner) : EndsIn name (.paren inner)
  | group {inner : Ty} (ends : EndsIn name inner) : EndsIn name (.group inner)

/-- A type codes with a coder if it ends in the coder's name, behind at most one reference. -/
def Ty.Takes (coder : String) (ty : Ty) : Prop :=
  ty.EndsIn coder ∨ ∃ lifetime mutable target,
    ty = .reference lifetime mutable target ∧ target.EndsIn coder

/-- The last name of a type is the one that it ends in. -/
theorem Ty.name?_eq_some_iff {ty : Ty} {name : String} :
    ty.name? = some name ↔ ty.EndsIn name := by
  constructor
  · intro found
    -- The name is looked for behind the parentheses, and there in a path.
    fun_induction Ty.name? ty with
    | case1 inner ih => exact .paren (ih found)
    | case2 inner ih => exact .group (ih found)
    | case3 ty _ _ =>
      obtain ⟨path, whole, last⟩ := Option.bind_eq_some_iff.mp found
      cases ty with
      | path path =>
        cases whole
        exact .path last
      | projection pos source base rest => exact .projection whole last
      | _ => cases whole
  · -- Conversely, the parentheses are seen through one by one.
    intro ends
    induction ends with
    | path last => exact last
    | projection whole last => exact Option.bind_eq_some_iff.mpr ⟨_, whole, last⟩
    | paren _ ih => exact ih
    | group _ ih => exact ih

/-- A parameter is looked at behind at most one reference. -/
theorem ExistingMembers.paramName?_eq_some_iff {ty : Ty} {coder : String} :
    paramName? ty = some coder ↔ ty.Takes coder := by
  -- Only a reference has another type behind it whose name is looked at.
  cases ty with
  | reference lifetime mutable target =>
    rw [paramName?, Ty.name?_eq_some_iff]
    constructor
    · intro ends
      exact .inr ⟨lifetime, mutable, target, rfl, ends⟩
    · rintro (⟨⟨⟩⟩ | ⟨_, _, _, ⟨⟩, ends⟩)
      exact ends
  | _ => simp [paramName?, Ty.name?_eq_some_iff, Ty.Takes]

/-- A member codes in a direction exactly if all that it takes is a coder of that direction. -/
theorem Member.codes_eq_true_iff {member : Member} {direction : Direction} :
    member.codes direction = true ↔
      ∃ ty, member.params = some [ty] ∧ ty.Takes direction.coder := by
  rw [codes]
  -- Only a function with one typed parameter is looked at.
  split
  · rename_i ty params
    simp [params, ExistingMembers.paramName?_eq_some_iff]
  · rename_i other
    constructor
    · intro codes
      cases codes
    · rintro ⟨ty, params, -⟩
      exact absurd params (other ty)

namespace Item

variable {name : Name} {item : Item} {direction : Direction}

/-- The declared struct, if a declaration is one. -/
def struct? : Item → Option Struct
  | .struct decl => some decl
  | _ => none

/--
The last name of the trait of an impl for a type. An impl that refuses its trait is written as an
impl of that trait, and counts as one.
-/
def traitFor? (name : Name) : Item → Option String
  | .impl decl =>
    if decl.target.name? = some name.spelling then decl.trait.bind (·.path.lastName?) else none
  | _ => none

/-- A declaration is an impl for a type of a trait whose path ends in a name. -/
def ImplFor (name : Name) (trait : String) (item : Item) : Prop :=
  ∃ decl written, item = .impl decl ∧ decl.target.EndsIn name.spelling ∧
    decl.trait = some written ∧ written.path.lastName? = some trait

/--
A declaration is an impl of a type's own with a function that takes a coder as its only typed
parameter.
-/
def OwnCoder (name : Name) (coder : String) (item : Item) : Prop :=
  ∃ decl member ty, item = .impl decl ∧ decl.target.EndsIn name.spelling ∧ decl.trait = none ∧
    member ∈ decl.members ∧ member.params = some [ty] ∧ ty.Takes coder

/-- A declaration is an enum that has the name of a key type for a struct. -/
def KeyEnum (name : Name) (item : Item) : Prop :=
  ∃ decl, item = .enum decl ∧ (decl.head.name.spelling = "CodingKeys" ∨
    decl.head.name.spelling = name.plain ++ "CodingKeys")

/-- The trait of an impl is known by its last name. -/
theorem traitFor?_eq_some_iff {trait : String} :
    item.traitFor? name = some trait ↔ item.ImplFor name trait := by
  -- Only an impl has a trait, and only one for the type is looked at.
  cases item with
  | impl decl =>
    rw [traitFor?]
    constructor
    · intro found
      obtain ⟨target, found⟩ := Option.ite_none_right_eq_some.mp found
      obtain ⟨written, has, last⟩ := Option.bind_eq_some_iff.mp found
      exact ⟨decl, written, rfl, Ty.name?_eq_some_iff.mp target, has, last⟩
    · rintro ⟨_, written, ⟨⟩, target, has, last⟩
      rw [if_pos (Ty.name?_eq_some_iff.mpr target), has, Option.bind_some, last]
  | _ => simp [traitFor?, ImplFor]

/-- What is taken for coding in a direction is an impl of its trait, or has a coder of its own. -/
theorem implements_or_standsIn_iff :
    (item.implements name direction || item.standsIn name direction) = true ↔
      item.ImplFor name direction.trait ∨ item.OwnCoder name direction.coder := by
  cases item with
  | impl decl =>
    by_cases target : decl.target.name? = some name.spelling
    · have ends := Ty.name?_eq_some_iff.mp target
      -- An impl for the type is of a trait, or it is of the type's own.
      cases trait : decl.trait with
      | none =>
        have own : (Item.impl decl).OwnCoder name direction.coder ↔
            ∃ member ∈ decl.members, member.codes direction = true := by
          simp [OwnCoder, ends, trait, Member.codes_eq_true_iff]
        rw [own]
        simp [implements, standsIn, ImplFor, target, trait]
      | some written =>
        obtain ⟨negative, path⟩ := written
        cases negative <;> simp [implements, standsIn, ImplFor, OwnCoder, target, trait, ends]
    · -- An impl for another type is not looked at.
      have elsewhere : ¬decl.target.EndsIn name.spelling :=
        fun ends => target (Ty.name?_eq_some_iff.mpr ends)
      simp [implements, standsIn, ImplFor, OwnCoder, target, elsewhere]
  | _ => simp [implements, standsIn, ImplFor, OwnCoder]

/-- A declaration is a key mapping as an enum of keys or as an impl of the trait of mapped types. -/
theorem mapsKeys_eq_true_iff :
    item.mapsKeys name = true ↔ item.KeyEnum name ∨ item.ImplFor name "KeyMapped" := by
  -- Only enums and impls can be key mappings.
  cases item with
  | enum decl => simp [mapsKeys, KeyEnum, ImplFor, Target.keysNameOf, Name.beq_eq_true_iff]
  | impl decl =>
    by_cases target : decl.target.name? = some name.spelling
    · have ends := Ty.name?_eq_some_iff.mp target
      cases trait : decl.trait <;> simp [mapsKeys, KeyEnum, ImplFor, target, trait, ends]
    · have elsewhere : ¬decl.target.EndsIn name.spelling :=
        fun ends => target (Ty.name?_eq_some_iff.mpr ends)
      simp [mapsKeys, KeyEnum, ImplFor, target, elsewhere]
  | _ => simp [mapsKeys, KeyEnum, ImplFor]

end Item

namespace ExistingMembers

variable {existing : ExistingMembers} {name : Name} {item : Item} {items : List Item}

/-- An impl of a trait is noted by the last name of the trait, behind those before it. -/
theorem conformances_withTrait (path : Path) :
    (existing.withTrait path).conformances = existing.conformances ++ path.lastName?.toList := by
  rw [withTrait]
  cases path.lastName? with
  | none => simp
  | some last =>
    -- Whatever else a trait says, it does not change the names before it.
    dsimp only
    split <;> rfl

/-- A declaration adds the trait that it implements, if it is such an impl. -/
theorem conformances_withItem :
    (withItem name existing item).conformances =
      existing.conformances ++ (item.traitFor? name).toList := by
  cases item with
  | enum decl =>
    rw [withItem]
    split <;> simp [withMapping, Item.traitFor?]
  | impl decl =>
    rw [withItem, Item.traitFor?]
    by_cases target : decl.target.name? = some name.spelling
    · rw [if_pos (beq_iff_eq.mpr target), if_pos target, withImpl]
      cases decl.trait with
      | none =>
        -- Members of the type's own are noted as coders, which are no traits.
        obtain ⟨_, _, same⟩ := exists_foldl_withMember decl.members existing
        simp [same]
      | some written => simp [conformances_withTrait]
    · rw [if_neg (fun same => target (beq_iff_eq.mp same)), if_neg target]
      simp
  | _ => simp [withItem, Item.traitFor?]

/-- Declarations add the traits that they implement, in their order. -/
theorem conformances_foldl_withItem :
    (items.foldl (withItem name) existing).conformances =
      existing.conformances ++ items.filterMap (·.traitFor? name) := by
  -- The names grow at their end, one declaration after the other.
  induction items generalizing existing with
  | nil => simp
  | cons item rest ih =>
    rw [List.foldl_cons, ih, conformances_withItem, List.filterMap_cons]
    cases item.traitFor? name <;> simp

end ExistingMembers

namespace Record

variable {item : Item} {record : Record}

/--
What is noted of the declarations next to a struct is exactly what they provide: a key mapping, a
decoder, an encoder, and the traits of all impls for the struct, in their order.
-/
structure Detects (record : Record) (items : List Item) : Prop where
  keyMapping : record.existing.keyMapping.isSome = true ↔
    (∃ attr ∈ record.head.attributes, attr.path.lastName? = some KeyMapping.attributeName) ∨
      ∃ item ∈ items, item.KeyEnum record.name ∨ item.ImplFor record.name "KeyMapped"
  decoder : record.existing.decoder = true ↔
    ∃ item ∈ items, item.ImplFor record.name "Decodable" ∨ item.OwnCoder record.name "Decoder"
  encoder : record.existing.encoder = true ↔
    ∃ item ∈ items, item.ImplFor record.name "Encodable" ∨ item.OwnCoder record.name "Encoder"
  conformances : record.existing.conformances = items.filterMap (·.traitFor? record.name)

/-- What is noted of a record is what stands next to its struct. -/
theorem detects (found : item.asRecord = .ok record) :
    record.Detects (record.container.around []) := by
  -- Both directions of coding are noted in the same way.
  have coded (direction : Direction) : record.existing.codes direction = true ↔
      ∃ other ∈ record.container.around [], other.ImplFor record.name direction.trait ∨
        other.OwnCoder record.name direction.coder := by
    simp only [codes_existing found direction, ← Item.implements_or_standsIn_iff, Bool.or_eq_true,
      List.any_eq_true]
    rw [← exists_or]
    simp only [and_or_left]
  refine ⟨?_, coded .decoding, coded .encoding, ?_⟩
  · have mapped := (carriesMapping_iff found).symm
    rw [← Option.isSome_iff_exists, CarriesMapping] at mapped
    simpa only [Item.mapsKeys_eq_true_iff] using mapped
  · -- The attributes of the struct implement nothing.
    rw [(Item.asRecord_eq_ok_iff.mp found).1, existingAmong,
      ExistingMembers.conformances_foldl_withItem]
    rfl

/--
Two records have the same struct, and the same is noted of them up to the order of the traits and
the place of a mapping.
-/
structure SameMembers (record other : Record) : Prop where
  decl : other.decl = record.decl
  keyMapping : other.existing.keyMapping.isSome = record.existing.keyMapping.isSome
  decoder : other.existing.decoder = record.existing.decoder
  encoder : other.existing.encoder = record.existing.encoder
  conformances : other.existing.conformances.Perm record.existing.conformances

/-- What is noted does not depend on the order of the declarations. -/
theorem Detects.sameMembers {other : Record} {items others : List Item}
    (here : record.Detects items) (there : other.Detects others) (perm : items.Perm others)
    (decl : other.decl = record.decl) : record.SameMembers other := by
  have head : other.head = record.head := congrArg Struct.head decl
  have name : other.name = record.name := congrArg TypeHead.name head
  -- Each of the notes asks for some declaration, no matter which place it has.
  refine ⟨decl, ?_, ?_, ?_, ?_⟩
  · rw [Bool.eq_iff_iff, here.keyMapping, there.keyMapping, head, name]
    simp only [perm.mem_iff]
  · rw [Bool.eq_iff_iff, here.decoder, there.decoder, name]
    simp only [perm.mem_iff]
  · rw [Bool.eq_iff_iff, here.encoder, there.encoder, name]
    simp only [perm.mem_iff]
  · rw [here.conformances, there.conformances, name]
    exact (perm.filterMap _).symm

end Record

namespace Module

variable {attributes : List Attribute} {head : List Token} {name : Name} {items others : List Item}
  {record : Record}

/-- The structs are listed in their order. -/
theorem map_snd_structsFrom (start : Nat) (items : List Item) :
    (structsFrom start items).map (·.2) = items.filterMap Item.struct? := by
  -- The numbers go up with the list, and they are dropped again.
  induction items generalizing start with
  | nil => rfl
  | cons item rest ih =>
    cases item with
    | struct decl => exact congrArg (decl :: ·) (ih (start + 1))
    | _ => exact ih (start + 1)

/-- A module is a record exactly if its only struct is that of the record. -/
theorem asRecord_mod_eq_ok_iff :
    (Item.mod ⟨attributes, head, name, some items⟩).asRecord = .ok record ↔
      record.existing = Record.existingAmong record.head items ∧
        ∃ index, record.container = .module ⟨attributes, head, name, some items⟩ index ∧
          structsFrom 0 items = [(index, record.decl)] := by
  rw [Item.asRecord_eq_ok_iff]
  -- The struct is found in the module at its own index.
  constructor
  · rintro ⟨provided, ⟨⟨⟩, -⟩ | ⟨_, _, _, _, index, ⟨⟩, inside, only⟩⟩
    rw [inside, Container.around] at provided
    exact ⟨by simpa using provided, index, inside, only⟩
  · rintro ⟨provided, index, inside, only⟩
    refine ⟨?_, .inr ⟨_, _, _, _, index, rfl, inside, only⟩⟩
    simp [inside, Container.around, provided]

/-- A module holds the record of a struct exactly if that is its only struct. -/
theorem exists_asRecord_mod_iff {struct : TypeHead} {fields : List Field} {trailing : Bool} :
    (∃ record, (Item.mod ⟨attributes, head, name, some items⟩).asRecord = .ok record ∧
        record.decl = ⟨struct, .named fields trailing⟩) ↔
      items.filterMap Item.struct? = [⟨struct, .named fields trailing⟩] := by
  rw [← map_snd_structsFrom 0, List.map_eq_singleton_iff]
  -- The structs that are listed with their index are the structs among the declarations.
  constructor
  · rintro ⟨record, found, same⟩
    obtain ⟨-, index, -, only⟩ := asRecord_mod_eq_ok_iff.mp found
    exact ⟨_, only, same⟩
  · rintro ⟨⟨index, decl⟩, only, rfl⟩
    -- The record is made of the struct, and of what is noted among the declarations.
    let record : Record := ⟨struct, fields, trailing,
      .module ⟨attributes, head, name, some items⟩ index, Record.existingAmong struct items⟩
    exact ⟨record, asRecord_mod_eq_ok_iff.mpr ⟨rfl, index, rfl, only⟩, rfl⟩

/-- What stands next to the struct of a module is noted exactly. -/
theorem detects (found : (Item.mod ⟨attributes, head, name, some items⟩).asRecord = .ok record) :
    record.Detects items := by
  -- What stands around the struct of a module are all of its declarations.
  have detected := Record.detects found
  obtain ⟨-, index, inside, -⟩ := asRecord_mod_eq_ok_iff.mp found
  rw [inside, Container.around] at detected
  simpa using detected

/-- The declarations of a module that is a record may be put in another order. -/
theorem exists_asRecord_of_perm
    (found : (Item.mod ⟨attributes, head, name, some items⟩).asRecord = .ok record)
    (perm : items.Perm others) :
    ∃ moved, (Item.mod ⟨attributes, head, name, some others⟩).asRecord = .ok moved ∧
      record.SameMembers moved := by
  -- A list of one struct has only one order.
  have only := exists_asRecord_mod_iff.mp ⟨record, found, rfl⟩
  have moved := perm.filterMap Item.struct?
  rw [only, List.singleton_perm] at moved
  obtain ⟨other, again, decl⟩ := exists_asRecord_mod_iff.mpr moved.symm
  exact ⟨other, again, (detects found).sameMembers (detects again) perm decl⟩

/--
A module with a body is inspected exactly: it is a record if its only struct has named fields, what
stands next to that struct is noted as it is, and the order of the declarations is of no matter.
-/
structure InspectsExactly (attributes : List Attribute) (head : List Token) (name : Name)
    (items : List Item) : Prop where
  classified : (∃ record, (Item.mod ⟨attributes, head, name, some items⟩).asRecord = .ok record) ↔
    ∃ struct fields trailing,
      items.filterMap Item.struct? = [⟨struct, .named fields trailing⟩]
  detected : ∀ record, (Item.mod ⟨attributes, head, name, some items⟩).asRecord = .ok record →
    items.filterMap Item.struct? = [record.decl] ∧ record.Detects items
  ordered : ∀ record, (Item.mod ⟨attributes, head, name, some items⟩).asRecord = .ok record →
    ∀ others, items.Perm others →
      ∃ moved, (Item.mod ⟨attributes, head, name, some others⟩).asRecord = .ok moved ∧
        record.SameMembers moved

/-- Every module with a body is inspected exactly. -/
theorem asRecord_exact (attributes : List Attribute) (head : List Token) (name : Name)
    (items : List Item) : InspectsExactly attributes head name items where
  -- There is a record exactly if the module has one struct, and that has named fields.
  classified := by
    constructor
    · rintro ⟨record, found⟩
      exact ⟨_, _, _, exists_asRecord_mod_iff.mp ⟨record, found, rfl⟩⟩
    · rintro ⟨struct, fields, trailing, only⟩
      obtain ⟨record, found, -⟩ := exists_asRecord_mod_iff.mpr only
      exact ⟨record, found⟩
  detected := by
    intro record found
    exact ⟨exists_asRecord_mod_iff.mp ⟨record, found, rfl⟩, detects found⟩
  ordered := by
    intro record found others perm
    exact exists_asRecord_of_perm found perm

/--
Declarations of a module: a struct between an impl of the decoding trait, an impl of its own that
takes an encoder, and an impl of another trait.
-/
def ledger : List Item :=
  let target : Target := ⟨⟨"Ledger", .origin⟩, .empty⟩
  let named (name : String) : Path := .ofName ⟨name, .origin⟩
  [target.implement (some (named "Decodable")) [],
   .struct ⟨⟨[], [], .origin, target.name, .empty⟩,
    .named [⟨[], [], ⟨"total", .origin⟩, .path (named "u64")⟩] false⟩,
   target.implement none [⟨[], some [.reference none true (.path (named "Encoder"))]⟩],
   target.implement (some (named "Marker")) []]

/-- The struct of these declarations is a record that is coded both ways, in any order of them. -/
theorem asRecord_ledger : ∃ record,
    (Item.mod ⟨[], [], ⟨"books", .origin⟩, some ledger⟩).asRecord = .ok record ∧
      record.Detects ledger ∧ record.existing.keyMapping.isSome = false ∧
        record.existing.decoder = true ∧ record.existing.encoder = true ∧
          record.existing.conformances = ["Decodable", "Marker"] ∧
            ∃ moved, (Item.mod ⟨[], [], ⟨"books", .origin⟩, some ledger.reverse⟩).asRecord =
              .ok moved ∧ record.SameMembers moved := by
  -- The record is computed once, and what is found next to it is read off.
  obtain ⟨record, found, notes⟩ : ∃ record,
      (Item.mod ⟨[], [], ⟨"books", .origin⟩, some ledger⟩).asRecord = .ok record ∧
        record.existing.keyMapping.isSome = false ∧ record.existing.decoder = true ∧
          record.existing.encoder = true ∧
            record.existing.conformances = ["Decodable", "Marker"] :=
    ⟨_, rfl, rfl, rfl, rfl, rfl⟩
  have exact := asRecord_exact [] [] ⟨"books", .origin⟩ ledger
  obtain ⟨mapping, decoder, encoder, conformances⟩ := notes
  exact ⟨record, found, (exact.detected record found).2, mapping, decoder, encoder, conformances,
    exact.ordered record found _ (List.reverse_perm ledger).symm⟩

end Module

end KeyedCoding
