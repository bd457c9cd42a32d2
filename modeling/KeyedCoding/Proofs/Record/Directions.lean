import KeyedCoding.Proofs.Record.Surroundings

/-!
Directions of coding: what next to a struct is taken for its decoder or its encoder, be it an impl of
the trait or something that only stands in for one.
-/

namespace KeyedCoding

/-- The two directions of coding. -/
inductive Direction where
  | decoding
  | encoding

namespace Direction

/-- The name of the trait of types that are coded in a direction. -/
def trait : Direction → String
  | decoding => "Decodable"
  | encoding => "Encodable"

/-- The name of what a function takes that codes in a direction. -/
def coder : Direction → String
  | decoding => "Decoder"
  | encoding => "Encoder"

/-- The traits of the two directions have different names. -/
theorem trait_inj {one other : Direction} (same : one.trait = other.trait) : one = other := by
  -- There are two directions, whose traits are spelled differently.
  cases one <;> cases other <;> simp_all [trait]

/-- The marker has a name of its own. -/
theorem trait_ne_marker (direction : Direction) : direction.trait ≠ "Codable" := by
  -- Neither of the two traits is spelled as the marker is.
  cases direction <;> simp [trait]

end Direction

/-- Whether a member is a function whose only parameter is what a direction of coding takes. -/
def Member.codes (direction : Direction) (member : Member) : Bool :=
  match member.params with
  | some [ty] => ExistingMembers.paramName? ty == some direction.coder
  | _ => false

namespace Item

/-- Whether a declaration is an impl of the trait of a direction for a type. -/
def implements (name : Name) (direction : Direction) : Item → Bool
  | .impl decl => decl.target.name? == some name.spelling && match decl.trait with
    | some ⟨false, path⟩ => path.lastName? == some direction.trait
    | _ => false
  | _ => false

/--
Whether a declaration is taken for coding in a direction without being an impl of its trait: it
refuses the trait, or is an impl of the type's own with a function that takes a decoder or an
encoder.
-/
def standsIn (name : Name) (direction : Direction) : Item → Bool
  | .impl decl => decl.target.name? == some name.spelling && match decl.trait with
    | some ⟨true, path⟩ => path.lastName? == some direction.trait
    | some ⟨false, _⟩ => false
    | none => decl.members.any (·.codes direction)
  | _ => false

/-- An impl that is generated for a type implements the direction whose trait it names. -/
theorem implements_implement (name : Name) (direction : Direction) (generics : Generics)
    (path : Path) (members : List Member) :
    (Target.implement ⟨name, generics⟩ (some path) members).implements name direction =
      (path.lastName? == some direction.trait) := by
  -- The impl is for the type of that name, so only the trait is left to compare.
  simp [implements, Target.implement]

end Item

namespace ExistingMembers

variable {existing : ExistingMembers} {name : Name} {item : Item} {items : List Item}
  {direction : Direction}

/-- Whether a type is taken to be coded in a direction. -/
def codes (existing : ExistingMembers) : Direction → Bool
  | .decoding => existing.decoder
  | .encoding => existing.encoder

/-- A member adds the direction that it codes. -/
theorem codes_withMember {member : Member} :
    (existing.withMember member).codes direction =
      (existing.codes direction || member.codes direction) := by
  -- Only a function of one parameter is looked at.
  rcases params : member.params with _ | (_ | ⟨ty, _ | ⟨next, rest⟩⟩)
  · simp [withMember, Member.codes, params]
  · simp [withMember, Member.codes, params]
  · -- It codes by the name of what it takes.
    rw [withMember, Member.codes, params]
    dsimp only
    split
    · rename_i decoder
      cases direction <;> simp [codes, Direction.coder, decoder]
    · rename_i encoder
      cases direction <;> simp [codes, Direction.coder, encoder]
    · rename_i notDecoder notEncoder
      have neither : paramName? ty ≠ some direction.coder := by
        cases direction with
        | decoding => exact notDecoder
        | encoding => exact notEncoder
      simp [neither]
  · simp [withMember, Member.codes, params]

/-- Members add the directions that any of them codes. -/
theorem codes_foldl_withMember {members : List Member} :
    (members.foldl withMember existing).codes direction =
      (existing.codes direction || members.any (·.codes direction)) := by
  -- What is coded before the members is left open, as each of them may add to it.
  induction members generalizing existing with
  | nil => simp
  | cons member rest ih =>
    rw [List.foldl_cons, ih, codes_withMember, List.any_cons, Bool.or_assoc]

/-- A trait adds its own direction, whether it is implemented or refused. -/
theorem codes_withTrait {path : Path} :
    (existing.withTrait path).codes direction =
      (existing.codes direction || path.lastName? == some direction.trait) := by
  rw [withTrait]
  cases path.lastName? with
  | none => simp
  | some last =>
    -- The list of names that grows with every trait says nothing about coding.
    have noted (other : ExistingMembers) (names : List String) :
        ({ other with conformances := names } : ExistingMembers).codes direction =
          other.codes direction := by
      cases direction <;> rfl
    dsimp only
    rw [noted]
    split
    · cases direction <;> simp [codes, withMapping, Direction.trait]
    · cases direction <;> simp [codes, Direction.trait]
    · cases direction <;> simp [codes, Direction.trait]
    · rename_i notDecodable notEncodable
      have neither : last ≠ direction.trait := by
        cases direction with
        | decoding => exact notDecodable
        | encoding => exact notEncodable
      simp [neither]

/-- A declaration adds a direction by implementing its trait or by standing in for that. -/
theorem codes_withItem :
    (withItem name existing item).codes direction =
      (existing.codes direction ||
        (item.implements name direction || item.standsIn name direction)) := by
  cases item with
  | impl decl =>
    rw [withItem, Item.implements, Item.standsIn]
    cases own : decl.target.name? == some name.spelling with
    | false => simp
    | true =>
      -- An impl for the type has a trait, or members of the type's own.
      rw [if_pos rfl, withImpl]
      cases decl.trait with
      | none => simp [codes_foldl_withMember]
      | some trait =>
        obtain ⟨negative, path⟩ := trait
        cases negative <;> simp [codes_withTrait]
  | enum decl =>
    -- An enum may be a mapping, which codes in no direction.
    have same : (withItem name existing (.enum decl)).codes direction =
        existing.codes direction := by
      rw [withItem]
      split
      · cases direction <;> rfl
      · rfl
    simp [same, Item.implements, Item.standsIn]
  | _ => simp [withItem, Item.implements, Item.standsIn]

/-- Declarations add the directions that any of them implements or stands in for. -/
theorem codes_foldl_withItem :
    (items.foldl (withItem name) existing).codes direction =
      (existing.codes direction ||
        items.any fun item => item.implements name direction || item.standsIn name direction) := by
  -- What is coded before the declarations is left open, as each of them may add to it.
  induction items generalizing existing with
  | nil => simp
  | cons item rest ih =>
    rw [List.foldl_cons, ih, codes_withItem, List.any_cons, Bool.or_assoc]

end ExistingMembers

/-- A record is taken to be coded in a direction by what stands next to its struct. -/
theorem Record.codes_existing {item : Item} {record : Record} (found : item.asRecord = .ok record)
    (direction : Direction) :
    record.existing.codes direction =
      ((record.container.around []).any (·.implements record.name direction) ||
        (record.container.around []).any (·.standsIn record.name direction)) := by
  rw [(Item.asRecord_eq_ok_iff.mp found).1, existingAmong, ExistingMembers.codes_foldl_withItem]
  -- The attributes of the struct say nothing about coding.
  have silent : (ExistingMembers.ofAttributes record.head.attributes).codes direction = false := by
    cases direction <;> rfl
  rw [silent, Bool.false_or, Record.name]
  induction record.container.around [] with
  | nil => rfl
  | cons other rest ih =>
    simp only [List.any_cons, ih]
    ac_rfl

end KeyedCoding
