import KeyedCoding.Tree.Item

/-! Taking an attribute off a declaration. -/

namespace KeyedCoding

namespace Attribute

/-- The tokens of the list that an attribute holds. -/
def arguments (attr : Attribute) : List Token :=
  match attr.inside.content with
  | .list _ body _ _ => body
  | _ => []

/-- Takes the first attribute whose path ends in a name off a list. -/
def detach? (name : String) : List Attribute → Option (Attribute × List Attribute)
  | [] => none
  | attr :: rest =>
    if attr.path.lastName? == some name then some (attr, rest)
    else (detach? name rest).map fun found => (found.1, attr :: found.2)

end Attribute

namespace Struct

/-- Takes an attribute off a struct. -/
def detach? (name : String) (decl : Struct) : Option (Attribute × Struct) :=
  (Attribute.detach? name decl.head.attributes).map fun found =>
    (found.1, { decl with head := { decl.head with attributes := found.2 } })

end Struct

namespace Item

/-- Takes an attribute off the first struct of a list that has it. -/
def detachFirst? (name : String) : List Item → Option (Attribute × List Item)
  | [] => none
  | item :: rest =>
    -- Only structs are looked at, and everything else stays in its place.
    let here := match item with
      | .struct decl => decl.detach? name
      | _ => none
    match here with
    | some (attr, decl) => some (attr, .struct decl :: rest)
    | none => (detachFirst? name rest).map fun found => (found.1, item :: found.2)

/-- Takes an attribute off a struct, or off the first struct of a module that has it. -/
def detach? (name : String) : Item → Option (Attribute × Item)
  | .struct decl => (decl.detach? name).map fun found => (found.1, .struct found.2)
  | .mod ⟨attributes, head, own, some items⟩ =>
    (detachFirst? name items).map fun found =>
      (found.1, .mod ⟨attributes, head, own, some found.2⟩)
  | _ => none

end Item

end KeyedCoding
