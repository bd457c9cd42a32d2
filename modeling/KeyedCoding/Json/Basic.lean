/-! JSON values; an object lists its entries in the order of their keys, each key once. -/

namespace KeyedCoding

/-- A JSON value. Numbers without fraction and exponent are whole as far as 64 bits go. -/
inductive Json where
  | null
  | bool (value : Bool)
  | int (value : Int)
  | float (value : Float)
  | string (value : String)
  | array (items : List Json)
  | object (entries : List (String × Json))
  deriving Inhabited

namespace Json

/-- The entries of an object. -/
abbrev Entries := List (String × Json)

namespace Entries

/-- The value under a key. -/
def get? (entries : Entries) (key : String) : Option Json := List.lookup key entries

/-- Puts a value under a key, in place of an earlier one, and keeps the keys in order. -/
def insert (entries : Entries) (key : String) (value : Json) : Entries :=
  match entries with
  | [] => [(key, value)]
  | (head, old) :: rest =>
    if key = head then (key, value) :: rest
    else if key < head then (key, value) :: (head, old) :: rest
    else (head, old) :: insert rest key value

/-- The entries of a list, of which a later one replaces an earlier one. -/
def ofList (pairs : List (String × Json)) : Entries :=
  pairs.foldl (fun entries pair => entries.insert pair.1 pair.2) []

end Entries

/-- What a value is, in words. -/
def kindName : Json → String
  | null => "null"
  | bool _ => "a boolean"
  | int _ => "a number"
  | float _ => "a number"
  | string _ => "a string"
  | array _ => "an array"
  | object _ => "an object"

/-- The entries of an object. -/
def entries? : Json → Option Entries
  | object entries => some entries
  | _ => none

/-- The value under a key of an object. -/
def field? (value : Json) (key : String) : Option Json := value.entries?.bind (Entries.get? · key)

/-- The text of a string value. -/
def text? : Json → Option String
  | string text => some text
  | _ => none

/-- An object with the given entries. -/
def ofPairs (pairs : List (String × Json)) : Json := object (Entries.ofList pairs)

end Json

end KeyedCoding
