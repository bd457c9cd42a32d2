/-! TOML values, and the rules by which keys and headers build up tables. -/

namespace KeyedCoding

/-- How a table came to be. -/
inductive TableOrigin where
  | header
  | impliedByHeader
  | dottedKey
  deriving DecidableEq, Repr

/-- A TOML value. Tables that a document lists under one header form an array of tables. -/
inductive Toml where
  | text (value : String)
  | integer (value : Int)
  | float
  | bool (value : Bool)
  | time
  | array (items : List Toml)
  | inlineTable (entries : List (String × Toml))
  | table (origin : TableOrigin) (entries : List (String × Toml))
  | tables (items : List (List (String × Toml)))
  deriving Inhabited

namespace Toml

/-- The entries of a table. -/
abbrev Entries := List (String × Toml)

namespace Entries

/-- The value under a key. -/
def get? (entries : Entries) (key : String) : Option Toml := List.lookup key entries

/-- Puts a value under a key, in place of an earlier one. -/
def put (entries : Entries) (key : String) (value : Toml) : Entries :=
  match entries with
  | [] => [(key, value)]
  | (head, old) :: rest =>
    if head = key then (key, value) :: rest else (head, old) :: put rest key value

/-- Adds a value under a new key. -/
def add? (entries : Entries) (key : String) (value : Toml) : Option Entries :=
  match entries.get? key with
  | some _ => none
  | none => some (entries.put key value)

/-- Changes the last of some tables. -/
def changeLast (change : Entries → Option Entries) : List Entries → Option (List Entries)
  | [] => none
  | [last] => do return [← change last]
  | first :: rest => do return first :: (← changeLast change rest)

/-- Changes the table at a path of headers; tables on the way that do not exist are implied. -/
def changeAt (change : Entries → Option Entries) : List String → Entries → Option Entries
  | [], entries => change entries
  | key :: path, entries => do
    match entries.get? key with
    -- The table is marked as implied, so that a header of its own may still open it.
    | none => return entries.put key (.table .impliedByHeader (← changeAt change path []))
    | some (.table origin inner) =>
      return entries.put key (.table origin (← changeAt change path inner))
    -- Behind a list of tables, a header speaks of the last one.
    | some (.tables items) =>
      return entries.put key (.tables (← changeLast (changeAt change path) items))
    | some _ => none

/-- Adds a value under a dotted key: only tables of dotted keys may be on the way, and at its end. -/
def addDotted (key : String) (value : Toml) : List String → Entries → Option Entries
  | [], entries => entries.add? key value
  | part :: path, entries => do
    match entries.get? part with
    | none => return entries.put part (.table .dottedKey (← addDotted key value path []))
    | some (.table .dottedKey inner) =>
      return entries.put part (.table .dottedKey (← addDotted key value path inner))
    | some (.table .impliedByHeader inner) =>
      -- A header may have implied the table if a dotted key made the next one.
      if path.isEmpty then none
      else return entries.put part (.table .impliedByHeader (← addDotted key value path inner))
    | some (.tables items) =>
      if path.isEmpty then none
      else return entries.put part (.tables (← changeLast (addDotted key value path) items))
    | some _ => none

/-- Opens the table of a header; only a table that headers implied may exist. -/
def openTable (key : String) (entries : Entries) : Option Entries :=
  match entries.get? key with
  | none => some (entries.put key (.table .header []))
  | some (.table .impliedByHeader inner) => some (entries.put key (.table .header inner))
  | some _ => none

/-- Opens one more table of an array of tables. -/
def openItem (key : String) (entries : Entries) : Option Entries :=
  match entries.get? key with
  | none => some (entries.put key (.tables [[]]))
  | some (.tables items) => some (entries.put key (.tables (items ++ [[]])))
  | some _ => none

end Entries

/-- The entries of a table of any kind. -/
def entries? : Toml → Option Entries
  | inlineTable entries => some entries
  | table _ entries => some entries
  | _ => none

end Toml

end KeyedCoding
