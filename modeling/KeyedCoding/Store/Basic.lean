import KeyedCoding.Text.Quoted
import KeyedCoding.Text.Utf8

/-! Stores for secrets: values of three kinds under keys, and the requests that a store serves. -/

namespace KeyedCoding

/-- A value in a store. -/
inductive StoredValue where
  | text (value : String)
  | flag (value : Bool)
  | data (bytes : List UInt8)
  deriving DecidableEq, Repr

namespace StoredValue

/-- The value as a text: bytes read as a text if they are one. -/
def text? : StoredValue → Option String
  | text value => some value
  | flag _ => none
  | data bytes => Text.Utf8.decode? bytes

/-- The value as a flag. -/
def flag? : StoredValue → Option Bool
  | flag value => some value
  | _ => none

/-- The value as bytes: a text reads as its bytes. -/
def bytes? : StoredValue → Option (List UInt8)
  | text value => some (Text.Utf8.encode value)
  | flag _ => none
  | data bytes => some bytes

/-- The value with its kind, in words. -/
def display : StoredValue → String
  | text value => "String(" ++ Text.Quoted.displayed value ++ ")"
  | flag value => "Bool(" ++ toString value ++ ")"
  | data bytes =>
    "Data([" ++ String.intercalate ", " (bytes.map fun byte => toString byte.toNat) ++ "])"

end StoredValue

/-- A store: each key holds one value at most. -/
structure Store where
  entries : List (String × StoredValue) := []
  deriving Repr

namespace Store

/-- The value under a key. -/
def get? (store : Store) (key : String) : Option StoredValue := store.entries.lookup key

/-- Whether a key holds a value. -/
def contains (store : Store) (key : String) : Bool := (store.get? key).isSome

/-- The store without a key. -/
def erase (store : Store) (key : String) : Store :=
  ⟨store.entries.filter fun entry => entry.1 != key⟩

/-- The store with a value under a key, in place of an earlier one. -/
def insert (store : Store) (key : String) (value : StoredValue) : Store :=
  ⟨(key, value) :: (store.erase key).entries⟩

/-- The number of keys that hold values. -/
def size (store : Store) : Nat := store.entries.length

/-- Whether no key holds a value. -/
def isEmpty (store : Store) : Bool := store.size == 0

/-- What is asked of a store. -/
inductive Request where
  | getText (key : String)
  | getFlag (key : String)
  | getData (key : String)
  | set (key : String) (value : StoredValue)
  | delete (key : String)
  | size
  deriving DecidableEq, Repr

/-- What a store answers. -/
inductive Reply where
  | text (value : Option String)
  | flag (value : Option Bool)
  | data (bytes : Option (List UInt8))
  | done (success : Bool)
  | size (count : Nat)
  deriving DecidableEq, Repr

namespace Request

/-- The request in words: what is done, under which key, with which value. -/
def display : Request → String
  | getText key => "get " ++ key
  | getFlag key => "get_bool " ++ key
  | getData key => "get_data " ++ key
  | set key value => "set " ++ key ++ " " ++ value.display
  | delete key => "delete " ++ key
  | size => "len"

end Request

/-- The answer to a request. A deletion succeeds if the key held a value. -/
def reply (store : Store) : Request → Reply
  | .getText key => .text ((store.get? key).bind StoredValue.text?)
  | .getFlag key => .flag ((store.get? key).bind StoredValue.flag?)
  | .getData key => .data ((store.get? key).bind StoredValue.bytes?)
  | .set _ _ => .done true
  | .delete key => .done (store.contains key)
  | .size => .size store.size

/-- The store after a request. -/
def after (store : Store) : Request → Store
  | .set key value => store.insert key value
  | .delete key => store.erase key
  | _ => store

/-- The answers to requests in a row, and the store after them. -/
def serve (store : Store) : List Request → List Reply × Store
  | [] => ([], store)
  | request :: rest =>
    let (replies, final) := serve (store.after request) rest
    (store.reply request :: replies, final)

end Store

end KeyedCoding
