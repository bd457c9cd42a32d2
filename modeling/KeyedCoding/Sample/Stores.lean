import KeyedCoding.Sample.Records
import KeyedCoding.Store.Accessor

/-! The stores behind the sample records: a session has one of its own, and logins share another. -/

namespace KeyedCoding

/-- The counts that sample records keep as texts have 32 bits. -/
def Sample.counts : TextFormat Nat := .count 0x100000000

/-- The contents of the stores. -/
structure SampleStores where
  session : Store := {}
  shared : Store := {}

namespace SampleStores

/-- Where the value of a field is: in the session's own store or not, and under which accessor. -/
structure Place where
  own : Bool
  accessor : Accessor Nat

/-- The place of the field with a name. -/
def place? (name : String) : Option Place :=
  let found (sample : Sample) (own : Bool) : Option Place :=
    (sample.record?.bind (·.secured? name)).map fun field => ⟨own, field.accessor Sample.counts⟩
  found Sample.session true <|> found Sample.login false

/-- The value of a field. -/
def get (stores : SampleStores) (place : Place) : Option place.accessor.Value :=
  place.accessor.get (if place.own then stores.session else stores.shared)

/-- The stores after setting a field. -/
def set (stores : SampleStores) (place : Place) (value : Option place.accessor.Value) :
    SampleStores :=
  if place.own then { stores with session := place.accessor.set stores.session value }
  else { stores with shared := place.accessor.set stores.shared value }

end SampleStores

end KeyedCoding
