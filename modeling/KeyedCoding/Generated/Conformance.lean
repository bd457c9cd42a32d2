import KeyedCoding.Grammar.Quoted
import KeyedCoding.Record.Basic

/-! Conformances: empty impls of requested traits, in the requested order. -/

namespace KeyedCoding

/-- A type and the traits to implement for it. -/
structure Conformance where
  target : Target
  traits : List Path

namespace Conformance

/-- The conformance of a record to requested traits; none if nothing is requested. -/
def ofRequest? (record : Record) (requested : List Path) : Option Conformance :=
  if requested.isEmpty then none else some ⟨record.target, requested⟩

/-- The conformance with other generics. -/
def withGenerics (conformance : Conformance) (generics : Generics) : Conformance :=
  { conformance with target := ⟨conformance.target.name, generics⟩ }

/-- Whether an impl can name every trait. -/
def fits (conformance : Conformance) : Bool := conformance.traits.all Path.fitsType

/-- One empty impl for each trait. -/
def declarations (conformance : Conformance) : Synthesis (List Item) :=
  if conformance.fits then
    .ok (conformance.traits.map fun trait => conformance.target.implement (some trait) [])
  else .error .unspliceable

/-- Whether a record implements a trait already; the last name of the path decides. -/
def isImplemented (record : Record) (trait : Path) : Bool :=
  (trait.lastName?.map record.existing.conformances.contains).getD false

/-- The requested traits that a record does not implement yet. -/
def missing (record : Record) (requested : List Path) : List Path :=
  requested.filter fun trait => !isImplemented record trait

end Conformance

end KeyedCoding
