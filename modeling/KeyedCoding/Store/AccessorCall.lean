import KeyedCoding.Store.Accessor
import Mathlib.Logic.Function.Basic

/-! Calls of accessors in a row: each makes one request of the store that its accessor uses. -/

namespace KeyedCoding

variable {ι : Type} {α : ι → Type}

/-- A call of the getter or the setter of one of several accessors. -/
inductive AccessorCall (accessors : (i : ι) → Accessor (α i)) where
  | get (i : ι)
  | set (i : ι) (value : Option (accessors i).Value)

namespace AccessorCall

/-- What a call gives back: a getter the value, a setter nothing. -/
inductive Answer (accessors : (i : ι) → Accessor (α i)) where
  | value (i : ι) (value : Option (accessors i).Value)
  | done

/-- What has come of a call: which store was asked, what was asked, and what was given back. -/
structure Event (σ : Type) (accessors : (i : ι) → Accessor (α i)) where
  place : σ
  request : Store.Request
  answer : Answer accessors

variable {σ : Type} {accessors : (i : ι) → Accessor (α i)}

/-- The accessor that is called. -/
def index : AccessorCall accessors → ι
  | get i => i
  | set i _ => i

/-- The request that a call makes. -/
def request : AccessorCall accessors → Store.Request
  | get i => (accessors i).read
  | set i value => (accessors i).write value

/-- What a call makes of the reply to its request. -/
def answer : AccessorCall accessors → Store.Reply → Answer accessors
  | get i, reply => .value i ((accessors i).getter.value? (accessors i).format reply)
  | set _ _, _ => .done

/-- Makes calls one after the other, each on the store at the place of its accessor. -/
def run [DecidableEq σ] (places : ι → σ) (stores : σ → Store) :
    List (AccessorCall accessors) → List (Event σ accessors)
  | [] => []
  | call :: rest =>
    let place := places call.index
    ⟨place, call.request, call.answer ((stores place).reply call.request)⟩ ::
      run places (Function.update stores place ((stores place).after call.request)) rest

end AccessorCall

end KeyedCoding
