import KeyedCoding.Bounds
import Mathlib.Logic.Relation

/-!
Occurrences in types: what stands inside a type at any depth, and that the names which are collected
from a type are those that are used there.
-/

namespace KeyedCoding

/-- A part of a type, of any syntactic kind. -/
inductive Part where
  | type (ty : Ty)
  | path (path : Path)
  | segment (segment : Segment)
  | arguments (arguments : Arguments)
  | argument (arg : GenericArg)
  | bound (bound : Bound)
  | value (value : Snippet)

namespace Part

/-- A part stands in another one with nothing in between: one case for each place in the syntax. -/
inductive StandsIn : Part → Part → Prop
  | path {path : Path} : StandsIn (.path path) (.type (.path path))
  | source {pos : Position} {source : Ty} {base : Option Path} {rest : List Segment} :
      StandsIn (.type source) (.type (.projection pos source base rest))
  | base {pos : Position} {source : Ty} {base : Path} {rest : List Segment} :
      StandsIn (.path base) (.type (.projection pos source (some base) rest))
  | rest {pos : Position} {source : Ty} {base : Option Path} {rest : List Segment}
      {segment : Segment} (inside : segment ∈ rest) :
      StandsIn (.segment segment) (.type (.projection pos source base rest))
  | tuple {elems : List Ty} {trailing : Bool} {elem : Ty} (inside : elem ∈ elems) :
      StandsIn (.type elem) (.type (.tuple elems trailing))
  | paren {inner : Ty} : StandsIn (.type inner) (.type (.paren inner))
  | group {inner : Ty} : StandsIn (.type inner) (.type (.group inner))
  | array {elem : Ty} {length : Snippet} : StandsIn (.type elem) (.type (.array elem length))
  | length {elem : Ty} {length : Snippet} : StandsIn (.value length) (.type (.array elem length))
  | slice {elem : Ty} : StandsIn (.type elem) (.type (.slice elem))
  | reference {lifetime : Option String} {mutable : Bool} {target : Ty} :
      StandsIn (.type target) (.type (.reference lifetime mutable target))
  | pointer {mutable : Bool} {target : Ty} :
      StandsIn (.type target) (.type (.pointer mutable target))
  | input {head : List Token} {inputs : List (List Token × Ty)} {trailing : Bool}
      {variadic : List Token} {output : Option Ty} {label : List Token} {ty : Ty}
      (inside : (label, ty) ∈ inputs) :
      StandsIn (.type ty) (.type (.function head inputs trailing variadic output))
  | output {head : List Token} {inputs : List (List Token × Ty)} {trailing : Bool}
      {variadic : List Token} {ty : Ty} :
      StandsIn (.type ty) (.type (.function head inputs trailing variadic (some ty)))
  | bounds {keyword : BoundsKeyword} {bounds : List Bound} {trailing : Bool} {bound : Bound}
      (inside : bound ∈ bounds) :
      StandsIn (.bound bound) (.type (.bounds keyword bounds trailing))
  | segment {leading : Option Position} {segments : List Segment} {segment : Segment}
      (inside : segment ∈ segments) : StandsIn (.segment segment) (.path ⟨leading, segments⟩)
  | arguments {name : Name} {arguments : Arguments} :
      StandsIn (.arguments arguments) (.segment ⟨name, arguments⟩)
  | argument {turbofish : Bool} {args : List GenericArg} {trailing : Bool} {arg : GenericArg}
      (inside : arg ∈ args) : StandsIn (.argument arg) (.arguments (.angle turbofish args trailing))
  | callInput {inputs : List Ty} {trailing : Bool} {output : Option Ty} {ty : Ty}
      (inside : ty ∈ inputs) : StandsIn (.type ty) (.arguments (.call inputs trailing output))
  | callOutput {inputs : List Ty} {trailing : Bool} {ty : Ty} :
      StandsIn (.type ty) (.arguments (.call inputs trailing (some ty)))
  | typeArgument {ty : Ty} : StandsIn (.type ty) (.argument (.type ty))
  | constArgument {value : Snippet} : StandsIn (.value value) (.argument (.const value))
  | assocTypeArguments {name : Name} {arguments : Arguments} {ty : Ty} :
      StandsIn (.arguments arguments) (.argument (.assocType name arguments ty))
  | assocType {name : Name} {arguments : Arguments} {ty : Ty} :
      StandsIn (.type ty) (.argument (.assocType name arguments ty))
  | assocConstArguments {name : Name} {arguments : Arguments} {value : Snippet} :
      StandsIn (.arguments arguments) (.argument (.assocConst name arguments value))
  | assocConst {name : Name} {arguments : Arguments} {value : Snippet} :
      StandsIn (.value value) (.argument (.assocConst name arguments value))
  | constraintArguments {name : Name} {arguments : Arguments} {bounds : List Bound}
      {trailing : Bool} :
      StandsIn (.arguments arguments) (.argument (.constraint name arguments bounds trailing))
  | constraint {name : Name} {arguments : Arguments} {bounds : List Bound} {trailing : Bool}
      {bound : Bound} (inside : bound ∈ bounds) :
      StandsIn (.bound bound) (.argument (.constraint name arguments bounds trailing))
  | trait {inParens relaxed : Bool} {binder : List Token} {path : Path} :
      StandsIn (.path path) (.bound (.trait inParens relaxed binder path))

/-- A part stands inside another one, at any depth; it stands inside itself. -/
def Inside : Part → Part → Prop := Relation.ReflTransGen StandsIn

/-- The size of a part as a tree. -/
noncomputable def size : Part → Nat
  | .type tree => sizeOf tree
  | .path tree => sizeOf tree
  | .segment tree => sizeOf tree
  | .arguments tree => sizeOf tree
  | .argument tree => sizeOf tree
  | .bound tree => sizeOf tree
  | .value tree => sizeOf tree

/-- What stands in a part is smaller than the part. -/
theorem StandsIn.size_lt {inner outer : Part} (stands : inner.StandsIn outer) :
    inner.size < outer.size := by
  -- In most cases the part is a constructor with the inner part as a field, or as one in a list.
  cases stands with
  | rest inside | tuple inside | bounds inside | segment inside | argument inside
  | callInput inside | constraint inside =>
    have smaller := List.sizeOf_lt_of_mem inside
    simp [size]
    omega
  | input inside =>
    have smaller := List.sizeOf_lt_of_mem inside
    simp [size] at smaller ⊢
    omega
  | _ => simp [size] <;> omega

/-- The names that are collected from a part. -/
def heads : Part → List String
  | .type tree => tree.heads
  | .path tree => tree.heads
  | .segment tree => tree.heads
  | .arguments tree => tree.heads
  | .argument tree => tree.heads
  | .bound tree => tree.heads
  | .value tree => tree.heads

/--
A part uses a name by itself: it is a relative type path that starts with the name, or an expression
that is known to hold one.
-/
def Names (name : String) : Part → Prop
  | .type (.path ⟨none, ⟨first, _⟩ :: _⟩) => first.spelling = name
  | .value tree => name ∈ tree.heads
  | _ => False

end Part

section Lists

variable {name : String}

/-- The heads of types in a row are those of each. -/
theorem mem_tyHeads {tys : List Ty} : name ∈ tyHeads tys ↔ ∃ ty ∈ tys, name ∈ ty.heads := by
  -- The definition goes along the list, and so does the induction, here as in the next four lemmas.
  induction tys with
  | nil => simp [tyHeads]
  | cons ty rest ih => simp [tyHeads, ih]

/-- The heads of inputs in a row are those of each one's type. -/
theorem mem_inputHeads {inputs : List (List Token × Ty)} :
    name ∈ inputHeads inputs ↔ ∃ input ∈ inputs, name ∈ input.2.heads := by
  induction inputs with
  | nil => simp [inputHeads]
  | cons input rest ih => simp [inputHeads, ih]

/-- The heads of segments in a row are those of each. -/
theorem mem_segmentHeads {segments : List Segment} :
    name ∈ segmentHeads segments ↔ ∃ segment ∈ segments, name ∈ segment.heads := by
  induction segments with
  | nil => simp [segmentHeads]
  | cons segment rest ih => simp [segmentHeads, ih]

/-- The heads of generic arguments in a row are those of each. -/
theorem mem_argHeads {args : List GenericArg} :
    name ∈ argHeads args ↔ ∃ arg ∈ args, name ∈ arg.heads := by
  induction args with
  | nil => simp [argHeads]
  | cons arg rest ih => simp [argHeads, ih]

/-- The heads of bounds in a row are those of each. -/
theorem mem_boundHeads {bounds : List Bound} :
    name ∈ boundHeads bounds ↔ ∃ bound ∈ bounds, name ∈ bound.heads := by
  induction bounds with
  | nil => simp [boundHeads]
  | cons bound rest ih => simp [boundHeads, ih]

/-- The heads of a projection are those of its source, of its base and of what follows. -/
theorem mem_heads_projection (pos : Position) {source : Ty} {base : Option Path}
    {rest : List Segment} :
    name ∈ (Ty.projection pos source base rest).heads ↔
      name ∈ source.heads ∨ (∃ path, base = some path ∧ name ∈ path.heads) ∨
        ∃ segment ∈ rest, name ∈ segment.heads := by
  -- A projection may have no base.
  cases base <;> simp [Ty.heads, mem_segmentHeads]

/-- The heads of a function type are those of its inputs and of its output. -/
theorem mem_heads_function {head : List Token} {inputs : List (List Token × Ty)} {trailing : Bool}
    {variadic : List Token} {output : Option Ty} :
    name ∈ (Ty.function head inputs trailing variadic output).heads ↔
      (∃ input ∈ inputs, name ∈ input.2.heads) ∨ ∃ ty, output = some ty ∧ name ∈ ty.heads := by
  -- A function may have no output.
  cases output <;> simp [Ty.heads, mem_inputHeads]

/-- The heads of arguments in parentheses are those of the inputs and of the output. -/
theorem mem_heads_call (trailing : Bool) {inputs : List Ty} {output : Option Ty} :
    name ∈ (Arguments.call inputs trailing output).heads ↔
      (∃ ty ∈ inputs, name ∈ ty.heads) ∨ ∃ ty, output = some ty ∧ name ∈ ty.heads := by
  -- The parentheses may have no output behind them.
  cases output <;> simp [Arguments.heads, mem_tyHeads]

end Lists

namespace Part

variable {name : String} {part inner outer : Part}

/-- What is collected from a part that stands in another one is collected from that one, too. -/
theorem StandsIn.mem_heads (stands : inner.StandsIn outer) (found : name ∈ inner.heads) :
    name ∈ outer.heads := by
  -- One case for each place in which a part can stand: its names are listed at that place.
  cases stands with
  | path => exact List.mem_append_right _ found
  | @source pos => exact (mem_heads_projection pos).mpr (.inl found)
  | @base pos => exact (mem_heads_projection pos).mpr (.inr (.inl ⟨_, rfl, found⟩))
  | @rest pos _ _ _ _ inside =>
    exact (mem_heads_projection pos).mpr (.inr (.inr ⟨_, inside, found⟩))
  | tuple inside => exact mem_tyHeads.mpr ⟨_, inside, found⟩
  -- What only wraps another part has the names of that part.
  | paren | group | slice | reference | pointer | arguments | typeArgument | constArgument |
    trait => exact found
  | array => exact List.mem_append_left _ found
  | length => exact List.mem_append_right _ found
  | input inside => exact mem_heads_function.mpr (.inl ⟨_, inside, found⟩)
  | output => exact mem_heads_function.mpr (.inr ⟨_, rfl, found⟩)
  | bounds inside => exact mem_boundHeads.mpr ⟨_, inside, found⟩
  | segment inside => exact mem_segmentHeads.mpr ⟨_, inside, found⟩
  | argument inside => exact mem_argHeads.mpr ⟨_, inside, found⟩
  | @callInput _ trailing _ _ inside =>
    exact (mem_heads_call trailing).mpr (.inl ⟨_, inside, found⟩)
  | @callOutput _ trailing => exact (mem_heads_call trailing).mpr (.inr ⟨_, rfl, found⟩)
  | assocTypeArguments | assocConstArguments | constraintArguments =>
    exact List.mem_append_left _ found
  | assocType | assocConst => exact List.mem_append_right _ found
  -- The bounds of an associated type stand behind its own arguments.
  | constraint inside =>
    exact List.mem_append_right _ (mem_boundHeads.mpr ⟨_, inside, found⟩)

/-- What a part uses by itself is collected from it. -/
theorem Names.mem_heads (names : part.Names name) : name ∈ part.heads := by
  -- Only a path and an expression use names by themselves.
  unfold Names at names
  split at names
  · exact List.mem_append_left _ (List.mem_singleton.mpr names.symm)
  · exact names
  · exact names.elim

/-- What is collected from a part is used by it, or collected from what stands in it. -/
theorem exists_of_mem_heads (found : name ∈ part.heads) :
    part.Names name ∨ ∃ inner : Part, inner.StandsIn part ∧ name ∈ inner.heads := by
  -- The cases follow the syntax: each part lists what stands in it, one part after the other.
  cases part with
  | type ty =>
    cases ty with
    | path path =>
      rcases List.mem_append.mp found with first | below
      · -- Only a relative path has a name that stands first.
        unfold Path.headName at first
        split at first
        · exact .inl (List.mem_singleton.mp first).symm
        · cases first
      · exact .inr ⟨_, .path, below⟩
    | projection pos source base rest =>
      rcases (mem_heads_projection pos).mp found with
        below | ⟨path, rfl, below⟩ | ⟨segment, inside, below⟩
      · exact .inr ⟨_, .source, below⟩
      · exact .inr ⟨_, .base, below⟩
      · exact .inr ⟨_, .rest inside, below⟩
    | tuple elems trailing =>
      obtain ⟨elem, inside, below⟩ := mem_tyHeads.mp found
      exact .inr ⟨_, .tuple inside, below⟩
    | paren inner => exact .inr ⟨_, .paren, found⟩
    | group inner => exact .inr ⟨_, .group, found⟩
    | array elem length =>
      rcases List.mem_append.mp found with below | below
      · exact .inr ⟨_, .array, below⟩
      · exact .inr ⟨_, .length, below⟩
    | slice elem => exact .inr ⟨_, .slice, found⟩
    | reference lifetime mutable target => exact .inr ⟨_, .reference, found⟩
    | pointer mutable target => exact .inr ⟨_, .pointer, found⟩
    -- Inputs have attributes before them, and the output may be missing.
    | function head inputs trailing variadic output =>
      rcases mem_heads_function.mp found with ⟨input, inside, below⟩ | ⟨ty, rfl, below⟩
      · exact .inr ⟨_, .input inside, below⟩
      · exact .inr ⟨_, .output, below⟩
    | bounds keyword bounds trailing =>
      obtain ⟨bound, inside, below⟩ := mem_boundHeads.mp found
      exact .inr ⟨_, .bounds inside, below⟩
    -- Here nothing is collected from what is kept as written.
    | never | inferred | invocation | verbatim => cases found
  | path path =>
    obtain ⟨leading, segments⟩ := path
    obtain ⟨segment, inside, below⟩ := mem_segmentHeads.mp found
    exact .inr ⟨_, .segment inside, below⟩
  | segment segment =>
    obtain ⟨label, arguments⟩ := segment
    exact .inr ⟨_, .arguments, found⟩
  | arguments arguments =>
    cases arguments with
    | none => cases found
    | angle turbofish args trailing =>
      obtain ⟨arg, inside, below⟩ := mem_argHeads.mp found
      exact .inr ⟨_, .argument inside, below⟩
    -- The parentheses of a function trait hold types, and so does its arrow.
    | call inputs trailing output =>
      rcases (mem_heads_call trailing).mp found with ⟨ty, inside, below⟩ | ⟨ty, rfl, below⟩
      · exact .inr ⟨_, .callInput inside, below⟩
      · exact .inr ⟨_, .callOutput, below⟩
  | argument arg =>
    cases arg with
    | lifetime spelling => cases found
    | type ty => exact .inr ⟨_, .typeArgument, found⟩
    | const value => exact .inr ⟨_, .constArgument, found⟩
    | assocType label arguments ty =>
      rcases List.mem_append.mp found with below | below
      · exact .inr ⟨_, .assocTypeArguments, below⟩
      · exact .inr ⟨_, .assocType, below⟩
    | assocConst label arguments value =>
      rcases List.mem_append.mp found with below | below
      · exact .inr ⟨_, .assocConstArguments, below⟩
      · exact .inr ⟨_, .assocConst, below⟩
    | constraint label arguments bounds trailing =>
      rcases List.mem_append.mp found with below | below
      · exact .inr ⟨_, .constraintArguments, below⟩
      · obtain ⟨bound, inside, below⟩ := mem_boundHeads.mp below
        exact .inr ⟨_, .constraint inside, below⟩
  | bound bound =>
    cases bound with
    | trait inParens relaxed binder path => exact .inr ⟨_, .trait, found⟩
    | lifetime | verbatim => cases found
  -- An expression is where the names of an expression are.
  | value value => exact .inl found

/-- What is collected from a part is used somewhere inside it. -/
theorem exists_names_of_mem_heads {name : String} (part : Part) (found : name ∈ part.heads) :
    ∃ inner : Part, inner.Inside part ∧ inner.Names name := by
  -- What the part does not use by itself is looked for in a smaller one.
  rcases exists_of_mem_heads found with names | ⟨next, stands, below⟩
  · exact ⟨part, .refl, names⟩
  · have smaller := stands.size_lt
    obtain ⟨inner, inside, names⟩ := exists_names_of_mem_heads next below
    exact ⟨inner, inside.tail stands, names⟩
termination_by part.size

/-- The names that are collected from a part are those that are used somewhere inside it. -/
theorem mem_heads_iff :
    name ∈ part.heads ↔ ∃ inner : Part, inner.Inside part ∧ inner.Names name := by
  refine ⟨exists_names_of_mem_heads part, ?_⟩
  -- A part passes on what is collected from it to the part around it.
  rintro ⟨inner, inside, names⟩
  induction inside with
  | refl => exact names.mem_heads
  | tail _ stands ih => exact stands.mem_heads ih

/-- The parts inside a part are the part itself, and those inside what stands in it. -/
theorem inside_iff : inner.Inside outer ↔
    inner = outer ∨ ∃ next : Part, next.StandsIn outer ∧ inner.Inside next := by
  -- A chain of parts either is empty or has a last step, which enters the outer part.
  rw [Inside, Relation.ReflTransGen.cases_tail_iff, eq_comm]
  simp only [and_comm]

/-- A part that uses a name by itself is a path that starts with it, or an expression. -/
theorem Names.exists_path_or_value (names : part.Names name) :
    (∃ first arguments rest, part = .type (.path ⟨none, ⟨first, arguments⟩ :: rest⟩) ∧
      first.spelling = name) ∨ ∃ value, part = .value value ∧ name ∈ value.heads := by
  -- Only a path and an expression use names by themselves.
  unfold Names at names
  split at names
  · exact .inl ⟨_, _, _, rfl, names⟩
  · exact .inr ⟨_, rfl, names⟩
  · exact names.elim

/-- No expression inside a part, be it a length or an argument, uses a name. -/
def PlainValues (part : Part) : Prop :=
  ∀ value, (Part.value value).Inside part → value.heads = []

/-- Where a part is no expression itself, it is enough to look at what stands in it. -/
theorem plainValues_of_standsIn (other : ∀ value, part ≠ .value value)
    (below : ∀ inner : Part, inner.StandsIn part → inner.PlainValues) : part.PlainValues := by
  intro value inside
  -- An expression that stands in the part stands in one of those below it.
  rcases inside_iff.mp inside with same | ⟨next, stands, deeper⟩
  · exact absurd same.symm (other value)
  · exact below next stands value deeper

/-- There is no expression inside a mere name. -/
theorem plainValues_ofName (name : Name) : (Part.type (.path (.ofName name))).PlainValues := by
  -- The name is a path of one segment, which has no arguments.
  refine plainValues_of_standsIn (by simp) fun _ stands => ?_
  cases stands
  refine plainValues_of_standsIn (by simp) fun _ stands => ?_
  cases stands with
  | segment inside =>
    obtain rfl := List.mem_singleton.mp inside
    refine plainValues_of_standsIn (by simp) fun _ stands => ?_
    cases stands
    refine plainValues_of_standsIn (by simp) fun _ stands => ?_
    cases stands

end Part

namespace Ty

variable {name : String} {ty inner : Ty}

/-- A type uses a name somewhere inside. -/
def Uses (ty : Ty) (name : String) : Prop :=
  ∃ part : Part, part.Inside (.type ty) ∧ part.Names name

/-- A relative type path that starts with a name stands somewhere inside a type. -/
def Mentions (ty : Ty) (name : String) : Prop :=
  ∃ first arguments rest,
    Part.Inside (.type (.path ⟨none, ⟨first, arguments⟩ :: rest⟩)) (.type ty) ∧
      first.spelling = name

/-- The names that are collected from a type are those that it uses. -/
theorem mem_heads_iff : name ∈ ty.heads ↔ ty.Uses name :=
  show name ∈ (Part.type ty).heads ↔ _ from Part.mem_heads_iff

/-- Where no expression uses a name, type paths alone do. -/
theorem uses_iff_mentions (plain : (Part.type ty).PlainValues) :
    ty.Uses name ↔ ty.Mentions name := by
  constructor
  · -- A name is used by the start of a path, or in an expression, and the second is excluded.
    rintro ⟨part, inside, names⟩
    rcases names.exists_path_or_value with ⟨first, arguments, rest, rfl, same⟩ | ⟨value, rfl, among⟩
    · exact ⟨first, arguments, rest, inside, same⟩
    · rw [plain value inside] at among
      cases among
  · rintro ⟨first, arguments, rest, inside, same⟩
    exact ⟨_, inside, same⟩

/-- A type uses what a type inside it uses. -/
theorem Uses.of_inside (uses : inner.Uses name) (inside : Part.Inside (.type inner) (.type ty)) :
    ty.Uses name := by
  -- The part that names it lies inside the inner type, and so inside the outer one.
  obtain ⟨part, deeper, names⟩ := uses
  exact ⟨part, deeper.trans inside, names⟩

end Ty

end KeyedCoding
