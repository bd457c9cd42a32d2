import Mathlib.Data.List.Duplicate
import KeyedCoding.Proofs.Grammar.Listing
import KeyedCoding.Proofs.KeyMapping.Arguments
import KeyedCoding.Proofs.Record.Options
import KeyedCoding.Transform.Codable
import KeyedCoding.Transform.SecureStorage

/-!
Repeated arguments: which of them are refused, and which value holds where they are not.
-/

namespace KeyedCoding

open Reader

/-! The coding transformer. -/

namespace CodableArguments

/-- One argument of the coding transformer. -/
inductive Argument where
  | policy (policy : InclusionPolicy)
  | conform (traits : List Path)
  | runtime (path : Path)

namespace Argument

/-- The name of an argument. -/
def name : Argument → String
  | policy _ => "policy"
  | conform _ => "conform"
  | runtime _ => "crate"

/-- The policy that an argument gives. -/
def policy? : Argument → Option InclusionPolicy
  | policy found => some found
  | _ => none

/-- The traits that an argument gives. -/
def conform? : Argument → Option (List Path)
  | conform traits => some traits
  | _ => none

/-- The path of the runtime that an argument gives. -/
def runtime? : Argument → Option Path
  | runtime path => some path
  | _ => none

end Argument

/-- Reads what follows the name of one argument, whatever else is given. -/
def readOne (g : Grammar) (path : Path) : Reader Argument := do
  if path.isName "policy" then return .policy (← readPolicy)
  else if path.isName "conform" then return .conform (← readConform g)
  else if path.isName "crate" then return .runtime (← quotedPath)
  else failAt path.namePos "expected `policy`, `conform` or `crate`"

/-- All arguments that are listed, with every occurrence of one. -/
def listed (tokens : List Token) : Except Fault (List Argument) :=
  Grammar.read (fun g => Grammar.collectArguments (readOne g)) tokens

/-- The arguments with one more, which may not be given already. -/
def add? (args : CodableArguments) : Argument → Option CodableArguments
  | .policy policy => if args.policy.isSome then none else some { args with policy := some policy }
  | .conform traits =>
    if args.conform.isSome then none else some { args with conform := some traits }
  | .runtime path => if args.runtime.isSome then none else some { args with runtime := some path }

/-- Whether an argument of a name is given. -/
def Given (args : CodableArguments) (name : String) : Prop :=
  name = "policy" ∧ args.policy.isSome = true ∨ name = "conform" ∧ args.conform.isSome = true ∨
    name = "crate" ∧ args.runtime.isSome = true

variable {args : CodableArguments} {tokens : List Token} {argument : Argument}

/-- An argument is read alike whatever is given before it, and then it is added. -/
theorem readArgument_adds (g : Grammar) (args : CodableArguments) (path : Path) :
    Adds add? args (readArgument g args path) (readOne g path) := by
  -- Both readers go by the path; each option is given at most once.
  rw [readArgument, readOne]
  split
  · exact .once fun _ => rfl
  · split
    · exact .once fun _ => rfl
    · split
      · exact .once fun _ => rfl
      · exact .failAt _ _

/-- An argument can be added exactly if none of its name is given. -/
theorem exists_add?_iff : (∃ next, args.add? argument = some next) ↔ ¬args.Given argument.name := by
  -- Of each kind of argument there is one place, and it is taken or free.
  obtain ⟨policy, conform, runtime⟩ := args
  cases argument <;> cases policy <;> cases conform <;> cases runtime <;>
    simp [add?, Given, Argument.name]

/-- Every argument is taken by its name. -/
theorem takes : Listing.Takes add? (fun argument => some argument.name) (fun _ => true) Given := by
  intro args argument next added
  refine ⟨_, rfl, fun _ => exists_add?_iff.mp ⟨next, added⟩, fun other => ?_⟩
  -- The argument that has been added is given now, and all others are given as before.
  obtain ⟨policy, conform, runtime⟩ := args
  cases argument <;> cases policy <;> cases conform <;> cases runtime <;> cases added <;>
    simp [Given, Argument.name] <;> tauto

/-- What arguments give: for each place the last of its values. -/
def ofArguments (arguments : List Argument) : CodableArguments :=
  ⟨(arguments.filterMap Argument.policy?).getLast?, (arguments.filterMap Argument.conform?).getLast?,
    (arguments.filterMap Argument.runtime?).getLast?⟩

/-- What can be added to nothing is given. -/
theorem eq_ofArguments {arguments : List Argument}
    (added : arguments.foldlM add? {} = some args) : args = ofArguments arguments := by
  -- An argument that is added fills its own place, which was empty.
  have fills (state : CodableArguments) (argument : Argument) (next : CodableArguments)
      (one : state.add? argument = some next) :
      next.policy = argument.policy?.or state.policy ∧
        next.conform = argument.conform?.or state.conform ∧
          next.runtime = argument.runtime?.or state.runtime := by
    obtain ⟨policy, conform, runtime⟩ := state
    cases argument <;> cases policy <;> cases conform <;> cases runtime <;> cases one <;>
      exact ⟨rfl, rfl, rfl⟩
  have policy := Listing.held_of_foldlM added fun _ _ _ one => (fills _ _ _ one).1
  have conform := Listing.held_of_foldlM added fun _ _ _ one => (fills _ _ _ one).2.1
  have runtime := Listing.held_of_foldlM added fun _ _ _ one => (fills _ _ _ one).2.2
  rw [Option.or_none] at policy conform runtime
  rw [ofArguments, ← policy, ← conform, ← runtime]

/-- Arguments are read exactly if no two of them have the same name, and then each of them is given. -/
theorem ofTokens_eq_ok_iff :
    ofTokens tokens = .ok args ↔ ∃ arguments, listed tokens = .ok arguments ∧
      (arguments.map Argument.name).Nodup ∧ args = ofArguments arguments := by
  rw [ofTokens, Grammar.read_arguments_eq_ok_iff readArgument_adds]
  -- The arguments that are read are added one by one, and that works if no name comes twice.
  refine exists_congr fun arguments => and_congr_right fun _ => ?_
  rw [takes.foldlM_eq_some_iff (fun _ _ => by simp [exists_add?_iff]) (by simp [Given])
    fun _ => eq_ofArguments, List.filter_true]

end CodableArguments

/-! The secure storage transformer. -/

namespace StorageArguments

/-- One argument of the secure storage transformer. -/
inductive Argument where
  | store (store : Expr)
  | runtime (path : Path)

namespace Argument

/-- The name of an argument. -/
def name : Argument → String
  | store _ => "store"
  | runtime _ => "crate"

/-- The store that an argument gives. -/
def store? : Argument → Option Expr
  | store found => some found
  | _ => none

/-- The path of the runtime that an argument gives. -/
def runtime? : Argument → Option Path
  | runtime path => some path
  | _ => none

end Argument

/-- Reads what follows the name of one argument. -/
def readOne (g : Grammar) (path : Path) : Reader Argument := do
  if path.isName "store" then return .store (← g.argumentExpr)
  else if path.isName "crate" then return .runtime (← quotedPath)
  else failAt path.namePos "expected `store` or `crate`"

/-- All arguments that are listed, with every occurrence of one. -/
def listed (tokens : List Token) : Except Fault (List Argument) :=
  Grammar.read (fun g => Grammar.collectArguments (readOne g)) tokens

/-- The arguments with one more, which takes the place of one before it. -/
def add? (args : StorageArguments) : Argument → Option StorageArguments
  | .store store => some { args with store := some store }
  | .runtime path => some { args with runtime := some path }

variable {args : StorageArguments} {tokens : List Token}

/-- An argument is read alike whatever is given before it, and then it is added. -/
theorem readArgument_adds (g : Grammar) (args : StorageArguments) (path : Path) :
    Adds add? args (readArgument g args path) (readOne g path) := by
  -- Both readers go by the path; a later option takes the place of an earlier one.
  rw [readArgument, readOne]
  split
  · exact .given fun _ => rfl
  · split
    · exact .given fun _ => rfl
    · exact .failAt _ _

/-- What arguments give: for each place the last of its values. -/
def ofArguments (arguments : List Argument) : StorageArguments :=
  ⟨(arguments.filterMap Argument.store?).getLast?, (arguments.filterMap Argument.runtime?).getLast?⟩

/-- What can be added to nothing is given. -/
theorem eq_ofArguments {arguments : List Argument}
    (added : arguments.foldlM add? {} = some args) : args = ofArguments arguments := by
  -- Each argument fills its own place, so the place holds what came last.
  have fills (state : StorageArguments) (argument : Argument) (next : StorageArguments)
      (one : state.add? argument = some next) :
      next.store = argument.store?.or state.store ∧
        next.runtime = argument.runtime?.or state.runtime := by
    cases argument <;> cases one <;> exact ⟨rfl, rfl⟩
  have store := Listing.held_of_foldlM added fun _ _ _ one => (fills _ _ _ one).1
  have runtime := Listing.held_of_foldlM added fun _ _ _ one => (fills _ _ _ one).2
  rw [Option.or_none] at store runtime
  rw [ofArguments, ← store, ← runtime]

/-- Arguments are read whatever stands twice among them, and the last value holds. -/
theorem ofTokens_eq_ok_iff :
    ofTokens tokens = .ok args ↔ ∃ arguments, listed tokens = .ok arguments ∧
      args = ofArguments arguments := by
  -- Nothing is refused, so all that are listed can be added.
  have can (arguments : List Argument) (start : StorageArguments) :
      ∃ last, arguments.foldlM add? start = some last := by
    induction arguments generalizing start with
    | nil => exact ⟨start, rfl⟩
    | cons argument rest ih => cases argument <;> exact ih _
  rw [ofTokens, Grammar.read_arguments_eq_ok_iff readArgument_adds]
  refine exists_congr fun arguments => and_congr_right fun _ => ⟨eq_ofArguments, ?_⟩
  rintro rfl
  obtain ⟨last, added⟩ := can arguments {}
  rw [added, eq_ofArguments added]

end StorageArguments

/-! Mappings as arguments. -/

namespace MappingArguments

/-- The field that an argument is about. -/
def field? (entry : Meta) : Option String :=
  if entry.path.isName "crate" then none else entry.path.singleName?.map (·.spelling)

/-- The path of the runtime that an argument gives. -/
def runtime? (entry : Meta) : Option Path :=
  if entry.path.isName "crate" then
    match keyOf entry with
    | .ok (some literal) => (Path.ofLiteral literal).toOption
    | _ => none
  else none

/-- All arguments that are listed, with every occurrence of one. -/
def listed (tokens : List Token) : Except Fault (List Meta) :=
  (Grammar.read (fun g => Reader.commaList g.metaInside) tokens).map Prod.fst

variable {args after : MappingArguments} {entries : List Meta} {tokens : List Token}

/--
Every argument adds its field behind the others, or gives the path of the runtime, which takes the
place of one before it.
-/
theorem foldlM_add (added : entries.foldlM add args = .ok after) :
    after.mapping.entries.map (·.field.spelling) =
        args.mapping.entries.map (·.field.spelling) ++ entries.filterMap field? ∧
      after.runtime = (entries.filterMap runtime?).getLast?.or args.runtime ∧
      ∀ entry ∈ entries, (field? entry).isSome = true ∨ (runtime? entry).isSome = true := by
  -- The arguments are added one by one, behind those that are there before them.
  induction entries generalizing args with
  | nil =>
    cases added
    simp
  | cons entry rest ih =>
    rw [List.foldlM_cons, bind_eq_ok_iff] at added
    obtain ⟨next, first, others⟩ := added
    obtain ⟨fields, runtime, each⟩ := ih others
    rw [List.filterMap_cons, List.filterMap_cons, List.forall_mem_cons]
    rcases add_cases first with ⟨named, literal, path, given, read, rfl⟩ |
      ⟨other, field, key, single, -, -, rfl⟩
    · -- The path of the runtime is no field, and a later path takes its place.
      have noField : field? entry = none := by rw [field?, if_pos named]
      have path : runtime? entry = some path := by
        rw [runtime?, if_pos named, given]
        simp only [read, Except.toOption]
      rw [noField, path]
      refine ⟨fields, ?_, .inr rfl, each⟩
      rw [runtime, List.getLast?_cons]
      cases (rest.filterMap runtime?).getLast? <;> rfl
    · -- A field is no path of the runtime, and it stands behind the others.
      have aField : field? entry = some field.spelling := by
        rw [field?, if_neg (by simp [other]), single, Option.map_some]
      have noPath : runtime? entry = none := by rw [runtime?, if_neg (by simp [other])]
      rw [aField, noPath]
      refine ⟨?_, runtime, .inl rfl, each⟩
      rw [fields]
      simp [KeyMapping.push]

/--
Arguments are read only if no two of them are about the same field; of several paths of the runtime
the last one holds.
-/
theorem of_ofTokens (read : ofTokens tokens = .ok args) :
    ∃ entries, listed tokens = .ok entries ∧ (entries.filterMap field?).Nodup ∧
      args.mapping.entries.map (·.field.spelling) = entries.filterMap field? ∧
      args.runtime = (entries.filterMap runtime?).getLast? ∧
      ∀ entry ∈ entries, (field? entry).isSome = true ∨ (runtime? entry).isSome = true := by
  obtain ⟨entries, parsed, added⟩ := bind_eq_ok_iff.mp read
  obtain ⟨fields, runtime, each⟩ := foldlM_add added
  rw [Option.or_none] at runtime
  -- The fields of the mapping are those that the arguments name, and no two of them are the same.
  have same : args.mapping.entries.map (·.field.spelling) = entries.1.filterMap field? := fields
  refine ⟨entries.1, map_eq_ok_iff.mpr ⟨entries, mapError_eq_ok_iff.mp parsed, rfl⟩, ?_, same,
    runtime, each⟩
  rw [← same]
  exact (wellFormed_of_ofTokens read).1.fields

/-- A path of the runtime is taken whatever is given before it. -/
theorem add_of_runtime? {entry : Meta} {path : Path} (given : runtime? entry = some path) :
    args.add entry = .ok { args with runtime := some path } := by
  -- A path is given by a literal that reads as one, under the name of the runtime.
  rw [runtime?] at given
  split at given
  · rename_i named
    split at given
    · rename_i literal key
      cases read : Path.ofLiteral literal with
      | error fault =>
        rw [read] at given
        cases given
      | ok found =>
        rw [read] at given
        cases given
        rw [add, key]
        simp only [bind, Except.bind, named, if_true, addRuntime, read]
        rfl
    · cases given
  · cases given

/-- Any number of paths of the runtime can be listed, and the last one holds. -/
theorem ofTokens_runtimes {paths : List Path} (named : ∀ path ∈ paths, path.Named) :
    ofTokens (commaSeparated false
        ((paths.map KeyMapping.runtimeEntry).map Grammar.argumentTokens)) =
      .ok ⟨{}, paths.getLast?.map Path.unplaced⟩ := by
  -- Every path takes the place of the one before it, which may be any.
  have run (args : MappingArguments) :
      ((paths.map KeyMapping.runtimeEntry).map Grammar.argumentMeta).foldlM add args =
        .ok { args with runtime := (paths.getLast?.map Path.unplaced).or args.runtime } := by
    induction paths generalizing args with
    | nil => rfl
    | cons path rest ih =>
      rw [List.forall_mem_cons] at named
      rw [List.map_cons, List.map_cons, List.foldlM_cons, add_runtime named.1]
      refine (ih named.2 _).trans ?_
      rw [List.getLast?_cons]
      cases rest.getLast? <;> rfl
  have opens : ∀ argument ∈ paths.map KeyMapping.runtimeEntry,
      argument.1.opensArgument = true := by
    intro argument inside
    obtain ⟨path, -, rfl⟩ := List.mem_map.mp inside
    rfl
  rw [ofTokens, Grammar.read_arguments opens]
  refine (run {}).trans ?_
  rw [Option.or_none]

end MappingArguments

/-! The options of a field. -/

namespace FieldOptions

/-- One mark of a field: that it is secure, or one of its coding options. -/
inductive Mark where
  | secure
  | skip
  | readonly
  | default (value : Expr)
  | rename (key : String)

namespace Mark

/-- The name of a mark. -/
def name : Mark → String
  | secure => "secure"
  | skip => "skip"
  | readonly => "readonly"
  | default _ => "default"
  | rename _ => "rename"

/-- The default that a mark gives. -/
def default? : Mark → Option Expr
  | default value => some value
  | _ => none

/-- The new key that a mark gives. -/
def rename? : Mark → Option String
  | rename key => some key
  | _ => none

end Mark

/-- Reads what follows the name of one option, whatever else is given. -/
def readOne (g : Grammar) (path : Path) : Reader Mark := do
  if path.isName "skip" then return .skip
  else if path.isName "readonly" then return .readonly
  else if path.isName "default" then return .default (← g.argumentExpr)
  else if path.isName "rename" then return .rename (← Grammar.argumentText).textValue
  else failAt path.namePos ("unknown codable field option `" ++ path.display ++ "`")

/-- The marks in one attribute. -/
def listedIn (attr : Attribute) : Except Fault (List Mark) :=
  if attr.path.isName Attribute.secureName then .ok [.secure]
  else if attr.path.isName Attribute.codableName then
    attr.readList fun g => Grammar.collectArguments (readOne g)
  else .ok []

/-- All marks in the attributes of a field, with every occurrence of one. -/
def listed (attributes : List Attribute) : Except Fault (List Mark) :=
  (attributes.mapM listedIn).map List.flatten

/-- The options with one more mark; a default and a new key may not be given already. -/
def addMark? (options : FieldOptions) : Mark → Option FieldOptions
  | .secure => some { options with secure := true }
  | .skip => some { options with skip := true }
  | .readonly => some { options with readonly := true }
  | .default value =>
    if options.default.isSome then none else some { options with default := some value }
  | .rename key =>
    if options.rename.isSome then none else some { options with rename := some key }

/-- Whether a mark of a name is given. -/
def Given (options : FieldOptions) (name : String) : Prop :=
  name = "secure" ∧ options.secure = true ∨ name = "skip" ∧ options.skip = true ∨
    name = "readonly" ∧ options.readonly = true ∨ name = "default" ∧ options.default.isSome = true ∨
      name = "rename" ∧ options.rename.isSome = true

/-- Whether a mark of a name may be given once only. -/
def givenOnce (name : String) : Bool := name == "default" || name == "rename"

variable {options next : FieldOptions} {attr : Attribute} {attributes : List Attribute}
  {mark : Mark} {marks : List Mark}

/-- An option is read alike whatever is given before it, and then it is added. -/
theorem readOption_adds (g : Grammar) (options : FieldOptions) (path : Path) :
    Adds addMark? options (readOption g options path) (readOne g path) := by
  -- Both readers go by the path; a mark may be repeated, a default and a name may not.
  rw [readOption, readOne]
  split
  · exact .pure rfl
  · split
    · exact .pure rfl
    · split
      · exact .once fun _ => rfl
      · split
        · exact .once fun _ => rfl
        · exact .failAt _ _

/-- An attribute adds the marks in it. -/
theorem addAttribute_eq_ok_iff :
    options.addAttribute attr = .ok next ↔ ∃ marks, listedIn attr = .ok marks ∧
      marks.foldlM addMark? options = some next := by
  -- An attribute is the mark of secure storage, a list of options, or foreign.
  rw [addAttribute, listedIn]
  split
  · -- The mark of secure storage sets its flag, whether it is set already or not.
    constructor
    · intro added
      cases added
      exact ⟨[.secure], rfl, rfl⟩
    · rintro ⟨_, given, added⟩
      cases given
      cases added
      rfl
  · split
    · -- Both readers refuse an attribute without a list.
      rw [Attribute.readList, Attribute.readList]
      split
      · -- Before a list, both readers go over the same arguments.
        exact Grammar.read_arguments_eq_ok_iff readOption_adds
      · constructor
        · intro refused
          cases refused
        · rintro ⟨_, refused, -⟩
          cases refused
      · constructor
        · intro refused
          cases refused
        · rintro ⟨_, refused, -⟩
          cases refused
    · -- A foreign attribute leaves the options alone and lists nothing.
      constructor
      · intro added
        cases added
        exact ⟨[], rfl, rfl⟩
      · rintro ⟨_, given, added⟩
        cases given
        cases added
        rfl

/-- Attributes that are read one after another add all marks in them. -/
theorem foldlM_addAttribute_eq_ok_iff :
    attributes.foldlM addAttribute options = .ok next ↔ ∃ marks, listed attributes = .ok marks ∧
      marks.foldlM addMark? options = some next := by
  -- The marks of an attribute are added to those of the attributes before it.
  induction attributes generalizing options with
  | nil =>
    constructor
    · intro read
      cases read
      exact ⟨[], rfl, rfl⟩
    · rintro ⟨_, given, added⟩
      cases given
      cases added
      rfl
  | cons attr rest ih =>
    -- Both sides take the first attribute apart in the same way, and the hypothesis the rest.
    simp only [List.foldlM_cons, bind_eq_ok_iff, addAttribute_eq_ok_iff, ih, listed, map_eq_ok_iff,
      List.mapM_cons]
    constructor
    · rintro ⟨between, ⟨first, here, added⟩, _, ⟨others, there, rfl⟩, onward⟩
      refine ⟨_, ⟨first :: others, ⟨first, here, others, there, rfl⟩, rfl⟩, ?_⟩
      -- The marks are added one attribute after the other, as they stand.
      rw [List.flatten_cons, List.foldlM_append, added]
      exact onward
    · rintro ⟨_, ⟨_, ⟨first, here, others, there, same⟩, rfl⟩, all⟩
      cases same
      -- The marks of the first attribute are added first, which gives the options in between.
      rw [List.flatten_cons, List.foldlM_append, Option.bind_eq_bind, Option.bind_eq_some_iff] at all
      obtain ⟨between, added, onward⟩ := all
      exact ⟨between, ⟨first, here, added⟩, _, ⟨others, there, rfl⟩, onward⟩

/-- A mark can be added exactly unless it is given already and may be given once only. -/
theorem exists_addMark?_iff : (∃ next, options.addMark? mark = some next) ↔
    (givenOnce mark.name = true → ¬options.Given mark.name) := by
  -- The marks with a value have one place each, and a flag can be set again.
  obtain ⟨skip, readonly, default, rename, secure⟩ := options
  cases mark <;> cases default <;> cases rename <;> simp [addMark?, Given, givenOnce, Mark.name]

/-- Every mark is taken by its name. -/
theorem takes : Listing.Takes addMark? (fun mark => some mark.name) givenOnce Given := by
  intro options mark next added
  refine ⟨_, rfl, exists_addMark?_iff.mp ⟨next, added⟩, fun other => ?_⟩
  -- The mark that has been added is given now, and all others are given as before.
  obtain ⟨skip, readonly, default, rename, secure⟩ := options
  cases mark <;> cases default <;> cases rename <;> cases added <;>
    simp [Given, Mark.name] <;> tauto

/-- What marks give: that they stand there, or the last of the values. -/
def ofMarks (marks : List Mark) : FieldOptions where
  skip := (marks.map Mark.name).contains "skip"
  readonly := (marks.map Mark.name).contains "readonly"
  default := (marks.filterMap Mark.default?).getLast?
  rename := (marks.filterMap Mark.rename?).getLast?
  secure := (marks.map Mark.name).contains "secure"

/-- What can be added to nothing is given. -/
theorem eq_ofMarks (added : marks.foldlM addMark? {} = some options) : options = ofMarks marks := by
  -- Values fill their places, and marks without a value are given as soon as they are named.
  have fills (state : FieldOptions) (mark : Mark) (next : FieldOptions)
      (one : state.addMark? mark = some next) :
      next.default = mark.default?.or state.default ∧
        next.rename = mark.rename?.or state.rename := by
    -- A place takes one value only, so the value comes from the mark or was there before.
    obtain ⟨skip, readonly, default, rename, secure⟩ := state
    cases mark <;> cases default <;> cases rename <;> cases one <;> exact ⟨rfl, rfl⟩
  have default := Listing.held_of_foldlM added fun _ _ _ one => (fills _ _ _ one).1
  have rename := Listing.held_of_foldlM added fun _ _ _ one => (fills _ _ _ one).2
  rw [Option.or_none] at default rename
  -- What is given is what some mark names, and the three flags are read off the names.
  have given (name : String) : options.Given name ↔ name ∈ marks.map Mark.name := by
    rw [(takes.foldlM added).2.2.2, List.filterMap_eq_map']
    simp [Given]
  have skip : options.skip = (marks.map Mark.name).contains "skip" := by
    rw [Bool.eq_iff_iff, List.contains_iff_mem, ← given]
    simp [Given]
  have readonly : options.readonly = (marks.map Mark.name).contains "readonly" := by
    rw [Bool.eq_iff_iff, List.contains_iff_mem, ← given]
    simp [Given]
  have secure : options.secure = (marks.map Mark.name).contains "secure" := by
    rw [Bool.eq_iff_iff, List.contains_iff_mem, ← given]
    simp [Given]
  rw [ofMarks, ← skip, ← readonly, ← default, ← rename, ← secure]

/--
The attributes of a field are read exactly if no two marks in them give a default, and no two a new
key; any other mark may be repeated.
-/
theorem ofAttributes_eq_ok_iff_listed :
    ofAttributes attributes = .ok options ↔ ∃ marks, listed attributes = .ok marks ∧
      ((marks.map Mark.name).filter givenOnce).Nodup ∧ options = ofMarks marks := by
  -- Adding the marks keeps the places apart, and succeeds if no place is filled twice.
  rw [ofAttributes, foldlM_addAttribute_eq_ok_iff]
  exact exists_congr fun marks => and_congr_right fun _ =>
    takes.foldlM_eq_some_iff (fun _ _ => exists_addMark?_iff) (by simp [Given]) fun _ => eq_ofMarks

end FieldOptions

/-! The options of a field in secure storage. -/

namespace SecureOptions

/-- One option of a secure field. -/
inductive Argument where
  | key (literal : Token)
  | store (store : Expr)

namespace Argument

/-- The name of an option; a key that stands first needs none. -/
def name : Argument → String
  | key _ => "key"
  | store _ => "store"

/-- The key that an option gives. -/
def key? : Argument → Option Token
  | key literal => some literal
  | _ => none

/-- The store that an option gives. -/
def store? : Argument → Option Expr
  | store found => some found
  | _ => none

end Argument

/-- Reads one named option, whatever else is given. -/
def readOne (g : Grammar) : Reader Argument := do
  let name ← name
  let _ ← symbol "="
  if name.spelling == "key" then return .key (← text)
  else if name.spelling == "store" then return .store (← g.expr true)
  else failAt name.pos "expected `key` or `store`"

/-- Collects the key that may stand first. -/
def collectLeading : Reader (List Argument) := do
  if ← sees Look.text then
    let key ← text
    separator
    return [.key key]
  else return []

/-- Reads a named option with what separates it from the next one; at the end there is no more. -/
def readRound {σ : Type} (step : σ → Reader σ) (state : σ) : Reader (σ ⊕ σ) := do
  if ← atEnd then return .inr state
  else
    let next ← step state
    separator
    return .inl next

/-- Collects all options. -/
def collect (g : Grammar) : Reader (List Argument) := do
  let leading ← collectLeading
  iterate (readRound fun found => return found ++ [← readOne g]) leading

/-- All options in an attribute, with every occurrence of one. -/
def listed (attr : Attribute) : Except Fault (List Argument) :=
  match attr.inside.content with
  | .list _ body _ closed => Grammar.read collect body closed
  | _ => .ok []

/-- What is known of the options with one more, which may not be given already. -/
def Partial.add? (found : Partial) : Argument → Option Partial
  | .key literal => if found.key.isSome then none else some { found with key := some literal }
  | .store store => if found.store.isSome then none else some { found with store := some store }

/-- Whether an option of a name is given. -/
def Partial.Given (found : Partial) (name : String) : Prop :=
  name = "key" ∧ found.key.isSome = true ∨ name = "store" ∧ found.store.isSome = true

/-- What options give: for each place the last of its values. -/
def Partial.ofArguments (arguments : List Argument) : Partial :=
  ⟨(arguments.filterMap Argument.key?).getLast?, (arguments.filterMap Argument.store?).getLast?⟩

variable {g : Grammar} {found next : Partial} {scope : Position} {source left : Source}
  {attr : Attribute} {options : SecureOptions} {argument : Argument} {arguments : List Argument}

/-- An option is read alike whatever is given before it, and then it is added. -/
theorem readOption_adds (g : Grammar) (found : Partial) :
    Adds Partial.add? found (readOption g found) (readOne g) := by
  -- The name of an option and the sign behind it are read before the options are told apart.
  refine .bind fun name => .bind fun _ => ?_
  split
  · exact .once fun _ => rfl
  · split
    · exact .once fun _ => rfl
    · exact .failAt _ _

/-- The key that may stand first is the first option. -/
theorem readLeadingKey_adds : Adds (fun start leading => leading.foldlM Partial.add? start) {}
    readLeadingKey collectLeading := by
  -- A text at the start is the key, and without it there is no leading option.
  refine .bind fun seen => ?_
  split
  · exact .bind fun key => .bind fun _ => .pure rfl
  · exact .pure rfl

/-- Options are read in rounds, and no round knows of itself that it is the last one. -/
theorem readRound_rounds {σ α : Type} {add? : σ → α → Option σ} {step : σ → Reader σ}
    {one : Reader α} (steps : ∀ state, Adds add? state (step state) one) :
    Rounds add? one
      (fun scope between goesOn left => goesOn = true ∧ separator scope between = .ok ((), left))
      (readRound step) := by
  intro state scope source result left
  rw [readRound, bind_run_iff]
  -- A round is the last one where nothing is left, and else it reads an option and a separator.
  constructor
  · rintro ⟨_, _, got, read⟩
    cases got
    split at read
    · rename_i ended
      cases read
      exact .inl ⟨ended, rfl, rfl⟩
    · rename_i more
      obtain ⟨next, between, stepped, read⟩ := bind_run_iff.mp read
      obtain ⟨_, _, separated, read⟩ := bind_run_iff.mp read
      cases read
      obtain ⟨argument, found, added⟩ := (steps _ _ _ _ _).mp stepped
      exact .inr ⟨by simpa using more, argument, between, next, true, found, added,
        ⟨rfl, separated⟩, rfl⟩
  · rintro (⟨ended, rfl, rfl⟩ | ⟨more, argument, between, next, _, found, added, ⟨rfl, separated⟩,
      rfl⟩)
    · exact ⟨_, _, rfl, by rw [ended]; rfl⟩
    · -- The option that is added is the one that the step has read.
      refine ⟨_, _, rfl, ?_⟩
      rw [more]
      exact bind_run_iff.mpr ⟨next, between, (steps _ _ _ _ _).mpr ⟨argument, found, added⟩,
        bind_run_iff.mpr ⟨(), _, separated, rfl⟩⟩

/-- Options are read as all of them are added one after the other, and one of them gives the key. -/
theorem read_eq_ok_iff {g : Grammar} {scope : Position} {source left : Source} :
    read g scope source = .ok (options, left) ↔ ∃ arguments,
      collect g scope source = .ok (arguments, left) ∧
        arguments.foldlM Partial.add? {} = some ⟨some options.key, options.store⟩ := by
  -- The options are found with the arguments that have been collected, round by round.
  have rounds := (readRound_rounds (readOption_adds g)).collects
    (readRound_rounds fun found => collected_adds found (readOne g))
  rw [read, collect, bind_run_iff]
  simp only [bind_run_iff]
  constructor
  · rintro ⟨start, between, first, known, behind, others, given⟩
    obtain ⟨leading, seen, added⟩ := (readLeadingKey_adds _ _ _ _).mp first
    have begun : leading.foldlM Partial.add? {} = some start := added
    obtain ⟨more, collected, onward⟩ := (rounds.iterate leading).mp others
    -- Without a key among them the reader fails at the end, against the assumption.
    cases stored : known.key with
    | none =>
      simp only [stored] at given
      exact absurd given failHere_ne_ok
    | some key =>
      simp only [stored] at given
      cases given
      refine ⟨leading ++ more, ⟨leading, between, seen, collected⟩, ?_⟩
      rw [List.foldlM_append, begun, ← stored]
      exact onward
  · rintro ⟨arguments, ⟨leading, between, seen, collected⟩, all⟩
    -- The leading key is the first of all that are collected.
    obtain ⟨more, rfl⟩ : ∃ more, arguments = leading ++ more := by
      obtain ⟨_, _, got, run⟩ := bind_run_iff.mp collected
      exact rounds.exists_more run
    -- What is added at the start is known, and adding the others is what the rounds do.
    rw [List.foldlM_append, Option.bind_eq_bind, Option.bind_eq_some_iff] at all
    obtain ⟨start, added, onward⟩ := all
    exact ⟨start, between, (readLeadingKey_adds _ _ _ _).mpr ⟨leading, seen, added⟩, _, _,
      (rounds.iterate leading).mpr ⟨more, collected, onward⟩, rfl⟩

/-- An option can be added exactly if none of its name is given. -/
theorem exists_add?_iff : (∃ next, found.add? argument = some next) ↔
    ¬found.Given argument.name := by
  -- Each of the two options has one place, and it is taken or free.
  obtain ⟨key, store⟩ := found
  cases argument <;> cases key <;> cases store <;> simp [Partial.add?, Partial.Given, Argument.name]

/-- Every option is taken by its name. -/
theorem takes : Listing.Takes Partial.add? (fun argument => some argument.name) (fun _ => true)
    Partial.Given := by
  intro found argument next added
  refine ⟨_, rfl, fun _ => exists_add?_iff.mp ⟨next, added⟩, fun other => ?_⟩
  -- The option that has been added is given now, and the other one is given as before.
  obtain ⟨key, store⟩ := found
  cases argument <;> cases key <;> cases store <;> cases added
  all_goals simp [Partial.Given, Argument.name, or_comm]

/-- What can be added to nothing is given. -/
theorem eq_ofArguments (added : arguments.foldlM Partial.add? {} = some found) :
    found = .ofArguments arguments := by
  -- Each option fills its own place, so the place holds what came last.
  have fills (state : Partial) (argument : Argument) (next : Partial)
      (one : state.add? argument = some next) :
      next.key = argument.key?.or state.key ∧ next.store = argument.store?.or state.store := by
    obtain ⟨key, store⟩ := state
    cases argument <;> cases key <;> cases store <;> cases one <;> exact ⟨rfl, rfl⟩
  have key := Listing.held_of_foldlM added fun _ _ _ one => (fills _ _ _ one).1
  have store := Listing.held_of_foldlM added fun _ _ _ one => (fills _ _ _ one).2
  rw [Option.or_none] at key store
  rw [Partial.ofArguments, ← key, ← store]

/--
Options are read exactly if no two of them have the same name and one of them is the key; the key
that stands first counts as a key like any other.
-/
theorem ofAttribute_eq_ok_iff :
    ofAttribute attr = .ok options ↔ ∃ arguments, listed attr = .ok arguments ∧
      (arguments.map Argument.name).Nodup ∧
        (⟨some options.key, options.store⟩ : Partial) = .ofArguments arguments := by
  -- Adding every argument succeeds if no name comes twice, and each place then has its argument.
  have adds (arguments : List Argument) :
      arguments.foldlM Partial.add? {} = some ⟨some options.key, options.store⟩ ↔
        (arguments.map Argument.name).Nodup ∧
          (⟨some options.key, options.store⟩ : Partial) = .ofArguments arguments := by
    rw [takes.foldlM_eq_some_iff (fun _ _ => by simp [exists_add?_iff]) (by simp [Partial.Given])
      fun _ => eq_ofArguments, List.filter_true]
  cases content : attr.inside.content with
  | list delim body opened closed =>
    -- Before a list, reading and collecting note the same heads.
    simp only [ofAttribute, listed, content, Grammar.read, run_eq_ok_iff, read_eq_ok_iff, ← adds]
    constructor
    · rintro ⟨noted, arguments, collected, added⟩
      exact ⟨arguments, ⟨noted, collected⟩, added⟩
    · rintro ⟨arguments, ⟨noted, collected⟩, added⟩
      exact ⟨noted, arguments, collected, added⟩
  | _ =>
    -- Without a list there is no key.
    simp only [ofAttribute, listed, content]
    constructor
    · intro refused
      cases refused
    · rintro ⟨_, nothing, -, same⟩
      cases nothing
      cases same

end SecureOptions

/-! All readers of arguments. -/

/--
What becomes of repeated arguments, wherever in a list they stand. The coding transformer and the
options of a secure field take every argument once, a mapping every field, and a field one default
and one new key. Of several paths of the runtime for a mapping, of several stores or paths for the
secure storage transformer the last one holds, and a mark without a value may be repeated.
-/
structure RepeatedArguments (tokens : List Token) (field : Field) : Prop where
  codable (args : CodableArguments) :
    CodableArguments.ofTokens tokens = .ok args ↔ ∃ arguments,
      CodableArguments.listed tokens = .ok arguments ∧
        (arguments.map CodableArguments.Argument.name).Nodup ∧ args = .ofArguments arguments
  mapping (args : MappingArguments) (read : MappingArguments.ofTokens tokens = .ok args) :
    ∃ entries, MappingArguments.listed tokens = .ok entries ∧
      (entries.filterMap MappingArguments.field?).Nodup ∧
      args.mapping.entries.map (·.field.spelling) = entries.filterMap MappingArguments.field? ∧
      args.runtime = (entries.filterMap MappingArguments.runtime?).getLast? ∧
      ∀ entry ∈ entries, (MappingArguments.field? entry).isSome = true ∨
        (MappingArguments.runtime? entry).isSome = true
  runtime (args : MappingArguments) (entry : Meta) (path : Path)
    (given : MappingArguments.runtime? entry = some path) :
    args.add entry = .ok { args with runtime := some path }
  storage (args : StorageArguments) :
    StorageArguments.ofTokens tokens = .ok args ↔ ∃ arguments,
      StorageArguments.listed tokens = .ok arguments ∧ args = .ofArguments arguments
  options (options : FieldOptions) :
    FieldOptions.ofAttributes field.attributes = .ok options ↔ ∃ marks,
      FieldOptions.listed field.attributes = .ok marks ∧
        ((marks.map FieldOptions.Mark.name).filter FieldOptions.givenOnce).Nodup ∧
        options = .ofMarks marks
  secure (options : SecureOptions) :
    SecureOptions.ofField field = .ok (some options) ↔ ∃ attr arguments,
      field.attributes.find? (·.path.isName Attribute.secureName) = some attr ∧
        SecureOptions.listed attr = .ok arguments ∧
        (arguments.map SecureOptions.Argument.name).Nodup ∧
        (⟨some options.key, options.store⟩ : SecureOptions.Partial) = .ofArguments arguments

/-- The readers deal with repeated arguments as told, in every list and at every field. -/
theorem RepeatedArguments.settled (tokens : List Token) (field : Field) :
    RepeatedArguments tokens field where
  codable _ := CodableArguments.ofTokens_eq_ok_iff
  mapping _ := MappingArguments.of_ofTokens
  runtime _ _ _ := MappingArguments.add_of_runtime?
  storage _ := StorageArguments.ofTokens_eq_ok_iff
  options _ := FieldOptions.ofAttributes_eq_ok_iff_listed
  secure options := by
    rw [SecureOptions.ofField]
    -- Without the attribute there are no options to read.
    cases found : field.attributes.find? (·.path.isName Attribute.secureName) with
    | none =>
      constructor
      · intro none
        cases none
      · rintro ⟨attr, _, same, -⟩
        cases same
    | some attr =>
      simp only [map_eq_ok_iff, SecureOptions.ofAttribute_eq_ok_iff, Option.some.injEq]
      constructor
      · rintro ⟨_, ⟨arguments, rules⟩, rfl⟩
        exact ⟨attr, arguments, rfl, rules⟩
      · rintro ⟨_, arguments, rfl, rules⟩
        exact ⟨options, ⟨arguments, rules⟩, rfl⟩

/--
Repeated arguments that are accepted: two stores for the secure storage transformer, two paths of
the runtime for a mapping, and a field that is left out twice.
-/
theorem RepeatedArguments.accepted :
    (∃ tokens arguments args, StorageArguments.listed tokens = .ok arguments ∧
      ¬(arguments.map StorageArguments.Argument.name).Nodup ∧
        StorageArguments.ofTokens tokens = .ok args) ∧
    (∃ tokens entries args, MappingArguments.listed tokens = .ok entries ∧
      entries.countP (·.path.isName "crate") = 2 ∧ MappingArguments.ofTokens tokens = .ok args) ∧
    ∃ attributes marks options, FieldOptions.listed attributes = .ok marks ∧
      ¬(marks.map FieldOptions.Mark.name).Nodup ∧
        FieldOptions.ofAttributes attributes = .ok options := by
  -- Two paths for the runtime, written as the names `a` and `b`.
  have first : (Path.ofNames none [⟨"a", .origin⟩]).Named :=
    .intro (List.forall_mem_singleton.mpr (.inl ⟨'a', [], rfl, by decide, by decide⟩)) (by decide)
  have second : (Path.ofNames none [⟨"b", .origin⟩]).Named :=
    .intro (List.forall_mem_singleton.mpr (.inl ⟨'b', [], rfl, by decide, by decide⟩)) (by decide)
  have both := List.forall_mem_cons.mpr ⟨first, List.forall_mem_singleton.mpr second⟩
  refine ⟨?_, ⟨_, ([Path.ofNames none [⟨"a", .origin⟩], Path.ofNames none [⟨"b", .origin⟩]].map
    KeyMapping.runtimeEntry).map Grammar.argumentMeta, _, ?_, rfl,
    MappingArguments.ofTokens_runtimes both⟩, ?_⟩
  · exact ⟨[.name "store" .origin, .punct '=' false .origin, .name "a" .origin,
      .punct ',' false .origin, .name "store" .origin, .punct '=' false .origin,
      .name "b" .origin], _, _, rfl, by decide, rfl⟩
  · rw [MappingArguments.listed, Grammar.read_arguments (by decide)]
    rfl
  · exact ⟨[.withList (.ofName ⟨Attribute.codableName, .origin⟩) [.name "skip" .origin,
      .punct ',' false .origin, .name "skip" .origin]], _, _, rfl, by decide, rfl⟩

end KeyedCoding
