import KeyedCoding.Config.Discovery
import KeyedCoding.Proofs.Success
import Mathlib.Data.List.Infix

/-!
The search for settings goes from a directory upward. It ends at the nearest directory with a settings
file, or without one at the root of a workspace or of the tree; what it finds is all that is loaded.
-/

namespace KeyedCoding.Config

/-- A directory and the directories around it, from the inside out up to the root of the tree. -/
def around (directory : List String) : List (List String) := directory.inits.reverse

/-- The root of the tree is around itself only. -/
theorem around_root : around [] = [[]] := rfl

/-- Around a directory is what is around its parent. -/
theorem around_concat (parent : List String) (name : String) :
    around (parent ++ [name]) = (parent ++ [name]) :: around parent := by
  -- The directories around a path are its prefixes, of which the path itself is the last.
  simp [around, List.inits_append]

variable {tree : FileTree} {start directory path : List String}

/-- The file that a directory offers for settings: under the plain name, or else a hidden one. -/
inductive Offers (tree : FileTree) (directory : List String) : List String → Prop
  | plain (file : tree.isFile (directory ++ ["codable-synth.toml"]) = true) :
      Offers tree directory (directory ++ ["codable-synth.toml"])
  | hidden (missing : tree.isFile (directory ++ ["codable-synth.toml"]) = false)
      (file : tree.isFile (directory ++ [".codable-synth.toml"]) = true) :
      Offers tree directory (directory ++ [".codable-synth.toml"])

/-- A file holds a text: it can be read, and what is read are the bytes of the text. -/
def Holds (tree : FileTree) (path : List String) (text : String) : Prop :=
  tree.content? path = some (Text.Utf8.encode text)

/-- The manifest of a directory is TOML and has a workspace at its top level. -/
def DeclaresWorkspace (tree : FileTree) (directory : List String) : Prop :=
  ∃ text entries value, Holds tree (directory ++ ["Cargo.toml"]) text ∧
    Toml.ofText? text = some entries ∧ entries.get? "workspace" = some value

/-- The search goes on from a directory: there are no settings, and it is no root of a workspace. -/
def GoesOn (tree : FileTree) (directory : List String) : Prop :=
  (∀ path, ¬Offers tree directory path) ∧ ¬DeclaresWorkspace tree directory

/-- The search ends at a directory without settings, as it is the root of a workspace. -/
def EndsAt (tree : FileTree) (directory : List String) : Prop :=
  (∀ path, ¬Offers tree directory path) ∧ DeclaresWorkspace tree directory

/-- What becomes of the settings in a file: they are read and parsed, or the fault is reported. -/
inductive Loads (tree : FileTree) (path : List String) : Synthesis Context → Prop
  | unreadable (noText : ∀ text, ¬Holds tree path text) :
      Loads tree path (.error (.config .unreadable))
  | malformed {text : String} (holds : Holds tree path text)
      (unfit : (Toml.ofText? text).bind ofEntries? = none) :
      Loads tree path (.error (.config .malformed))
  | loaded {text : String} {config : Config} (holds : Holds tree path text)
      (fits : (Toml.ofText? text).bind ofEntries? = some config) :
      Loads tree path (Context.ofConfig config)

/-- The text of a file is what the file holds. -/
theorem text?_eq_some_iff {text : String} : tree.text? path = some text ↔ Holds tree path text := by
  -- Bytes are a text in one way only, so the text tells the bytes.
  rw [FileTree.text?, Holds, Option.bind_eq_some_iff]
  constructor
  · rintro ⟨bytes, content, read⟩
    rw [content, Text.Utf8.encode_of_decode? read]
  · exact fun content => ⟨_, content, Text.Utf8.decode?_encode text⟩

/-- The settings file of a directory is the one that it offers. -/
theorem fileIn?_eq_some_iff : fileIn? tree directory = some path ↔ Offers tree directory path := by
  rw [fileIn?, fileNames]
  simp only [List.map_cons, List.map_nil, List.find?_cons, List.find?_nil]
  -- The plain name is tried first, so a hidden file counts only without it.
  cases plain : tree.isFile (directory ++ ["codable-synth.toml"]) with
  | true =>
    constructor
    · rintro ⟨⟩
      exact .plain plain
    · rintro (file | ⟨missing, -⟩)
      · rfl
      · exact absurd (missing.symm.trans plain) (by simp)
  | false =>
    cases hidden : tree.isFile (directory ++ [".codable-synth.toml"]) with
    | true =>
      constructor
      · rintro ⟨⟩
        exact .hidden plain hidden
      · rintro (file | file)
        · exact absurd (plain.symm.trans file) (by simp)
        · rfl
    | false =>
      refine iff_of_false (by simp) ?_
      rintro (file | ⟨-, file⟩)
      · exact absurd (plain.symm.trans file) (by simp)
      · exact absurd (hidden.symm.trans file) (by simp)

/-- A directory has no settings file exactly if it offers none. -/
theorem fileIn?_eq_none_iff :
    fileIn? tree directory = none ↔ ∀ path, ¬Offers tree directory path := by
  -- Nothing is found exactly if no path is the one that is found.
  simp only [Option.eq_none_iff_forall_ne_some, ne_eq, fileIn?_eq_some_iff]

/-- A directory is taken for the root of a workspace exactly if its manifest declares one. -/
theorem isWorkspaceRoot_iff :
    isWorkspaceRoot tree directory = true ↔ DeclaresWorkspace tree directory := by
  rw [isWorkspaceRoot, DeclaresWorkspace]
  cases read : tree.text? (directory ++ ["Cargo.toml"]) with
  | none =>
    refine iff_of_false (by simp) ?_
    rintro ⟨text, -, -, holds, -⟩
    exact absurd (read.symm.trans (text?_eq_some_iff.mpr holds)) (by simp)
  | some text =>
    -- The file holds no other text.
    have only (other : String) : Holds tree (directory ++ ["Cargo.toml"]) other ↔ text = other := by
      rw [← text?_eq_some_iff, read, Option.some.injEq]
    simp only [only, Option.bind_some]
    cases parsed : Toml.ofText? text with
    | none => simp [parsed]
    | some entries => simp [parsed, Option.isSome_iff_exists]

/-- From the root of the tree there is nowhere to go. -/
theorem nearest?_root : nearest? tree [] = fileIn? tree [] := rfl

/-- From any other directory the search goes on at the parent, if it does. -/
theorem nearest?_concat (parent : List String) (name : String) :
    nearest? tree (parent ++ [name]) = (fileIn? tree (parent ++ [name])).or
      (if isWorkspaceRoot tree (parent ++ [name]) then none else nearest? tree parent) := by
  -- The search looks at the last name of the path first, and so at the directory itself.
  rw [nearest?, List.reverse_append, List.reverse_singleton, List.singleton_append, nearestFrom,
    List.reverse_cons, List.reverse_reverse]
  cases fileIn? tree (parent ++ [name]) <;> rfl

/-- The search finds the file of the first directory around that does not pass it on. -/
theorem nearest?_eq_some_iff :
    nearest? tree start = some path ↔
      FailsFirst (GoesOn tree) (Offers tree · path) (around start) := by
  -- The search goes upward, so the induction takes the last name off the directory.
  induction start using List.reverseRecOn with
  | nil =>
    rw [around_root, failsFirst_cons_iff, nearest?_root, fileIn?_eq_some_iff]
    simp
  | append_singleton parent name ih =>
    rw [around_concat, failsFirst_cons_iff, ← ih, nearest?_concat, Option.or_eq_some_iff,
      fileIn?_eq_some_iff, fileIn?_eq_none_iff, GoesOn, ← isWorkspaceRoot_iff]
    simp [and_assoc]

/-- The search finds nothing if all directories around pass it on, or the first that does not ends it. -/
theorem nearest?_eq_none_iff :
    nearest? tree start = none ↔ (∀ directory ∈ around start, GoesOn tree directory) ∨
      FailsFirst (GoesOn tree) (EndsAt tree) (around start) := by
  induction start using List.reverseRecOn with
  | nil =>
    rw [around_root, failsFirst_cons_iff, nearest?_root, fileIn?_eq_none_iff,
      List.forall_mem_singleton, GoesOn, EndsAt]
    -- There is nothing around the root, so it does not matter what its manifest says.
    by_cases declares : DeclaresWorkspace tree []
    · simp [declares]
    · simp [declares]
  | append_singleton parent name ih =>
    rw [around_concat, failsFirst_cons_iff, nearest?_concat, Option.or_eq_none_iff,
      fileIn?_eq_none_iff, List.forall_mem_cons, GoesOn, EndsAt]
    cases root : isWorkspaceRoot tree (parent ++ [name]) with
    | true => simp [isWorkspaceRoot_iff.mp root]
    | false =>
      have open_ : ¬DeclaresWorkspace tree (parent ++ [name]) := by
        rw [← isWorkspaceRoot_iff, root]
        simp
      simp [open_, ih, and_or_left]

/-- What is made of the settings in a file is the context that they load, or the fault. -/
theorem loads_ofFile (tree : FileTree) (path : List String) :
    Loads tree path (ofFile tree path >>= Context.ofConfig) := by
  -- A file that cannot be read as a text is reported before its settings are looked at.
  rw [ofFile]
  cases read : tree.text? path with
  | none =>
    refine .unreadable fun text holds => ?_
    exact absurd (read.symm.trans (text?_eq_some_iff.mpr holds)) (by simp)
  | some text =>
    have holds := text?_eq_some_iff.mp read
    dsimp only
    rw [ofText]
    cases parsed : (Toml.ofText? text).bind ofEntries? with
    | none => exact .malformed holds parsed
    | some config => exact .loaded holds parsed

/--
The search for settings from a directory finds the file that the nearest directory offers, unless a
nearer one is the root of a workspace; there, and at the root of the tree, it ends. The file that is
found is the only one that counts: its settings are loaded, or its fault is reported. Without a file,
or without a directory to start from, the settings are the standard ones.
-/
theorem discover_nearest (tree : FileTree) (start : List String) :
    (∀ path, nearest? tree start = some path ↔
        FailsFirst (GoesOn tree) (Offers tree · path) (around start)) ∧
      (nearest? tree start = none ↔ (∀ directory ∈ around start, GoesOn tree directory) ∨
        FailsFirst (GoesOn tree) (EndsAt tree) (around start)) ∧
      (∀ path, nearest? tree start = some path →
        Loads tree path (Context.discover tree (some start))) ∧
      (nearest? tree start = none →
        Context.discover tree (some start) = .ok ⟨{}, Context.standardRuntime⟩) ∧
      Context.discover tree none = .ok ⟨{}, Context.standardRuntime⟩ := by
  -- Both searches are the same list of directories, and the context is made of what is found.
  refine ⟨fun path => nearest?_eq_some_iff, nearest?_eq_none_iff, fun path found => ?_,
    fun nothing => ?_, rfl⟩
  · rw [Context.discover, discover, Option.bind_some, found]
    exact loads_ofFile tree path
  · rw [Context.discover, discover, Option.bind_some, nothing]
    rfl

end KeyedCoding.Config
