import KeyedCoding.Grammar
import KeyedCoding.Proofs.Token.Reader

/-!
Declarations as they are read: the named fields of their structs have names that a field can have.
-/

namespace KeyedCoding

/-- Whether a name can be that of a field: it is not reserved, or it is the blank name. -/
def Name.namesField (name : Name) : Bool :=
  name.spelling == "_" || !Look.reserved.contains name.spelling

/-- The named fields of a struct have names that a field can have. -/
def Struct.FieldsNamed (decl : Struct) : Prop :=
  ∀ fields trailing, decl.fields = .named fields trailing → ∀ field ∈ fields,
    field.name.namesField = true

/--
The structs of a declaration, itself or those in its body, have fields with names that a field can
have.
-/
def Item.FieldsNamed (item : Item) : Prop :=
  match item with
  | .struct decl => decl.FieldsNamed
  | .mod ⟨_, _, _, some items⟩ => ∀ decl, .struct decl ∈ items → decl.FieldsNamed
  | _ => True

namespace Reader

variable {α β : Type} {first second : Reader α} {next : α → Reader β} {holds : β → Prop}

/-- Two ways to go on with the same reader give what that reader gives. -/
theorem Gives.join {condition : Prop} [Decidable condition]
    (onward : ∀ value, (next value).Gives holds) :
    (if condition then first >>= next else second >>= next).Gives holds :=
  Gives.ite (Gives.then onward) (Gives.then onward)

end Reader

namespace Grammar

open Reader

variable {g : Grammar}

/-- A field has a name that a field can have. -/
theorem field_gives : g.field.Gives fun field => field.name.namesField = true := by
  refine Gives.then fun attrs => Gives.then fun visibility =>
    Leads.bind (Leads.sees _) fun blank => ?_
  -- Behind the name stands only the type.
  have rest (name : Name) (named : name.namesField = true) : (do
      let _ ← symbol ":"
      return (⟨attrs, visibility, name, ← g.ty true⟩ : Field)).Gives fun field =>
        field.name.namesField = true :=
    Gives.then fun _ => Gives.then fun ty => Gives.pure named
  cases blank with
  | true =>
    -- The blank name has been seen before it is taken.
    have word : anyName.Leads (fun source => True ∧ true = Look.word "_" source.rest)
        fun name _ => name.namesField = true := by
      intro scope source name left known read
      rw [anyName_eq_ok read] at known
      rw [Name.namesField, show (name.spelling == "_") = true from known.2.symm, Bool.true_or]
    exact Leads.bind word fun name => Leads.of_gives (rest name)
  | false =>
    -- Every other name is checked for reserved words.
    have plain : Reader.name.Gives fun found => found.namesField = true := by
      intro scope source found left known read
      have free := (name_eq_ok read).2
      change (found.spelling == "_" || !Look.reserved.contains found.spelling) = true
      rw [free, Bool.not_false, Bool.or_true]
    exact Leads.mono (Gives.bind plain rest) (fun _ _ => trivial) fun _ _ has => has

/-- Named fields have names that a field can have. -/
theorem namedFields_gives :
    g.namedFields.Gives fun result => ∀ field ∈ result.1, field.name.namesField = true :=
  Gives.bind (Gives.within (Gives.listUntil field_gives)) fun _ named => Gives.pure named

/-- A struct has fields with names that a field can have. -/
theorem structItem_gives (attrs : List Attribute) :
    (g.structItem attrs).Gives Struct.FieldsNamed := by
  -- Of the three kinds of fields only the named ones have names.
  have fields : g.structFields.Gives fun result =>
      ∀ fields trailing, result.1 = .named fields trailing → ∀ field ∈ fields,
        field.name.namesField = true := by
    refine Gives.then fun before => Gives.then fun tokens => ?_
    split
    · exact Gives.then fun slots => Gives.then fun clause => Gives.then fun _ =>
        Gives.pure (by simp)
    · split
      · refine Gives.bind namedFields_gives fun result named =>
          Gives.pure fun fields trailing same => ?_
        cases same
        exact named
      · split
        · exact Gives.then fun _ => Gives.pure (by simp)
        · exact Gives.failHere _
  exact Gives.then fun head => Gives.bind fields fun result named => Gives.pure named

/-- A declaration that is kept as tokens, or as an impl, has no fields. -/
theorem kept_gives (start : List Token) (attrs : List Attribute) (written : List Token) :
    (g.functionItem start written).Gives Item.FieldsNamed ∧
      (g.implItem start attrs).Gives Item.FieldsNamed ∧
        ∀ kind body, (plainItem start written kind body).Gives Item.FieldsNamed := by
  refine ⟨?_, ?_, fun kind body => ?_⟩
  -- Whatever is read on the way, what is given in the end is no struct and no module.
  · unfold functionItem
    repeat' first
      | exact Gives.pure trivial
      | refine Gives.then fun _ => ?_
      | refine Gives.ite ?_ ?_
  · unfold implItem
    repeat' first
      | exact Gives.pure trivial
      | refine Gives.join fun _ => ?_
      | refine Gives.then fun _ => ?_
      | refine Gives.ite ?_ ?_
  · unfold plainItem
    repeat' first
      | exact Gives.pure trivial
      | refine Gives.then fun _ => ?_
      | refine Gives.ite ?_ ?_

/-- A module holds structs as they are read. -/
theorem modItem_gives (nested : g.item.Gives Item.FieldsNamed) (attrs : List Attribute) :
    (do return .mod (← g.modItem attrs) : Reader Item).Gives Item.FieldsNamed := by
  -- The body is a repetition of declarations, each read by the next layer.
  have body : (do
      let inner ← g.ownerAttrs
      return (inner, ← many (!·.isEmpty) g.item)).Gives fun result =>
        ∀ item ∈ result.2, item.FieldsNamed :=
    Gives.then fun inner => Gives.bind (Gives.many nested) fun items named => Gives.pure named
  -- A module without a body has no structs.
  have decl : (g.modItem attrs).Gives fun decl => (Item.mod decl).FieldsNamed := by
    unfold modItem
    refine Gives.then fun visibility => Gives.then fun safety => Gives.then fun keyword =>
      Gives.then fun _ => ?_
    refine Gives.join fun name => Gives.then fun semicolon => ?_
    split
    · exact Gives.then fun _ => Gives.pure trivial
    · refine Gives.bind (Gives.within body) fun result named => Gives.pure fun decl inside => ?_
      exact named (.struct decl) inside
  exact Gives.bind decl fun decl named => Gives.pure named

/-- A declaration is read with fields that have names, if those nested in it are. -/
theorem readItem_gives (nested : g.item.Gives Item.FieldsNamed) :
    g.readItem.Gives Item.FieldsNamed := by
  have plain (start written : List Token) (kind : ItemKind) (body : Reader (List Token × Bool)) :
      (plainItem start written kind body).Gives Item.FieldsNamed :=
    (@kept_gives g start [] written).2.2 kind body
  unfold readItem
  refine Gives.then fun start => Gives.then fun attrs => Gives.then fun written =>
    Gives.then fun ahead => ?_
  refine Gives.then fun tokens => ?_
  -- Structs and modules are read as such; all other kinds of declarations hold no struct.
  have functions := (@kept_gives g start attrs written).1
  have impls := (@kept_gives g start attrs written).2.1
  have structs : (do return .struct (← g.structItem attrs) : Reader Item).Gives Item.FieldsNamed :=
    Gives.bind (structItem_gives attrs) fun decl named => Gives.pure named
  have enums : (do return .enum (← g.enumItem attrs) : Reader Item).Gives Item.FieldsNamed :=
    Gives.then fun decl => Gives.pure trivial
  have unions : (do return .union (← g.unionItem attrs) : Reader Item).Gives Item.FieldsNamed :=
    Gives.then fun decl => Gives.pure trivial
  have invocations : (do
      let body ← invocationBody
      return .other .invocation (written ++ body) : Reader Item).Gives Item.FieldsNamed :=
    Gives.then fun body => Gives.pure trivial
  split
  -- The keyword decides which kind of declaration is read.
  all_goals
    dsimp only
    refine Gives.ite functions (Gives.ite (Gives.ite (plain _ _ _ _) (plain _ _ _ _)) ?_)
    refine Gives.ite (plain _ _ _ _) (Gives.ite (plain _ _ _ _) (Gives.ite (plain _ _ _ _) ?_))
    refine Gives.ite (modItem_gives nested attrs) (Gives.ite (plain _ _ _ _) (Gives.ite structs ?_))
    refine Gives.ite enums (Gives.ite unions (Gives.ite impls (Gives.ite (plain _ _ _ _) ?_)))
    refine Gives.ite (plain _ _ _ _) (Gives.ite (plain _ _ _ _) (Gives.ite invocations ?_))
    exact Gives.failHere _

/-- Every layer of the grammar reads declarations with fields that have names. -/
theorem item_gives (depth : Nat) : (ofDepth depth).item.Gives Item.FieldsNamed := by
  -- A layer refers to the one below it for what is nested.
  induction depth with
  | zero => exact Gives.failHere _
  | succ depth ih => exact readItem_gives ih

/-- A declaration that is read from tokens has fields with names that a field can have. -/
theorem fieldsNamed_of_read {tokens : List Token} {close : Position} {item : Item}
    (read : Grammar.read (·.item) tokens close = .ok item) : item.FieldsNamed :=
  Gives.of_run (item_gives _) read

end Grammar

end KeyedCoding
