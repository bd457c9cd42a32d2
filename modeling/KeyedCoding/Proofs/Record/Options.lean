import KeyedCoding.Proofs.Grammar.Depth
import KeyedCoding.Proofs.Grammar.Locality
import KeyedCoding.Proofs.Record.Fields
import KeyedCoding.Proofs.Token.Separated

/-!
Written options: the attributes of a field say what the options in them say on their own, in whatever
order the options stand and in however many attributes.
-/

namespace KeyedCoding

/-- What one option of a field says. -/
inductive FieldOption where
  | skip
  | readonly
  | default (value : Expr)
  | rename (key : String)
  | unknown (path : Path)

namespace FieldOption

open Reader

/-- The names of the known options. -/
def names : List String := ["skip", "readonly", "default", "rename"]

/-- Whether an option gives a default. -/
def isDefault : FieldOption → Bool
  | default _ => true
  | _ => false

/-- Whether an option gives a new key. -/
def isRename : FieldOption → Bool
  | rename _ => true
  | _ => false

/-- Tokens that say an option on their own. -/
inductive Writes : FieldOption → List Token → Prop
  | skip (pos : Position) : Writes .skip [.name "skip" pos]
  | readonly (pos : Position) : Writes .readonly [.name "readonly" pos]
  | default {body : List Token} {close : Position} {value : Expr} (pos place : Position)
      (joint : Bool) (read : Grammar.read (·.expr true) body close = .ok value) :
      Writes (.default value) (.name "default" pos :: .punct '=' joint place :: body)
  | rename {written : String} (pos place at_ : Position) (joint : Bool)
      (text : Look.isText written = true) :
      Writes (.rename (Token.literal written at_).textValue)
        [.name "rename" pos, .punct '=' joint place, .literal written at_]
  | unknown {tokens left : List Token} {path : Path}
      (read : Grammar.argumentPath.Reads tokens path left)
      (other : ∀ name ∈ names, path.isName name = false) : Writes (.unknown path) tokens

end FieldOption

/-- An option as it is written, with what it says. -/
structure WrittenOption where
  tokens : List Token
  option : FieldOption
  writes : option.Writes tokens

namespace WrittenOption

/-- Tokens that list options: commas stand between them, and one may stand behind the last. -/
inductive Lists : List WrittenOption → List Token → Prop
  | none : Lists [] []
  | last (entry : WrittenOption) : Lists [entry] entry.tokens
  | more (entry : WrittenOption) {entries : List WrittenOption} {tokens : List Token} (joint : Bool)
      (pos : Position) (others : Lists entries tokens) :
      Lists (entry :: entries) (entry.tokens ++ .punct ',' joint pos :: tokens)

/-- Attributes that hold options: every coding attribute lists some of them, in brackets. -/
inductive Holds : List Attribute → List WrittenOption → Prop
  | nil : Holds [] []
  | coding {attr : Attribute} {delim : Delimiter} {body : List Token} {opened closed : Position}
      {entries more : List WrittenOption} {attributes : List Attribute}
      (named : attr.path.isName Attribute.codableName = true)
      (content : attr.inside.content = .list delim body opened closed) (lists : Lists entries body)
      (others : Holds attributes more) : Holds (attr :: attributes) (entries ++ more)
  | foreign {attr : Attribute} {entries : List WrittenOption} {attributes : List Attribute}
      (named : attr.path.isName Attribute.codableName = false) (others : Holds attributes entries) :
      Holds (attr :: attributes) entries

/-- Attributes in another order hold the same options in another order. -/
theorem Holds.perm {attributes others : List Attribute} {entries : List WrittenOption}
    (holds : Holds attributes entries) (same : attributes.Perm others) :
    ∃ more, Holds others more ∧ entries.Perm more := by
  -- The induction follows the exchange of attributes; two neighbours may each be coding or foreign.
  induction same generalizing entries with
  | nil => exact ⟨entries, holds, .refl _⟩
  -- In front there may be either kind of attribute, and it stays in front.
  | cons attr _ ih =>
    cases holds with
    | coding named content lists rest =>
      obtain ⟨more, held, same⟩ := ih rest
      exact ⟨_, .coding named content lists held, same.append_left _⟩
    | foreign named rest =>
      obtain ⟨more, held, same⟩ := ih rest
      exact ⟨more, .foreign named held, same⟩
  -- Of four ways in which two attributes stand next to each other only one exchanges options.
  | swap first second rest =>
    rcases holds with - | ⟨named, content, lists, - | ⟨named', content', lists', rest⟩ |
      ⟨named', rest⟩⟩ | ⟨named, - | ⟨named', content', lists', rest⟩ | ⟨named', rest⟩⟩
    · refine ⟨_, .coding named' content' lists' (.coding named content lists rest), ?_⟩
      simpa only [List.append_assoc] using List.perm_append_comm.append_right _
    · exact ⟨_, .foreign named' (.coding named content lists rest), .refl _⟩
    · exact ⟨_, .coding named' content' lists' (.foreign named rest), .refl _⟩
    · exact ⟨_, .foreign named' (.foreign named rest), .refl _⟩
  | trans _ _ first second =>
    obtain ⟨between, held, same⟩ := first holds
    obtain ⟨more, held, again⟩ := second held
    exact ⟨more, held, same.trans again⟩

end WrittenOption

/-- A coding attribute does not mark a field as secure. -/
theorem Attribute.not_isSecure_of_isCodable {attr : Attribute}
    (codable : attr.path.isName codableName = true) : attr.path.isName secureName = false := by
  -- An attribute has one path, and the two names differ.
  rw [← Bool.not_eq_true]
  exact fun secure => absurd (Path.eq_of_isName secure codable) (by decide)

/-! Reading one argument. -/

namespace Grammar

open Reader Look

/-- A word that no colons follow is the path of an argument. -/
theorem argumentPath_reads {spelling : String} {pos : Position} {left : List Token}
    (ends : Look.symbol "::" left = false) :
    argumentPath.Reads (.name spelling pos :: left) (.ofName ⟨spelling, pos⟩) left := by
  -- A word that no colons follow is one segment, so the repetition over segments ends at once.
  have first : anyName.Reads (.name spelling pos :: left) ⟨spelling, pos⟩ left :=
    Reads.anyName ⟨spelling, pos⟩
  refine Reads.bind (Reads.sees _) (Reads.bind Reads.rest ?_)
  exact Reads.bind first (Reads.bind (Reads.many (.done ends)) Reads.pure)

/-- An argument has a path, which is read alike wherever it stands. -/
theorem argumentPath_eager : argumentPath.Eager := by
  have names (leading : Option Position) : (argumentNames leading).Eager := by
    refine .rest fun tokens => .test tokens .anyWord (.eager .anyName fun _ => .bind
      (.many (.symbol (by decide)) (.eager (.symbol _) fun _ => .anyName)) fun _ => .pure _) ?_
    -- Without a word there is no argument, whatever stands there instead.
    refine .fails fun setting scope source value left => ?_
    split
    · exact failHere_ne_ok
    · split <;> exact failHere_ne_ok
  intro slack inner known
  refine .bind (.sees (.symbol (by decide))) fun seen => .ite ?_ (names _)
  exact .here_cons fun pos => .eager (.symbol _) fun _ => names _

/-- What is read of tokens as an expression is read before a comma, too, with any more layers. -/
theorem expr_before {body : List Token} {close : Position} {value : Expr} {depth : Nat}
    (read : Grammar.read (·.expr true) body close = .ok value)
    (enough : 6 * Token.weightAll body + 12 ≤ depth) (tail : Tail) (scope : Position) :
    ∃ noted, (ofDepth depth).expr true scope ⟨body ++ tail.tokens, [], none⟩ =
      .ok (value, ⟨tail.tokens, noted, none⟩) := by
  -- With enough layers the grammar reads as with those that fit the tokens, and it is local at each
  -- depth.
  obtain ⟨noted, alone⟩ := run_eq_ok_iff.mp read
  exact ⟨noted, ((ofDepth_local depth).expr true).before
    ((ofDepth_refines enough).expr true alone) tail⟩

end Grammar

namespace FieldOptions

/-- The options with one more, unless it is unknown or must not be given twice. -/
def add? (options : FieldOptions) : FieldOption → Option FieldOptions
  | .skip => some { options with skip := true }
  | .readonly => some { options with readonly := true }
  | .default value =>
    if options.default.isSome then none else some { options with default := some value }
  | .rename key =>
    if options.rename.isSome then none else some { options with rename := some key }
  | .unknown _ => none

/-- The options with some more, one after the other. -/
def gather? (start : FieldOptions) (entries : List WrittenOption) : Option FieldOptions :=
  entries.foldlM (fun options entry => options.add? entry.option) start

variable {start options : FieldOptions} {one other entries more : List WrittenOption}

/-- Of two options either can be added first. -/
theorem add?_right_comm (options : FieldOptions) (one other : FieldOption) :
    (options.add? one >>= fun next => next.add? other) =
      options.add? other >>= fun next => next.add? one := by
  -- Each option has a place of its own, and only one option of a kind can take it.
  obtain ⟨skip, readonly, default, rename, secure⟩ := options
  cases default <;> cases rename <;> cases one <;> cases other <;> rfl

/-- The order of options does not matter. -/
theorem gather?_perm (same : one.Perm other) (start : FieldOptions) :
    start.gather? one = start.gather? other := by
  -- Only a swap of two neighbours needs an argument: neither of their additions sees the other.
  induction same generalizing start with
  | nil => rfl
  | cons entry _ ih =>
    simp only [gather?, List.foldlM_cons] at ih ⊢
    exact congrArg _ (funext ih)
  | swap first second rest =>
    simp only [gather?, List.foldlM_cons, ← bind_assoc]
    rw [add?_right_comm]
  | trans _ _ first second => exact (first start).trans (second start)

/-- Options in two lists are added as those of one list. -/
theorem gather?_append (start : FieldOptions) (entries more : List WrittenOption) :
    start.gather? (entries ++ more) = start.gather? entries >>= fun next => next.gather? more :=
  List.foldlM_append

/-! Reading listed options. -/

section Reading

open Reader Grammar WrittenOption

variable {depth : Nat} {heads : List String} {scope : Position}

/--
A reader of options gives what they become, or nothing if they become nothing. Only a default notes
type heads, and reading one starts without any.
-/
def Gathers (reader : Reader FieldOptions) (scope : Position) (source : Source)
    (outcome : Option FieldOptions) (left : List Token) : Prop :=
  match outcome with
  | some after => ∃ noted, (after.default = none → noted = []) ∧
      reader scope source = .ok (after, ⟨left, noted, none⟩)
  | none => ∀ value rest, reader scope source ≠ .ok (value, rest)

/-- What a reader gives is what another one gives if both end alike. -/
theorem Gathers.of_eq {reader other : Reader FieldOptions} {source between : Source}
    {outcome : Option FieldOptions} {left : List Token}
    (gathers : Gathers other scope between outcome left)
    (same : reader scope source = other scope between) :
    Gathers reader scope source outcome left := by
  -- The two readers end alike on what they are given.
  unfold Gathers at gathers ⊢
  rwa [same]

/-- An option says before a comma what it says on its own. -/
theorem option_gathers (entry : WrittenOption) (tail : Tail)
    (enough : 6 * Token.weightAll entry.tokens + 12 ≤ depth)
    (fresh : options.default = none → heads = []) :
    Gathers (argumentPath >>= readOption (ofDepth depth) options) scope
      ⟨entry.tokens ++ tail.tokens, heads, none⟩ (options.add? entry.option) tail.tokens := by
  have ends : Look.symbol "::" tail.tokens = false :=
    Look.Blind.symbol (by decide) tail []
  -- One case for each form of an option.
  obtain ⟨tokens, option, writes⟩ := entry
  cases writes with
  | skip pos =>
    refine ⟨heads, fresh, ((argumentPath_reads ends).bind_eq _ _ _).trans ?_⟩
    simp only [readOption, Path.isName_ofName]
    rfl
  | readonly pos =>
    refine ⟨heads, fresh, ((argumentPath_reads ends).bind_eq _ _ _).trans ?_⟩
    simp only [readOption, Path.isName_ofName]
    rfl
  | @default body close value pos place joint read =>
    have path : argumentPath.Reads
        (.name "default" pos :: .punct '=' joint place :: (body ++ tail.tokens))
        (.ofName ⟨"default", pos⟩) (.punct '=' joint place :: (body ++ tail.tokens)) :=
      argumentPath_reads rfl
    have equals : (symbol "=").Reads (.punct '=' joint place :: (body ++ tail.tokens))
        (Token.symbolAt place "=") (body ++ tail.tokens) := Reads.symbol rfl
    cases known : options.default with
    | some before =>
      -- A second default is refused at its name.
      simp only [add?, known, Option.isSome_some, if_true]
      intro value rest twice
      rw [List.cons_append, List.cons_append, path.bind_eq] at twice
      simp only [readOption, Path.isName_ofName, known] at twice
      cases twice
    | none =>
      obtain rfl := fresh known
      -- The depth is enough for the value, since the value is a part of the option.
      have fewer : 6 * Token.weightAll body + 12 ≤ depth := by
        simp only [Token.weightAll] at enough
        omega
      obtain ⟨noted, whole⟩ := expr_before read fewer tail scope
      simp only [add?, known, Option.isSome_none, Bool.false_eq_true, if_false]
      refine ⟨noted, fun impossible => (by cases impossible), (path.bind_eq _ _ _).trans ?_⟩
      simp only [readOption, Path.isName_ofName, known]
      exact bind_run_eq ((equals.bind_eq _ _ _).trans whole)
  | @rename written pos place at_ joint text =>
    -- Here a text stands behind the equals sign.
    have path : argumentPath.Reads
        (.name "rename" pos :: .punct '=' joint place :: .literal written at_ :: tail.tokens)
        (.ofName ⟨"rename", pos⟩) (.punct '=' joint place :: .literal written at_ :: tail.tokens) :=
      argumentPath_reads rfl
    have key : argumentText.Reads (.punct '=' joint place :: .literal written at_ :: tail.tokens)
        (.literal written at_) tail.tokens := by
      refine Reads.bind (Reads.symbol rfl) (Reads.bind Reads.rest ?_)
      simp only [text, if_true]
      exact fun _ _ _ => rfl
    cases known : options.rename with
    | some before =>
      -- A second new key is refused at its name.
      simp only [add?, known, Option.isSome_some, if_true]
      intro value rest twice
      rw [List.cons_append, List.cons_append, List.cons_append, List.nil_append,
        path.bind_eq] at twice
      simp only [readOption, Path.isName_ofName, known] at twice
      cases twice
    | none =>
      simp only [add?, known, Option.isSome_none, Bool.false_eq_true, if_false]
      refine ⟨heads, fresh, (path.bind_eq _ _ _).trans ?_⟩
      simp only [readOption, Path.isName_ofName, known]
      exact key.bind_eq _ _ _
  | @unknown _ left path read other =>
    have before : argumentPath scope ⟨tokens ++ tail.tokens, heads, none⟩ =
        .ok (path, ⟨left ++ tail.tokens, heads, none⟩) :=
      argumentPath_eager.before (read scope heads none) tail
    have others : path.isName "skip" = false ∧ path.isName "readonly" = false ∧
        path.isName "default" = false ∧ path.isName "rename" = false := by
      simpa [FieldOption.names] using other
    -- No branch is left but the one that refuses the name.
    intro value rest refused
    rw [bind_run_eq before, readOption, others.1, others.2.1, others.2.2.1, others.2.2.2] at refused
    cases refused

/-- An option has at least one token. -/
theorem isEmpty_tokens (entry : WrittenOption) : entry.tokens.isEmpty = false := by
  -- An unknown option is at least a path, and the reader of paths takes something.
  obtain ⟨tokens, option, writes⟩ := entry
  cases writes with
  | @unknown _ left path read other =>
    cases tokens with
    | nil => exact absurd rfl (argumentPath_eager.ne_nil (read .origin [] none))
    | cons token more => rfl
  | _ => rfl

section Step

variable {σ : Type} {step : σ → Path → Reader σ} {state next : σ} {source between : Source}

/-- Behind an argument either the end of the group or a comma is taken. -/
theorem argumentStep_eq (goesOn : source.rest.isEmpty = false)
    (read : (argumentPath >>= step state) scope source = .ok (next, between)) :
    argumentStep step state scope source =
      (do
        if ← atEnd then return .inr next
        else
          let _ ← symbol ","
          return .inl next : Reader (σ ⊕ σ)) scope between := by
  -- The test for the end fails, and the path is read before the choice behind it.
  refine (Reads.atEnd.bind_eq _ _ _).trans ?_
  rw [goesOn]
  exact (congrFun (congrFun (bind_assoc argumentPath (step state) _) scope) source).symm.trans
    (bind_run_eq read)

/-- An argument that is refused ends the reading. -/
theorem argumentStep_ne_ok (goesOn : source.rest.isEmpty = false)
    (never : ∀ value rest, (argumentPath >>= step state) scope source ≠ .ok (value, rest))
    {result : σ ⊕ σ} {rest : Source} :
    argumentStep step state scope source ≠ .ok (result, rest) := by
  -- The step would have read a path and a value, which the hypothesis excludes.
  intro read
  obtain ⟨ended, _, got, read⟩ := bind_run_iff.mp read
  cases got
  rw [goesOn] at read
  obtain ⟨path, _, head, read⟩ := bind_run_iff.mp read
  obtain ⟨value, _, tail, -⟩ := bind_run_iff.mp read
  exact never _ _ (bind_run_iff.mpr ⟨path, _, head, tail⟩)

end Step

/-- Options that are listed weigh no more than their list. -/
theorem weightAll_le_of_lists {tokens : List Token} (lists : Lists entries tokens) :
    ∀ entry ∈ entries, Token.weightAll entry.tokens ≤ Token.weightAll tokens := by
  -- Every option is a part of the list, so its weight is a summand.
  induction lists with
  | none => simp
  | last entry => simp
  | more entry joint pos others ih =>
    simp only [List.mem_cons, forall_eq_or_imp, Token.weightAll_append, Token.weightAll]
    exact ⟨by omega, fun other inside => by have := ih other inside; omega⟩

/-- Listed options are read as one after the other is added. -/
theorem arguments_gather {tokens : List Token} (lists : Lists entries tokens)
    (enough : ∀ entry ∈ entries, 6 * Token.weightAll entry.tokens + 12 ≤ depth)
    (fresh : options.default = none → heads = []) :
    Gathers (arguments (readOption (ofDepth depth)) options) scope ⟨tokens, heads, none⟩
      (options.gather? entries) [] := by
  -- Every round but the last takes a comma, so there are enough of them.
  have general (count : Nat) (rounds : tokens.length < count) :
      Gathers (iterateUpTo (argumentStep (readOption (ofDepth depth))) count options) scope
        ⟨tokens, heads, none⟩ (options.gather? entries) [] := by
    induction lists generalizing options heads count with
    | none =>
      obtain _ | count := count
      · omega
      · exact ⟨heads, fresh, rfl⟩
    | last entry =>
      obtain _ | count := count
      · omega
      -- The last option stands at the end, where the rounds stop behind it.
      have goesOn := isEmpty_tokens entry
      have read : Gathers (argumentPath >>= readOption (ofDepth depth) options) scope
          ⟨entry.tokens, heads, none⟩ (options.add? entry.option) [] := by
        simpa using option_gathers entry ⟨[], nofun⟩ (enough entry (by simp)) fresh
      simp only [gather?, List.foldlM_cons, List.foldlM_nil]
      cases added : options.add? entry.option with
      | none =>
        rw [added] at read
        intro value rest all
        obtain ⟨_, _, head, -⟩ := bind_run_iff.mp all
        exact argumentStep_ne_ok goesOn read head
      | some after =>
        rw [added] at read
        obtain ⟨noted, clean, read⟩ := read
        exact ⟨noted, clean, bind_run_eq (argumentStep_eq goesOn read)⟩
    | @more entry entries tokens joint pos others ih =>
      obtain _ | count := count
      · omega
      -- An option with a comma behind it is read before the comma.
      have goesOn : (entry.tokens ++ .punct ',' joint pos :: tokens).isEmpty = false := by simp
      have read : Gathers (argumentPath >>= readOption (ofDepth depth) options) scope
          ⟨entry.tokens ++ .punct ',' joint pos :: tokens, heads, none⟩
          (options.add? entry.option) (.punct ',' joint pos :: tokens) :=
        option_gathers entry ⟨.punct ',' joint pos :: tokens, by simp⟩ (enough entry (by simp)) fresh
      simp only [gather?, List.foldlM_cons]
      cases added : options.add? entry.option with
      | none =>
        rw [added] at read
        intro value rest all
        obtain ⟨_, _, head, -⟩ := bind_run_iff.mp all
        exact argumentStep_ne_ok goesOn read head
      | some after =>
        rw [added] at read
        obtain ⟨noted, clean, read⟩ := read
        have onward := ih (fun entry inside => enough entry (by simp [inside])) clean count
          (by simp only [List.length_append, List.length_cons] at rounds; omega)
        -- The comma is taken, and the other options are read behind it.
        have comma : (symbol ",").Reads (.punct ',' joint pos :: tokens)
            (Token.symbolAt pos ",") tokens := Reads.symbol rfl
        have step : argumentStep (readOption (ofDepth depth)) options scope
            ⟨entry.tokens ++ .punct ',' joint pos :: tokens, heads, none⟩ =
              .ok (.inl after, ⟨tokens, noted, none⟩) :=
          (argumentStep_eq goesOn read).trans
            ((Reads.atEnd.bind_eq _ _ _).trans (comma.bind_eq _ _ _))
        exact onward.of_eq (bind_run_eq step)
  exact general _ (by simp)

/-- A coding attribute adds the options that it lists. -/
theorem addAttribute_coding {attr : Attribute} {delim : Delimiter} {body : List Token}
    {opened closed : Position} (named : attr.path.isName Attribute.codableName = true)
    (content : attr.inside.content = .list delim body opened closed) (lists : Lists entries body) :
    start.addAttribute attr = .ok options ↔ start.gather? entries = some options := by
  -- A coding attribute is not the secure one, so it is read as a list of options.
  have coding : start.addAttribute attr =
      Grammar.read (fun g => arguments (readOption g) start) body closed := by
    have plain := Attribute.not_isSecure_of_isCodable named
    simp [addAttribute, plain, named, Attribute.readList, content]
  -- The depth of the grammar is enough for the whole list, so it is for each option in it.
  have read : Gathers (arguments (readOption (ofDepth (6 * Token.weightAll body + 12))) start) closed
      ⟨body, [], none⟩ (start.gather? entries) [] := by
    refine arguments_gather lists (fun entry inside => ?_) fun _ => rfl
    have := weightAll_le_of_lists lists entry inside
    omega
  rw [coding, Grammar.read, forTokens, run_eq_ok_iff]
  cases gathered : start.gather? entries with
  | none =>
    rw [gathered] at read
    constructor
    · rintro ⟨noted, given⟩
      exact absurd given (read _ _)
    · intro impossible
      cases impossible
  | some after =>
    rw [gathered] at read
    obtain ⟨noted, -, read⟩ := read
    simp [read]

end Reading

/-! Which options can be gathered. -/

/-- No option moves a field to secure storage, and none looks whether it has been moved there. -/
theorem gather?_secure (start : FieldOptions) (entries : List WrittenOption) (secure : Bool) :
    { start with secure }.gather? entries =
      (start.gather? entries).map fun gathered => { gathered with secure } := by
  -- The options are added one by one, and each addition leaves the mark of the store alone.
  induction entries generalizing start with
  | nil => rfl
  | cons entry rest ih =>
    have first : { start with secure }.add? entry.option =
        (start.add? entry.option).map fun added => { added with secure } := by
      obtain ⟨skip, readonly, default, rename, before⟩ := start
      cases default <;> cases rename <;> cases entry.option <;> rfl
    simp only [gather?, List.foldlM_cons, first] at ih ⊢
    cases start.add? entry.option with
    | none => rfl
    | some next => exact ih next

/-- Gathered options leave a field where it is. -/
theorem secure_of_gather? (gathered : start.gather? entries = some options) :
    options.secure = start.secure := by
  -- The starting options are those with their own mark set again.
  have same := gather?_secure start entries start.secure
  rw [gathered, Option.map_some, Option.some.injEq] at same
  have set := congrArg FieldOptions.secure same
  exact set

/-- Options can be gathered if all are known and no two give the same. -/
theorem isSome_gather?_iff (start : FieldOptions) (entries : List WrittenOption) :
    (start.gather? entries).isSome ↔
      (∀ entry ∈ entries, ∀ path, entry.option ≠ .unknown path) ∧
      entries.countP (·.option.isDefault) + start.default.isSome.toNat ≤ 1 ∧
      entries.countP (·.option.isRename) + start.rename.isSome.toNat ≤ 1 := by
  -- Each option but the marks is counted together with the one that is already there.
  induction entries generalizing start with
  | nil => cases start.default <;> cases start.rename <;> simp [gather?]
  | cons entry rest ih =>
    simp only [gather?, List.foldlM_cons, List.forall_mem_cons, List.countP_cons] at ih ⊢
    cases entry.option with
    -- The two marks may be repeated, so they are not counted.
    | skip => simpa [add?, FieldOption.isDefault, FieldOption.isRename] using ih _
    | readonly => simpa [add?, FieldOption.isDefault, FieldOption.isRename] using ih _
    | default value =>
      -- A default is added if there is none, and from then on it is counted as given.
      cases given : start.default with
      | none =>
        have onward := ih { start with default := some value }
        simp only [add?, given, Option.isSome_none, Option.isSome_some, Bool.toNat_true,
          Bool.toNat_false, FieldOption.isDefault, FieldOption.isRename, if_true, if_false,
          Bool.false_eq_true, Nat.add_zero] at onward ⊢
        simpa using onward
      | some before => simp [add?, given, FieldOption.isDefault]
    | rename key =>
      cases given : start.rename with
      | none =>
        have onward := ih { start with rename := some key }
        simp only [add?, given, Option.isSome_none, Option.isSome_some, Bool.toNat_true,
          Bool.toNat_false, FieldOption.isDefault, FieldOption.isRename, if_true, if_false,
          Bool.false_eq_true, Nat.add_zero] at onward ⊢
        simpa using onward
      | some before => simp [add?, given, FieldOption.isRename]
    | unknown path => simp [add?]

/-! The attributes of a field. -/

section Attributes

open WrittenOption

variable {attributes others : List Attribute}

/-- Whether an attribute says anything about the coding of its field. -/
def concerns (attr : Attribute) : Bool :=
  attr.path.isName Attribute.codableName || attr.path.isName Attribute.secureName

/-- An attribute that is neither a coding attribute nor a secure one adds nothing. -/
theorem addAttribute_foreign {attr : Attribute} (foreign : concerns attr = false)
    (options : FieldOptions) : options.addAttribute attr = .ok options := by
  -- None of the two names is that of the attribute, so both tests fail.
  obtain ⟨coding, secure⟩ := Bool.or_eq_false_iff.mp foreign
  rw [addAttribute, coding, secure]
  rfl

/-- Only coding attributes and secure ones matter. -/
theorem ofAttributes_filter (attributes : List Attribute) :
    ofAttributes (attributes.filter concerns) = ofAttributes attributes := by
  -- The start may be anything, since the attributes are added one after the other.
  unfold ofAttributes
  generalize ({} : FieldOptions) = start
  induction attributes generalizing start with
  | nil => rfl
  | cons attr rest ih =>
    cases matters : concerns attr with
    | true =>
      rw [List.filter_cons_of_pos matters, List.foldlM_cons, List.foldlM_cons]
      exact congrArg _ (funext ih)
    | false =>
      rw [List.filter_cons_of_neg (by simp [matters]), List.foldlM_cons,
        addAttribute_foreign matters]
      exact ih start

/-- Attributes give the options that they hold, on a field that is secure if one of them says so. -/
theorem foldlM_addAttribute (holds : Holds attributes entries) (start : FieldOptions) :
    attributes.foldlM addAttribute start = .ok options ↔ ∃ gathered,
      start.gather? entries = some gathered ∧ options = { gathered with
        secure := start.secure || attributes.any (·.path.isName Attribute.secureName) } := by
  -- A coding attribute adds its own options; a foreign one at most marks the field.
  induction holds generalizing start with
  -- Without attributes nothing changes.
  | nil =>
    simp only [List.foldlM_nil, gather?, List.any_nil, Bool.or_false, Option.pure_def,
      Option.some.injEq, exists_eq_left']
    exact ⟨fun same => (Except.ok.inj same).symm, fun same => congrArg Except.ok same.symm⟩
  | @coding attr delim body opened closed entries more attributes named content lists others ih =>
    -- A coding attribute is not the secure one, so the field stays where it is.
    have plain := Attribute.not_isSecure_of_isCodable named
    rw [List.foldlM_cons, bind_eq_ok_iff, gather?_append, List.any_cons, plain, Bool.false_or]
    constructor
    · rintro ⟨next, added, rest⟩
      have gathered := (addAttribute_coding named content lists).mp added
      obtain ⟨last, later, same⟩ := (ih next).mp rest
      refine ⟨last, ?_, by rw [same, secure_of_gather? gathered]⟩
      rw [gathered]
      exact later
    · rintro ⟨last, all, same⟩
      obtain ⟨next, gathered, later⟩ := Option.bind_eq_some_iff.mp all
      refine ⟨next, (addAttribute_coding named content lists).mpr gathered, (ih next).mpr ?_⟩
      exact ⟨last, later, by rw [same, secure_of_gather? gathered]⟩
  | @foreign attr entries attributes named others ih =>
    -- A foreign attribute holds no options, and it is looked at only for the mark.
    have added : start.addAttribute attr =
        .ok { start with secure := start.secure || attr.path.isName Attribute.secureName } := by
      rw [addAttribute, named]
      cases attr.path.isName Attribute.secureName <;> simp
    rw [List.foldlM_cons, added, List.any_cons]
    refine (ih _).trans ?_
    rw [gather?_secure]
    simp [Bool.or_assoc]

/-- The attributes of a field give what the options in them say on their own. -/
theorem ofAttributes_eq_ok_iff (holds : Holds attributes entries) :
    ofAttributes attributes = .ok options ↔ ∃ gathered,
      ({} : FieldOptions).gather? entries = some gathered ∧ options = { gathered with
        secure := attributes.any (·.path.isName Attribute.secureName) } :=
  foldlM_addAttribute holds {}

/--
The options of a field do not depend on the order of its attributes, nor on the order of the options
in them, nor on how the options are spread over coding attributes. An unknown option, a second default
and a second new key are refused wherever they stand, and other attributes make no difference.
-/
theorem ofAttributes_regrouped (holds : Holds attributes entries) :
    (∀ others more, Holds others more → entries.Perm more →
      attributes.any (·.path.isName Attribute.secureName) =
        others.any (·.path.isName Attribute.secureName) →
      ∀ options, ofAttributes attributes = .ok options ↔ ofAttributes others = .ok options) ∧
    (∀ others, attributes.Perm others →
      ∀ options, ofAttributes attributes = .ok options ↔ ofAttributes others = .ok options) ∧
    ((∃ options, ofAttributes attributes = .ok options) ↔
      (∀ entry ∈ entries, ∀ path, entry.option ≠ .unknown path) ∧
        entries.countP (·.option.isDefault) ≤ 1 ∧ entries.countP (·.option.isRename) ≤ 1) ∧
    ∀ others, others.filter concerns = attributes.filter concerns →
      ofAttributes others = ofAttributes attributes := by
  -- What the options are depends only on what is gathered and on the mark of the store.
  have regrouped {others : List Attribute} {more : List WrittenOption} (also : Holds others more)
      (same : entries.Perm more) (secure : attributes.any (·.path.isName Attribute.secureName) =
        others.any (·.path.isName Attribute.secureName)) (options : FieldOptions) :
      ofAttributes attributes = .ok options ↔ ofAttributes others = .ok options := by
    rw [ofAttributes_eq_ok_iff holds, ofAttributes_eq_ok_iff also, gather?_perm same, secure]
  refine ⟨fun others more => regrouped, fun others same options => ?_, ?_, fun others same => ?_⟩
  · obtain ⟨more, also, permuted⟩ := holds.perm same
    exact regrouped also permuted (same.any_eq) options
  · have known := isSome_gather?_iff {} entries
    simp only [Option.isSome_none, Bool.toNat_false, Nat.add_zero] at known
    rw [← known, Option.isSome_iff_exists]
    simp [ofAttributes_eq_ok_iff holds]
  · rw [← ofAttributes_filter others, same, ofAttributes_filter]

/-- A mark that a field is computed once, as it is written. -/
def writtenReadonly : WrittenOption := ⟨_, _, .readonly .origin⟩

/-- A default, as it is written. -/
def writtenDefault : WrittenOption :=
  have read : Grammar.read (·.expr true) [.literal "42" .origin] .origin =
      .ok ⟨[.literal "42" .origin], .other⟩ := rfl
  ⟨_, _, .default .origin .origin false read⟩

/-- A new key, as it is written. -/
def writtenKey : WrittenOption :=
  ⟨_, _, .rename .origin .origin .origin false (show Look.isText "\"ID\"" = true by decide)⟩

/-- A coding attribute that lists some tokens. -/
def codingAttribute (body : List Token) : Attribute :=
  .withList (.ofName ⟨Attribute.codableName, .origin⟩) body

/-- Three options in two attributes, with an attribute between them that says nothing. -/
def spreadOptions : List Attribute :=
  [codingAttribute (writtenReadonly.tokens ++ .punct ',' false .origin :: writtenDefault.tokens),
    .withList (.ofName ⟨"serde", .origin⟩) [Token.word "skip"], codingAttribute writtenKey.tokens]

/-- The same options in one attribute, the other way round. -/
def joinedOptions : List Attribute :=
  [codingAttribute (writtenKey.tokens ++ .punct ',' false .origin ::
    (writtenDefault.tokens ++ .punct ',' false .origin ::
      (writtenReadonly.tokens ++ [.punct ',' false .origin])))]

/-- The three options say the same in one attribute as in two. -/
theorem ofAttributes_regrouped_joined :
    Holds spreadOptions [writtenReadonly, writtenDefault, writtenKey] ∧
      ∃ options, ofAttributes spreadOptions = .ok options ∧ ofAttributes joinedOptions = .ok options ∧
        options.readonly = true ∧ options.default.isSome = true ∧ options.rename.isSome = true := by
  -- The same three options, spread over two attributes and listed in one.
  have holds : Holds spreadOptions [writtenReadonly, writtenDefault, writtenKey] :=
    .coding rfl rfl (.more writtenReadonly false .origin (.last writtenDefault))
      (.foreign rfl (.coding rfl rfl (.last writtenKey) .nil))
  have also : Holds joinedOptions [writtenKey, writtenDefault, writtenReadonly] :=
    .coding rfl rfl (.more writtenKey false .origin (.more writtenDefault false .origin
      (.more writtenReadonly false .origin .none))) .nil
  have same : [writtenReadonly, writtenDefault, writtenKey].Perm
      [writtenKey, writtenDefault, writtenReadonly] := List.reverse_perm [_, _, _] |>.symm
  obtain ⟨options, read, known⟩ : ∃ options, ofAttributes spreadOptions = .ok options ∧
      options.readonly = true ∧ options.default.isSome = true ∧ options.rename.isSome = true :=
    ⟨_, rfl, rfl, rfl, rfl⟩
  exact ⟨holds, options, read,
    ((ofAttributes_regrouped holds).1 _ _ also same rfl options).mp read, known⟩

end Attributes

end FieldOptions

end KeyedCoding
