import KeyedCoding.Proofs.Grammar.Call

/-!
Where a path can be spliced in: a path of names is read as it is written where it names an attribute,
opens a type or is called, if it is free of one reserved word there.
-/

namespace KeyedCoding

namespace Path

variable {path : Path}

/-- A path can open a type or not wherever its names stand. -/
theorem fitsType_unplaced : path.unplaced.fitsType = path.fitsType := by
  obtain ⟨leading, segments⟩ := path
  -- Only the leading colons and the spelling of the first name count.
  cases leading <;> cases segments <;> simp [fitsType, unplaced, Name.unplaced]

/-- A path that can name an attribute can open a type. -/
theorem fitsType_of_fitsAttribute (fits : path.fitsAttribute = true) : path.fitsType = true := by
  obtain ⟨leading, segments⟩ := path
  rw [fitsAttribute, Bool.and_eq_true, List.all_eq_true] at fits
  -- The path opens with its first segment, if it has one.
  cases segments with
  | nil => simp [fitsType]
  | cons first rest =>
    have opens : first.name.spelling ≠ "try" := bne_iff_ne.mp (fits.2 first (by simp))
    simp [fitsType, opens]

/-- A path that can open a type still can when it is extended. -/
theorem fitsType_extend (fits : path.fitsType = true) {last : String} (other : last ≠ "try") :
    (path.extend [last]).fitsType = true := by
  obtain ⟨leading, segments⟩ := path
  -- The path opens with its first segment, or with the added one if there is none.
  cases segments with
  | nil => simp [fitsType, extend, other]
  | cons first rest => simpa [fitsType, extend] using fits

/-- A plain path can open an expression. -/
theorem opensExpression_of_isPlain (plain : path.isPlain = true) : path.opensExpression = true := by
  -- Without arguments there are no angle brackets.
  have fits : path.fitsExpression = true := by
    rw [fitsExpression, List.all_eq_true]
    intro segment inside
    rw [isPlain_iff.mp plain segment inside]
  rw [opensExpression, fits, Bool.true_or]

/-- What can be a segment of a plain path: a name that is not reserved. -/
def IsPlainName (spelling : String) : Prop :=
  Lexeme.IsName spelling ∧ Look.reserved.contains spelling = false

/-- A path of names is one of names if it is extended by names. -/
theorem Named.extend (named : path.Named) {names : List String}
    (plain : ∀ spelling ∈ names, IsPlainName spelling) : (path.extend names).Named := by
  obtain ⟨spelled, opens⟩ := named
  rename_i leading first more
  -- Adding names to a path gives the path of all the names, so both facts are facts about names.
  have extended : (ofNames leading (first :: more)).extend names =
      ofNames leading (first :: (more ++ names.map fun spelling => ⟨spelling, .origin⟩)) := by
    simp [Path.extend, ofNames]
  -- The added names are neither reserved nor words for places.
  have added : ∀ name ∈ names.map fun spelling => (⟨spelling, .origin⟩ : Name),
      Lexeme.IsName name.spelling ∧ name.opensSegment = true := by
    rw [List.forall_mem_map]
    intro spelling inside
    obtain ⟨isName, free⟩ := plain spelling inside
    exact ⟨isName, by rw [Name.opensSegment, free, Bool.not_false, Bool.or_true]⟩
  rw [extended]
  have each : ∀ name ∈ first :: (more ++ names.map fun spelling => (⟨spelling, .origin⟩ : Name)),
      Lexeme.IsName name.spelling ∧ name.opensSegment = true := by
    rw [← List.cons_append]
    intro name inside
    rcases List.mem_append.mp inside with old | new
    · exact ⟨spelled name old, opens name old⟩
    · exact added name new
  exact .intro (fun name inside => (each name inside).1) fun name inside => (each name inside).2

/-- Of a path of names, the first name decides whether it can open a type when it is extended. -/
theorem Named.fitsType_extend (named : path.Named) (names : List String) :
    (path.extend names).fitsType = path.fitsType := by
  -- What is added stands behind the first name.
  cases named
  rfl

/-- An extended path can name an attribute exactly if the path can: the names are not reserved. -/
theorem fitsAttribute_extend {names : List String}
    (plain : ∀ spelling ∈ names, IsPlainName spelling) :
    (path.extend names).fitsAttribute = path.fitsAttribute := by
  -- The names that are added are not the word that an attribute cannot name.
  have free : ∀ spelling ∈ names, (spelling != "try") = true := by
    intro spelling inside
    rw [bne_iff_ne]
    rintro rfl
    cases (plain _ inside).2
  have added : (names.map fun spelling => (⟨⟨spelling, .origin⟩, .none⟩ : Segment)).all
      (·.name.spelling != "try") = true := by
    rw [List.all_map]
    exact List.all_eq_true.mpr free
  have bare : (path.extend names).isPlain = path.isPlain := by
    simp [isPlain, extend]
  rw [fitsAttribute, bare, fitsAttribute, extend, List.all_append, added, Bool.and_true]

end Path

namespace Grammar

open Reader KeyedCoding.Path

variable {g : Grammar} {path : Path}

/-- A name that can be a segment opens one of an attribute path, apart from one reserved word. -/
theorem opensPlainSegment_of_opensSegment {name : Name} (opens : name.opensSegment = true)
    (other : name.spelling ≠ "try") : opensPlainSegment [name.token] = true := by
  -- Attributes allow the same names as types, and nothing else that opens a type is a name.
  have seen := @seesTypePath_token name [] opens other
  have colons : Look.symbol "::" [name.token] = false := rfl
  have angle : Look.symbol "<" [name.token] = false := rfl
  rw [seesTypePath, colons, angle, Bool.or_false, Bool.or_false] at seen
  simp only [Bool.or_eq_true, seesPlaceWord, List.any_cons, List.any_nil, Bool.or_false] at seen
  simp only [opensPlainSegment, Bool.or_eq_true, List.any_cons, List.any_nil, Bool.or_false]
  tauto

/-- A path of names is read as a type, up to what continues no path. -/
theorem readType_reads {left : List Token} (named : path.Named) (fits : path.fitsType = true)
    (ends : EndsPath false left) (bang : Look.symbol "!" left = false)
    (plus : Look.symbol "+" left = false) :
    (readType (layer g) true).Reads (path.tokens ++ left) (.path path) left := by
  -- Behind the path stands nothing that makes it an invocation or a list of bounds.
  -- The loops for an invocation and for bounds look at the next token only, which the hypotheses
  -- settle.
  have onward : (pathType (layer g) [] true).Reads (path.tokens ++ left) (.path path) left := by
    refine Reads.bind (qualifiedPath_reads ends named) (Reads.bind Reads.rest ?_)
    simp only [bang, plus, Bool.false_and, Bool.and_false, List.isEmpty_nil, Bool.not_true,
      Bool.or_false, Bool.false_eq_true, if_false]
    exact Reads.pure
  cases named with
  | @intro leading first more spelled opens =>
    rw [tokens_ofNames, List.append_assoc] at onward ⊢
    cases leading with
    | some pos =>
      -- Two colons in front cannot begin a binder, so the binder reads nothing.
      exact Reads.bind (Reads.bind (Reads.sees _) Reads.pure) (Reads.bind Reads.rest onward)
    | none =>
      -- The first name is a reserved word only if it is a word for a place.
      have head : first.opensSegment = true := opens first (by simp)
      have other : first.spelling ≠ "try" := by simpa [fitsType, ofNames] using fits
      rw [leadingTokens, List.nil_append, List.cons_append] at onward ⊢
      generalize tailTokens more ++ left = behind at onward ⊢
      have unbound : Look.word "for" (first.token :: behind) = false := Look.word_token head rfl rfl
      have calling : seesFunctionType (first.token :: behind) = false := by
        have fn : Look.word "fn" (first.token :: behind) = false := Look.word_token head rfl rfl
        have safety : Look.word "unsafe" (first.token :: behind) = false :=
          Look.word_token head rfl rfl
        have abi : Look.word "extern" (first.token :: behind) = false :=
          Look.word_token head rfl rfl
        simp only [seesFunctionType, List.any_cons, List.any_nil, fn, safety, abi, Bool.or_false]
      have paren : Look.group .paren (first.token :: behind) = false := rfl
      -- With no word for binders in front, there are no bounds to be turned away either.
      have free : (binder (layer g)).Reads (first.token :: behind) [] (first.token :: behind) := by
        refine Reads.bind (Reads.sees _) ?_
        rw [unbound]
        exact Reads.pure
      refine Reads.bind free (Reads.bind Reads.rest ?_)
      simp only [List.isEmpty_nil, Bool.not_true, Bool.false_and, Bool.false_eq_true, if_false,
        paren, calling, seesTypePath_token head other, if_true]
      exact onward

/-- The one reserved word opens no type. -/
theorem readType_ne_ok {pos close : Position} {behind : List Token} {heads : List String}
    {stray : Option Fault} {result : Ty × Source} :
    readType (layer g) true close ⟨.name "try" pos :: behind, heads, stray⟩ ≠ .ok result := by
  -- None of the forms of a type begins with it, so every branch fails.
  intro read
  cases read

/-- A path of names is read as a type exactly if it can open one. -/
theorem read_ty_iff (named : path.Named) (close : Position) :
    Grammar.read (·.ty true) path.tokens close = .ok (.path path) ↔ path.fitsType = true := by
  constructor
  · intro read
    by_contra misfit
    cases named with
    | @intro leading first more spelled opens =>
      cases leading with
      | some pos => exact misfit rfl
      | none =>
        obtain ⟨spelling, pos⟩ := first
        have reserved : spelling = "try" := by simpa [fitsType, ofNames] using misfit
        subst reserved
        -- The reader stops at the first name already.
        rw [Grammar.read, Reader.run_eq_ok_iff, tokens_ofNames] at read
        obtain ⟨noted, read⟩ := read
        exact readType_ne_ok read
  · intro fits
    refine Reads.run ?_ close
    have reads := fun g => @readType_reads g path [] named fits ⟨rfl, rfl⟩ rfl rfl
    simp only [List.append_nil] at reads
    exact reads _

section Attributes

variable {leading : Option Position} {first : Name} {more : List Name} {body : List Token}

/-- An attribute opens with its path, and a path of names is not the word that stands alone. -/
theorem notMarked_ofNames (opens : ∀ name ∈ first :: more, name.opensSegment = true) :
    Look.word "unsafe" ((ofNames leading (first :: more)).tokens ++ [Token.parens body]) =
      false := by
  -- The path opens with two colons or with its first name, and neither is the word.
  rw [tokens_ofNames]
  cases leading with
  | some pos => rfl
  | none => exact Look.word_token (opens first (by simp)) rfl rfl

/-- A path of names with a list behind it is the inside of an attribute that it can name. -/
theorem metaInside_reads_list (named : path.Named) (fits : path.fitsAttribute = true) :
    (metaInside g).Reads (path.tokens ++ [Token.parens body])
      ⟨path, .list .paren body .origin .origin⟩ [] := by
  -- The list behind the path is taken as it stands.
  have content : (metaContent g).Reads [Token.parens body]
      (.list .paren body .origin .origin) [] :=
    Reads.bind Reads.rest fun _ _ _ => rfl
  cases named with
  | @intro leading first more spelled opens =>
    rw [fitsAttribute, Bool.and_eq_true, List.all_eq_true] at fits
    have plain : ∀ name ∈ first :: more, opensPlainSegment [name.token] = true := by
      intro name among
      have other : name.spelling ≠ "try" :=
        bne_iff_ne.mp (fits.2 ⟨name, .none⟩ (List.mem_map_of_mem among))
      exact opensPlainSegment_of_opensSegment (opens name among) other
    have whole := @plainPath_reads_names [Token.parens body] leading first more plain rfl
    refine Reads.bind (Reads.sees _) ?_
    rw [notMarked_ofNames opens]
    exact Reads.bind whole (Reads.bind content Reads.pure)

/-- If the path cannot name an attribute, there is no such inside. -/
theorem metaInside_never (named : path.Named) (misfit : path.fitsAttribute = false) :
    (metaInside g).Leads (·.rest = path.tokens ++ [Token.parens body]) fun _ _ => False := by
  cases named with
  | @intro leading first more spelled opens =>
    -- The one reserved word is among the names.
    have closed : ∃ name ∈ first :: more, opensPlainSegment [name.token] = false := by
      have plain : (ofNames leading (first :: more)).isPlain = true := isPlain_iff.mpr (by
        simp [ofNames])
      rw [fitsAttribute, plain, Bool.true_and, List.all_eq_false] at misfit
      obtain ⟨segment, inside, reserved⟩ := misfit
      obtain ⟨name, among, rfl⟩ := List.mem_map.mp inside
      refine ⟨name, among, ?_⟩
      rw [Bool.not_eq_true, bne_eq_false_iff_eq] at reserved
      rw [Name.token, reserved]
      rfl
    refine Reads.bind_leads (Reads.sees _) ?_
    rw [notMarked_ofNames opens]
    exact Leads.bind (plainPath_never closed) fun _ => Leads.never

/-- A path of names is read as that of an attribute with a list exactly if it can name one. -/
theorem read_attr_iff (named : path.Named) (close : Position) :
    Grammar.read (·.attr false) (Attribute.withList path body).tokens close =
      .ok (.withList path body) ↔ path.fitsAttribute = true := by
  have hash : (symbol "#").Reads (Attribute.withList path body).tokens (Token.symbol "#")
      [Token.brackets (path.tokens ++ [Token.parens body])] := Reads.symbol rfl
  constructor
  · intro read
    by_contra misfit
    rw [Bool.not_eq_true] at misfit
    -- What stands in the brackets cannot be read.
    have never (g : Grammar) : (attr g false).Leads
        (·.rest = (Attribute.withList path body).tokens) fun _ _ => False := by
      refine Reads.bind_leads (Reads.here _ _) (Reads.bind_leads hash ?_)
      exact Leads.bind (Leads.within_never (metaInside_never named misfit)) fun _ => Leads.never
    exact Leads.of_run (never _) rfl read
  · intro fits
    refine Reads.run ?_ close
    exact Reads.bind (Reads.here _ _) (Reads.bind hash
      (Reads.bind (Reads.within (metaInside_reads_list named fits)) Reads.pure))

end Attributes

end Grammar

end KeyedCoding
