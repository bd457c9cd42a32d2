import KeyedCoding.Token.Printer
import KeyedCoding.Token.Reader

/-! Types and paths as trees, their tokens, and the names that stand first in the type paths inside. -/

namespace KeyedCoding

/-- Expression tokens with the names that stand first in the type paths inside. -/
structure Snippet where
  tokens : List Token
  heads : List String := []
  deriving Inhabited

/-- The word before a list of bounds that makes it a type. -/
inductive BoundsKeyword where
  | bare
  | dyn
  | impl
  deriving DecidableEq, Repr

mutual

/-- A type. -/
inductive Ty where
  | path (path : Path)
  | projection (pos : Position) (source : Ty) (base : Option Path) (rest : List Segment)
  | tuple (elems : List Ty) (trailing : Bool)
  | paren (inner : Ty)
  | group (inner : Ty)
  | array (elem : Ty) (length : Snippet)
  | slice (elem : Ty)
  | reference (lifetime : Option String) (mutable : Bool) (target : Ty)
  | pointer (mutable : Bool) (target : Ty)
  | never
  | inferred
  | function (head : List Token) (inputs : List (List Token × Ty)) (trailing : Bool)
      (variadic : List Token) (output : Option Ty)
  | bounds (keyword : BoundsKeyword) (bounds : List Bound) (trailing : Bool)
  | invocation (path : Path) (body : Token)
  | verbatim (tokens : List Token)

/-- A path: segments, after a leading double colon if it is absolute. -/
structure Path where
  leading : Option Position
  segments : List Segment

/-- A segment of a path. -/
structure Segment where
  name : Name
  arguments : Arguments

/-- The arguments of a path segment. -/
inductive Arguments where
  | none
  | angle (turbofish : Bool) (args : List GenericArg) (trailing : Bool)
  | call (inputs : List Ty) (trailing : Bool) (output : Option Ty)

/-- A generic argument. -/
inductive GenericArg where
  | lifetime (spelling : String)
  | type (ty : Ty)
  | const (value : Snippet)
  | assocType (name : Name) (arguments : Arguments) (ty : Ty)
  | assocConst (name : Name) (arguments : Arguments) (value : Snippet)
  | constraint (name : Name) (arguments : Arguments) (bounds : List Bound) (trailing : Bool)

/-- A bound of a type. -/
inductive Bound where
  | lifetime (spelling : String)
  | trait (inParens : Bool) (relaxed : Bool) (binder : List Token) (path : Path)
  | verbatim (tokens : List Token)

end

instance : Inhabited Ty := ⟨.never⟩
instance : Inhabited Path := ⟨⟨none, []⟩⟩

namespace Arguments

/-- Whether there are no arguments; empty angle brackets hold none. -/
def isEmpty : Arguments → Bool
  | none => true
  | angle _ [] _ => true
  | _ => false

end Arguments

namespace Path

/-- The path of a single name. -/
def ofName (name : Name) : Path := ⟨none, [⟨name, .none⟩]⟩

/-- The path of the given names, absolute, that no source wrote. -/
def absolute (names : List String) : Path :=
  ⟨some .origin, names.map fun spelling => ⟨⟨spelling, .origin⟩, .none⟩⟩

/-- The path with further plain segments. -/
def extend (path : Path) (names : List String) : Path :=
  ⟨path.leading, path.segments ++ names.map fun spelling => ⟨⟨spelling, .origin⟩, .none⟩⟩

/-- The last segment. -/
def lastSegment? (path : Path) : Option Segment := path.segments.getLast?

/-- The spelling of the last segment. -/
def lastName? (path : Path) : Option String := path.lastSegment?.map (·.name.spelling)

/-- The name of a path that is a single plain name. -/
def singleName? (path : Path) : Option Name :=
  match path with
  | ⟨none, [⟨name, .none⟩]⟩ => some name
  | _ => none

/-- Whether a path is a given single name. -/
def isName (path : Path) (spelling : String) : Bool :=
  (path.singleName?.map (·.spelling == spelling)).getD false

/-- Whether no segment has arguments. -/
def isPlain (path : Path) : Bool :=
  path.segments.all fun segment => match segment.arguments with
    | .none => true
    | _ => false

/-- The place where a path starts. -/
def pos (path : Path) : Position :=
  match path.leading, path.segments with
  | some pos, _ => pos
  | none, segment :: _ => segment.name.pos
  | none, [] => .origin

/-- The place of the first name of a path. -/
def namePos (path : Path) : Position := (path.segments.head?.map (·.name.pos)).getD .origin

/-- The names of the segments with double colons between them. -/
def display (path : Path) : String :=
  String.intercalate "::" (path.segments.map (·.name.spelling))

end Path

/-- The tokens of separated items, each item with what follows it. -/
def withSeparators (separator : List Token) (trailing : Bool) : List α → List (α × List Token)
  | [] => []
  | [last] => [(last, if trailing then separator else [])]
  | item :: more => (item, separator) :: withSeparators separator trailing more

/-- Writes lifetimes before everything else; a comma is supplied where the order leaves a gap. -/
def lifetimesFirst (items : List (Bool × List Token)) (trailing : Bool) : List Token :=
  let marked := withSeparators (Token.symbol ",") trailing items
  let lifetimes := marked.filter (·.1.1)
  let others := marked.filter (!·.1.1)
  let write (part : List ((Bool × List Token) × List Token)) : List Token :=
    part.flatMap fun item => item.1.2 ++ item.2
  -- Only a lifetime that was written last lacks its comma.
  let gap := (lifetimes.getLast?.map (·.2.isEmpty)).getD false && !others.isEmpty
  write lifetimes ++ (if gap then Token.symbol "," else []) ++ write others

mutual

/-- The tokens of a type. -/
def Ty.tokens : Ty → List Token
  | .path path => path.tokens
  | .projection pos source base rest =>
    Token.symbolAt pos "<" ++ source.tokens ++
      (match base with
        | some path => [Token.word "as"] ++ path.tokens
        | none => []) ++
      Token.symbol ">" ++ Token.symbol "::" ++ separate (Token.symbol "::") false (segmentTokens rest)
  | .tuple elems trailing =>
    [Token.parens (separate (Token.symbol ",") trailing (tyTokens elems))]
  | .paren inner => [Token.parens inner.tokens]
  -- A group is not visible in the tokens.
  | .group inner => inner.tokens
  | .array elem length => [Token.brackets (elem.tokens ++ Token.symbol ";" ++ length.tokens)]
  | .slice elem => [Token.brackets elem.tokens]
  | .reference lifetime mutable target =>
    Token.symbol "&" ++ (lifetime.map fun spelling => Token.lifetime spelling .origin).toList ++
      (if mutable then [Token.word "mut"] else []) ++ target.tokens
  | .pointer mutable target =>
    Token.symbol "*" ++ [Token.word (if mutable then "mut" else "const")] ++ target.tokens
  | .never => Token.symbol "!"
  | .inferred => [Token.word "_"]
  | .function head inputs trailing variadic output =>
    head ++
      -- A mark for any number of parameters stands behind a comma.
      [Token.parens (separate (Token.symbol ",") (trailing || !variadic.isEmpty && !inputs.isEmpty)
        (inputTokens inputs) ++ variadic)] ++
      (match output with
        | some ty => Token.symbol "->" ++ ty.tokens
        | none => [])
  | .bounds keyword bounds trailing =>
    (match keyword with
      | .bare => []
      | .dyn => [Token.word "dyn"]
      | .impl => [Token.word "impl"]) ++
      separate (Token.symbol "+") trailing (boundTokens bounds)
  | .invocation path body => path.tokens ++ Token.symbol "!" ++ [body]
  | .verbatim tokens => tokens

/-- The tokens of each type of a list. -/
def tyTokens : List Ty → List (List Token)
  | [] => []
  | ty :: rest => ty.tokens :: tyTokens rest

/-- The tokens of each labelled input of a list. -/
def inputTokens : List (List Token × Ty) → List (List Token)
  | [] => []
  | (label, ty) :: rest => (label ++ ty.tokens) :: inputTokens rest

/-- The tokens of a path. -/
def Path.tokens : Path → List Token
  | ⟨leading, segments⟩ =>
    (match leading with
      | some pos => Token.symbolAt pos "::"
      | none => []) ++
      separate (Token.symbol "::") false (segmentTokens segments)

/-- The tokens of each segment of a list. -/
def segmentTokens : List Segment → List (List Token)
  | [] => []
  | segment :: rest => segment.tokens :: segmentTokens rest

/-- The tokens of a path segment. -/
def Segment.tokens : Segment → List Token
  | ⟨name, arguments⟩ => name.token :: arguments.tokens

/-- The tokens of the arguments of a segment. -/
def Arguments.tokens : Arguments → List Token
  | .none => []
  | .angle turbofish args trailing =>
    (if turbofish then Token.symbol "::" else []) ++ Token.symbol "<" ++
      -- Lifetimes stand first, in whatever order the arguments have been read.
      lifetimesFirst (argTokens args) trailing ++ Token.symbol ">"
  | .call inputs trailing output =>
    [Token.parens (separate (Token.symbol ",") trailing (tyTokens inputs))] ++
      (match output with
        | some ty => Token.symbol "->" ++ ty.tokens
        | none => [])

/-- The tokens of each generic argument of a list; the flag marks lifetimes. -/
def argTokens : List GenericArg → List (Bool × List Token)
  | [] => []
  | .lifetime spelling :: rest => (true, [.lifetime spelling .origin]) :: argTokens rest
  | arg :: rest => (false, arg.tokens) :: argTokens rest

/-- The tokens of a generic argument. -/
def GenericArg.tokens : GenericArg → List Token
  | .lifetime spelling => [.lifetime spelling .origin]
  | .type ty => ty.tokens
  | .const value => value.tokens
  | .assocType name arguments ty =>
    [name.token] ++ arguments.tokens ++ Token.symbol "=" ++ ty.tokens
  | .assocConst name arguments value =>
    [name.token] ++ arguments.tokens ++ Token.symbol "=" ++ value.tokens
  | .constraint name arguments bounds trailing =>
    [name.token] ++ arguments.tokens ++ Token.symbol ":" ++
      separate (Token.symbol "+") trailing (boundTokens bounds)

/-- The tokens of each bound of a list. -/
def boundTokens : List Bound → List (List Token)
  | [] => []
  | bound :: rest => bound.tokens :: boundTokens rest

/-- The tokens of a bound. -/
def Bound.tokens : Bound → List Token
  | .lifetime spelling => [.lifetime spelling .origin]
  | .trait inParens relaxed binder path =>
    let written := (if relaxed then Token.symbol "?" else []) ++ binder ++ path.tokens
    if inParens then [Token.parens written] else written
  | .verbatim tokens => tokens

end

mutual

/-- The names that stand first in the relative type paths of a type. -/
def Ty.heads : Ty → List String
  -- The head of a path is the first name of a relative one.
  | .path path => path.headName ++ path.heads
  | .projection _ source base rest =>
    source.heads ++ (match base with
      | some path => path.heads
      | none => []) ++ segmentHeads rest
  | .tuple elems _ => tyHeads elems
  | .paren inner => inner.heads
  | .group inner => inner.heads
  | .array elem length => elem.heads ++ length.heads
  | .slice elem => elem.heads
  -- A lifetime is no head of a type.
  | .reference _ _ target => target.heads
  | .pointer _ target => target.heads
  | .never => []
  | .inferred => []
  | .function _ inputs _ _ output =>
    inputHeads inputs ++ (match output with
      | some ty => ty.heads
      | none => [])
  | .bounds _ bounds _ => boundHeads bounds
  -- What stands inside a macro or was kept as written is not looked into.
  | .invocation _ _ => []
  | .verbatim _ => []

/-- The name that stands first in a relative path. -/
def Path.headName : Path → List String
  | ⟨none, ⟨name, _⟩ :: _⟩ => [name.spelling]
  | _ => []

/-- The heads of each type of a list. -/
def tyHeads : List Ty → List String
  | [] => []
  | ty :: rest => ty.heads ++ tyHeads rest

/-- The heads of each labelled input of a list. -/
def inputHeads : List (List Token × Ty) → List String
  | [] => []
  | (_, ty) :: rest => ty.heads ++ inputHeads rest

/-- The heads inside the arguments of a path; the path itself need not be a type. -/
def Path.heads : Path → List String
  | ⟨_, segments⟩ => segmentHeads segments

/-- The heads inside the arguments of each segment of a list. -/
def segmentHeads : List Segment → List String
  | [] => []
  | segment :: rest => segment.heads ++ segmentHeads rest

/-- The heads inside the arguments of a segment. -/
def Segment.heads : Segment → List String
  | ⟨_, arguments⟩ => arguments.heads

/-- The heads inside the arguments of a segment. -/
def Arguments.heads : Arguments → List String
  | .none => []
  | .angle _ args _ => argHeads args
  | .call inputs _ output =>
    tyHeads inputs ++ (match output with
      | some ty => ty.heads
      | none => [])

/-- The heads of each generic argument of a list. -/
def argHeads : List GenericArg → List String
  | [] => []
  | arg :: rest => arg.heads ++ argHeads rest

/-- The heads of a generic argument. -/
def GenericArg.heads : GenericArg → List String
  | .lifetime _ => []
  | .type ty => ty.heads
  | .const value => value.heads
  | .assocType _ arguments ty => arguments.heads ++ ty.heads
  | .assocConst _ arguments value => arguments.heads ++ value.heads
  | .constraint _ arguments bounds _ => arguments.heads ++ boundHeads bounds

/-- The heads of each bound of a list. -/
def boundHeads : List Bound → List String
  | [] => []
  | bound :: rest => bound.heads ++ boundHeads rest

/-- The heads of a bound. -/
def Bound.heads : Bound → List String
  | .lifetime _ => []
  | .trait _ _ _ path => path.heads
  | .verbatim _ => []

end

namespace Ty

/-- The path of a type path; of a projection, the path behind the angle brackets. -/
def asPath? : Ty → Option Path
  | .path written => some written
  | .projection _ _ (some base) rest => some ⟨base.leading, base.segments ++ rest⟩
  | .projection pos _ none rest => some ⟨some pos, rest⟩
  | _ => none

/-- The last name of a type path, through grouping. -/
def name? : Ty → Option String
  | .paren inner => inner.name?
  | .group inner => inner.name?
  | ty => ty.asPath?.bind Path.lastName?

/-- The written form of a type. -/
def display (ty : Ty) : String := Token.renderAll ty.tokens

end Ty

end KeyedCoding
