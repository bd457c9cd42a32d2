import KeyedCoding.Grammar.Item
import KeyedCoding.Token.Lexer

/-! The whole grammar: each layer of readers refers to the layer below it, and a text needs only so many. -/

namespace KeyedCoding.Grammar

/-- The readers that refer to the given ones for what is nested. -/
def layer (g : Grammar) : Grammar where
  ty := g.readType
  path := g.readPath
  expr := g.readExpr
  unary := g.readUnary
  binary := g.readBinary
  matching := g.readMatching
  pattern := g.readPattern
  statements := g.readStatements
  useTree := g.readUseTree
  item := g.readItem

/-- As many layers of readers as given. -/
def ofDepth : Nat → Grammar
  | 0 => exhausted
  | depth + 1 => layer (ofDepth depth)

/-- Enough layers for some tokens: between two nested readers at most a few refer to each other. -/
def forTokens (tokens : List Token) : Grammar := ofDepth (6 * Token.weightAll tokens + 12)

/-- Reads all of some tokens with a reader of the grammar. -/
def read {α : Type} (reader : Grammar → Reader α) (tokens : List Token)
    (close : Position := Position.origin) : Except Fault α :=
  (reader (forTokens tokens)).run tokens close

/-- Why a source cannot be read. -/
def unreadableSource (pos : Position) : Fault := ⟨"cannot parse string into token stream", pos⟩

/-- Reads a source with a reader of the grammar. -/
def readSource {α : Type} (reader : Grammar → Reader α) (source : String) : Except Fault α :=
  match Token.ofSource source with
  | .error pos => .error (unreadableSource pos)
  | .ok tokens => read reader tokens

end KeyedCoding.Grammar

namespace KeyedCoding

/-- Reads a declaration from its source. -/
def Item.ofSource (source : String) : Except Fault Item := Grammar.readSource (·.item) source

/-- Reads a type from its source. -/
def Ty.ofSource (source : String) : Except Fault Ty := Grammar.readSource (·.ty true) source

/-- Reads a path from its source. -/
def Path.ofSource (source : String) : Except Fault Path := Grammar.readSource (·.path false) source

/-- Reads a field from its source. -/
def Field.ofSource (source : String) : Except Fault Field := Grammar.readSource (·.field) source

/-- Reads generic parameters from their source. -/
def Generics.ofSource (source : String) : Except Fault Generics :=
  Grammar.readSource (·.generics) source

/-- Reads a where clause from its source. -/
def WhereClause.ofSource (source : String) : Except Fault WhereClause :=
  Grammar.readSource (·.whereClause) source

end KeyedCoding
