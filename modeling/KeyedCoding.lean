import KeyedCoding.Bounds
import KeyedCoding.Coding.CodedRecord
import KeyedCoding.Coding.Datum
import KeyedCoding.Coding.Decoding
import KeyedCoding.Coding.Encoding
import KeyedCoding.Coding.FieldType
import KeyedCoding.Coding.GeneratedCode
import KeyedCoding.Coding.KeyTable
import KeyedCoding.Coding.Meaning
import KeyedCoding.Coding.Schema
import KeyedCoding.Coding.Synthesized
import KeyedCoding.Config.Basic
import KeyedCoding.Config.Context
import KeyedCoding.Config.Discovery
import KeyedCoding.Diagnostic
import KeyedCoding.Generated.Accessor
import KeyedCoding.Generated.Conformance
import KeyedCoding.Generated.Decoder
import KeyedCoding.Generated.Encoder
import KeyedCoding.Grammar
import KeyedCoding.Grammar.Basic
import KeyedCoding.Grammar.Expr
import KeyedCoding.Grammar.Generics
import KeyedCoding.Grammar.Item
import KeyedCoding.Grammar.Path
import KeyedCoding.Grammar.Pattern
import KeyedCoding.Grammar.Quoted
import KeyedCoding.Grammar.Statement
import KeyedCoding.Grammar.Type
import KeyedCoding.Json.Basic
import KeyedCoding.Json.Printer
import KeyedCoding.Json.Reader
import KeyedCoding.KeyMapping.Arguments
import KeyedCoding.KeyMapping.Basic
import KeyedCoding.KeyMapping.Declarations
import KeyedCoding.KeyMapping.Keys
import KeyedCoding.Output
import KeyedCoding.Record.Basic
import KeyedCoding.Record.Inspection
import KeyedCoding.Record.Options
import KeyedCoding.Record.Secure
import KeyedCoding.Sample.Records
import KeyedCoding.Sample.Stores
import KeyedCoding.Store.Accessor
import KeyedCoding.Store.AccessorCall
import KeyedCoding.Store.AccessorCode
import KeyedCoding.Store.Basic
import KeyedCoding.SynthesisError
import KeyedCoding.Text.Base64
import KeyedCoding.Text.CharClass
import KeyedCoding.Text.CharTable
import KeyedCoding.Text.Quoted
import KeyedCoding.Text.Shortest
import KeyedCoding.Text.Utf8
import KeyedCoding.Token.Basic
import KeyedCoding.Token.Lexeme
import KeyedCoding.Token.Lexer
import KeyedCoding.Token.Printer
import KeyedCoding.Token.Reader
import KeyedCoding.Toml.Basic
import KeyedCoding.Toml.Reader
import KeyedCoding.Transform.Basic
import KeyedCoding.Transform.Codable
import KeyedCoding.Transform.KeyType
import KeyedCoding.Transform.Literal
import KeyedCoding.Transform.Registry
import KeyedCoding.Transform.SecureStorage
import KeyedCoding.Tree.Attribute
import KeyedCoding.Tree.Detach
import KeyedCoding.Tree.Generics
import KeyedCoding.Tree.Item
import KeyedCoding.Tree.Type
import KeyedCoding.Url.Address
import KeyedCoding.Url.Basic
import KeyedCoding.Url.Check
import KeyedCoding.Url.Domain
import KeyedCoding.Url.Punycode
import KeyedCoding.Proofs.Coding.Encoder
import KeyedCoding.Proofs.KeyMapping.Entries
import KeyedCoding.Proofs.Record.Fields
import KeyedCoding.Proofs.Generated.Members
import KeyedCoding.Proofs.Record.Reassembly
import KeyedCoding.Proofs.Transform.SecureStorage
import KeyedCoding.Proofs.Generated.Completeness
import KeyedCoding.Proofs.Coding.RoundTrip
import KeyedCoding.Proofs.Text.Quoted
import KeyedCoding.Proofs.Text.Denotation
import KeyedCoding.Proofs.Text.Base64
import KeyedCoding.Proofs.Token.Consumption
import KeyedCoding.Proofs.Grammar.Argument
import KeyedCoding.Proofs.Token.Lexeme
import KeyedCoding.Proofs.Token.Lexer
import KeyedCoding.Proofs.Token.TextLiteral
import KeyedCoding.Proofs.Grammar.Path
import KeyedCoding.Proofs.Grammar.Call
import KeyedCoding.Proofs.Grammar.Splice
import KeyedCoding.Proofs.Grammar.Item
import KeyedCoding.Proofs.KeyMapping.Arguments
import KeyedCoding.Proofs.KeyMapping.RoundTrip
import KeyedCoding.Proofs.KeyMapping.Bijection
import KeyedCoding.Proofs.Coding.EncodedData
import KeyedCoding.Proofs.Coding.Reads
import KeyedCoding.Proofs.Coding.DecodedData
import KeyedCoding.Proofs.Record.Surroundings
import KeyedCoding.Proofs.Record.Directions
import KeyedCoding.Proofs.Record.Detach
import KeyedCoding.Proofs.Transform.Codable
import KeyedCoding.Proofs.Transform.KeyType
import KeyedCoding.Proofs.Transform.Pipeline
import KeyedCoding.Proofs.Transform.Mapper
import KeyedCoding.Proofs.Transform.Conflict
import KeyedCoding.Proofs.Transform.Frame
import KeyedCoding.Proofs.Transform.Commutation
import KeyedCoding.Proofs.Transform.Repetition
import KeyedCoding.Proofs.Transform.Marker
import KeyedCoding.Proofs.KeyMapping.Clash
import KeyedCoding.Proofs.Generated.Policy
import KeyedCoding.Proofs.Transform.ModuleForm
import KeyedCoding.Proofs.Store.AccessorCode
import KeyedCoding.Proofs.Coding.GeneratedCode
import KeyedCoding.Proofs.Store.Variables
import KeyedCoding.Proofs.Transform.SecureAccessors
import KeyedCoding.Proofs.Tree.Occurrence
import KeyedCoding.Proofs.Generated.Bounds
import KeyedCoding.Proofs.Record.Detection
import KeyedCoding.Proofs.Transform.Bounds
import KeyedCoding.Proofs.Transform.Findings
import KeyedCoding.Proofs.Transform.Failure
import KeyedCoding.Proofs.Token.Refinement
import KeyedCoding.Proofs.Grammar.Refinement
import KeyedCoding.Proofs.Grammar.Depth
import KeyedCoding.Proofs.Token.Looks
import KeyedCoding.Proofs.Token.Locality
import KeyedCoding.Proofs.Token.Separated
import KeyedCoding.Proofs.Grammar.Locality
import KeyedCoding.Proofs.Grammar.TextValue
import KeyedCoding.Proofs.Record.Options
import KeyedCoding.Proofs.History
import KeyedCoding.Proofs.Store.Entries
import KeyedCoding.Proofs.Store.LastWrites
import KeyedCoding.Proofs.Coding.Containers
import KeyedCoding.Proofs.Config.Discovery
import KeyedCoding.Proofs.Transform.Partition
import KeyedCoding.Proofs.Transform.Literal
import KeyedCoding.Proofs.Output
import KeyedCoding.Proofs.Grammar.Listing
import KeyedCoding.Proofs.Transform.Arguments
import KeyedCoding.Proofs.Transform.Splicing
import KeyedCoding.Proofs.KeyMapping.Written
import KeyedCoding.Proofs.Transform.WrittenKeys
import KeyedCoding.Proofs.Transform.SecureOptions
import KeyedCoding.Proofs.Transform.Acceptance
import KeyedCoding.Proofs.Generated.Grouping
import KeyedCoding.Proofs.Store.Slots
import KeyedCoding.Proofs.Transform.StorageSlots
