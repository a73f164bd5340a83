import SqlToMongo.Cache.Entry
import SqlToMongo.Cache.Lifetime
import SqlToMongo.Cache.Lru
import SqlToMongo.Cache.Memory
import SqlToMongo.Cache.Metrics
import SqlToMongo.Cache.Redis
import SqlToMongo.Cache.RedisServer
import SqlToMongo.Cache.RedisUrl
import SqlToMongo.Cache.TwoQueue
import SqlToMongo.Cli.Arguments
import SqlToMongo.Cli.Check
import SqlToMongo.Cli.Command
import SqlToMongo.Cli.Completion
import SqlToMongo.Cli.Demo
import SqlToMongo.Cli.Help
import SqlToMongo.Cli.LineCompletion
import SqlToMongo.Cli.Program
import SqlToMongo.Cli.Repl
import SqlToMongo.Cli.Setup
import SqlToMongo.Cli.ShellScript
import SqlToMongo.Cli.ShellWords
import SqlToMongo.Cli.Statements
import SqlToMongo.Config.Basic
import SqlToMongo.Config.Reader
import SqlToMongo.Config.Value
import SqlToMongo.Converter.Basic
import SqlToMongo.Converter.Format
import SqlToMongo.Converter.Key
import SqlToMongo.Converter.Supported
import SqlToMongo.Decimal.Binary64
import SqlToMongo.Decimal.Numeral
import SqlToMongo.Decimal.Shortest
import SqlToMongo.Decimal.Style
import SqlToMongo.Decimal.Word
import SqlToMongo.Digest.Sha256
import SqlToMongo.Files.Basic
import SqlToMongo.Files.Path
import SqlToMongo.Gzip.Bits
import SqlToMongo.Gzip.Deflate
import SqlToMongo.Gzip.File
import SqlToMongo.Gzip.Huffman
import SqlToMongo.Gzip.Inflate
import SqlToMongo.Gzip.Symbol
import SqlToMongo.Json.Basic
import SqlToMongo.Json.Canonical
import SqlToMongo.Json.Form
import SqlToMongo.Json.Reader
import SqlToMongo.Json.Writer
import SqlToMongo.Log.Level
import SqlToMongo.Log.Line
import SqlToMongo.Main
import SqlToMongo.Mcp.Params
import SqlToMongo.Mcp.Prompt
import SqlToMongo.Mcp.Protocol
import SqlToMongo.Mcp.Tool
import SqlToMongo.Mongo.Command
import SqlToMongo.Mongo.CommandDocument
import SqlToMongo.Mongo.Filter
import SqlToMongo.Mongo.Operator
import SqlToMongo.Mongo.Shell
import SqlToMongo.Mongo.Value
import SqlToMongo.Proofs.Condition.Lexing
import SqlToMongo.Proofs.Condition.Surface
import SqlToMongo.Service.Basic
import SqlToMongo.Service.Cors
import SqlToMongo.Service.Header
import SqlToMongo.Service.Http
import SqlToMongo.Service.Limiter
import SqlToMongo.Service.Schema
import SqlToMongo.Service.Surroundings
import SqlToMongo.Sql.Condition
import SqlToMongo.Sql.ConditionParser
import SqlToMongo.Sql.ItemList
import SqlToMongo.Sql.Layout
import SqlToMongo.Sql.Literal
import SqlToMongo.Sql.Quotation
import SqlToMongo.Sql.Scan
import SqlToMongo.Sql.Token
import SqlToMongo.Statement.Compile
import SqlToMongo.Statement.Error
import SqlToMongo.Statement.Insert
import SqlToMongo.Statement.Select
import SqlToMongo.Statement.Update
import SqlToMongo.Text.Base64
import SqlToMongo.Text.Blank
import SqlToMongo.Text.Display
import SqlToMongo.Text.Fold
import SqlToMongo.Text.Hex
import SqlToMongo.Text.Lines
import SqlToMongo.Text.LowerCase
import SqlToMongo.Text.Printable
import SqlToMongo.Text.Split
import SqlToMongo.Text.Utf8
import SqlToMongo.Yaml.Basic
import SqlToMongo.Yaml.Cursor
import SqlToMongo.Yaml.Document
import SqlToMongo.Yaml.Meaning
import SqlToMongo.Yaml.Moment
import SqlToMongo.Yaml.Scalar
import SqlToMongo.Yaml.Token
import SqlToMongo.Proofs.Condition.Reading
import SqlToMongo.Proofs.Cache.TwoQueue
import SqlToMongo.Proofs.Converter.Runs
import SqlToMongo.Proofs.Filter.Disjunctions
import SqlToMongo.Proofs.Statement.Keywords
import SqlToMongo.Proofs.Statement.Select
import SqlToMongo.Proofs.Filter.Content
import SqlToMongo.Proofs.Statement.Layout
import SqlToMongo.Proofs.Statement.Conditions
import SqlToMongo.Proofs.Statement.Mentions
import SqlToMongo.Proofs.Statement.Literals
import SqlToMongo.Proofs.Json.Grammar
import SqlToMongo.Proofs.Json.Printing
import SqlToMongo.Proofs.Mongo.ShellText
import SqlToMongo.Proofs.Mongo.Merging
import SqlToMongo.Proofs.Decimal.Binary64
import SqlToMongo.Proofs.Decimal.Shortest
import SqlToMongo.Proofs.Statement.Documents
import SqlToMongo.Proofs.Converter.Formats
import SqlToMongo.Proofs.Cache.Memory
import SqlToMongo.Proofs.Service.Conversions
import SqlToMongo.Proofs.Service.Interleavings
import SqlToMongo.Proofs.Decimal.Writing
import SqlToMongo.Proofs.Mongo.Arguments
import SqlToMongo.Proofs.Mongo.Calls
import SqlToMongo.Proofs.Statement.Renderings
import SqlToMongo.Proofs.Statement.Insert
import SqlToMongo.Proofs.Condition.Tiling
import SqlToMongo.Proofs.Statement.Escapes
import SqlToMongo.Proofs.Statement.Update
import SqlToMongo.Proofs.Converter.Relayout
import SqlToMongo.Proofs.Filter.Patterns
import SqlToMongo.Proofs.Statement.Grouping
import SqlToMongo.Proofs.Statement.Aliases
import SqlToMongo.Proofs.Statement.Segments
import SqlToMongo.Proofs.Statement.Sorting
import SqlToMongo.Proofs.Cache.Lru
import SqlToMongo.Proofs.Cache.Freshness
import SqlToMongo.Proofs.Cache.Breaker
import SqlToMongo.Proofs.Condition.Places
import SqlToMongo.Proofs.Statement.Enclosures
import SqlToMongo.Proofs.Statement.Integers
import SqlToMongo.Proofs.Gzip.Bits
import SqlToMongo.Proofs.Statement.Projections
import SqlToMongo.Proofs.Gzip.Pieces
import SqlToMongo.Proofs.Gzip.CanonicalCode
import SqlToMongo.Proofs.Gzip.Lengths
import SqlToMongo.Proofs.Gzip.Blocks
import SqlToMongo.Proofs.Gzip.File
import SqlToMongo.Proofs.Gzip.Bits
import SqlToMongo.Proofs.Gzip.Pieces
import SqlToMongo.Proofs.Gzip.CanonicalCode
import SqlToMongo.Proofs.Gzip.Lengths
import SqlToMongo.Proofs.Gzip.Blocks
import SqlToMongo.Proofs.Gzip.File
import SqlToMongo.Proofs.Statement.Projections
