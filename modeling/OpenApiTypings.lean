import OpenApiTypings.Text.Lines
import OpenApiTypings.Text.Quoted
import OpenApiTypings.Text.Words
import OpenApiTypings.Text.Unseen
import OpenApiTypings.Number.Basic
import OpenApiTypings.Json.Reader
import OpenApiTypings.Json.Printer
import OpenApiTypings.Document.Error
import OpenApiTypings.Log.Event
import OpenApiTypings.Schema.Compilation
import OpenApiTypings.Document.Basic
import OpenApiTypings.Type.Union
import OpenApiTypings.Schema.Compile
import OpenApiTypings.Document.Decode
import OpenApiTypings.Output.Write
import OpenApiTypings.Files.Tree
import OpenApiTypings.Main
import OpenApiTypings.Proofs.Table
import OpenApiTypings.Proofs.Enum.Registry
import OpenApiTypings.Proofs.Enum.Naming
import OpenApiTypings.Proofs.Text.Quoted
import OpenApiTypings.Proofs.Number.Value
import OpenApiTypings.Proofs.Schema.Compilation
import OpenApiTypings.Proofs.Type.Union
import OpenApiTypings.Proofs.Type.Denotation
import OpenApiTypings.Proofs.Lists
import OpenApiTypings.Proofs.Schema.Validity
import OpenApiTypings.Proofs.Schema.Values
import OpenApiTypings.Proofs.Schema.Object
import OpenApiTypings.Proofs.Schema.Soundness
import OpenApiTypings.Proofs.Text.Bracket
import OpenApiTypings.Proofs.Type.Render
import OpenApiTypings.Proofs.Number.Literal
import OpenApiTypings.Proofs.Enum.Spelling
import OpenApiTypings.Proofs.Schema.Composed
import OpenApiTypings.Proofs.Type.Composed
import OpenApiTypings.Proofs.Declarations.Access
import OpenApiTypings.Proofs.Declarations.Stored
import OpenApiTypings.Proofs.Declarations.Build
import OpenApiTypings.Proofs.Declarations.Brackets
import OpenApiTypings.Proofs.Files.Tree
import OpenApiTypings.Proofs.Text.Affix
import OpenApiTypings.Proofs.Output.Normal
import OpenApiTypings.Proofs.Output.Banner
import OpenApiTypings.Proofs.Output.Write
import OpenApiTypings.Proofs.Enum.Stability
import OpenApiTypings.Proofs.Schema.Stability
import OpenApiTypings.Proofs.Schema.Condition
import OpenApiTypings.Proofs.Schema.Traversal
import OpenApiTypings.Proofs.Schema.Positions
import OpenApiTypings.Proofs.Schema.Layers
import OpenApiTypings.Proofs.Schema.Recompilation
import OpenApiTypings.Proofs.Declarations.Inlining
import OpenApiTypings.Proofs.Schema.Recursion
import OpenApiTypings.Proofs.Schema.Keywords
import OpenApiTypings.Proofs.Schema.Projection
import OpenApiTypings.Proofs.Schema.Calls
import OpenApiTypings.Proofs.Declarations.Resolution
import OpenApiTypings.Proofs.Declarations.Frame
import OpenApiTypings.Proofs.Declarations.Closed
import OpenApiTypings.Proofs.Document.Reordered
import OpenApiTypings.Proofs.Declarations.Order
import OpenApiTypings.Proofs.Declarations.Determinism
import OpenApiTypings.Proofs.Enum.Members
import OpenApiTypings.Proofs.Declarations.Sections
import OpenApiTypings.Proofs.Declarations.Complete
import OpenApiTypings.Proofs.Declarations.References
import OpenApiTypings.Proofs.Declarations.Failures
import OpenApiTypings.Proofs.Declarations.Alias
import OpenApiTypings.Proofs.Declarations.Parameters
import OpenApiTypings.Proofs.Files.Lawful
import OpenApiTypings.Proofs.Output.Effects
import OpenApiTypings.Proofs.Schema.Discriminant
import OpenApiTypings.Proofs.Schema.Requirements
import OpenApiTypings.Proofs.Type.Keys
import OpenApiTypings.Proofs.Schema.Keys
import OpenApiTypings.Proofs.Type.Null
import OpenApiTypings.Proofs.Schema.Nullable
import OpenApiTypings.Proofs.Schema.Modes
import OpenApiTypings.Proofs.Schema.DepthLimit
import OpenApiTypings.Proofs.Output.Comment
import OpenApiTypings.Proofs.Schema.KeyPattern
import OpenApiTypings.Proofs.Document.Places
import OpenApiTypings.Proofs.Document.Absence
import OpenApiTypings.Proofs.Text.Literals
import OpenApiTypings.Proofs.Text.Tokens
import OpenApiTypings.Proofs.Type.Literals
import OpenApiTypings.Proofs.Schema.Literals
import OpenApiTypings.Proofs.Declarations.Literals
import OpenApiTypings.Proofs.Output.Literals
import OpenApiTypings.Proofs.Schema.Placement
import OpenApiTypings.Proofs.Text.StringValue
import OpenApiTypings.Proofs.Number.Whole
import OpenApiTypings.Proofs.Text.PropertyName
import OpenApiTypings.Proofs.Declarations.StatusOrder
import OpenApiTypings.Proofs.Declarations.StatusKeys
import OpenApiTypings.Proofs.Text.Indented
import OpenApiTypings.Proofs.Document.Pointers
import OpenApiTypings.Proofs.Enum.Validity
import OpenApiTypings.Proofs.Text.Words
import OpenApiTypings.Proofs.Text.WordSpans
