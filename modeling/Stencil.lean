import Stencil.Analysis.Findings
import Stencil.Cli.Run
import Stencil.Error.Report
import Stencil.Files.Access
import Stencil.Json.Reader
import Stencil.Main
import Stencil.Parse
import Stencil.Print.Source
import Stencil.Proofs.Lexing.Breaks
import Stencil.Proofs.Lexing.Characters
import Stencil.Proofs.Lexing.Numbers
import Stencil.Proofs.Lexing.Spelling
import Stencil.Proofs.Lexing.Streams
import Stencil.Proofs.Lexing.Words
import Stencil.Proofs.Parsing.Levels
import Stencil.Proofs.Parsing.Operands
import Stencil.Proofs.Parsing.Places
import Stencil.Proofs.Parsing.Run
import Stencil.Proofs.Parsing.Shown
import Stencil.Proofs.Printing.ExprText
import Stencil.Proofs.Printing.Faces
import Stencil.Proofs.Printing.Faithful
import Stencil.Proofs.Printing.Joining
import Stencil.Proofs.Printing.Laying
import Stencil.Proofs.Printing.StmtText
import Stencil.Proofs.Syntax.Induction
import Stencil.Proofs.Syntax.Parts
import Stencil.Proofs.Syntax.Scoping
import Stencil.Render.Renderer
import Stencil.Render.Sources
import Stencil.Render.Stage
import Stencil.Syntax.Encoding
import Stencil.Syntax.Erase
import Stencil.Text.Entity
import Stencil.Value.Operation
import Stencil.Value.Property
import Stencil.Value.Text
import Stencil.Proofs.Parsing.Functions
import Stencil.Proofs.Parsing.Operators
import Stencil.Proofs.Parsing.Scripts
import Stencil.Proofs.Lexing.TemplateText
import Stencil.Proofs.Printing.ChunkText
import Stencil.Proofs.Rendering.Lint
import Stencil.Proofs.Streaming.Delivery
import Stencil.Proofs.Rendering.Abandon
import Stencil.Proofs.Rendering.Backpressure
import Stencil.Proofs.Rendering.Likeness
import Stencil.Proofs.Rendering.SparedExprs
import Stencil.Proofs.Rendering.SparedLoops
import Stencil.Proofs.Rendering.SparedTemplates
import Stencil.Proofs.Rendering.Drains
import Stencil.Proofs.Lexing.Gaps
import Stencil.Proofs.Lexing.Sessions
import Stencil.Proofs.Lexing.Tiling
import Stencil.Proofs.Rendering.Preloaded
import Stencil.Proofs.Parsing.Blocks
import Stencil.Proofs.Lexing.Modes
import Stencil.Proofs.Parsing.Spanless
import Stencil.Proofs.Parsing.Reparsing
import Stencil.Proofs.Parsing.SpanTrees
import Stencil.Proofs.Rendering.Diagnostics
import Stencil.Proofs.Parsing.Chunks
import Stencil.Proofs.Parsing.ScopedTrees
import Stencil.Proofs.Parsing.ParsingEnds
import Stencil.Proofs.Lexing.Excerpts
import Stencil.Proofs.Parsing.Strictness
import Stencil.Proofs.Syntax.Decoding
import Stencil.Proofs.Parsing.PlainExprs
import Stencil.Proofs.Rendering.ErrorStacks
import Stencil.Proofs.Parsing.Denotations
import Stencil.Proofs.Parsing.SourceMaps
import Stencil.Proofs.Parsing.Names
import Stencil.Proofs.Parsing.Accessors
import Stencil.Proofs.Parsing.Division
import Stencil.Proofs.Parsing.Climbing
import Stencil.Proofs.Rendering.ArrayChannels
import Stencil.Proofs.Values.Indices
import Stencil.Proofs.Rendering.StrictEqualities
import Stencil.Proofs.Parsing.WholeTrees
import Stencil.Proofs.Lexing.StringLiterals
import Stencil.Proofs.Lexing.NumberTokens
import Stencil.Proofs.Text.Entities
import Stencil.Proofs.Files.Confinement
import Stencil.Proofs.Reporting.Quotes
