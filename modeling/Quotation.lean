import Quotation.Binary64
import Quotation.Binary64.Shortest
import Quotation.Binary64.Text
import Quotation.CallBuilder
import Quotation.Callable
import Quotation.Engine.Arguments
import Quotation.Engine.Build
import Quotation.Engine.Capture
import Quotation.Engine.Closure
import Quotation.Engine.Evaluate
import Quotation.Engine.Force
import Quotation.Engine.Host
import Quotation.Engine.Resolve
import Quotation.Engine.Routine
import Quotation.Engine.State
import Quotation.Error
import Quotation.Heap
import Quotation.Mask
import Quotation.NameTable
import Quotation.Named
import Quotation.Prelude.Builtins
import Quotation.Prelude.Load
import Quotation.Prelude.Number
import Quotation.Prelude.Specials
import Quotation.Proofs.Arithmetic
import Quotation.Proofs.CallBuilding
import Quotation.Proofs.CallByNeed
import Quotation.Proofs.CallByNeed.Calls
import Quotation.Proofs.CallByNeed.Labels
import Quotation.Proofs.CallByNeed.Scope
import Quotation.Proofs.CallByNeed.Variant
import Quotation.Proofs.CallByNeed.Walk
import Quotation.Proofs.Capturing
import Quotation.Proofs.Commuting
import Quotation.Proofs.Commuting.Marks
import Quotation.Proofs.Comparison
import Quotation.Proofs.Comparison.Doubles
import Quotation.Proofs.Comparison.Rounding
import Quotation.Proofs.Confined
import Quotation.Proofs.Conversion
import Quotation.Proofs.Depth
import Quotation.Proofs.DynamicCall
import Quotation.Proofs.DynamicCall.Items
import Quotation.Proofs.DynamicCall.Template
import Quotation.Proofs.Escaping
import Quotation.Proofs.Exposure
import Quotation.Proofs.Exposure.Builtin
import Quotation.Proofs.Exposure.Closure
import Quotation.Proofs.Exposure.Head
import Quotation.Proofs.Exposure.Rejection
import Quotation.Proofs.Exposure.Wrapping
import Quotation.Proofs.Footprint
import Quotation.Proofs.Footprint.Engine
import Quotation.Proofs.Footprint.Native
import Quotation.Proofs.Footprint.Specials
import Quotation.Proofs.Forcing
import Quotation.Proofs.Forcing.Stack
import Quotation.Proofs.Gathering
import Quotation.Proofs.Gathering.Slots
import Quotation.Proofs.Guarded
import Quotation.Proofs.Heap
import Quotation.Proofs.Hereditary
import Quotation.Proofs.History
import Quotation.Proofs.Invariant
import Quotation.Proofs.Inverse
import Quotation.Proofs.Level
import Quotation.Proofs.Limit
import Quotation.Proofs.Listing
import Quotation.Proofs.Lockstep
import Quotation.Proofs.Lockstep.Engine
import Quotation.Proofs.Lockstep.Since
import Quotation.Proofs.Lockstep.Stopping
import Quotation.Proofs.Masking
import Quotation.Proofs.Masking.Masks
import Quotation.Proofs.Matching
import Quotation.Proofs.Matching.Mapping
import Quotation.Proofs.Matching.Pairing
import Quotation.Proofs.Outcome
import Quotation.Proofs.Overlay
import Quotation.Proofs.Passing
import Quotation.Proofs.PlainFailure
import Quotation.Proofs.Promises
import Quotation.Proofs.Raised
import Quotation.Proofs.RaisedLimit
import Quotation.Proofs.Reading.Bangs
import Quotation.Proofs.Reading.Composition
import Quotation.Proofs.Reading.Constant
import Quotation.Proofs.Reading.Folding
import Quotation.Proofs.Reading.Lexing
import Quotation.Proofs.Reading.Operand
import Quotation.Proofs.Reading.Operator
import Quotation.Proofs.Reading.Placement
import Quotation.Proofs.Reading.Rule
import Quotation.Proofs.Reading.Spelling
import Quotation.Proofs.Reading.Tree
import Quotation.Proofs.Reading.Word
import Quotation.Proofs.Region
import Quotation.Proofs.Relaying
import Quotation.Proofs.Relaying.Calls
import Quotation.Proofs.Relocation
import Quotation.Proofs.Relocation.Engine
import Quotation.Proofs.Relocation.Steady
import Quotation.Proofs.Renaming
import Quotation.Proofs.Renaming.Conversions
import Quotation.Proofs.Renaming.Engine
import Quotation.Proofs.Renaming.Heaps
import Quotation.Proofs.Renaming.Specials
import Quotation.Proofs.Renaming.Values
import Quotation.Proofs.RoundTrip
import Quotation.Proofs.Session
import Quotation.Proofs.Sparing
import Quotation.Proofs.SpecialCall
import Quotation.Proofs.Stored
import Quotation.Proofs.Substitution.Filling
import Quotation.Proofs.Substitution.Level
import Quotation.Proofs.Substitution.Literal
import Quotation.Proofs.Substitution.Markers
import Quotation.Proofs.Substitution.Reference
import Quotation.Proofs.Substitution.Requests
import Quotation.Proofs.Substitution.Threshold
import Quotation.Proofs.Termination
import Quotation.Proofs.Termination.Closed
import Quotation.Proofs.Termination.Engine
import Quotation.Proofs.Termination.Frames
import Quotation.Proofs.Termination.Reach
import Quotation.Proofs.Termination.Scoped
import Quotation.Proofs.Termination.Settles
import Quotation.Proofs.Tracing
import Quotation.Session.Basic
import Quotation.Session.Facts
import Quotation.Session.Host
import Quotation.Session.Reply
import Quotation.Session.Request
import Quotation.Session.Run
import Quotation.Source.Expr
import Quotation.Source.Frontend
import Quotation.Source.Grammar
import Quotation.Source.Grammar.Atom
import Quotation.Source.Grammar.Basic
import Quotation.Source.Grammar.Data
import Quotation.Source.Grammar.Definition
import Quotation.Source.Grammar.Field
import Quotation.Source.Grammar.Function
import Quotation.Source.Grammar.Generics
import Quotation.Source.Grammar.Import
import Quotation.Source.Grammar.Item
import Quotation.Source.Grammar.Member
import Quotation.Source.Grammar.Operator
import Quotation.Source.Grammar.Path
import Quotation.Source.Grammar.Pattern
import Quotation.Source.Grammar.Statement
import Quotation.Source.Grammar.Trailer
import Quotation.Source.Grammar.Type
import Quotation.Source.Grammar.Visibility
import Quotation.Source.Lexer
import Quotation.Source.Number
import Quotation.Source.Rule
import Quotation.Source.StringLiteral
import Quotation.Source.Token
import Quotation.Source.Tree
import Quotation.Text.Blank
import Quotation.Text.CodePoints
import Quotation.Text.Identifier
import Quotation.Text.Printable
import Quotation.Text.Quoted
import Quotation.Tree.Basic
import Quotation.Tree.Markers
import Quotation.Tree.OfValue
import Quotation.Tree.Outline
import Quotation.Tree.Printer
import Quotation.Tree.Stored
import Quotation.Value
