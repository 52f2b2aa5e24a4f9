import RecordText.Command.Fix
import RecordText.Command.Generate
import RecordText.Command.Listing
import RecordText.Command.Paint
import RecordText.Command.Run
import RecordText.Command.Scan
import RecordText.Command.Settings
import RecordText.Command.Usage
import RecordText.Command.Workspace
import RecordText.Decimal.Format
import RecordText.Decimal.Shortest
import RecordText.Descriptor.Basic
import RecordText.Descriptor.Document
import RecordText.Descriptor.Validity
import RecordText.Edit.Completion
import RecordText.Edit.Insertion
import RecordText.Files.Glob
import RecordText.Files.Path
import RecordText.Files.Search
import RecordText.Files.Tree
import RecordText.Json.Basic
import RecordText.Json.NumberText
import RecordText.Json.Parser
import RecordText.Json.Path
import RecordText.Json.Pointer
import RecordText.Json.Printer
import RecordText.Language.Basic
import RecordText.Language.Identifier
import RecordText.Language.Reserved
import RecordText.Layout
import RecordText.Main
import RecordText.Member
import RecordText.Proofs.CarriageReturns
import RecordText.Proofs.ClassBodies
import RecordText.Proofs.ClassTree
import RecordText.Proofs.CommutingInsertions
import RecordText.Proofs.CompletedOutline
import RecordText.Proofs.CompletedText
import RecordText.Proofs.CompletionPlan
import RecordText.Proofs.CompletionRounds
import RecordText.Proofs.HeaderForm
import RecordText.Proofs.HeaderPlaces
import RecordText.Proofs.InsertedOverride
import RecordText.Proofs.InsertionPlace
import RecordText.Proofs.Masking
import RecordText.Proofs.MemberContents
import RecordText.Proofs.MemberFrame
import RecordText.Proofs.MemberLines
import RecordText.Proofs.MemberReading
import RecordText.Proofs.MemberSegments
import RecordText.Proofs.Nesting
import RecordText.Proofs.OpaqueTrivia
import RecordText.Proofs.OverrideReading
import RecordText.Proofs.OverrideText
import RecordText.Proofs.Seam
import RecordText.Proofs.SharedBodies
import RecordText.Proofs.SimultaneousEdit
import RecordText.Proofs.TreeHeaders
import RecordText.Proofs.TreeOutline
import RecordText.Proofs.WidenedCompletion
import RecordText.Proofs.WidenedMask
import RecordText.Proofs.WidenedOutline
import RecordText.Proofs.WidenedReading
import RecordText.Query.Access
import RecordText.Query.Arithmetic
import RecordText.Query.Assignment
import RecordText.Query.Builtin
import RecordText.Query.Env
import RecordText.Query.Eval
import RecordText.Query.Grammar
import RecordText.Query.Lexeme
import RecordText.Query.Outputs
import RecordText.Query.Prelude
import RecordText.Query.Reading
import RecordText.Query.Run
import RecordText.Query.Scope
import RecordText.Query.Term
import RecordText.Query.Value
import RecordText.Source.Body
import RecordText.Source.Declaration
import RecordText.Source.Header
import RecordText.Source.Outline
import RecordText.Source.Token
import RecordText.Text.Blank
import RecordText.Text.Digits
import RecordText.Text.Dump
import RecordText.Text.Invisible
import RecordText.Text.Letter
import RecordText.Text.Lines
import RecordText.Text.Numeral
import RecordText.Text.Offset
import RecordText.Text.Quoted
import RecordText.Text.Range
import RecordText.Text.Slashes
import RecordText.Text.Start
import RecordText.Text.WordChar
import RecordText.Proofs.FileChanges
import RecordText.Proofs.FinishedClasses
import RecordText.Proofs.CompletedFiles
import RecordText.Proofs.SeparateMembers
import RecordText.Proofs.DocumentSpellings
import RecordText.Proofs.GeneratedOutput
import RecordText.Proofs.Utf8Bytes
import RecordText.Proofs.LexicalGrammar
import RecordText.Proofs.LexicalCut
import RecordText.Proofs.MaskedOffsets
import RecordText.Proofs.BraceMatching
import RecordText.Proofs.InsertedLines
import RecordText.Proofs.DescriptorFaults
import RecordText.Proofs.IndentedMembers
import RecordText.Proofs.OutlinedNames
import RecordText.Proofs.CompletionReport
import RecordText.Proofs.UniqueKeys
import RecordText.Proofs.DocumentShapes
import RecordText.Proofs.DocumentFaults
import RecordText.Proofs.LiteralLines
import RecordText.Proofs.ArrowMembers
import RecordText.Proofs.JsonTexts
import RecordText.Proofs.IdentityQuery
import RecordText.Proofs.UnfinishedPieces
import RecordText.Proofs.UnfinishedHeaders
import RecordText.Proofs.RepeatedCompletion
import RecordText.Proofs.EscapedNames
import RecordText.Proofs.QuotedText
import RecordText.Proofs.RenderedSteps
