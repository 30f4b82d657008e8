import Accessors.CommandLine.Arguments
import Accessors.CommandLine.Command
import Accessors.Config
import Accessors.Crate.Alias
import Accessors.Crate.Fault
import Accessors.Crate.Layout
import Accessors.Crate.Module
import Accessors.Crate.Struct
import Accessors.Decimal.Notation
import Accessors.Decimal.Shortest
import Accessors.Decl.Item
import Accessors.Decl.Ty
import Accessors.File.Fault
import Accessors.File.Glob
import Accessors.File.Path
import Accessors.File.Tree
import Accessors.Generation.Emission
import Accessors.Generation.Error
import Accessors.Generation.Invocation
import Accessors.Generation.Output
import Accessors.Generation.Run
import Accessors.Generation.State
import Accessors.Main
import Accessors.Name
import Accessors.Parsing.Attributes
import Accessors.Parsing.Cursor
import Accessors.Parsing.Expressions
import Accessors.Parsing.Items
import Accessors.Parsing.Patterns
import Accessors.Parsing.Rules
import Accessors.Parsing.Source
import Accessors.Parsing.Statements
import Accessors.Parsing.Types
import Accessors.Proofs.AliasChain
import Accessors.Proofs.BuiltInTemplates
import Accessors.Proofs.Emitted
import Accessors.Proofs.FileWrite
import Accessors.Proofs.GeneratedFile
import Accessors.Proofs.ModulePath
import Accessors.Proofs.Outcome
import Accessors.Proofs.PathHeads
import Accessors.Proofs.PlainTemplate
import Accessors.Proofs.ScopedNames
import Accessors.Proofs.UseLeaves
import Accessors.Reference
import Accessors.Scope.Absolute
import Accessors.Scope.Imports
import Accessors.Scope.Symbols
import Accessors.Signature.Basic
import Accessors.Signature.Generics
import Accessors.Template.BuiltIn
import Accessors.Template.Evaluate
import Accessors.Template.ExprGrammar
import Accessors.Template.Filter
import Accessors.Template.Grammar
import Accessors.Template.Loaded
import Accessors.Template.Node
import Accessors.Template.Registry
import Accessors.Template.Render
import Accessors.Template.Scope
import Accessors.Template.Trim
import Accessors.Template.Value
import Accessors.Text.Basic
import Accessors.Text.Blank
import Accessors.Text.IdentChar
import Accessors.Text.Lowercase
import Accessors.Text.Ranges
import Accessors.Text.Reader
import Accessors.Text.Uppercase
import Accessors.Token.Basic
import Accessors.Token.Lexer
import Accessors.Token.Literal
import Accessors.Token.LiteralKind
import Accessors.Token.Spacing
import Accessors.Token.Text
import Accessors.Toml.Basic
import Accessors.Toml.Date
import Accessors.Toml.Document
import Accessors.Toml.Number
import Accessors.Toml.Section
import Accessors.Toml.Table
import Accessors.Toml.Text
import Accessors.File.Trail
import Accessors.Proofs.PathPieces
import Accessors.Proofs.Directories
import Accessors.Proofs.RunStages
import Accessors.Proofs.OutputEffect
import Accessors.Proofs.OutputOnly
import Accessors.File.Reading
import Accessors.Proofs.RunOnce
import Accessors.Proofs.RunReading
import Accessors.Proofs.SettledLooks
import Accessors.Proofs.Regeneration
import Accessors.Proofs.PlannedOutputs
import Accessors.Proofs.OutputsCommute
import Accessors.Proofs.IndependentRuns
import Accessors.Proofs.WrittenParts
import Accessors.Proofs.QualifiedNames
import Accessors.Proofs.LexedLeaves
import Accessors.Proofs.Glyphs
import Accessors.Proofs.TypeGlyphs
import Accessors.Proofs.Reading
import Accessors.Proofs.TypeGrammar
import Accessors.Proofs.TypeOpenings
import Accessors.Proofs.PathsRead
import Accessors.Proofs.TypesRead
import Accessors.Proofs.Yielding
import Accessors.Proofs.ParsedText
import Accessors.Proofs.TypesMade
import Accessors.Proofs.ReadBack
import Accessors.Proofs.ModuleFiles
import Accessors.Proofs.PathAttributes
import Accessors.Proofs.SettingLayers
import Accessors.Proofs.ItemPaths
import Accessors.Proofs.ImportMeaning
import Accessors.Proofs.ErasedTypes
import Accessors.Proofs.GenericsGlyphs
import Accessors.Proofs.GenericsMade
import Accessors.Proofs.GenericsRead
import Accessors.Proofs.ImplHeader
import Accessors.Proofs.HeaderArguments
import Accessors.Proofs.AgreeingLooks
import Accessors.Proofs.LoadingLooks
import Accessors.Proofs.PathTexts
import Accessors.Proofs.ReferenceTexts
import Accessors.Proofs.ModuleSpelling
import Accessors.Proofs.ItemNames
import Accessors.Proofs.SuggestedReference
import Accessors.Proofs.SingleUses
import Accessors.Proofs.StoppedEmission
import Accessors.Proofs.ReferenceForm
import Accessors.Proofs.Outlines
import Accessors.Proofs.RemarkedCrates
import Accessors.Proofs.MarkedWalks
import Accessors.Proofs.RemarkedAnswers
import Accessors.Proofs.CorrespondingCrates
import Accessors.Proofs.TypeNamespace
import Accessors.Proofs.TargetSpellings
import Accessors.Proofs.RespelledTargets
import Accessors.Proofs.AbsoluteImports
import Accessors.Proofs.ClosedSpaces
import Accessors.Proofs.LexedLiterals
import Accessors.Proofs.SpacedPieces
import Accessors.Proofs.WrittenTokens
import Accessors.Proofs.LexedTokens
import Accessors.Proofs.PrintedImports
import Accessors.Proofs.OutputNames
import Accessors.Proofs.HeaderLine
import Accessors.Proofs.MessageLines
import Accessors.Proofs.ErrorNames
import Accessors.Proofs.DiagnosticLine
import Accessors.Proofs.SettledSpacing
import Accessors.Proofs.OutwardPaths
import Accessors.Proofs.SearchPatterns
import Accessors.Proofs.TemplateDirectories
import Accessors.Proofs.GeneratedItems
