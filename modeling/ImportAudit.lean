import ImportAudit.Analysis.File
import ImportAudit.Analysis.Pool
import ImportAudit.Analysis.Record
import ImportAudit.Analysis.Root
import ImportAudit.Analysis.Run
import ImportAudit.Calendar
import ImportAudit.Catalog
import ImportAudit.CommandLine.Fill
import ImportAudit.CommandLine.Grammar
import ImportAudit.CommandLine.Help
import ImportAudit.CommandLine.Parse
import ImportAudit.CommandLine.Run
import ImportAudit.Console
import ImportAudit.Console.Layout
import ImportAudit.Console.Markup
import ImportAudit.Console.Picture
import ImportAudit.Console.PictureTable
import ImportAudit.Console.Style
import ImportAudit.Console.Width
import ImportAudit.Console.WidthTable
import ImportAudit.Console.Wrap
import ImportAudit.Decimal.Double
import ImportAudit.Decimal.Layout
import ImportAudit.Decimal.Read
import ImportAudit.Discovery
import ImportAudit.Extensions
import ImportAudit.Failure
import ImportAudit.FileSystem
import ImportAudit.Import.Declaration
import ImportAudit.Import.Usage
import ImportAudit.Import.Verdict
import ImportAudit.Java.Cursor
import ImportAudit.Java.Grammar
import ImportAudit.Java.Lexer
import ImportAudit.Java.Parse
import ImportAudit.Java.References
import ImportAudit.Java.Rule
import ImportAudit.Java.Rule.Declarations
import ImportAudit.Java.Rule.Expressions
import ImportAudit.Java.Rule.Statements
import ImportAudit.Java.Rule.Types
import ImportAudit.Java.Token
import ImportAudit.Java.Tree
import ImportAudit.Json.Print
import ImportAudit.Json.Read
import ImportAudit.Main
import ImportAudit.Path
import ImportAudit.Proofs.Action
import ImportAudit.Proofs.Analysis.Accounts
import ImportAudit.Proofs.Analysis.Columns
import ImportAudit.Proofs.Analysis.Depths
import ImportAudit.Proofs.Analysis.Failures
import ImportAudit.Proofs.Analysis.File
import ImportAudit.Proofs.Analysis.InTurn
import ImportAudit.Proofs.Analysis.Interleaving
import ImportAudit.Proofs.Analysis.OtherFiles
import ImportAudit.Proofs.Analysis.Pool
import ImportAudit.Proofs.Analysis.Report
import ImportAudit.Proofs.Analysis.Sources
import ImportAudit.Proofs.CommandLine.CheckedSettings
import ImportAudit.Proofs.CommandLine.Failures
import ImportAudit.Proofs.Console.Lines
import ImportAudit.Proofs.Console.Literal
import ImportAudit.Proofs.Console.Markup
import ImportAudit.Proofs.Console.Pictures
import ImportAudit.Proofs.Decimal.Digits
import ImportAudit.Proofs.Decimal.Double
import ImportAudit.Proofs.Discovery
import ImportAudit.Proofs.Extensions
import ImportAudit.Proofs.Extensions.Matching
import ImportAudit.Proofs.Extensions.NormalForms
import ImportAudit.Proofs.FileSystem
import ImportAudit.Proofs.Import.Cells
import ImportAudit.Proofs.Import.Verdict
import ImportAudit.Proofs.Java.AddedDeclarations
import ImportAudit.Proofs.Java.DottedNames
import ImportAudit.Proofs.Java.Grammar
import ImportAudit.Proofs.Java.ImportNames
import ImportAudit.Proofs.Java.Imports
import ImportAudit.Proofs.Java.Introductions
import ImportAudit.Proofs.Java.Lexer
import ImportAudit.Proofs.Java.MethodReferences
import ImportAudit.Proofs.Java.ParseTrees
import ImportAudit.Proofs.Java.References
import ImportAudit.Proofs.Java.Shapes
import ImportAudit.Proofs.Java.Traversal
import ImportAudit.Proofs.Java.Walk
import ImportAudit.Proofs.Java.Wildcards
import ImportAudit.Proofs.Json.Atoms
import ImportAudit.Proofs.Json.RoundTrip
import ImportAudit.Proofs.Keys
import ImportAudit.Proofs.Path
import ImportAudit.Proofs.Report.Document
import ImportAudit.Proofs.Report.Failures
import ImportAudit.Proofs.Report.Saving
import ImportAudit.Proofs.Report.Sheet
import ImportAudit.Proofs.Report.Summary
import ImportAudit.Proofs.Report.TitleCell
import ImportAudit.Proofs.Report.Titles
import ImportAudit.Proofs.Sequencing
import ImportAudit.Proofs.Settings.Check
import ImportAudit.Proofs.Settings.Documents
import ImportAudit.Proofs.Settings.Environment
import ImportAudit.Proofs.Settings.Extensions
import ImportAudit.Proofs.Settings.Files
import ImportAudit.Proofs.Settings.Layers
import ImportAudit.Proofs.Settings.Loading
import ImportAudit.Proofs.Settings.Merge
import ImportAudit.Proofs.Settings.Reading
import ImportAudit.Proofs.Settings.RoundTrip
import ImportAudit.Proofs.Table
import ImportAudit.Proofs.Text.Blank
import ImportAudit.Proofs.Text.Encoding
import ImportAudit.Proofs.Text.Identifier
import ImportAudit.Proofs.Text.Lower
import ImportAudit.Proofs.Text.LowerContext
import ImportAudit.Proofs.Text.WellFormed
import ImportAudit.Proofs.Value
import ImportAudit.Proofs.Yaml.Block
import ImportAudit.Proofs.Yaml.Cursor
import ImportAudit.Proofs.Yaml.Leaf
import ImportAudit.Proofs.Yaml.Lexer
import ImportAudit.Proofs.Yaml.Node
import ImportAudit.Proofs.Yaml.Numbers
import ImportAudit.Proofs.Yaml.Page
import ImportAudit.Proofs.Yaml.Plain
import ImportAudit.Proofs.Yaml.Quoted
import ImportAudit.Proofs.Yaml.QuotedWriting
import ImportAudit.Proofs.Yaml.RoundTrip
import ImportAudit.Report.Sheet
import ImportAudit.Report.Summary
import ImportAudit.Report.Workbook
import ImportAudit.Report.Writer
import ImportAudit.Settings
import ImportAudit.Settings.Check
import ImportAudit.Settings.Environment
import ImportAudit.Settings.File
import ImportAudit.Settings.Load
import ImportAudit.Settings.Merge
import ImportAudit.Settings.Save
import ImportAudit.Table
import ImportAudit.Text.Blank
import ImportAudit.Text.Digit
import ImportAudit.Text.Encoding
import ImportAudit.Text.Identifier
import ImportAudit.Text.Lower
import ImportAudit.Text.LowerTable
import ImportAudit.Text.Printable
import ImportAudit.Text.Quoted
import ImportAudit.Text.Ranges
import ImportAudit.Value
import ImportAudit.World
import ImportAudit.Yaml.Cursor
import ImportAudit.Yaml.Lexer
import ImportAudit.Yaml.Node
import ImportAudit.Yaml.Print
import ImportAudit.Yaml.Read
import ImportAudit.Yaml.Scalar
import ImportAudit.Yaml.Text
import ImportAudit.Yaml.Token
