import Refactor.CommandLine.Grammar
import Refactor.CommandLine.Options
import Refactor.CommandLine.Setting
import Refactor.Diff.Alignment
import Refactor.Diff.Bodies
import Refactor.Diff.Config
import Refactor.Diff.Models
import Refactor.Diff.Names
import Refactor.Diff.Parameters
import Refactor.Error
import Refactor.Extract.Context
import Refactor.Extract.Cpp
import Refactor.Extract.JavaScript
import Refactor.Extract.Model
import Refactor.Extract.Python
import Refactor.Extract.TypeText
import Refactor.Extract.Walk
import Refactor.Language
import Refactor.Location
import Refactor.Main
import Refactor.Model.Annotation
import Refactor.Model.Attribute
import Refactor.Model.Class
import Refactor.Model.CodeModel
import Refactor.Model.Comment
import Refactor.Model.Import
import Refactor.Model.Linking
import Refactor.Model.LocationIndex
import Refactor.Model.Operation
import Refactor.Model.Parameter
import Refactor.Model.TypeRef
import Refactor.Model.Visibility
import Refactor.Number.Binary64
import Refactor.Number.Decimal
import Refactor.Path
import Refactor.Pattern.Basic
import Refactor.Pattern.CharSet
import Refactor.Pattern.PropertyName
import Refactor.Pattern.Reader
import Refactor.Point
import Refactor.Program
import Refactor.Program.Notices
import Refactor.Read.Directory
import Refactor.Read.ParserCache
import Refactor.Read.Progress
import Refactor.Read.Reader
import Refactor.Refactoring
import Refactor.Report.Format
import Refactor.Report.Html
import Refactor.Report.Markdown
import Refactor.Report.Plain
import Refactor.Report.Render
import Refactor.Report.Section
import Refactor.Repository.Commit
import Refactor.Repository.CommitHash
import Refactor.Repository.History
import Refactor.Repository.Object
import Refactor.Repository.Revision
import Refactor.Repository.Snapshots
import Refactor.Statement.Call
import Refactor.Statement.Compare
import Refactor.Statement.Token
import Refactor.Statement.Words
import Refactor.Syntax.Query
import Refactor.Syntax.Tree
import Refactor.Text.Bytes
import Refactor.Text.CharClass
import Refactor.Text.EditDistance
import Refactor.Text.Hex
import Refactor.Text.Lowercase
import Refactor.Text.Property.Age
import Refactor.Text.Property.Alphabetic
import Refactor.Text.Property.Case
import Refactor.Text.Property.Mark
import Refactor.Text.Property.Number
import Refactor.Text.Property.Printable
import Refactor.Text.Quoted
import Refactor.Text.Trim
import Refactor.TextMap
import Refactor.World
import Refactor.World.Inventory
import Refactor.World.Messages
import Refactor.World.Place
import Refactor.Proofs.BodyScore
import Refactor.Proofs.FuzzyPass
import Refactor.Proofs.OperationIndex
import Refactor.Proofs.ModelMatching
import Refactor.Proofs.Unchanged
import Refactor.Proofs.Additions
import Refactor.Proofs.ParameterRenaming
import Refactor.Proofs.Merging
import Refactor.Proofs.FileModels
import Refactor.Proofs.OutsideEdits
import Refactor.Proofs.Attachment
import Refactor.Proofs.LinkConservation
import Refactor.Proofs.LinkCompleteness
import Refactor.Proofs.NamePatterns
import Refactor.Proofs.PatternMatches
import Refactor.Proofs.Points
import Refactor.Proofs.Provenance
import Refactor.Proofs.Restriction
import Refactor.Proofs.ChangedFiles
import Refactor.Proofs.BeforeAfter
import Refactor.Proofs.Restoration
import Refactor.Proofs.PythonOutline
import Refactor.Proofs.JavaScriptOutline
import Refactor.Proofs.FileOutcomes
import Refactor.Proofs.HtmlMarkup
import Refactor.Proofs.MemberVisibility
import Refactor.Proofs.CommonSubsequence
import Refactor.Proofs.Relinking
import Refactor.Proofs.ParameterPlaces
import Refactor.Proofs.EditDistance
import Refactor.Proofs.RelatedNames
import Refactor.Proofs.SignatureKeys
import Refactor.Proofs.WholeIdentifiers
import Refactor.Proofs.OfferedNodes
import Refactor.Proofs.Descendants
import Refactor.Proofs.WrittenTypes
import Refactor.Proofs.DominantLanguage
import Refactor.Proofs.ChangedPaths
import Refactor.Proofs.DecoratorArguments
import Refactor.Proofs.Members
import Refactor.Proofs.SelfAssignments
import Refactor.Proofs.InstanceAttributes
import Refactor.Proofs.Entities
import Refactor.Proofs.Intervals
import Refactor.Proofs.CacheSchedules
import Refactor.Proofs.SectionGrouping
