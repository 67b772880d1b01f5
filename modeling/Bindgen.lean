import Bindgen.Command.Arguments
import Bindgen.Command.Disk
import Bindgen.Command.Path
import Bindgen.Command.Run
import Bindgen.Decl.Basic
import Bindgen.Decl.Equality
import Bindgen.Decl.Transform
import Bindgen.Event
import Bindgen.Failure
import Bindgen.Generate
import Bindgen.Json
import Bindgen.Main
import Bindgen.Merge
import Bindgen.Pass.Apply
import Bindgen.Pass.Exports
import Bindgen.Pass.Imports
import Bindgen.Pass.Names
import Bindgen.Pass.Opens
import Bindgen.Pass.Overloads
import Bindgen.Pass.Pipeline
import Bindgen.Pass.Types
import Bindgen.Pass.Unions
import Bindgen.Print.Member
import Bindgen.Print.Module
import Bindgen.Print.Type
import Bindgen.Read.Member
import Bindgen.Read.Statement
import Bindgen.Read.Type
import Bindgen.Settings.Basic
import Bindgen.Settings.DotEnv
import Bindgen.Settings.Load
import Bindgen.Settings.Whole
import Bindgen.Syntax.Cursor
import Bindgen.Syntax.Kind
import Bindgen.Syntax.Node
import Bindgen.Syntax.Stored
import Bindgen.Syntax.Unwrap
import Bindgen.Text.Blank
import Bindgen.Text.Fields
import Bindgen.Text.LetterCase
import Bindgen.Text.Literal
import Bindgen.Text.LowerCase
import Bindgen.Text.Plain
import Bindgen.Text.Printable
import Bindgen.Text.Quoted
import Bindgen.Text.Similarity
import Bindgen.Text.Utf8
import Bindgen.Traced
import Bindgen.Word
import Bindgen.Proofs.Folding
import Bindgen.Proofs.Merge.Basic
import Bindgen.Proofs.Merge.Pieces
import Bindgen.Proofs.Merge.Contents
import Bindgen.Proofs.Passes
import Bindgen.Proofs.Printable
import Bindgen.Proofs.Heads
import Bindgen.Proofs.Outline
import Bindgen.Proofs.Parts
import Bindgen.Proofs.Layers
import Bindgen.Proofs.Quoting
import Bindgen.Proofs.NormalForm
import Bindgen.Proofs.Reading.Places
import Bindgen.Proofs.Reading.Types
import Bindgen.Proofs.Reading.Declarations
import Bindgen.Proofs.Reading.Positions
import Bindgen.Proofs.Reading.Unions
import Bindgen.Proofs.Reading.StringEnums
import Bindgen.Proofs.Reading.Accessors
import Bindgen.Proofs.Reading.Delimiters
import Bindgen.Proofs.Reading.Wrappers
import Bindgen.Proofs.Reading.Statements
import Bindgen.Proofs.Repeating
import Bindgen.Proofs.InterfaceNames
import Bindgen.Proofs.Renaming
import Bindgen.Proofs.OneLine.Passes
import Bindgen.Proofs.OneLine.Reading
import Bindgen.Proofs.OneLine.Printing
import Bindgen.Proofs.Outputs
import Bindgen.Proofs.Runs
import Bindgen.Proofs.Events
import Bindgen.Proofs.Opening
import Bindgen.Proofs.Mentions
import Bindgen.Proofs.SelfTypes
import Bindgen.Proofs.Postorder
import Bindgen.Proofs.LostParams
import Bindgen.Proofs.UnionSets
import Bindgen.Proofs.ImportPaths
import Bindgen.Proofs.Merge.Declared
import Bindgen.Proofs.Blocks.Indentation
import Bindgen.Proofs.Faults
import Bindgen.Proofs.TypeTexts.Phrases
import Bindgen.Proofs.TypeTexts.Types
import Bindgen.Proofs.TypeTexts.Grouping
import Bindgen.Proofs.Blocks.Lines
import Bindgen.Proofs.Blocks.Bodies
import Bindgen.Proofs.Statics
import Bindgen.Proofs.Exports
import Bindgen.Proofs.Overloads
import Bindgen.Proofs.CaseNames
import Bindgen.Proofs.AttributeStrings
import Bindgen.Proofs.MemberNames
import Bindgen.Proofs.Reading.Namespaces
import Bindgen.Proofs.Reading.Visits
import Bindgen.Proofs.Reading.Log
import Bindgen.Proofs.Reading.Todos
import Bindgen.Proofs.Reading.Degradations
