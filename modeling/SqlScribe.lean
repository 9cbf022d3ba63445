import SqlScribe.Binary64
import SqlScribe.Calendar
import SqlScribe.Case
import SqlScribe.Compound
import SqlScribe.Condition
import SqlScribe.DataType
import SqlScribe.Decimal.Rounding
import SqlScribe.Decimal.Shortest
import SqlScribe.Decimal.Text
import SqlScribe.Dialect
import SqlScribe.Dialect.FunctionName
import SqlScribe.Dialect.Literal
import SqlScribe.Dialect.Pagination
import SqlScribe.Dialect.Profile
import SqlScribe.Dialect.TypeName
import SqlScribe.Error
import SqlScribe.Frame
import SqlScribe.Function.Arity
import SqlScribe.Function.Catalogue
import SqlScribe.Function.Registry
import SqlScribe.Interval
import SqlScribe.Json
import SqlScribe.Json.Number
import SqlScribe.Json.Reader
import SqlScribe.Lowering
import SqlScribe.Lowering.Clause
import SqlScribe.Lowering.Statement
import SqlScribe.Naming
import SqlScribe.Operator
import SqlScribe.Parameter
import SqlScribe.Proofs.Comment.Clause
import SqlScribe.Proofs.Comment.Syntax
import SqlScribe.Proofs.Comment.Text
import SqlScribe.Proofs.Comment.Token
import SqlScribe.Proofs.Decimal.Shortest
import SqlScribe.Proofs.Masking.Clause
import SqlScribe.Proofs.Masking.Lowering
import SqlScribe.Proofs.Masking.Rendering
import SqlScribe.Proofs.Masking.Statement
import SqlScribe.Proofs.Masking.Syntax
import SqlScribe.Proofs.Nesting.Clause
import SqlScribe.Proofs.Nesting.Statement
import SqlScribe.Proofs.Nesting.Syntax
import SqlScribe.Proofs.Nesting.TokenTree
import SqlScribe.Proofs.Parameter.FreshName
import SqlScribe.Proofs.Parameter.Named
import SqlScribe.Proofs.Parameter.Positional
import SqlScribe.Proofs.Query.Mode
import SqlScribe.Proofs.Query.Run
import SqlScribe.Proofs.Reading.Arithmetic
import SqlScribe.Proofs.Reading.Atom
import SqlScribe.Proofs.Reading.Chain
import SqlScribe.Proofs.Reading.Condition
import SqlScribe.Proofs.Reading.Determined
import SqlScribe.Proofs.Reading.Expression
import SqlScribe.Proofs.Reading.Formula
import SqlScribe.Proofs.Reading.Grammar
import SqlScribe.Proofs.Reading.Logic
import SqlScribe.Proofs.Reading.Meaning
import SqlScribe.Query.Basic
import SqlScribe.Query.Change
import SqlScribe.Query.Join
import SqlScribe.Query.Select
import SqlScribe.Query.Step
import SqlScribe.Render
import SqlScribe.Schema.Create
import SqlScribe.Schema.Drop
import SqlScribe.Scope
import SqlScribe.Settings
import SqlScribe.Settings.Reader
import SqlScribe.Syntax
import SqlScribe.Syntax.Aggregation
import SqlScribe.Syntax.Equality
import SqlScribe.Syntax.Qualifiers
import SqlScribe.Syntax.Shape
import SqlScribe.Table
import SqlScribe.Term
import SqlScribe.Text.Case
import SqlScribe.Text.CaseTable
import SqlScribe.Text.Digits
import SqlScribe.Text.Escaped
import SqlScribe.Text.Quoted
import SqlScribe.Text.Ranges
import SqlScribe.Token
import SqlScribe.Token.Text
import SqlScribe.Toml.Document
import SqlScribe.Toml.Reader
import SqlScribe.Toml.Scalar
import SqlScribe.Uuid
import SqlScribe.Value
import SqlScribe.Window
import SqlScribe.Proofs.Occurrence.Clause
import SqlScribe.Proofs.Occurrence.Statement
import SqlScribe.Proofs.Occurrence.Lowering
import SqlScribe.Proofs.Qualification.Column
import SqlScribe.Proofs.Qualification.Uniform
import SqlScribe.Proofs.Qualification.Mention
import SqlScribe.Proofs.Qualification.Surroundings
import SqlScribe.Proofs.Qualification.Nested
import SqlScribe.Proofs.Qualification.SelfJoin
import SqlScribe.Proofs.Qualification.SourceName
import SqlScribe.Proofs.Qualification.SourceAlias
import SqlScribe.Proofs.Qualification.NestedCompound
import SqlScribe.Proofs.Aggregation.Contents
import SqlScribe.Proofs.Query.Returning
import SqlScribe.Proofs.Query.JoinCondition
import SqlScribe.Proofs.Aliasing.Erasure
import SqlScribe.Proofs.Support.Token
import SqlScribe.Proofs.Support.Clause
import SqlScribe.Proofs.Support.Statement
import SqlScribe.Proofs.Support.Syntax
import SqlScribe.Proofs.Support.Rendering
import SqlScribe.Proofs.Query.Handle
import SqlScribe.Proofs.Identity.Recast
import SqlScribe.Proofs.Identity.Reference
import SqlScribe.Proofs.Identity.Lowering
import SqlScribe.Proofs.Identity.Call
import SqlScribe.Proofs.Identity.Select
import SqlScribe.Proofs.Identity.Join
import SqlScribe.Proofs.Identity.Change
import SqlScribe.Proofs.Identity.Step
import SqlScribe.Proofs.Identity.Program
import SqlScribe.Proofs.Identity.Rendering
import SqlScribe.Proofs.Parameter.Failure
import SqlScribe.Proofs.Query.DialectChoice
import SqlScribe.Proofs.Placeholder.Text
import SqlScribe.Proofs.Placeholder.Token
import SqlScribe.Proofs.Placeholder.Clause
import SqlScribe.Proofs.Placeholder.Statement
import SqlScribe.Proofs.Placeholder.Syntax
import SqlScribe.Proofs.Placeholder.Lowering
import SqlScribe.Proofs.Placeholder.Rendering
import SqlScribe.Proofs.Query.InsertionSteps
import SqlScribe.Proofs.Query.InsertionText
import SqlScribe.Proofs.Presence.Token
import SqlScribe.Proofs.Presence.Clause
import SqlScribe.Proofs.Presence.Statement
import SqlScribe.Proofs.Presence.Syntax
import SqlScribe.Proofs.Presence.Lowering
import SqlScribe.Proofs.Presence.Composition
import SqlScribe.Proofs.Presence.Step
import SqlScribe.Proofs.Presence.Rendering
import SqlScribe.Proofs.SetOperation.Operands
import SqlScribe.Proofs.SetOperation.Grouping
import SqlScribe.Proofs.SetOperation.Window
import SqlScribe.Proofs.SetOperation.Filling
import SqlScribe.Proofs.SetOperation.Place
import SqlScribe.Proofs.SetOperation.Pagination
import SqlScribe.Proofs.Reading.Quoted
import SqlScribe.Proofs.RowWindow.Unarranged
import SqlScribe.Proofs.RowWindow.Reading
import SqlScribe.Proofs.RowWindow.Tail
import SqlScribe.Proofs.Occurrence.Place
import SqlScribe.Proofs.Occurrence.Placed
import SqlScribe.Proofs.Query.ConflictClause
import SqlScribe.Proofs.Query.Survivors
import SqlScribe.Proofs.Query.SelectList
import SqlScribe.Proofs.Reading.Regrouping
import SqlScribe.Proofs.Reading.IntegerDivision
import SqlScribe.Proofs.Occurrence.Induction
import SqlScribe.Proofs.Fragment.Clause
import SqlScribe.Proofs.Fragment.Statement
import SqlScribe.Proofs.Fragment.Lowering
import SqlScribe.Proofs.Fragment.Rendering
import SqlScribe.Proofs.RowCount.Place
import SqlScribe.Proofs.RowCount.Statement
import SqlScribe.Proofs.RowCount.Lowering
import SqlScribe.Proofs.RowCount.Rendering
import SqlScribe.Proofs.RowCount.ChangeLimit
import SqlScribe.Proofs.Decimal.Digits
import SqlScribe.Proofs.Interval.Span
import SqlScribe.Proofs.Interval.Determined
import SqlScribe.Proofs.Combination.Condition
import SqlScribe.Proofs.Combination.Query
import SqlScribe.Proofs.Reading.Shown
import SqlScribe.Proofs.Reading.Precedence
import SqlScribe.Proofs.Selection.Row
import SqlScribe.Proofs.Selection.Conjunction
import SqlScribe.Proofs.Selection.Complement
import SqlScribe.Proofs.Query.ReturnedTables
import SqlScribe.Proofs.Aggregation.Status
import SqlScribe.Proofs.Schema.TypeSpelling
import SqlScribe.Proofs.Schema.Staging
import SqlScribe.Proofs.Query.SelectionText
import SqlScribe.Proofs.Query.CallOrder
import SqlScribe.Proofs.Query.EntryAlias
import SqlScribe.Proofs.Qualification.Collected
