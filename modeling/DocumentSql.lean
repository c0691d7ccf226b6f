import DocumentSql.Main
import DocumentSql.Proofs.Store.Operation
import DocumentSql.Proofs.Store.Uniqueness
import DocumentSql.Proofs.Store.Clients
import DocumentSql.Proofs.Pattern.Like
import DocumentSql.Proofs.Store.Assignment
import DocumentSql.Proofs.Store.Condition
import DocumentSql.Proofs.Grammar.Gap
import DocumentSql.Proofs.Grammar.Lexeme
import DocumentSql.Proofs.Store.Selection
import DocumentSql.Proofs.Store.Pattern
import DocumentSql.Proofs.Filter.Document
import DocumentSql.Proofs.Relational.Returning
import DocumentSql.Proofs.Grammar.Layout
import DocumentSql.Proofs.Grammar.Token
import DocumentSql.Proofs.Grammar.Language
import DocumentSql.Proofs.Grammar.Soundness
import DocumentSql.Proofs.Grammar.Accepted
import DocumentSql.Proofs.Grammar.Completeness
import DocumentSql.Proofs.Grammar.Written
import DocumentSql.Proofs.Grammar.Writable
import DocumentSql.Proofs.Grammar.Operands
import DocumentSql.Proofs.Grammar.Kind
import DocumentSql.Proofs.Engine.Plan
import DocumentSql.Proofs.Engine.Request
import DocumentSql.Proofs.Store.Atomicity
import DocumentSql.Proofs.Relational.Agreement
import DocumentSql.Proofs.NameCase
import DocumentSql.Proofs.Row
import DocumentSql.Proofs.Store.Insertion
import DocumentSql.Proofs.Store.Retention
import DocumentSql.Proofs.Store.IndexName
import DocumentSql.Proofs.Number.Integer
import DocumentSql.Proofs.Grammar.Displayed
import DocumentSql.Proofs.Engine.Inlining
import DocumentSql.Proofs.Engine.Spelling
import DocumentSql.Proofs.Store.Confinement
import DocumentSql.Proofs.Store.LifeCycle
import DocumentSql.Proofs.Store.Replay
import DocumentSql.Proofs.Uuid
import DocumentSql.Proofs.Value.Comparison
import DocumentSql.Proofs.Value.SortOrder
import DocumentSql.Proofs.Store.Sorting
import DocumentSql.Proofs.Store.Paging
import DocumentSql.Proofs.Store.Repetition
import DocumentSql.Proofs.Store.KeyCheck
import DocumentSql.Proofs.Store.Projection
import DocumentSql.Proofs.Grammar.Printed
import DocumentSql.Proofs.Grammar.Fault
import DocumentSql.Proofs.Grammar.WellFormed
import DocumentSql.Proofs.Grammar.TableComment
import DocumentSql.Proofs.Relational.IntegerCell
import DocumentSql.Proofs.CommandLine.Table
import DocumentSql.Proofs.CommandLine.Bindings
