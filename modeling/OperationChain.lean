import OperationChain.Extension.Catalog
import OperationChain.Operation.Shorthand
import OperationChain.Service.Basic
import OperationChain.Settings.Basic
import OperationChain.Value.Order
import OperationChain.Proofs.Engine.Answers
import OperationChain.Proofs.Engine.Failure
import OperationChain.Proofs.Engine.References
import OperationChain.Proofs.Engine.Deadlines
import OperationChain.Proofs.Operation.Parameters
import OperationChain.Proofs.Engine.Templates
import OperationChain.Proofs.Engine.Nesting
import OperationChain.Proofs.Store.Counters
import OperationChain.Proofs.Engine.SavedStates
import OperationChain.Proofs.Engine.Copies
import OperationChain.Proofs.Engine.Views
import OperationChain.Proofs.Engine.Prefixes
import OperationChain.Proofs.Engine.Batches
import OperationChain.Proofs.Value.Document
import OperationChain.Proofs.Operation.Wire
import OperationChain.Proofs.Store.Timestamps
import OperationChain.Proofs.Store.Scans
import OperationChain.Proofs.Engine.Inheritance
import OperationChain.Proofs.Engine.Surplus
import OperationChain.Proofs.Engine.Interleaving
import OperationChain.Proofs.Engine.ReadErrors
import OperationChain.Proofs.Engine.FilterMode
import OperationChain.Proofs.Expression.Reading
import OperationChain.Proofs.Engine.ColumnNames
import OperationChain.Proofs.Engine.TextRanges
import OperationChain.Proofs.Engine.NumberRanges
import OperationChain.Proofs.Expression.Comparison
import OperationChain.Proofs.Expression.NumberOrder
import OperationChain.Proofs.Expression.Assignment
import OperationChain.Proofs.Handles
import OperationChain.Proofs.Extension.Registry
import OperationChain.Proofs.Store.Statement
import OperationChain.Proofs.Engine.Integers
import OperationChain.Proofs.Results.History
