import ReversePolish.Catalogue
import ReversePolish.Expression.Workspace
import ReversePolish.Operation.Definition
import ReversePolish.Proofs.Application
import ReversePolish.Proofs.Reading
import ReversePolish.Session
import ReversePolish.Tree
import ReversePolish.Proofs.Agreement
import ReversePolish.Proofs.Reachable
import ReversePolish.Proofs.Outcome
import ReversePolish.Proofs.Listing
import ReversePolish.Proofs.Depth
import ReversePolish.Proofs.Acceptance
import ReversePolish.Proofs.Diagnosis
import ReversePolish.Proofs.Refusal
import ReversePolish.Proofs.Script
import ReversePolish.Proofs.Number.Rounding
import ReversePolish.Proofs.Number.Digits
import ReversePolish.Proofs.Number.ReadBack
import ReversePolish.Proofs.Number.Double
import ReversePolish.Proofs.Readability
import ReversePolish.Proofs.Meaning
import ReversePolish.Proofs.Workspaces
import ReversePolish.Proofs.Bindings
import ReversePolish.Proofs.History
import ReversePolish.Proofs.Reserved
import ReversePolish.Proofs.Opacity
import ReversePolish.Proofs.Number.Remainder
import ReversePolish.Proofs.Remainders
import ReversePolish.Proofs.Levels
import ReversePolish.Proofs.Parsing
import ReversePolish.Proofs.Causes
import ReversePolish.Proofs.Families
import ReversePolish.Proofs.Copies
import ReversePolish.Proofs.Accounting
import ReversePolish.Proofs.Growth
import ReversePolish.Proofs.Substitution
import ReversePolish.Proofs.Faults
import ReversePolish.Proofs.StackUse
import ReversePolish.Proofs.Sharing
import ReversePolish.Proofs.Mapping
import ReversePolish.Proofs.Coincidence
import ReversePolish.Proofs.Stability
import ReversePolish.Proofs.Number.Literals
import ReversePolish.Proofs.Equality
import ReversePolish.Proofs.Handlers
import ReversePolish.Proofs.KeptText
