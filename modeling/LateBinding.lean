import LateBinding.Table
import LateBinding.Identity
import LateBinding.Store
import LateBinding.Text.Range
import LateBinding.Text.Word
import LateBinding.Text.Quoted
import LateBinding.Text.Blank
import LateBinding.Decimal.Shortest
import LateBinding.Decimal.Layout
import LateBinding.Template
import LateBinding.Json.Basic
import LateBinding.Json.Number
import LateBinding.Json.Printer
import LateBinding.Json.Reader
import LateBinding.Mapping.Decode
import LateBinding.Mapping.Encode
import LateBinding.BindingError
import LateBinding.Class.Basic
import LateBinding.Class.Search
import LateBinding.Value.Basic
import LateBinding.Value.Convert
import LateBinding.Member.Handle
import LateBinding.World.Basic
import LateBinding.Member.Invoke
import LateBinding.Member.Memo
import LateBinding.Resolver.Types
import LateBinding.Resolver.Registry
import LateBinding.Resolver.Rename
import LateBinding.Resolver.Slot
import LateBinding.Resolver.Variable
import LateBinding.Adapter.Basic
import LateBinding.Adapter.Dispatch
import LateBinding.Adapter.Factory
import LateBinding.Evaluate
import LateBinding.Machine
import LateBinding.Describe
import LateBinding.Proofs.Unwrapping
import LateBinding.Proofs.Resolution
import LateBinding.Proofs.Reading.Retention
import LateBinding.Proofs.TypeCache.Coherence
import LateBinding.Proofs.Activity
import LateBinding.Proofs.Made
import LateBinding.Proofs.RenameMemo
import LateBinding.Proofs.Retained
import LateBinding.Proofs.Keeping
import LateBinding.Proofs.Overloads
import LateBinding.Proofs.Registering
import LateBinding.Proofs.Independence
import LateBinding.Proofs.Receivers
import LateBinding.Proofs.Nesting
import LateBinding.Proofs.Documents
import LateBinding.Proofs.Transcripts
import LateBinding.Proofs.Accessors
import LateBinding.Proofs.Storage
import LateBinding.Proofs.Overriding
import LateBinding.Proofs.Finding
import LateBinding.Proofs.Reports
import LateBinding.Proofs.Arity
import LateBinding.Proofs.Underway
import LateBinding.Proofs.Described
import LateBinding.Proofs.Transparency
import LateBinding.Proofs.Results
import LateBinding.Proofs.Termination
import LateBinding.Proofs.Waiting
import LateBinding.Proofs.Template.Leftmost
import LateBinding.Proofs.Convergence
import LateBinding.Proofs.Seeding
import LateBinding.Proofs.Equality
