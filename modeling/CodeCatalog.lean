import CodeCatalog.Session
import CodeCatalog.Proofs.Registry.Sound
import CodeCatalog.Proofs.Registry.Growth
import CodeCatalog.Proofs.Registry.Interning
import CodeCatalog.Proofs.Registry.Reachable
import CodeCatalog.Proofs.Registry.Table
import CodeCatalog.Proofs.Docstring.Outline
import CodeCatalog.Proofs.Registry.Containment
import CodeCatalog.Proofs.Entity.Merge
import CodeCatalog.Proofs.Registry.Declaring
import CodeCatalog.Proofs.Registry.Placing
import CodeCatalog.Proofs.Registry.Identifying
import CodeCatalog.Proofs.Registry.Refusing
import CodeCatalog.Proofs.Registry.Handles
import CodeCatalog.Proofs.Session.Runs
import CodeCatalog.Proofs.Session.Generations
import CodeCatalog.Proofs.Registry.Walking
import CodeCatalog.Proofs.Registry.History
import CodeCatalog.Proofs.DeclaredName
import CodeCatalog.Proofs.Registry.Finding
import CodeCatalog.Proofs.Registry.Decoding
import CodeCatalog.Proofs.Registry.Registering
import CodeCatalog.Proofs.Registry.Gating
import CodeCatalog.Proofs.Registry.Renaming
import CodeCatalog.Proofs.Registry.Resetting
import CodeCatalog.Proofs.Docstring.Grouping
import CodeCatalog.Proofs.Docstring.Continuing
import CodeCatalog.Proofs.Location.Ledger
import CodeCatalog.Proofs.Snippet.Cutting
import CodeCatalog.Proofs.Snippet.Terminators
import CodeCatalog.Proofs.Snippet.Shifting
import CodeCatalog.Proofs.Snippet.Returns
import CodeCatalog.Proofs.Docstring.Joining
import CodeCatalog.Proofs.Registry.Documenting
import CodeCatalog.Proofs.Docstring.Nesting
import CodeCatalog.Proofs.Docstring.Writing
import CodeCatalog.Proofs.Docstring.Rereading
import CodeCatalog.Proofs.Docstring.Padding
import CodeCatalog.Proofs.Docstring.Summarizing
import CodeCatalog.Proofs.Docstring.Tidying
import CodeCatalog.Proofs.Attribute.Writes
import CodeCatalog.Proofs.Docstring.Closing
import CodeCatalog.Proofs.Attribute.Rewriting
import CodeCatalog.Proofs.Entity.Deriving
import CodeCatalog.Proofs.Registry.Adding
import CodeCatalog.Proofs.Registry.Touching
import CodeCatalog.Proofs.Registry.Batching
import CodeCatalog.Proofs.Docstring.Scanning
