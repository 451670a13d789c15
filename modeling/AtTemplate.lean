import AtTemplate.Main
import AtTemplate.Proofs.Nesting
import AtTemplate.Proofs.Braces
import AtTemplate.Proofs.Chunks
import AtTemplate.Proofs.Fusion
import AtTemplate.Proofs.Composition
import AtTemplate.Proofs.Enclosure
import AtTemplate.Proofs.Escaping
import AtTemplate.Proofs.Safety
import AtTemplate.Proofs.Progress
import AtTemplate.Proofs.LineEnds
import AtTemplate.Proofs.OpenElements
import AtTemplate.Proofs.Comments
import AtTemplate.Proofs.Marks
import AtTemplate.Proofs.ErrorSpans
import AtTemplate.Proofs.Continuation
import AtTemplate.Proofs.Beginnings
import AtTemplate.Proofs.Headers
import AtTemplate.Proofs.Finality
import AtTemplate.Proofs.Reports
import AtTemplate.Proofs.CommentEnds
import AtTemplate.Proofs.HeaderGroups
import AtTemplate.Proofs.Chains
import AtTemplate.Proofs.CodeBlocks
import AtTemplate.Proofs.Statements
import AtTemplate.Proofs.TokenStream
import AtTemplate.Proofs.Pushes
import AtTemplate.Proofs.Literals
import AtTemplate.Proofs.BindingNames
import AtTemplate.Proofs.NormalForm
