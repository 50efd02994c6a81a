import LosslessSyntax.Token.Basic
import LosslessSyntax.Token.Flat
import LosslessSyntax.Text.Interner
import LosslessSyntax.Schema.Catalogue
import LosslessSyntax.Schema.Validation
import LosslessSyntax.Schema.Defect
import LosslessSyntax.Tree.Draft
import LosslessSyntax.Tree.Edit
import LosslessSyntax.Tree.Flatten
import LosslessSyntax.Tree.Digest
import LosslessSyntax.Tree.View
import LosslessSyntax.Proofs.Acceptance
import LosslessSyntax.Proofs.Subtree
import LosslessSyntax.Proofs.Session
import LosslessSyntax.Proofs.Validity
import LosslessSyntax.Proofs.Reconstruction
import LosslessSyntax.Proofs.CommentNesting
import LosslessSyntax.Proofs.NextPiece
import LosslessSyntax.Proofs.CanonicalTrivia
import LosslessSyntax.Proofs.ByteScan
import LosslessSyntax.Proofs.NamedTrivia
import LosslessSyntax.Proofs.Allocation
import LosslessSyntax.Proofs.StructuralEquality
import LosslessSyntax.Proofs.SlotEdits
import LosslessSyntax.Proofs.LexemeRoundTrip
import LosslessSyntax.Proofs.DeepEdit
import LosslessSyntax.Proofs.Drafting
import LosslessSyntax.Proofs.FirstMisfit
import LosslessSyntax.Proofs.Interchange
import LosslessSyntax.Proofs.Hashing
import LosslessSyntax.Proofs.NameResolution
import LosslessSyntax.Proofs.TraitPromises
import LosslessSyntax.Proofs.TruthfulViolations
import LosslessSyntax.Proofs.ReadPaths
import LosslessSyntax.Proofs.Interning
import LosslessSyntax.Proofs.CommentGrammar
import LosslessSyntax.Proofs.WalkSpans
import LosslessSyntax.Proofs.ElementEdits
import LosslessSyntax.Proofs.SourcePredicates
import LosslessSyntax.Proofs.TokenEdits
import LosslessSyntax.Proofs.RunLengths
import LosslessSyntax.Proofs.KeywordLookup
