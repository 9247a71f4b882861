import VocabPhp.Main
import VocabPhp.Proofs.Fields
import VocabPhp.Proofs.Hierarchy
import VocabPhp.Proofs.Run
import VocabPhp.Proofs.Table
import VocabPhp.Proofs.Ownership
import VocabPhp.Proofs.Inheritance
import VocabPhp.Proofs.Lineage
import VocabPhp.Proofs.Closure
import VocabPhp.Proofs.Classification
import VocabPhp.Proofs.Recording
import VocabPhp.Proofs.Cycles
import VocabPhp.Proofs.Reordering
import VocabPhp.Proofs.Skipping
import VocabPhp.Proofs.FileNames
import VocabPhp.Proofs.Literals
import VocabPhp.Proofs.Filling
import VocabPhp.Proofs.Accessors
import VocabPhp.Proofs.Comments
import VocabPhp.Proofs.Refusals
import VocabPhp.Proofs.Monotonicity
import VocabPhp.Proofs.Reading
import VocabPhp.Proofs.Documents
import VocabPhp.Proofs.Emptying
import VocabPhp.Proofs.FailedRuns
import VocabPhp.Proofs.Preorder
import VocabPhp.Proofs.Foreign
import VocabPhp.Proofs.Dialects
import VocabPhp.Proofs.Publishing
import VocabPhp.Proofs.CyclePaths
import VocabPhp.Proofs.ClassNames
import VocabPhp.Proofs.Decoding
import VocabPhp.Proofs.Collapsing
import VocabPhp.Proofs.Merging
import VocabPhp.Proofs.Declaring
import VocabPhp.Proofs.Lines
import VocabPhp.Proofs.TrailingSpaces
import VocabPhp.Proofs.Slots
import VocabPhp.Proofs.TypeUnions
import VocabPhp.Proofs.Clearing
import VocabPhp.Proofs.Shelving
import VocabPhp.Proofs.Coherence
import VocabPhp.Proofs.Replacing
