import ClaimPolicy.Session
import ClaimPolicy.Wire
import ClaimPolicy.Main
import ClaimPolicy.Proofs.DirectMatch
import ClaimPolicy.Proofs.Inclusion
import ClaimPolicy.Proofs.Layout
import ClaimPolicy.Proofs.Registration
import ClaimPolicy.Proofs.Representation
import ClaimPolicy.Proofs.Lookup
import ClaimPolicy.Proofs.Construction
import ClaimPolicy.Proofs.TokenOrder
import ClaimPolicy.Proofs.Subsumption
import ClaimPolicy.Proofs.Consolidation
import ClaimPolicy.Proofs.Decision
import ClaimPolicy.Proofs.Store
import ClaimPolicy.Proofs.Transparency
import ClaimPolicy.Proofs.Acyclicity
import ClaimPolicy.Proofs.Matching
import ClaimPolicy.Proofs.ClaimText
import ClaimPolicy.Proofs.NormalForm
import ClaimPolicy.Proofs.Merging
import ClaimPolicy.Proofs.Declared
import ClaimPolicy.Proofs.Resolution
import ClaimPolicy.Proofs.NameLevels
import ClaimPolicy.Proofs.Acceptance
import ClaimPolicy.Proofs.MatchWalk
import ClaimPolicy.Proofs.ArenaReads
import ClaimPolicy.Proofs.Families
import ClaimPolicy.Proofs.Insertion
import ClaimPolicy.Proofs.InsertedModel
import ClaimPolicy.Proofs.Invariant
import ClaimPolicy.Proofs.Respelling
import ClaimPolicy.Proofs.RoundTrip
import ClaimPolicy.Proofs.Agreement
import ClaimPolicy.Proofs.Meaning
import ClaimPolicy.Proofs.Extension
import ClaimPolicy.Proofs.Reordering
import ClaimPolicy.Proofs.Growth
import ClaimPolicy.Proofs.Enrichment
import ClaimPolicy.Proofs.Reload
import ClaimPolicy.Proofs.ClaimSets
import ClaimPolicy.Proofs.Wildcards
import ClaimPolicy.Proofs.Synonyms
import ClaimPolicy.Proofs.Unconstrained
import ClaimPolicy.Proofs.FaultKinds
import ClaimPolicy.Proofs.RedundantIncludes
import ClaimPolicy.Proofs.Stability
import ClaimPolicy.Proofs.CanonicalText
import ClaimPolicy.Proofs.CanonicalMatch
import ClaimPolicy.Proofs.Denotation
import ClaimPolicy.Proofs.Classification
import ClaimPolicy.Proofs.Blocks
import ClaimPolicy.Proofs.Footprint
import ClaimPolicy.Proofs.Legality
import ClaimPolicy.Proofs.Joining
import ClaimPolicy.Proofs.Refusals
import ClaimPolicy.Proofs.ColouredSearch
import ClaimPolicy.Proofs.CycleSearch
