import Ancestry.CommandLine.Run
import Ancestry.Main
import Ancestry.Object.Snapshot
import Ancestry.Proofs.Log.Paging
import Ancestry.Proofs.Stops
import Ancestry.Proofs.Filter.Laws
import Ancestry.Proofs.Occurrences
import Ancestry.Proofs.Walk.Filtering
import Ancestry.Proofs.Walk.Settings
import Ancestry.Store.Memory
import Ancestry.Proofs.Walk.Collecting
import Ancestry.Proofs.Walk.Times
import Ancestry.Proofs.Walk.Emptying
import Ancestry.Proofs.Walk.Topological
import Ancestry.Proofs.Walk.Precedence
import Ancestry.Proofs.Trees.Names
import Ancestry.Proofs.Trees.Snapshots
import Ancestry.Proofs.Trees.Overlays
import Ancestry.Proofs.Trees.Comparing
import Ancestry.Proofs.Trees.Listing
import Ancestry.Proofs.Trees.Counting
import Ancestry.Proofs.Walk.Sessions
import Ancestry.Proofs.Walk.Sharing
import Ancestry.Proofs.Walk.Renewal
import Ancestry.Proofs.Walk.Lifecycle
import Ancestry.Proofs.Walk.HiddenRest
import Ancestry.Proofs.Commits.Writing
import Ancestry.Proofs.Store.Sequences
import Ancestry.Proofs.Trees.Writing
import Ancestry.Proofs.Revision.Grammar
import Ancestry.Proofs.Reference.Branches
import Ancestry.Proofs.Reference.Chains
import Ancestry.Proofs.Walk.Permuting
import Ancestry.Proofs.Walk.Reordering
import Ancestry.Proofs.Walk.Lingering
import Ancestry.Proofs.Repository.Generations
import Ancestry.Proofs.Occurrences.Bytes
import Ancestry.Proofs.Occurrences.Patterns
import Ancestry.Proofs.Revision.Arguments
import Ancestry.Proofs.Reference.Attaching
import Ancestry.Proofs.Walk.Lowering
import Ancestry.Proofs.Repository.Abbreviations
import Ancestry.Proofs.Walk.Veiling
import Ancestry.Proofs.Walk.Overlooking
