import Armature.Interchange
import Armature.Optimize.Edits
import Armature.Skeleton.Builder
import Armature.Proofs.Codec.Walks
import Armature.Proofs.Optimize.Depth
import Armature.Proofs.Optimize.Recovery
import Armature.Proofs.Optimize.Rejection
import Armature.Proofs.Optimize.Settling
import Armature.Proofs.Evaluate.Parents
import Armature.Proofs.Evaluate.Refinement
import Armature.Proofs.Evaluate.Validity
import Armature.Optimize.Hook
import Armature.Proofs.Codec.Renumbering
import Armature.Proofs.Optimize.Hooks
import Armature.Proofs.Skeleton.Interface
import Armature.Proofs.Skeleton.Filtering
import Armature.Proofs.Evaluate.Payloads
import Armature.Proofs.Optimize.Growth
import Armature.Proofs.Optimize.MergedPaths
import Armature.Proofs.Optimize.Leftovers
import Armature.Proofs.Optimize.Unseen
import Armature.Proofs.Optimize.Joined
import Armature.Proofs.Optimize.Unwrapped
import Armature.Proofs.Optimize.Sheltered
import Armature.Proofs.Evaluate.Nesting
import Armature.Proofs.Evaluate.Ancestry
import Armature.Proofs.Evaluate.Branches
import Armature.Proofs.Evaluate.Limit
import Armature.Proofs.Skeleton.Remapping
import Armature.Proofs.Codec.Composition
import Armature.Proofs.Evaluate.Updates
import Armature.Proofs.Skeleton.Deferral
import Armature.Proofs.Evaluate.Observer
import Armature.Proofs.Optimize.Condensed
import Armature.Proofs.Codec.Listing
import Armature.Proofs.Optimize.FirstUsers
import Armature.Proofs.Optimize.InPlace
