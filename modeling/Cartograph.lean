import Cartograph.Expression.Evaluation
import Cartograph.Main
import Cartograph.Pipeline
import Cartograph.Program
import Cartograph.Validation
import Cartograph.Proofs.Annotation.Intent
import Cartograph.Proofs.Annotation.Sharing
import Cartograph.Proofs.Conflict
import Cartograph.Proofs.Detection
import Cartograph.Proofs.Discovery.Orientation
import Cartograph.Proofs.Drawing
import Cartograph.Proofs.Expansion.Labels
import Cartograph.Proofs.Expansion.Numbers
import Cartograph.Proofs.Expansion.Separation
import Cartograph.Proofs.Expression.Arithmetic
import Cartograph.Proofs.Frame
import Cartograph.Proofs.Graph.Renaming
import Cartograph.Proofs.Graph.Replacing
import Cartograph.Proofs.Instances
import Cartograph.Proofs.Intact
import Cartograph.Proofs.Interposition
import Cartograph.Proofs.Inversion.Nesting
import Cartograph.Proofs.Labelling
import Cartograph.Proofs.Mention
import Cartograph.Proofs.Merging
import Cartograph.Proofs.NodeGroups
import Cartograph.Proofs.NodeId.Address
import Cartograph.Proofs.Placeholders
import Cartograph.Proofs.Placement.Settling
import Cartograph.Proofs.Plan
import Cartograph.Proofs.Propagation.Forwarding
import Cartograph.Proofs.Propagation.Gathering
import Cartograph.Proofs.Pruning
import Cartograph.Proofs.Resolution.Elements
import Cartograph.Proofs.Resolution.FixedPoint
import Cartograph.Proofs.Resolution.Keys
import Cartograph.Proofs.Resolution.Reordering
import Cartograph.Proofs.Resolution.Waiting
import Cartograph.Proofs.Restoration
import Cartograph.Proofs.Splicing
import Cartograph.Proofs.Syntax.RoundTrip
import Cartograph.Proofs.Syntax.Templates
import Cartograph.Proofs.Uncrossing
import Cartograph.Proofs.Verdict
