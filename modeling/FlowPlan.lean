import FlowPlan.Main
import FlowPlan.Flow.Edit
import FlowPlan.Wire.Workflow
import FlowPlan.Proofs.Reach
import FlowPlan.Proofs.Phases
import FlowPlan.Proofs.Earliest
import FlowPlan.Proofs.Session
import FlowPlan.Proofs.Unreached
import FlowPlan.Proofs.Supply
import FlowPlan.Proofs.Drawing
import FlowPlan.Proofs.Agreement
import FlowPlan.Proofs.Repair
import FlowPlan.Proofs.Lifecycle
import FlowPlan.Proofs.Ports
import FlowPlan.Proofs.DrawingOrder
import FlowPlan.Proofs.Publishing
import FlowPlan.Proofs.NodeOrder
import FlowPlan.Proofs.Thinning
import FlowPlan.Proofs.Admission
import FlowPlan.Proofs.OutcomeText
import FlowPlan.Proofs.Saving
import FlowPlan.Proofs.Namesakes
import FlowPlan.Proofs.Atomicity
import FlowPlan.Proofs.Identifiers
import FlowPlan.Proofs.Neighbours
import FlowPlan.Proofs.EdgeOrder
import FlowPlan.Proofs.Renaming
import FlowPlan.Proofs.ByteOrder
import FlowPlan.Proofs.Listing
