import Informer.Json.Reader
import Informer.Json.Writer
import Informer.Proofs.Backlog
import Informer.Proofs.Convergence
import Informer.Proofs.Creations
import Informer.Proofs.EventDelivery
import Informer.Proofs.Feedback
import Informer.Proofs.MalformedListing
import Informer.Proofs.NamespaceIndex
import Informer.Proofs.NothingDropped
import Informer.Proofs.Refusals
import Informer.Proofs.SourceRun
import Informer.Proofs.SyncWait
import Informer.Proofs.TypedIdentity
import Informer.Proofs.TypedTrip
import Informer.Proofs.TypedView
import Informer.Simulation.Call
import Informer.Proofs.Pickup
