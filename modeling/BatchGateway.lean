import BatchGateway.Apiserver.Listing
import BatchGateway.Apiserver.Tenancy
import BatchGateway.Database.Fencing
import BatchGateway.Database.SqlText
import BatchGateway.Database.Agreement
import BatchGateway.Checkpoint.Accounting
import BatchGateway.Checkpoint.Durability
import BatchGateway.Gateway.Ownership
import BatchGateway.Gateway.Cancelling
import BatchGateway.Gateway.Budget
import BatchGateway.Gateway.Tenure
import BatchGateway.Gateway.Timestamps
import BatchGateway.Gateway.CancelMarking
import BatchGateway.Gateway.CancelRace
import BatchGateway.Gateway.Refinalization
import BatchGateway.Worker.Broadcasters
import BatchGateway.Worker.Resumption
import BatchGateway.Pipeline.Stops
import BatchGateway.Pipeline.Integrity
import BatchGateway.Pipeline.Acks
import BatchGateway.Pipeline.Identity
import BatchGateway.Pipeline.Endpoints
import BatchGateway.Pipeline.LongLines
import BatchGateway.Pipeline.Transports
import BatchGateway.Pipeline.PendingSet
import BatchGateway.Util.AimdController
import BatchGateway.Checkpoint.Verdicts
import BatchGateway.Gc.Staleness
import BatchGateway.FilesStore.Publication
import BatchGateway.FilesStore.Counting
import BatchGateway.Events.Delivery
import BatchGateway.Gateway.Shape
import BatchGateway.Gateway.Artifacts
