import Rauha.Backend.Addresses
import Rauha.Backend.InodeOwners
import Rauha.Backend.Limits
import Rauha.Backend.LiveZones
import Rauha.Backend.PolicyUpdates
import Rauha.Backend.RootfsWalk
import Rauha.Backend.Verdict
import Rauha.Broker.Judge
import Rauha.Broker.PathReading
import Rauha.Broker.Pool
import Rauha.Broker.Preview
import Rauha.Common.Run
import Rauha.Common.Shim
import Rauha.Containerd.Create
import Rauha.Evidence.AppendErrors
import Rauha.Kernel.Reports
import Rauha.Network.AddressPool
import Rauha.Network.Interfaces
import Rauha.Network.Isolation
import Rauha.Oci.Aliasing
import Rauha.Oci.Overlay
import Rauha.Oci.Pinning
import Rauha.Sandbox.Bounded
import Rauha.Sandbox.Budget
import Rauha.Sandbox.ImageAdmission
import Rauha.Sandbox.RecoverTasks
import Rauha.Sandbox.TempZones
import Rauha.Shim.Attach
import Rauha.Shim.Deletion
import Rauha.Shim.Spawning
import Rauha.Shim.Stopped
import Rauha.Zone.PolicyText
import Rauha.Zone.Requests
