import OESS.OpenFlow.Elan
import OESS.OpenFlow.Reconciliation
import OESS.Access.Ownership
import OESS.Access.Decommissioned
import OESS.Provision.Controllers
import OESS.Provision.Bandwidth
import OESS.Provision.Review
import OESS.Peers.Addresses
import OESS.Acls.Positions
import OESS.Acls.Authority
import OESS.Paths.Consistent
import OESS.Vlans.Simulation
import OESS.NSO.Approval
import OESS.NSO.Payload
import OESS.NSO.CacheHistory
import OESS.NSO.DiffText
import OESS.Master.MaintenanceTrip
import OESS.Access.AccountCalls
import OESS.Master.HandlerCalls
import OESS.MPLS.Approval
import OESS.Provision.ErrorExits
import OESS.MPLS.PathRounds
import OESS.Master.Restorations
import OESS.Links.Roles
import OESS.Links.NsoSync
import OESS.Links.IsisSettled
import OESS.MPLS.PathSync
import OESS.FV.Rounds
import OESS.Database.Activation
import OESS.FV.LinkEvents
import OESS.Traceroute.Removal
import OESS.Traceroute.Completion
import OESS.NSI.Reservation
import OESS.MPLS.VrfCalls
import OESS.Vlans.Rerouting
import OESS.OpenFlow.FlowStats
import OESS.OpenFlow.Merging
import OESS.OpenFlow.NodeStatus
import OESS.OpenFlow.Sending
import OESS.Endpoint.Availability
import OESS.Paths.Topology
import OESS.Vlans.RangeChecks
import OESS.Endpoint.Offers
import OESS.Cloud.LocalPeers
import OESS.Nodes.Update
import OESS.Database.MacChecks
import OESS.Cloud.Peering
import OESS.Acls.Reordering
import OESS.Entity.Selection
