import MetaMesh.Ownership.Replicas
import MetaMesh.Ownership.Replay
import MetaMesh.Authorization.Quorum
import MetaMesh.Coownership.Exchange
import MetaMesh.CausalAdmission.Renewal
import MetaMesh.State.Routes
import MetaMesh.State.Neighbors
import MetaMesh.ScopeAuthority.Merge
import MetaMesh.CausalAdmission.Automation
import MetaMesh.CausalAdmission.Avatar
import MetaMesh.CausalAdmission.Handover
import MetaMesh.Runtime.Lifecycle
import MetaMesh.Runtime.Delivery
import MetaMesh.Pairing.Join
import MetaMesh.ResourceAccess
import MetaMesh.Authorization.Member
import MetaMesh.Browser.Messaging
import MetaMesh.Browser.ProfileConflicts
import MetaMesh.Browser.Revocable
import MetaMesh.Identity.SignatureCache
