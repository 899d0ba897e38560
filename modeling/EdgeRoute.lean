import EdgeRoute.Lib.Prog
import EdgeRoute.Lib.SqlTable
import EdgeRoute.Lib.Text
import EdgeRoute.Spec.Net
import EdgeRoute.Spec.Mapping
import EdgeRoute.Spec.Validation
import EdgeRoute.Spec.Render
import EdgeRoute.Spec.Xdp
import EdgeRoute.Proof.Validation
import EdgeRoute.Proof.Verdict
import EdgeRoute.Proof.Networks
import EdgeRoute.Spec.Rows
import EdgeRoute.Spec.Store
import EdgeRoute.Proof.Rows
import EdgeRoute.Proof.Constraints
import EdgeRoute.Proof.Table
import EdgeRoute.Proof.Sequence
import EdgeRoute.Proof.Meaning
import EdgeRoute.Proof.Planes
import EdgeRoute.Proof.Addresses
import EdgeRoute.Proof.Success
import EdgeRoute.Proof.Converge
import EdgeRoute.Proof.Loads
import EdgeRoute.Proof.Latest
import EdgeRoute.Lib.SqlSchema
import EdgeRoute.Proof.ConfigChange
import EdgeRoute.Proof.Migrate
import EdgeRoute.Proof.Active
import EdgeRoute.Proof.Auth
import EdgeRoute.Spec.Cli
import EdgeRoute.Proof.Agent
import EdgeRoute.Proof.Ownership
import EdgeRoute.Lib.Rfc3339
import EdgeRoute.Proof.Stored
import EdgeRoute.Proof.Chronology
import EdgeRoute.Proof.Frame
import EdgeRoute.Proof.Duplicates
import EdgeRoute.Proof.Atomic
import EdgeRoute.Proof.Release
import EdgeRoute.Proof.Cleanup
import EdgeRoute.Proof.Failures
import EdgeRoute.Proof.Ingress
import EdgeRoute.Proof.Gateway
import EdgeRoute.Proof.Memory
import EdgeRoute.Proof.Listing
import EdgeRoute.Proof.Urls
import EdgeRoute.Proof.Nulls
import EdgeRoute.Proof.Grammar
import EdgeRoute.Proof.Agreement
import EdgeRoute.Proof.Reads
import EdgeRoute.Proof.Leftovers
import EdgeRoute.Proof.Record
import EdgeRoute.Proof.FrontStore
import EdgeRoute.Proof.Grounds
import EdgeRoute.Proof.Disk
import EdgeRoute.Proof.TwoStores
import EdgeRoute.Proof.Rollback
import EdgeRoute.Proof.Relay
import EdgeRoute.Lib.Commit
import EdgeRoute.Proof.RowCalls
import EdgeRoute.Proof.Shadow
import EdgeRoute.Proof.Origin
import EdgeRoute.Proof.Serial
