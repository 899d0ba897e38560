import EdgeRoute.Lib.Serde
import EdgeRoute.Spec.Linux
import Mathlib.Data.List.Sort
import Mathlib.Data.String.Basic

/-!
# NetBird

`edge-netbird/src/lib.rs`: the status that `netbird status --json` prints and how it is read, and the route
that `ip route get` prints.
-/

namespace EdgeRoute

inductive NetbirdError where
  | command (message : String)
  | json (message : String)
  | io (message : String)
deriving DecidableEq

/-- `Display` of the error. -/
def NetbirdError.toText : NetbirdError → String
  | .command message => "command failed: " ++ message
  | .json message => "netbird JSON parse failed: " ++ message
  | .io message => "process failed: " ++ message

/-- `run_owned`: no timeout here, so the command ends or cannot be started. -/
def netbirdOutput : Except String CommandOutput → Except NetbirdError CommandOutput
  | .error message => .error (.io message)
  | .ok output => if output.isSuccess then .ok output else .error (.command output.errorMessage)

/-! ## Status -/

structure ServiceStatus where
  connected : Bool := false
deriving DecidableEq

structure Peer where
  fqdn : Option String
  netbirdIp : Option String
  netbirdIpv6 : Option String
  status : Option String
  connectionType : Option String
  networks : List String
deriving DecidableEq

structure PeerOverview where
  total : ℕ := 0
  connected : ℕ := 0
  details : List Peer := []
deriving DecidableEq

structure NetbirdStatus where
  peers : PeerOverview
  cliVersion : Option String
  daemonVersion : Option String
  daemonStatus : Option String
  management : ServiceStatus
  signal : ServiceStatus
  netbirdIp : Option String
  netbirdIpv6 : Option String
  usesKernelInterface : Option Bool
  fqdn : Option String
  networks : List String
  lazyConnectionEnabled : Bool
deriving DecidableEq

/-- The elements of a `BTreeSet` in order. -/
def sortedSet (values : List String) : List String := values.dedup.insertionSort (· ≤ ·)

def NetbirdStatus.advertisedNetworks (status : NetbirdStatus) : List String :=
  sortedSet (status.peers.details.flatMap Peer.networks)

/-! ### From JSON

The derived readers: from an object, where each field has its default or is an `Option`, and from an array,
where only the fields that say so have one. The text of an error is not modelled. -/

open Serde

def readServiceStatus : Json → Option ServiceStatus := readStruct 1
  (fun fields => do
    let connected ← getField "connected" readBool false fields
    pure ⟨connected⟩)
  (fun values => do
    let connected ← getItem 0 readBool (some false) values
    pure ⟨connected⟩)

def readPeer : Json → Option Peer := readStruct 6
  (fun fields => do
    let fqdn ← getField "fqdn" (readOption readString) none fields
    let netbirdIp ← getField "netbirdIp" (readOption readString) none fields
    let netbirdIpv6 ← getField "netbirdIpv6" (readOption readString) none fields
    let status ← getField "status" (readOption readString) none fields
    let connectionType ← getField "connectionType" (readOption readString) none fields
    let networks ← getField "networks" (nullToDefault [] (readVec readString)) [] fields
    pure ⟨fqdn, netbirdIp, netbirdIpv6, status, connectionType, networks⟩)
  (fun values => do
    let fqdn ← getItem 0 (readOption readString) none values
    let netbirdIp ← getItem 1 (readOption readString) none values
    let netbirdIpv6 ← getItem 2 (readOption readString) none values
    let status ← getItem 3 (readOption readString) none values
    let connectionType ← getItem 4 (readOption readString) none values
    let networks ← getItem 5 (nullToDefault [] (readVec readString)) (some []) values
    pure ⟨fqdn, netbirdIp, netbirdIpv6, status, connectionType, networks⟩)

def readPeerOverview : Json → Option PeerOverview := readStruct 3
  (fun fields => do
    let total ← getField "total" readUsize 0 fields
    let connected ← getField "connected" readUsize 0 fields
    let details ← getField "details" (readVec readPeer) [] fields
    pure ⟨total, connected, details⟩)
  (fun values => do
    let total ← getItem 0 readUsize (some 0) values
    let connected ← getItem 1 readUsize (some 0) values
    let details ← getItem 2 (readVec readPeer) (some []) values
    pure ⟨total, connected, details⟩)

/-- `parse_status`, from the value that the text is. -/
def parseStatus : Json → Option NetbirdStatus := readStruct 12
  (fun fields => do
    let peers ← getField "peers" (nullToDefault {} readPeerOverview) {} fields
    let cliVersion ← getField "cliVersion" (readOption readString) none fields
    let daemonVersion ← getField "daemonVersion" (readOption readString) none fields
    let daemonStatus ← getField "daemonStatus" (readOption readString) none fields
    let management ← getField "management" readServiceStatus {} fields
    let signal ← getField "signal" readServiceStatus {} fields
    let netbirdIp ← getField "netbirdIp" (readOption readString) none fields
    let netbirdIpv6 ← getField "netbirdIpv6" (readOption readString) none fields
    let usesKernelInterface ← getField "usesKernelInterface" (readOption readBool) none fields
    let fqdn ← getField "fqdn" (readOption readString) none fields
    let networks ← getField "networks" (nullToDefault [] (readVec readString)) [] fields
    let lazyConnectionEnabled ← getField "lazyConnectionEnabled" readBool false fields
    pure ⟨peers, cliVersion, daemonVersion, daemonStatus, management, signal, netbirdIp, netbirdIpv6,
      usesKernelInterface, fqdn, networks, lazyConnectionEnabled⟩)
  (fun values => do
    let peers ← getItem 0 (nullToDefault {} readPeerOverview) (some {}) values
    let cliVersion ← getItem 1 (readOption readString) none values
    let daemonVersion ← getItem 2 (readOption readString) none values
    let daemonStatus ← getItem 3 (readOption readString) none values
    let management ← getItem 4 readServiceStatus (some {}) values
    let signal ← getItem 5 readServiceStatus (some {}) values
    let netbirdIp ← getItem 6 (readOption readString) none values
    let netbirdIpv6 ← getItem 7 (readOption readString) none values
    let usesKernelInterface ← getItem 8 (readOption readBool) none values
    let fqdn ← getItem 9 (readOption readString) none values
    let networks ← getItem 10 (nullToDefault [] (readVec readString)) (some []) values
    let lazyConnectionEnabled ← getItem 11 readBool (some false) values
    pure ⟨peers, cliVersion, daemonVersion, daemonStatus, management, signal, netbirdIp, netbirdIpv6,
      usesKernelInterface, fqdn, networks, lazyConnectionEnabled⟩)

/-! ## Routes -/

structure RouteCheck where
  target : Ipv4Addr
  route : String
  interface : Option String
deriving DecidableEq

def RouteCheck.usesInterface (check : RouteCheck) (expected : String) : Bool := check.interface == some expected

/-- `split_whitespace`: the words of a text. -/
def splitWhitespace (text : String) : List String :=
  ((text.toList.splitOnP Text.isWhite).filter (· ≠ [])).map String.ofList

/-- The word after the first `dev`. -/
def afterDev : List String → Option String
  | [] => none
  | field :: fields => if field = "dev" then fields.head? else afterDev fields

def parseRouteInterface (route : String) : Option String := afterDev (splitWhitespace route)

end EdgeRoute
