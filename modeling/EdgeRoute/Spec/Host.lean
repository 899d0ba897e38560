import EdgeRoute.Spec.Linux
import EdgeRoute.Spec.Store

/-!
# The host

What a call of the controller asks of its host: the database, the file at the output path, the
`nft` and `ip` tools, and a connection to a target. `hostEnv` says what each of these may answer
and change.
-/

namespace EdgeRoute

open Effect

/-! ## Operations -/

/-- The two uses of the `nft` tool: `nft -c -f path` and `nft -f path`. -/
inductive NftMode where
  | check
  | apply
deriving DecidableEq

/-- The three uses of the `ip` tool: `ip -4 addr show dev i`, `ip addr add a/32 dev i` and
`ip addr del a/32 dev i`. -/
inductive IpCommand where
  | show (interface : String)
  | add (interface : String) (addr : Ipv4Addr)
  | del (interface : String) (addr : Ipv4Addr)
deriving DecidableEq

/-- How an attempt to connect ends. -/
inductive Connection where
  | timedOut
  | failed (message : String)
  | connected
deriving DecidableEq

inductive HostOp where
  | store (o : StoreOp)
  | atomicWrite (path text : String)
  | nft (mode : NftMode) (path : String)
  | ip (command : IpCommand)
  | connect (ip : Ipv4Addr) (port : UInt16)

abbrev HostOp.Reply : HostOp → Type
  | .store o => o.Reply
  | .atomicWrite _ _ => Except String Unit
  | .nft _ _ => Outcome
  | .ip _ => Outcome
  | .connect _ _ => Connection

abbrev HostSig : Sig := ⟨HostOp, HostOp.Reply⟩

/-! ## The world -/

/-- What the operations act on: the database, the files by the text of their path, those with a
temporary name of `atomic_write` left out, the ruleset that the last `nft -f` loaded, and the
addresses of each interface. -/
structure World where
  db : Db
  files : String → Option String
  kernel : Option String
  addrs : String → AddrTable

/-- The files after a write. -/
def World.write (w : World) (path text : String) : World :=
  { w with files := Function.update w.files path (some text) }

/-- The kernel after the file at `path` is loaded. -/
def World.load (w : World) (path : String) : World := { w with kernel := w.files path }

def World.addAddr (w : World) (interface : String) (a : Ipv4Addr) : World :=
  { w with addrs := Function.update w.addrs interface ((w.addrs interface).add (.host a)) }

def World.delAddr (w : World) (interface : String) (a : Ipv4Addr) : World :=
  { w with addrs := Function.update w.addrs interface ((w.addrs interface).del (.host a)) }

/-- A command that changes the world from `w` to `w'` where it is `able` to: status zero says that it
did, any other status that it did not, and without a status it may have. -/
structure Commanded (able : Prop) (w w' : World) (r : Outcome) (after : World) : Prop where
  succeeded : r.Succeeded → able ∧ after = w'
  rejected : r.Rejected → after = w
  either : after = w ∨ (able ∧ after = w')

/-- **The host as an environment.** A failed write leaves the file at the path as it was: everything
before the final rename goes to a file of a temporary name, which may stay behind. `nft -f` loads the
file at the path, at once or not at all; the kernel refuses to add an entry that is there and to delete
one that is not. -/
def hostEnv : Env HostSig World := fun w o r w' =>
  match o, r with
  | .store o, r => ∃ db', storeEnv w.db o r db' ∧ w' = { w with db := db' }
  | .atomicWrite path text, r => (r = .ok () ∧ w' = w.write path text) ∨ ∃ e, r = .error e ∧ w' = w
  | .nft .check path, r => w' = w ∧ (r.Succeeded → w.files path ≠ none)
  | .nft .apply path, r => Commanded (w.files path ≠ none) w (w.load path) r w'
  | .ip (.show interface), r =>
    w' = w ∧ ∀ output, r = .exited output → output.isSuccess = true → Lists output.stdout (w.addrs interface)
  | .ip (.add interface a), r =>
    Commanded (.host a ∉ (w.addrs interface).entries) w (w.addAddr interface a) r w'
  | .ip (.del interface a), r =>
    Commanded (.host a ∈ (w.addrs interface).entries) w (w.delAddr interface a) r w'
  | .connect _ _, _ => w' = w

end EdgeRoute
