import EdgeRoute.Spec.Net
import Mathlib.Data.List.Nodup

/-!
# Commands and interface addresses

How a child process ends and what `edge-linux/src/lib.rs` and `edge-nft/src/apply.rs` make of it,
and the addresses of an interface as the kernel keeps them and as `ip -4 addr show` prints them.
-/

namespace EdgeRoute

/-! ## Child processes -/

/-- `CommandOutput` of `edge-linux`, `NftCommand` of `edge-nft`. A process that a signal ended has
no status. -/
structure CommandOutput where
  status : Option ℤ
  stdout : String
  stderr : String
deriving DecidableEq

/-- `{:?}` of a status. -/
def debugStatus : Option ℤ → String
  | some status => "Some(" ++ status.repr ++ ")"
  | none => "None"

namespace CommandOutput

def isSuccess (output : CommandOutput) : Bool := output.status == some 0

def errorMessage (output : CommandOutput) : String :=
  let stderr := Text.trim output.stderr
  if stderr = "" then "exit status " ++ debugStatus output.status else stderr

end CommandOutput

/-- `timeout(.., Command::output())`. -/
inductive Outcome where
  | timedOut
  | ioError (message : String)
  | exited (output : CommandOutput)
deriving DecidableEq

/-- The process ran to its end with status zero. -/
def Outcome.Succeeded : Outcome → Prop
  | .exited output => output.isSuccess = true
  | _ => False

/-- The process ran to its end with another status. -/
def Outcome.Rejected : Outcome → Prop
  | .exited output => output.status ≠ none ∧ output.isSuccess = false
  | _ => False

instance : (o : Outcome) → Decidable o.Succeeded
  | .timedOut => inferInstanceAs (Decidable False)
  | .ioError _ => inferInstanceAs (Decidable False)
  | .exited output => inferInstanceAs (Decidable (output.isSuccess = true))

instance : (o : Outcome) → Decidable o.Rejected
  | .timedOut => inferInstanceAs (Decidable False)
  | .ioError _ => inferInstanceAs (Decidable False)
  | .exited output => inferInstanceAs (Decidable (output.status ≠ none ∧ output.isSuccess = false))

/-- `{:?}` of the timeout both tools have by default. -/
def defaultTimeout : String := "5s"

inductive LinuxError where
  | timeout (duration : String)
  | command (message : String)
  | io (message : String)
deriving DecidableEq

/-- `Display` of the error. -/
def LinuxError.toText : LinuxError → String
  | .timeout duration => "linux command timed out after " ++ duration
  | .command message => "linux command failed: " ++ message
  | .io message => "linux process failed: " ++ message

inductive NftError where
  | timeout (duration : String)
  | io (message : String)
deriving DecidableEq

/-- `Display` of the error. -/
def NftError.toText : NftError → String
  | .timeout duration => "nft command timed out after " ++ duration
  | .io message => "nft process failed: " ++ message

/-- `Linux::run_owned` after the process: any status but zero is an error. -/
def linuxOutput : Outcome → Except LinuxError CommandOutput
  | .timedOut => .error (.timeout defaultTimeout)
  | .ioError message => .error (.io message)
  | .exited output =>
    if output.isSuccess then .ok output else .error (.command output.errorMessage)

/-- `Nft::run` after the process: the status is left to the caller. -/
def nftOutput : Outcome → Except NftError CommandOutput
  | .timedOut => .error (.timeout defaultTimeout)
  | .ioError message => .error (.io message)
  | .exited output => .ok output

/-! ## Listings -/

/-- `cidr.split_once('/').map(|(ip, _)| ip).or(Some(cidr))`. -/
def withoutPrefixLen (cidr : List Char) : List Char :=
  match Text.splitOnce '/' cidr with
  | some (ip, _) => ip
  | none => cidr

/-- The address on one line of a listing, if it is an `inet` line. -/
def parseInetLine (line : List Char) : Option Ipv4Addr := do
  let rest ← Text.stripPrefix "inet ".toList (Text.trimChars line)
  let cidr ← Text.firstWord rest
  Ipv4Addr.parse (withoutPrefixLen cidr)

def parseIpv4Addresses (output : String) : List Ipv4Addr :=
  (Text.lines output.toList).filterMap parseInetLine

/-! ## Interfaces -/

/-- An address of an interface: the local address, the other end if the address has one, and the
length of the prefix. -/
structure InetAddr where
  addr : Ipv4Addr
  peer : Option Ipv4Addr
  prefixLen : ℕ
deriving DecidableEq

/-- `a/32`, the only form the controller adds and deletes. -/
def InetAddr.host (a : Ipv4Addr) : InetAddr := ⟨a, none, 32⟩

/-- What follows `inet `: the local address and, after the other end if there is one, the length. -/
def InetAddr.toText (a : InetAddr) : String :=
  match a.peer with
  | none => a.addr.toText ++ "/" ++ a.prefixLen.repr
  | some peer => a.addr.toText ++ " peer " ++ peer.toText ++ "/" ++ a.prefixLen.repr

/-- The addresses of one interface. The kernel keeps none twice. -/
structure AddrTable where
  entries : List InetAddr
  nodup : entries.Nodup
deriving DecidableEq

namespace AddrTable

/-- `ip addr add`, where the entry is not there yet. -/
def add (t : AddrTable) (a : InetAddr) : AddrTable :=
  if h : a ∈ t.entries then t
  else ⟨t.entries ++ [a], List.nodup_append.2 ⟨t.nodup, List.nodup_singleton a, fun _ hx _ hy hxy =>
    h (List.mem_singleton.1 hy ▸ hxy ▸ hx)⟩⟩

/-- `ip addr del`. -/
def del (t : AddrTable) (a : InetAddr) : AddrTable := ⟨t.entries.erase a, t.nodup.erase a⟩

/-- The interface has the address, with whatever prefix. -/
def Has (t : AddrTable) (a : Ipv4Addr) : Prop := ∃ entry ∈ t.entries, entry.addr = a

theorem mem_add {t : AddrTable} {a b : InetAddr} : b ∈ (t.add a).entries ↔ b ∈ t.entries ∨ b = a := by
  unfold add
  split
  · rename_i h
    exact ⟨.inl, fun hb => hb.elim id fun hb => hb ▸ h⟩
  · simp

theorem mem_del {t : AddrTable} {a b : InetAddr} : b ∈ (t.del a).entries ↔ b ∈ t.entries ∧ b ≠ a := by
  rw [del, t.nodup.mem_erase_iff, and_comm]

end AddrTable

/-- A line of a listing: an address with the text around it, or any other line. -/
inductive ShowLine where
  | inet (indent : List Char) (entry : InetAddr) (tail : List Char)
  | other (text : List Char)

namespace ShowLine

def entry : ShowLine → Option InetAddr
  | .inet _ entry _ => some entry
  | .other _ => none

def text : ShowLine → List Char
  | .inet indent entry tail => indent ++ "inet ".toList ++ entry.toText.toList ++ ' ' :: tail
  | .other text => text

/-- The blanks before an address are blanks, and no other line starts as an address does. -/
def Proper : ShowLine → Prop
  | .inet indent _ tail => (∀ c ∈ indent, c = ' ') ∧ '\n' ∉ tail ∧ '\r' ∉ tail
  | .other text => '\n' ∉ text ∧ '\r' ∉ text ∧ Text.stripPrefix "inet ".toList (Text.trimChars text) = none

end ShowLine

/-- **The output of `ip -4 addr show`**: every address on a line of its own, between other lines. -/
def Lists (stdout : String) (t : AddrTable) : Prop :=
  ∃ lines : List ShowLine, (∀ line ∈ lines, line.Proper) ∧
    stdout.toList = lines.flatMap (fun line => line.text ++ ['\n']) ∧
    lines.filterMap ShowLine.entry = t.entries

end EdgeRoute
