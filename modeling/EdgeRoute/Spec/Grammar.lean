import EdgeRoute.Lib.Statements
import EdgeRoute.Spec.Nft
import EdgeRoute.Spec.Render

/-!
# Statements of a ruleset

The statements that a mapping list stands for, the grammar of the part of the nft language that the
renderer writes, and the interface names that the kernel allows.
-/

namespace EdgeRoute

open Lex

/-! ## Sentences -/

namespace Nft

/-- The words of the language that the rulesets use. -/
def keywords : List String :=
  ["destroy", "table", "ip", "map", "chain", "type", "ipv4_addr", "elements", "nat", "hook", "priority",
    "policy", "accept", "iifname", "oifname", "daddr", "dport", "tcp", "udp", "dnat", "to", "masquerade"]

/-- A name that needs no quotes. -/
def isIdentifier (s : String) : Bool :=
  match s.toList with
  | c :: cs => (c.isAlpha || c == '_') && cs.all isWordChar && !keywords.contains s
  | [] => false

/-- One element of a map, without the comma after it. -/
def isElement (key value : String) : Bool := (readAddr key).isSome && (readAddr value).isSome

/-- What stands between the braces of `elements`: **at least one element**, with commas between the
elements and, if wanted, after the last. -/
def isElementList : List Token → Bool
  | [.word key, .sym ':', .word value] => isElement key value
  | [.word key, .sym ':', .word value, .sym ','] => isElement key value
  | .word key :: .sym ':' :: .word value :: .sym ',' :: rest => isElement key value && isElementList rest
  | _ => false

/-- Which block the next statement stands in. -/
inductive Block where
  | file
  | table
  | map
  /-- The braces of `elements`, with what was read of them: line ends do not count there. -/
  | elements (read : List Token)
  | chain
  | policy
  | rules
deriving DecidableEq

namespace Block

def inFile : List Token → Option Block
  | [.word "destroy", .word "table", .word "ip", .word name] => if isIdentifier name then some file else none
  | [.word "table", .word "ip", .word name, .sym '\x7b'] => if isIdentifier name then some table else none
  | _ => none

def inTable : List Token → Option Block
  | [.word "map", .word name, .sym '\x7b'] => if isIdentifier name then some map else none
  | [.word "chain", .word name, .sym '\x7b'] => if isIdentifier name then some chain else none
  | [.sym '\x7d'] => some file
  | _ => none

def inMap : List Token → Option Block
  | [.word "type", .word "ipv4_addr", .sym ':', .word "ipv4_addr"] => some map
  | [.word "elements", .sym '=', .sym '\x7b'] => some (elements [])
  | [.sym '\x7d'] => some table
  | _ => none

def inElements (read : List Token) : List Token → Option Block
  | [.sym '\x7d'] => if isElementList read then some map else none
  | ts => some (elements (read ++ ts))

def inChain : List Token → Option Block
  | [.word "type", .word "nat", .word "hook", .word _, .word "priority", .word _] => some policy
  | _ => none

def inPolicy : List Token → Option Block
  | [.word "policy", .word "accept"] => some rules
  | _ => none

def inRules : List Token → Option Block
  | [.sym '\x7d'] => some table
  | ts => if (readRule ts).isSome then some rules else none

/-- The block after a statement, if this may stand there. -/
def statement (b : Block) (ts : List Token) : Option Block :=
  match b with
  | file => inFile ts
  | table => inTable ts
  | map => inMap ts
  | elements read => inElements read ts
  | chain => inChain ts
  | policy => inPolicy ts
  | rules => inRules ts

end Block

/-- **A text of the language**: its statements stand where they may, and all its blocks are closed. -/
def Sentence (text : String) : Prop :=
  ∃ ss, statements alphabet text.toList = some ss ∧ ss.foldlM Block.statement .file = some .file

end Nft

/-! ## The intended statements -/

def elementStatement (m : Mapping) : List Token :=
  [.word m.edgePrivateIp.toText, .sym ':', .word m.targetIp.toText, .sym ',']

def chainStatements (hook priority : String) : List (List Token) :=
  [[.word "chain", .word hook, .sym '\x7b'],
    [.word "type", .word "nat", .word "hook", .word hook, .word "priority", .word priority],
    [.word "policy", .word "accept"]]

/-- The rule of a port forward for one protocol. -/
def dnatStatement (wanInterface l4 : String) (m : Mapping) (publicPort targetPort : UInt16) : List Token :=
  [.word "iifname", .quoted wanInterface, .word "ip", .word "daddr", .word m.edgePrivateIp.toText, .word l4,
    .word "dport", .word publicPort.toNat.repr, .word "dnat", .word "to", .word m.targetIp.toText, .sym ':',
    .word targetPort.toNat.repr]

def forwardStatement (wanInterface : String) (m : Mapping) : Option (List Token) :=
  match m.protocol, m.publicPort, m.targetPort with
  | .tcp, some publicPort, some targetPort => some (dnatStatement wanInterface "tcp" m publicPort targetPort)
  | .udp, some publicPort, some targetPort => some (dnatStatement wanInterface "udp" m publicPort targetPort)
  | _, _, _ => none

def masqueradeStatement (netbirdInterface : String) (cidr : Ipv4Net) : List Token :=
  [.word "oifname", .quoted netbirdInterface, .word "ip", .word "daddr", .word cidr.toText, .word "masquerade"]

/-- **The statements a mapping list stands for.** -/
def intendedStatements (ms : List Mapping) (c : EdgeConfig) (rc : NftRenderConfig) : List (List Token) :=
  [[.word "destroy", .word "table", .word "ip", .word rc.tableName],
    [.word "table", .word "ip", .word rc.tableName, .sym '\x7b'],
    [.word "map", .word "edge_to_target", .sym '\x7b'],
    [.word "type", .word "ipv4_addr", .sym ':', .word "ipv4_addr"],
    [.word "elements", .sym '=', .sym '\x7b']] ++
  (ms.filter isNftOneToOne).map elementStatement ++
  ([[.sym '\x7d'], [.sym '\x7d']] ++ chainStatements "prerouting" "dstnat") ++
  (ms.filter isNftPortForward).filterMap (forwardStatement c.wanInterface) ++
  ([[.word "dnat", .word "to", .word "ip", .word "daddr", .word "map", .word "@edge_to_target"],
    [.sym '\x7d']] ++ chainStatements "postrouting" "srcnat") ++
  c.targetCidrs.map (masqueradeStatement c.netbirdInterface) ++ [[.sym '\x7d'], [.sym '\x7d']]

/-! ## Interface names -/

/-- `isspace` of the kernel, on the bytes of a character: 160 is one of the bytes it takes for a space. -/
def isSpaceByte (b : UInt8) : Bool := (9 ≤ b && b ≤ 13) || b == 32 || b == 160

def hasSpaceByte (c : Char) : Bool := (String.utf8EncodeChar c).any isSpaceByte

/-- **A name that the kernel allows for an interface**: `dev_valid_name`. -/
def LinuxName (name : String) : Prop :=
  name ≠ "" ∧ name.utf8ByteSize < 16 ∧ name ≠ "." ∧ name ≠ ".." ∧
    ∀ c ∈ name.toList, c ≠ '/' ∧ c ≠ ':' ∧ c ≠ '\x00' ∧ hasSpaceByte c = false

/-- What the validator leaves unchecked of a name: its own length, and the colons and spaces in it. -/
def StandsAsWritten (name : String) : Prop :=
  name.utf8ByteSize < 16 ∧ ∀ c ∈ name.toList, c ≠ ':' ∧ hasSpaceByte c = false

/-- The interface names that the text of a list has in quotes have no quotes of their own. -/
def CleanStrings (ms : List Mapping) (c : EdgeConfig) : Prop :=
  (ms.any isNftPortForward = true → '"' ∉ c.wanInterface.toList) ∧
    (c.targetCidrs ≠ [] → '"' ∉ c.netbirdInterface.toList)

instance (name : String) : Decidable (LinuxName name) := inferInstanceAs (Decidable (_ ∧ _))

instance (name : String) : Decidable (StandsAsWritten name) := inferInstanceAs (Decidable (_ ∧ _))

instance (ms : List Mapping) (c : EdgeConfig) : Decidable (CleanStrings ms c) :=
  inferInstanceAs (Decidable (_ ∧ _))

/-- **The text says what was meant, and nothing else**, and each interface that it names can exist. Without a port
forward it does not name the first, and without a range not the second. -/
structure SaysIntended (ms : List Mapping) (c : EdgeConfig) (rc : NftRenderConfig) (text : String) : Prop where
  statements : Lex.statements Nft.alphabet text.toList = some (intendedStatements ms c rc)
  wan : ms.any isNftPortForward = true → LinuxName c.wanInterface
  netbird : c.targetCidrs ≠ [] → LinuxName c.netbirdInterface

end EdgeRoute
