import EdgeRoute.Lib.Lexer
import EdgeRoute.Spec.Net

/-!
# What an nftables text means

A reader of the part of the nft language that the controller writes, one item a line, and the
way a loaded table treats packets: the rules of a chain in order, `dnat` ends the chain, a packet
that a map has no entry for is not matched, and a packet that no rule matches is accepted as it is.
-/

namespace EdgeRoute.Nft

open Lex

/-! ## Tables -/

/-- The transport protocol of a packet. -/
inductive L4 where
  | tcp
  | udp
  | other (number : UInt8)
deriving DecidableEq

inductive Match where
  | iifname (name : String)
  | oifname (name : String)
  | daddr (net : Ipv4Net)
  | dport (l4 : L4) (port : UInt16)
deriving DecidableEq

inductive Statement where
  | dnat (addr : Ipv4Addr) (port : UInt16)
  | dnatMap (map : String)
  | masquerade
deriving DecidableEq

structure Rule where
  guards : List Match
  statement : Statement
deriving DecidableEq

structure Chain where
  name : String
  hook : String
  rules : List Rule
deriving DecidableEq

structure Table where
  name : String
  maps : List (String × List (Ipv4Addr × Ipv4Addr))
  chains : List Chain
deriving DecidableEq

/-! ## Packets -/

/-- What the rules look at. A packet has an output interface once it is routed. -/
structure Packet where
  iifname : String
  oifname : Option String
  daddr : Ipv4Addr
  l4 : L4
  dport : UInt16
deriving DecidableEq

def Match.holds (p : Packet) : Match → Bool
  | .iifname name => p.iifname == name
  | .oifname name => p.oifname == some name
  | .daddr net => net.contains p.daddr
  | .dport l4 port => p.l4 == l4 && p.dport == port

/-- The entry of a map. -/
def Table.lookup (t : Table) (map : String) (key : Ipv4Addr) : Option Ipv4Addr :=
  match t.maps.find? fun m => m.1 = map with
  | some m => (m.2.find? fun e => e.1 = key).map (·.2)
  | none => none

/-- Where a rule sends a packet it translates. -/
def Rule.dnatTo (t : Table) (p : Packet) (rule : Rule) : Option (Ipv4Addr × UInt16) :=
  if rule.guards.all (Match.holds p) then
    match rule.statement with
    | .dnat addr port => some (addr, port)
    | .dnatMap map => (t.lookup map p.daddr).map fun addr => (addr, p.dport)
    | .masquerade => none
  else none

/-- The rules that packets meet at a hook. -/
def Table.rulesAt (t : Table) (hook : String) : List Rule :=
  (t.chains.filter fun c => c.hook = hook).flatMap Chain.rules

/-- **Prerouting**: the first rule that translates the packet gives its new destination. -/
def Table.prerouting (t : Table) (p : Packet) : Option (Ipv4Addr × UInt16) :=
  (t.rulesAt "prerouting").findSome? (Rule.dnatTo t p)

/-- **Postrouting**: some rule masquerades the packet. -/
def Table.masquerades (t : Table) (p : Packet) : Bool :=
  (t.rulesAt "postrouting").any fun rule =>
    rule.guards.all (Match.holds p) && rule.statement == .masquerade

/-! ## Lines -/

def isWordChar (c : Char) : Bool :=
  c.isAlphanum || c == '.' || c == '_' || c == '-' || c == '/' || c == '@'

def isSymChar (c : Char) : Bool := c == '\x7b' || c == '\x7d' || c == ':' || c == ',' || c == ';' || c == '='

def alphabet : Alphabet where
  isWord := isWordChar
  isSym := isSymChar
  word_apart c hc := by
    constructor
    · by_contra h
      simp only [isSymChar, Bool.not_eq_false, Bool.or_eq_true, beq_iff_eq] at h
      rcases h with ((((rfl | rfl) | rfl) | rfl) | rfl) | rfl <;> revert hc <;> decide
    · intro h
      simp only [List.mem_cons, List.not_mem_nil, or_false] at h
      rcases h with rfl | rfl | rfl | rfl | rfl <;> revert hc <;> decide
  sym_apart c hc h := by
    simp only [List.mem_cons, List.not_mem_nil, or_false] at h
    rcases h with rfl | rfl | rfl | rfl | rfl <;> revert hc <;> decide

def readAddr (s : String) : Option Ipv4Addr := Ipv4Addr.parse s.toList

/-- An address, or an address and a prefix length. -/
def readNet (s : String) : Option Ipv4Net :=
  match Text.splitOnce '/' s.toList with
  | none => (readAddr s).map fun addr => ⟨addr, 32, le_rfl⟩
  | some (addr, len) =>
    match Ipv4Addr.parse addr, Text.parseNat len with
    | some addr, some len => if h : len ≤ 32 then some ⟨addr, len, h⟩ else none
    | _, _ => none

def readPort (s : String) : Option UInt16 :=
  match Text.parseNat s.toList with
  | some n => if n < 65536 then some (.ofNat n) else none
  | none => none

def readL4 : String → Option L4
  | "tcp" => some .tcp
  | "udp" => some .udp
  | _ => none

/-- The statement at the end of a rule. -/
def readStatement : List Token → Option Statement
  | [.word "dnat", .word "to", .word addr, .sym ':', .word port] =>
    match readAddr addr, readPort port with
    | some addr, some port => some (.dnat addr port)
    | _, _ => none
  | [.word "dnat", .word "to", .word "ip", .word "daddr", .word "map", .word map] =>
    (Text.stripPrefix ['@'] map.toList).map fun name => .dnatMap (String.ofList name)
  | [.word "masquerade"] => some .masquerade
  | _ => none

/-- A rule: its matches, then its statement. -/
def readRule : List Token → Option Rule
  | .word "iifname" :: .quoted name :: ts =>
    (readRule ts).map fun r => { r with guards := .iifname name :: r.guards }
  | .word "oifname" :: .quoted name :: ts =>
    (readRule ts).map fun r => { r with guards := .oifname name :: r.guards }
  | .word "ip" :: .word "daddr" :: .word net :: ts =>
    match readNet net, readRule ts with
    | some net, some r => some { r with guards := .daddr net :: r.guards }
    | _, _ => none
  | .word l4 :: .word "dport" :: .word port :: ts =>
    match readL4 l4, readPort port, readRule ts with
    | some l4, some port, some r => some { r with guards := .dport l4 port :: r.guards }
    | _, _, _ => none
  | ts => (readStatement ts).map fun s => ⟨[], s⟩

/-- Where in the file a line stands, with what was read of the open blocks. -/
inductive Place where
  | top
  | table (t : Table)
  | map (t : Table) (name : String) (elements : List (Ipv4Addr × Ipv4Addr))
  | elements (t : Table) (name : String) (elements : List (Ipv4Addr × Ipv4Addr))
  | chain (t : Table) (name : String)
  | rules (t : Table) (c : Chain)
deriving DecidableEq

structure Reader where
  tables : List Table
  place : Place
deriving DecidableEq

/-- A line outside all blocks. -/
def Reader.atTop (r : Reader) : List Token → Option Reader
  | [.word "destroy", .word "table", .word "ip", .word name] =>
    some { r with tables := r.tables.filter fun t => t.name ≠ name }
  | [.word "table", .word "ip", .word name, .sym '\x7b'] =>
    if r.tables.any fun t => t.name = name then none
    else some { r with place := .table ⟨name, [], []⟩ }
  | _ => none

/-- A line of a table. -/
def Reader.inTable (r : Reader) (t : Table) : List Token → Option Reader
  | [.word "map", .word name, .sym '\x7b'] => some { r with place := .map t name [] }
  | [.word "chain", .word name, .sym '\x7b'] => some { r with place := .chain t name }
  | [.sym '\x7d'] => some ⟨r.tables ++ [t], .top⟩
  | _ => none

/-- A line of a map. -/
def Reader.inMap (r : Reader) (t : Table) (name : String) (es : List (Ipv4Addr × Ipv4Addr)) :
    List Token → Option Reader
  | [.word "type", .word "ipv4_addr", .sym ':', .word "ipv4_addr", .sym ';'] => some r
  | [.word "elements", .sym '=', .sym '\x7b'] => some { r with place := .elements t name es }
  | [.sym '\x7d'] => some { r with place := .table { t with maps := t.maps ++ [(name, es)] } }
  | _ => none

/-- A line of the elements of a map. -/
def Reader.inElements (r : Reader) (t : Table) (name : String) (es : List (Ipv4Addr × Ipv4Addr)) :
    List Token → Option Reader
  | [.word key, .sym ':', .word value, .sym ','] =>
    match readAddr key, readAddr value with
    | some key, some value => some { r with place := .elements t name (es ++ [(key, value)]) }
    | _, _ => none
  | [.sym '\x7d'] => some { r with place := .map t name es }
  | _ => none

/-- The first line of a chain. -/
def Reader.inChain (r : Reader) (t : Table) (name : String) : List Token → Option Reader
  | [.word "type", .word "nat", .word "hook", .word hook, .word "priority", .word _, .sym ';',
      .word "policy", .word "accept", .sym ';'] => some { r with place := .rules t ⟨name, hook, []⟩ }
  | _ => none

/-- A rule of a chain, or its end. -/
def Reader.inRules (r : Reader) (t : Table) (c : Chain) : List Token → Option Reader
  | [.sym '\x7d'] => some { r with place := .table { t with chains := t.chains ++ [c] } }
  | ts => (readRule ts).map fun rule => { r with place := .rules t { c with rules := c.rules ++ [rule] } }

/-- One line of tokens. -/
def Reader.line (r : Reader) (ts : List Token) : Option Reader :=
  if ts = [] then some r
  else match r.place with
    | .top => r.atTop ts
    | .table t => r.inTable t ts
    | .map t name es => r.inMap t name es ts
    | .elements t name es => r.inElements t name es ts
    | .chain t name => r.inChain t name ts
    | .rules t c => r.inRules t c ts

/-- The lines of a text, one after the other. -/
def Reader.lines (r : Reader) : List (List Char) → Option Reader
  | [] => some r
  | l :: ls =>
    match lex alphabet l with
    | none => none
    | some ts =>
      match r.line ts with
      | none => none
      | some r' => r'.lines ls

/-- **The tables that a text defines.** -/
def read (text : String) : Option (List Table) :=
  match Reader.lines ⟨[], .top⟩ (Text.splitLines text.toList) with
  | some ⟨tables, .top⟩ => some tables
  | _ => none

end EdgeRoute.Nft
