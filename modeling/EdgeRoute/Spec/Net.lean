import EdgeRoute.Lib.Text
import Mathlib.Tactic.NormNum
import Mathlib.Tactic.Linarith

/-!
# IPv4 addresses and networks

`std::net::Ipv4Addr` with its text form and address classes, and the part of
`ipnet::Ipv4Net` the controller uses.

* `parse_toText`: the text form is read back.
* `contains_iff`: a network contains exactly the addresses with its prefix.
-/

namespace EdgeRoute

structure Ipv4Addr where
  a : UInt8
  b : UInt8
  c : UInt8
  d : UInt8
deriving DecidableEq

namespace Ipv4Addr

def octets (ip : Ipv4Addr) : List UInt8 := [ip.a, ip.b, ip.c, ip.d]

/-- The address as a big-endian number (`u32::from`). -/
def toNat (ip : Ipv4Addr) : ℕ :=
  ip.a.toNat * 16777216 + ip.b.toNat * 65536 + ip.c.toNat * 256 + ip.d.toNat

def ofNat (n : ℕ) : Ipv4Addr :=
  ⟨.ofNat (n / 16777216), .ofNat (n / 65536), .ofNat (n / 256), .ofNat n⟩

/-- `Display`: four decimal octets. -/
def toText (ip : Ipv4Addr) : String :=
  ip.a.toNat.repr ++ "." ++ ip.b.toNat.repr ++ "." ++ ip.c.toNat.repr ++ "." ++ ip.d.toNat.repr

/-- One octet of the text form: at most 255, without a leading zero. -/
def parseOctet (cs : List Char) : Option UInt8 :=
  match Text.parseNat cs with
  | some n => if n ≤ 255 ∧ (cs.length = 1 ∨ cs.head? ≠ some '0') then some (.ofNat n) else none
  | none => none

/-- `FromStr`. -/
def parse (cs : List Char) : Option Ipv4Addr :=
  match cs.splitOn '.' with
  | [a, b, c, d] =>
    match parseOctet a, parseOctet b, parseOctet c, parseOctet d with
    | some a, some b, some c, some d => some ⟨a, b, c, d⟩
    | _, _, _, _ => none
  | _ => none

def isUnspecified (ip : Ipv4Addr) : Bool := ip.toNat == 0

def isPrivate (ip : Ipv4Addr) : Bool :=
  ip.a == 10 || (ip.a == 172 && (16 ≤ ip.b && ip.b ≤ 31)) || (ip.a == 192 && ip.b == 168)

def isLoopback (ip : Ipv4Addr) : Bool := ip.a == 127

def isLinkLocal (ip : Ipv4Addr) : Bool := ip.a == 169 && ip.b == 254

def isMulticast (ip : Ipv4Addr) : Bool := 224 ≤ ip.a && ip.a ≤ 239

def isBroadcast (ip : Ipv4Addr) : Bool := ip.toNat == 4294967295

/-! ## Numbers -/

theorem toNat_lt (ip : Ipv4Addr) : ip.toNat < 4294967296 := by
  have ha := ip.a.toNat_lt
  have hb := ip.b.toNat_lt
  have hc := ip.c.toNat_lt
  have hd := ip.d.toNat_lt
  unfold toNat; omega

theorem toNat_ofNat {n : ℕ} (h : n < 4294967296) : (ofNat n).toNat = n := by
  simp only [toNat, ofNat, UInt8.toNat_ofNat']; omega

theorem toNat_injective {ip ip' : Ipv4Addr} (h : ip.toNat = ip'.toNat) : ip = ip' := by
  have h1 := ip.a.toNat_lt
  have h2 := ip.b.toNat_lt
  have h3 := ip.c.toNat_lt
  have h4 := ip.d.toNat_lt
  have h5 := ip'.a.toNat_lt
  have h6 := ip'.b.toNat_lt
  have h7 := ip'.c.toNat_lt
  have h8 := ip'.d.toNat_lt
  unfold toNat at h
  cases ip; cases ip'
  simp only [mk.injEq, ← UInt8.toNat_inj] at *
  omega

/-! ## Text -/

theorem parseOctet_toDigits (o : UInt8) : parseOctet (Nat.toDigits 10 o.toNat) = some o := by
  have ho := o.toNat_lt
  have hl : (Nat.toDigits 10 o.toNat).length = 1 ∨ (Nat.toDigits 10 o.toNat).head? ≠ some '0' := by
    rcases Nat.eq_zero_or_pos o.toNat with h | h
    · left; rw [h, Nat.toDigits_zero]; rfl
    · exact .inr (Text.head?_toDigits h)
  simp only [parseOctet, Text.parseNat_toDigits]
  rw [if_pos ⟨by omega, hl⟩, UInt8.ofNat_toNat]

theorem dot_notMem_toDigits (n : ℕ) : '.' ∉ Nat.toDigits 10 n := by
  intro h
  have := Nat.isDigit_of_mem_toDigits (by omega) (by omega) h
  revert this; decide

theorem toList_toText (ip : Ipv4Addr) : ip.toText.toList =
    Nat.toDigits 10 ip.a.toNat ++ '.' :: (Nat.toDigits 10 ip.b.toNat ++ '.' ::
      (Nat.toDigits 10 ip.c.toNat ++ '.' :: Nat.toDigits 10 ip.d.toNat)) := by
  simp [toText, String.toList_append, Nat.toList_repr]

/-- **The text form is read back.** -/
theorem parse_toText (ip : Ipv4Addr) : parse ip.toText.toList = some ip := by
  have hd := dot_notMem_toDigits
  rw [toList_toText, parse, List.splitOn_append_cons_self_of_not_mem (hd _),
    List.splitOn_append_cons_self_of_not_mem (hd _), List.splitOn_append_cons_self_of_not_mem (hd _),
    List.splitOn_eq_singleton (hd _)]
  simp only [parseOctet_toDigits]

theorem toText_injective {ip ip' : Ipv4Addr} (h : ip.toText = ip'.toText) : ip = ip' := by
  have := parse_toText ip
  rw [h, parse_toText] at this
  exact (Option.some.inj this).symm

/-- The characters of the text form are digits and dots. -/
theorem mem_toText {ip : Ipv4Addr} {x : Char} (h : x ∈ ip.toText.toList) : x.isDigit ∨ x = '.' := by
  have key : ∀ n, x ∈ Nat.toDigits 10 n → x.isDigit ∨ x = '.' := fun n hx =>
    .inl (Nat.isDigit_of_mem_toDigits (by omega) (by omega) hx)
  rw [toList_toText] at h
  simp only [List.mem_append, List.mem_cons] at h
  rcases h with h | h | h | h | h | h | h
  all_goals first | exact key _ h | exact .inr h

theorem slash_notMem_toText (ip : Ipv4Addr) : '/' ∉ ip.toText.toList := by
  intro h
  rcases mem_toText h with h | h <;> revert h <;> decide

end Ipv4Addr

/-- `ipnet::Ipv4Net`: an address with a prefix length; the host bits are kept as written. -/
structure Ipv4Net where
  addr : Ipv4Addr
  prefixLen : ℕ
  prefixLen_le : prefixLen ≤ 32
deriving DecidableEq

namespace Ipv4Net

/-- The number of addresses in the network. -/
def size (n : Ipv4Net) : ℕ := 2 ^ (32 - n.prefixLen)

def network (n : Ipv4Net) : Ipv4Addr := .ofNat (n.addr.toNat / n.size * n.size)

def broadcast (n : Ipv4Net) : Ipv4Addr := .ofNat (n.addr.toNat / n.size * n.size + (n.size - 1))

def contains (n : Ipv4Net) (ip : Ipv4Addr) : Bool :=
  n.network.toNat ≤ ip.toNat && ip.toNat ≤ n.broadcast.toNat

/-- `Display`: the address as written, a slash and the prefix length. -/
def toText (n : Ipv4Net) : String := n.addr.toText ++ "/" ++ n.prefixLen.repr

theorem size_pos (n : Ipv4Net) : 0 < n.size := Nat.two_pow_pos _

/-- The block an address lies in ends below `2 ^ 32`. -/
theorem block_lt (n : Ipv4Net) : n.addr.toNat / n.size * n.size + (n.size - 1) < 4294967296 := by
  have hlt := n.addr.toNat_lt
  have hdvd : n.size * 2 ^ n.prefixLen = 4294967296 := by
    rw [size, ← pow_add, Nat.sub_add_cancel n.prefixLen_le]; norm_num
  have hq : n.addr.toNat / n.size < 2 ^ n.prefixLen := by
    rw [Nat.div_lt_iff_lt_mul n.size_pos, mul_comm, hdvd]; exact hlt
  have hm : (n.addr.toNat / n.size + 1) * n.size ≤ 2 ^ n.prefixLen * n.size :=
    Nat.mul_le_mul_right _ hq
  rw [mul_comm (2 ^ n.prefixLen), hdvd, Nat.add_mul, one_mul] at hm
  have := n.size_pos
  omega

theorem toNat_network (n : Ipv4Net) : n.network.toNat = n.addr.toNat / n.size * n.size :=
  Ipv4Addr.toNat_ofNat (by have := n.block_lt; omega)

theorem toNat_broadcast (n : Ipv4Net) :
    n.broadcast.toNat = n.addr.toNat / n.size * n.size + (n.size - 1) :=
  Ipv4Addr.toNat_ofNat n.block_lt

/-- **A network contains exactly the addresses with its prefix.** -/
theorem contains_iff (n : Ipv4Net) (ip : Ipv4Addr) :
    n.contains ip = true ↔ ip.toNat / n.size = n.addr.toNat / n.size := by
  have hs := n.size_pos
  rw [contains, Bool.and_eq_true, decide_eq_true_eq, decide_eq_true_eq, toNat_network, toNat_broadcast,
    Nat.div_eq_iff hs]
  constructor <;> rintro ⟨h1, h2⟩ <;> exact ⟨by omega, by omega⟩

end Ipv4Net

end EdgeRoute
