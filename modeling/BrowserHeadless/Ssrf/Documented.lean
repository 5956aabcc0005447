/-
  BrowserHeadless.Ssrf.Documented

  The address classes the guard is documented to refuse (README.md, "SSRF guard"),
  against the ones its classifiers refuse.

  The classes are lists of network blocks, as the blocked ones are.  Every documented
  block but one lies inside a blocked one; the one left over, the IPv4 multicast block,
  is apart from all of them (`Ipv4Addr.not_blocked_of_multicast`).  So the guard keeps
  its word on an address exactly when that address is no IPv4 multicast address, written
  as one or mapped into IPv6.
-/

import BrowserHeadless.Ssrf.Address

namespace BrowserHeadless
namespace Ssrf

open Lib (Cidr)

/-! ## The documented classes -/

/-- `224.0.0.0/4`. -/
def multicastIpv4 : Cidr (8 + (8 + (8 + 8))) := ⟨Ipv4Addr.bits ⟨224, 0, 0, 0⟩, 4⟩

/-- IPv4: loopback, private (three blocks), link-local, multicast, shared (carrier),
    unspecified, broadcast and documentation (three blocks). -/
def documentedIpv4 : List (Cidr (8 + (8 + (8 + 8)))) :=
  [⟨Ipv4Addr.bits ⟨127, 0, 0, 0⟩, 8⟩,
    ⟨Ipv4Addr.bits ⟨10, 0, 0, 0⟩, 8⟩, ⟨Ipv4Addr.bits ⟨172, 16, 0, 0⟩, 12⟩,
    ⟨Ipv4Addr.bits ⟨192, 168, 0, 0⟩, 16⟩,
    ⟨Ipv4Addr.bits ⟨169, 254, 0, 0⟩, 16⟩,
    multicastIpv4,
    ⟨Ipv4Addr.bits ⟨100, 64, 0, 0⟩, 10⟩,
    ⟨Ipv4Addr.bits ⟨0, 0, 0, 0⟩, 32⟩,
    ⟨Ipv4Addr.bits ⟨255, 255, 255, 255⟩, 32⟩,
    ⟨Ipv4Addr.bits ⟨192, 0, 2, 0⟩, 24⟩, ⟨Ipv4Addr.bits ⟨198, 51, 100, 0⟩, 24⟩,
    ⟨Ipv4Addr.bits ⟨203, 0, 113, 0⟩, 24⟩]

/-- IPv6: loopback, link-local, unique local, multicast, unspecified and documentation. -/
def documentedIpv6 : List (Cidr (16 + (16 + (16 + (16 + (16 + (16 + (16 + 16)))))))) :=
  [⟨Ipv6Addr.bits ⟨0, 0, 0, 0, 0, 0, 0, 1⟩, 128⟩,
    ⟨Ipv6Addr.bits ⟨0xfe80, 0, 0, 0, 0, 0, 0, 0⟩, 10⟩,
    ⟨Ipv6Addr.bits ⟨0xfc00, 0, 0, 0, 0, 0, 0, 0⟩, 7⟩,
    ⟨Ipv6Addr.bits ⟨0xff00, 0, 0, 0, 0, 0, 0, 0⟩, 8⟩,
    ⟨Ipv6Addr.bits ⟨0, 0, 0, 0, 0, 0, 0, 0⟩, 128⟩,
    ⟨Ipv6Addr.bits ⟨0x2001, 0xdb8, 0, 0, 0, 0, 0, 0⟩, 32⟩]

/-- An IPv4 address of a documented class. -/
def Ipv4Addr.Documented (ip : Ipv4Addr) : Prop := ∃ net ∈ documentedIpv4, net.Contains ip.bits

/-- An IPv6 address of a documented class, or the mapped form of such an IPv4 address. -/
def Ipv6Addr.Documented (ip : Ipv6Addr) : Prop :=
  (∃ net ∈ documentedIpv6, net.Contains ip.bits) ∨
    ∃ v4 : Ipv4Addr, ip = v4.toIpv6Mapped ∧ v4.Documented

def IpAddr.Documented : IpAddr → Prop
  | v4 ip => ip.Documented
  | v6 ip => ip.Documented

def Ipv4Addr.Multicast (ip : Ipv4Addr) : Prop := multicastIpv4.Contains ip.bits

/-- An IPv4 multicast address, also in its mapped form. -/
def IpAddr.Ipv4Multicast : IpAddr → Prop
  | v4 ip => ip.Multicast
  | v6 ip => ∃ v4 : Ipv4Addr, ip = v4.toIpv6Mapped ∧ v4.Multicast

/-! ## Documented and blocked classes -/

/-- Every other documented IPv4 block lies inside a blocked one. -/
theorem documentedIpv4_nested : ∀ net ∈ documentedIpv4, net ≠ multicastIpv4 →
    ∃ blocked ∈ blockedIpv4, blocked.len ≤ net.len ∧ blocked.Contains net.base := by
  decide

/-- The multicast block has nothing in common with the blocked ones. -/
theorem multicastIpv4_apart : ∀ net ∈ blockedIpv4, multicastIpv4.Apart net := by
  decide

theorem mem_documentedIpv6_iff {net : Cidr (16 + (16 + (16 + (16 + (16 + (16 + (16 + 16)))))))} :
    net ∈ documentedIpv6 ↔ net ∈ blockedIpv6 := by
  simp only [documentedIpv6, blockedIpv6, List.mem_cons]
  tauto

/-- The block of the mapped addresses has nothing in common with the blocked ones. -/
theorem mapped_apart : ∀ net ∈ blockedIpv6,
    (Cidr.mk (Ipv6Addr.bits ⟨0, 0, 0, 0, 0, 0xffff, 0, 0⟩) 96).Apart net := by
  decide

theorem Ipv4Addr.contains_mapped (v4 : Ipv4Addr) :
    (Cidr.mk (Ipv6Addr.bits ⟨0, 0, 0, 0, 0, 0xffff, 0, 0⟩) 96).Contains v4.toIpv6Mapped.bits := by
  show (Cidr.mk _ (16 + (16 + (16 + (16 + (16 + 16)))))).Contains _
  simp only [Ipv6Addr.bits, toIpv6Mapped, Cidr.contains_append_right, true_and]
  rw [Cidr.contains_append_left (Nat.le_refl 16), Cidr.contains_full]

/-! ## IPv4 -/

theorem Ipv4Addr.not_blocked_of_multicast {ip : Ipv4Addr} (h : ip.Multicast) : ¬ ip.Blocked := by
  rintro ⟨net, hnet, hin⟩
  exact (multicastIpv4_apart net hnet).not_contains h hin

theorem Ipv4Addr.documented_of_multicast {ip : Ipv4Addr} (h : ip.Multicast) : ip.Documented := by
  have hmem : multicastIpv4 ∈ documentedIpv4 := by decide
  exact ⟨multicastIpv4, hmem, h⟩

theorem Ipv4Addr.blocked_of_documented {ip : Ipv4Addr} (h : ip.Documented)
    (hother : ¬ ip.Multicast) : ip.Blocked := by
  obtain ⟨net, hnet, hin⟩ := h
  have hne : net ≠ multicastIpv4 := by
    rintro rfl
    exact hother hin
  obtain ⟨blocked, hblocked, hlen, hbase⟩ := documentedIpv4_nested net hnet hne
  exact ⟨blocked, hblocked, Cidr.Contains.trans hlen hbase hin⟩

/-! ## IPv6 -/

/-- A mapped address is blocked only for the address it maps. -/
theorem Ipv4Addr.blocked_mapped_iff (v4 : Ipv4Addr) : v4.toIpv6Mapped.Blocked ↔ v4.Blocked := by
  constructor
  · rintro (⟨net, hnet, hin⟩ | ⟨other, heq, hblocked⟩)
    · exact absurd hin ((mapped_apart net hnet).not_contains v4.contains_mapped)
    · have hsome := v4.toIpv4Mapped_toIpv6Mapped
      rw [heq, other.toIpv4Mapped_toIpv6Mapped, Option.some.injEq] at hsome
      rw [← hsome]
      exact hblocked
  · intro h
    exact Or.inr ⟨v4, rfl, h⟩

theorem IpAddr.not_blocked_of_ipv4Multicast {ip : IpAddr} (h : ip.Ipv4Multicast) :
    ¬ ip.Blocked := by
  cases ip with
  | v4 ip => exact Ipv4Addr.not_blocked_of_multicast h
  | v6 ip =>
      obtain ⟨v4, rfl, hmulticast⟩ := h
      intro hblocked
      exact Ipv4Addr.not_blocked_of_multicast hmulticast (v4.blocked_mapped_iff.mp hblocked)

theorem IpAddr.documented_of_ipv4Multicast {ip : IpAddr} (h : ip.Ipv4Multicast) :
    ip.Documented := by
  cases ip with
  | v4 ip => exact Ipv4Addr.documented_of_multicast h
  | v6 ip =>
      obtain ⟨v4, rfl, hmulticast⟩ := h
      exact Or.inr ⟨v4, rfl, Ipv4Addr.documented_of_multicast hmulticast⟩

theorem IpAddr.blocked_of_documented {ip : IpAddr} (h : ip.Documented)
    (hother : ¬ ip.Ipv4Multicast) : ip.Blocked := by
  cases ip with
  | v4 ip => exact Ipv4Addr.blocked_of_documented h hother
  | v6 ip =>
      rcases h with ⟨net, hnet, hin⟩ | ⟨v4, rfl, hdocumented⟩
      · exact Or.inl ⟨net, mem_documentedIpv6_iff.mp hnet, hin⟩
      · refine Or.inr ⟨v4, rfl, Ipv4Addr.blocked_of_documented hdocumented ?_⟩
        intro hmulticast
        exact hother ⟨v4, rfl, hmulticast⟩

/-! ## The guard against its documentation -/

/-- The guard refuses an address of a documented class exactly when it is no IPv4
    multicast address. -/
theorem isBlockedIp_of_documented_iff (ip : IpAddr) :
    (ip.Documented → isBlockedIp ip = true) ↔ ¬ ip.Ipv4Multicast := by
  rw [isBlockedIp_iff]
  constructor
  · intro h hmulticast
    exact IpAddr.not_blocked_of_ipv4Multicast hmulticast
      (h (IpAddr.documented_of_ipv4Multicast hmulticast))
  · intro hother hdocumented
    exact IpAddr.blocked_of_documented hdocumented hother

/-- `224.0.0.1` is a multicast address and goes through. -/
theorem isBlockedIp_multicast_allowed :
    ¬ ∀ ip : IpAddr, ip.Documented → isBlockedIp ip = true := by
  intro h
  have hdocumented : (IpAddr.v4 ⟨224, 0, 0, 1⟩).Documented :=
    ⟨multicastIpv4, by decide, by decide⟩
  have hallowed : isBlockedIp (IpAddr.v4 ⟨224, 0, 0, 1⟩) = false := by decide
  rw [h _ hdocumented] at hallowed
  cases hallowed

end Ssrf
end BrowserHeadless
