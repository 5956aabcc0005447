/-
  BrowserHeadless.Ssrf.Address

  The addresses the SSRF guard refuses (src/ssrf.rs, `is_blocked_ipv4` and
  `is_blocked_ipv6`).

  The classifiers are translated as they stand, with the predicates of `std::net`
  they call.  What they refuse is stated as lists of network blocks, and they agree
  with it on every address (`isBlockedIp_iff`).
-/

import BrowserHeadless.Lib.Cidr

namespace BrowserHeadless
namespace Ssrf

open Lib (Cidr)

/-! ## Addresses -/

/-- `Ipv4Addr`, by its octets. -/
structure Ipv4Addr where
  a : BitVec 8
  b : BitVec 8
  c : BitVec 8
  d : BitVec 8
deriving DecidableEq, Repr

/-- `Ipv6Addr`, by its segments. -/
structure Ipv6Addr where
  s0 : BitVec 16
  s1 : BitVec 16
  s2 : BitVec 16
  s3 : BitVec 16
  s4 : BitVec 16
  s5 : BitVec 16
  s6 : BitVec 16
  s7 : BitVec 16
deriving DecidableEq, Repr

/-- `IpAddr`. -/
inductive IpAddr where
  | v4 (ip : Ipv4Addr)
  | v6 (ip : Ipv6Addr)
deriving DecidableEq, Repr

namespace Ipv4Addr

/-- `127.0.0.0/8`. -/
def isLoopback (ip : Ipv4Addr) : Bool := ip.a == 127

def isPrivate (ip : Ipv4Addr) : Bool :=
  ip.a == 10 || (ip.a == 172 && (16 ≤ ip.b && ip.b ≤ 31)) || (ip.a == 192 && ip.b == 168)

def isLinkLocal (ip : Ipv4Addr) : Bool := ip.a == 169 && ip.b == 254

def isBroadcast (ip : Ipv4Addr) : Bool := ip == ⟨255, 255, 255, 255⟩

def isUnspecified (ip : Ipv4Addr) : Bool := ip == ⟨0, 0, 0, 0⟩

def isDocumentation (ip : Ipv4Addr) : Bool :=
  (ip.a == 192 && ip.b == 0 && ip.c == 2) || (ip.a == 198 && ip.b == 51 && ip.c == 100) ||
    (ip.a == 203 && ip.b == 0 && ip.c == 113)

/-- `Display`: dotted decimal. -/
def toText (ip : Ipv4Addr) : String :=
  ".".intercalate ([ip.a, ip.b, ip.c, ip.d].map fun octet => toString octet.toNat)

/-- The 32 bits of the address. -/
def bits (ip : Ipv4Addr) : BitVec (8 + (8 + (8 + 8))) := ip.a ++ (ip.b ++ (ip.c ++ ip.d))

/-- `::ffff:a.b.c.d`. -/
def toIpv6Mapped (ip : Ipv4Addr) : Ipv6Addr := ⟨0, 0, 0, 0, 0, 0xffff, ip.a ++ ip.b, ip.c ++ ip.d⟩

end Ipv4Addr

namespace Ipv6Addr

def segments (ip : Ipv6Addr) : List (BitVec 16) :=
  [ip.s0, ip.s1, ip.s2, ip.s3, ip.s4, ip.s5, ip.s6, ip.s7]

def isLoopback (ip : Ipv6Addr) : Bool := ip == ⟨0, 0, 0, 0, 0, 0, 0, 1⟩

def isUnspecified (ip : Ipv6Addr) : Bool := ip == ⟨0, 0, 0, 0, 0, 0, 0, 0⟩

def isMulticast (ip : Ipv6Addr) : Bool := ip.s0 &&& 0xff00 == 0xff00

/-- `to_ipv4_mapped`. -/
def toIpv4Mapped (ip : Ipv6Addr) : Option Ipv4Addr :=
  if ip.segments.take 6 = [0, 0, 0, 0, 0, 0xffff] then
    some ⟨ip.s6.extractLsb' 8 8, ip.s6.extractLsb' 0 8, ip.s7.extractLsb' 8 8,
      ip.s7.extractLsb' 0 8⟩
  else none

/-- The first longest run of zero segments, as its start and length. -/
def longestZeros (ip : Ipv6Addr) : Nat × Nat :=
  let scan := fun (r : (Nat × Nat) × (Nat × Nat)) (segment : BitVec 16 × Nat) =>
    let (longest, current) := r
    if segment.1 = 0 then
      let current := (if current.2 = 0 then segment.2 else current.1, current.2 + 1)
      (if longest.2 < current.2 then current else longest, current)
    else (longest, (0, 0))
  (ip.segments.zipIdx.foldl scan ((0, 0), (0, 0))).1

/-- Segments in lower-case hexadecimal. -/
def hex (segments : List (BitVec 16)) : String :=
  ":".intercalate (segments.map fun segment => String.ofList (Nat.toDigits 16 segment.toNat))

/-- `Display`. -/
def toText (ip : Ipv6Addr) : String :=
  match ip.toIpv4Mapped with
  | some v4 => "::ffff:" ++ v4.toText
  | none =>
      let (start, len) := ip.longestZeros
      if 1 < len then hex (ip.segments.take start) ++ "::" ++ hex (ip.segments.drop (start + len))
      else hex ip.segments

/-- The 128 bits of the address. -/
def bits (ip : Ipv6Addr) : BitVec (16 + (16 + (16 + (16 + (16 + (16 + (16 + 16))))))) :=
  ip.s0 ++ (ip.s1 ++ (ip.s2 ++ (ip.s3 ++ (ip.s4 ++ (ip.s5 ++ (ip.s6 ++ ip.s7))))))

end Ipv6Addr

/-- `Display for IpAddr`. -/
def IpAddr.toText : IpAddr → String
  | v4 ip => ip.toText
  | v6 ip => ip.toText

/-! ## The classifiers -/

/-- `is_blocked_ipv4`. -/
def isBlockedIpv4 (ip : Ipv4Addr) : Bool :=
  ip.isLoopback || ip.isPrivate || ip.isLinkLocal || ip.isBroadcast || ip.isUnspecified ||
    ip.a == 0 || (ip.a == 100 && ip.b &&& 0xc0 == 64) || ip.isDocumentation

/-- `is_blocked_ipv6`. -/
def isBlockedIpv6 (ip : Ipv6Addr) : Bool :=
  if ip.isLoopback || ip.isUnspecified || ip.isMulticast then true
  else if ip.s0 &&& 0xffc0 == 0xfe80 then true
  else if ip.s0 &&& 0xfe00 == 0xfc00 then true
  else if ip.s0 == 0x2001 && ip.s1 == 0xdb8 then true
  else
    match ip.toIpv4Mapped with
    | some v4 => isBlockedIpv4 v4
    | none => false

/-- `is_blocked_ip`. -/
def isBlockedIp : IpAddr → Bool
  | .v4 ip => isBlockedIpv4 ip
  | .v6 ip => isBlockedIpv6 ip

/-- Display compresses the longest run of zeros. -/
example : (⟨0x2001, 0xdb8, 0, 0, 1, 0, 0, 0⟩ : Ipv6Addr).toText = "2001:db8:0:0:1::" := by decide

/-! ## The blocked networks -/

/-- The IPv4 blocks: loopback, private, link-local, broadcast, "this network",
    shared (carrier) and documentation addresses. -/
def blockedIpv4 : List (Cidr (8 + (8 + (8 + 8)))) :=
  [⟨Ipv4Addr.bits ⟨127, 0, 0, 0⟩, 8⟩,
    ⟨Ipv4Addr.bits ⟨10, 0, 0, 0⟩, 8⟩, ⟨Ipv4Addr.bits ⟨172, 16, 0, 0⟩, 12⟩,
    ⟨Ipv4Addr.bits ⟨192, 168, 0, 0⟩, 16⟩,
    ⟨Ipv4Addr.bits ⟨169, 254, 0, 0⟩, 16⟩,
    ⟨Ipv4Addr.bits ⟨255, 255, 255, 255⟩, 32⟩,
    ⟨Ipv4Addr.bits ⟨0, 0, 0, 0⟩, 8⟩,
    ⟨Ipv4Addr.bits ⟨100, 64, 0, 0⟩, 10⟩,
    ⟨Ipv4Addr.bits ⟨192, 0, 2, 0⟩, 24⟩, ⟨Ipv4Addr.bits ⟨198, 51, 100, 0⟩, 24⟩,
    ⟨Ipv4Addr.bits ⟨203, 0, 113, 0⟩, 24⟩]

/-- The IPv6 blocks: loopback, unspecified, multicast, link-local, unique local and
    documentation addresses. -/
def blockedIpv6 : List (Cidr (16 + (16 + (16 + (16 + (16 + (16 + (16 + 16)))))))) :=
  [⟨Ipv6Addr.bits ⟨0, 0, 0, 0, 0, 0, 0, 1⟩, 128⟩,
    ⟨Ipv6Addr.bits ⟨0, 0, 0, 0, 0, 0, 0, 0⟩, 128⟩,
    ⟨Ipv6Addr.bits ⟨0xff00, 0, 0, 0, 0, 0, 0, 0⟩, 8⟩,
    ⟨Ipv6Addr.bits ⟨0xfe80, 0, 0, 0, 0, 0, 0, 0⟩, 10⟩,
    ⟨Ipv6Addr.bits ⟨0xfc00, 0, 0, 0, 0, 0, 0, 0⟩, 7⟩,
    ⟨Ipv6Addr.bits ⟨0x2001, 0xdb8, 0, 0, 0, 0, 0, 0⟩, 32⟩]

/-- An address in one of the IPv4 blocks. -/
def Ipv4Addr.Blocked (ip : Ipv4Addr) : Prop := ∃ net ∈ blockedIpv4, net.Contains ip.bits

/-- An address in one of the IPv6 blocks, or an IPv4 address of a blocked one. -/
def Ipv6Addr.Blocked (ip : Ipv6Addr) : Prop :=
  (∃ net ∈ blockedIpv6, net.Contains ip.bits) ∨
    ∃ v4 : Ipv4Addr, ip = v4.toIpv6Mapped ∧ v4.Blocked

def IpAddr.Blocked : IpAddr → Prop
  | v4 ip => ip.Blocked
  | v6 ip => ip.Blocked

/-! ## The classifiers decide the blocks -/

namespace Ipv4Addr

variable {base ip : Ipv4Addr}

theorem contains_8 : (Cidr.mk base.bits 8).Contains ip.bits ↔ ip.a = base.a := by
  rw [bits, bits, Cidr.contains_append_left (Nat.le_refl 8), Cidr.contains_full]

theorem contains_9_to_16 (len : Nat) (h : len ≤ 8) :
    (Cidr.mk base.bits (8 + len)).Contains ip.bits ↔
      ip.a = base.a ∧ (Cidr.mk base.b len).Contains ip.b := by
  rw [bits, bits, Cidr.contains_append_right, Cidr.contains_append_left h]

theorem contains_16 :
    (Cidr.mk base.bits 16).Contains ip.bits ↔ ip.a = base.a ∧ ip.b = base.b :=
  (contains_9_to_16 8 (Nat.le_refl 8)).trans (and_congr Iff.rfl Cidr.contains_full)

theorem contains_24 : (Cidr.mk base.bits 24).Contains ip.bits ↔
    ip.a = base.a ∧ ip.b = base.b ∧ ip.c = base.c := by
  show (Cidr.mk base.bits (8 + (8 + 8))).Contains ip.bits ↔ _
  rw [bits, bits, Cidr.contains_append_right, Cidr.contains_append_right,
    Cidr.contains_append_left (Nat.le_refl 8), Cidr.contains_full]

theorem contains_32 : (Cidr.mk base.bits 32).Contains ip.bits ↔ ip = base := by
  show (Cidr.mk base.bits (8 + (8 + (8 + 8)))).Contains ip.bits ↔ _
  rw [bits, bits, Cidr.contains_append_right, Cidr.contains_append_right,
    Cidr.contains_append_right, Cidr.contains_full, Ipv4Addr.mk.injEq]

end Ipv4Addr

/-- The second octets of `172.16.0.0/12`. -/
theorem contains_16_4 : ∀ b : BitVec 8, (Cidr.mk 16#8 4).Contains b ↔ 16 ≤ b ∧ b ≤ 31 := by
  decide

/-- The second octets of `100.64.0.0/10`. -/
theorem contains_64_2 (b : BitVec 8) : (Cidr.mk 64#8 2).Contains b ↔ b &&& 0xc0 = 64 :=
  Cidr.contains_iff_mask

theorem isBlockedIpv4_iff (ip : Ipv4Addr) : isBlockedIpv4 ip = true ↔ ip.Blocked := by
  have h12 : (Cidr.mk (Ipv4Addr.bits ⟨172, 16, 0, 0⟩) 12).Contains ip.bits ↔
      ip.a = 172 ∧ 16 ≤ ip.b ∧ ip.b ≤ 31 :=
    (Ipv4Addr.contains_9_to_16 4 (by omega)).trans
      (and_congr Iff.rfl (contains_16_4 ip.b))
  have h10 : (Cidr.mk (Ipv4Addr.bits ⟨100, 64, 0, 0⟩) 10).Contains ip.bits ↔
      ip.a = 100 ∧ ip.b &&& 0xc0 = 64 :=
    (Ipv4Addr.contains_9_to_16 2 (by omega)).trans
      (and_congr Iff.rfl (contains_64_2 ip.b))
  simp only [Ipv4Addr.Blocked, blockedIpv4, List.exists_mem_cons_iff, Ipv4Addr.contains_8, h12, h10,
    Ipv4Addr.contains_16, Ipv4Addr.contains_24, Ipv4Addr.contains_32]
  simp only [isBlockedIpv4, Ipv4Addr.isLoopback, Ipv4Addr.isPrivate, Ipv4Addr.isLinkLocal,
    Ipv4Addr.isBroadcast, Ipv4Addr.isUnspecified, Ipv4Addr.isDocumentation, Bool.or_eq_true,
    Bool.and_eq_true, beq_iff_eq, decide_eq_true_eq, or_assoc, and_assoc, List.not_mem_nil,
    false_and, exists_false, or_false]
  -- `0.0.0.0` is in `0.0.0.0/8`
  have hzero : ∀ p : Prop, (ip = ⟨0, 0, 0, 0⟩ ∨ ip.a = 0 ∨ p) ↔ (ip.a = 0 ∨ p) := by
    intro p
    refine or_iff_right_of_imp fun h => Or.inl ?_
    rw [h]
  rw [hzero]

/-- A `u16` comparison under a mask of leading ones. -/
theorem Ipv6Addr.contains_first {base ip : Ipv6Addr} {len : Nat} (h : len ≤ 16) :
    (Cidr.mk base.bits len).Contains ip.bits ↔
      ip.s0 &&& BitVec.allOnes 16 <<< (16 - len) = base.s0 &&& BitVec.allOnes 16 <<< (16 - len) := by
  rw [bits, bits, Cidr.contains_append_left h, Cidr.contains_iff_mask]

theorem Ipv6Addr.contains_32 {base ip : Ipv6Addr} :
    (Cidr.mk base.bits 32).Contains ip.bits ↔ ip.s0 = base.s0 ∧ ip.s1 = base.s1 := by
  show (Cidr.mk base.bits (16 + 16)).Contains ip.bits ↔ _
  rw [bits, bits, Cidr.contains_append_right, Cidr.contains_append_left (Nat.le_refl 16),
    Cidr.contains_full]

theorem Ipv6Addr.contains_128 {base ip : Ipv6Addr} :
    (Cidr.mk base.bits 128).Contains ip.bits ↔ ip = base := by
  show (Cidr.mk base.bits (16 + (16 + (16 + (16 + (16 + (16 + (16 + 16)))))))).Contains ip.bits ↔ _
  rw [bits, bits, Cidr.contains_append_right, Cidr.contains_append_right,
    Cidr.contains_append_right, Cidr.contains_append_right, Cidr.contains_append_right,
    Cidr.contains_append_right, Cidr.contains_append_right, Cidr.contains_full, Ipv6Addr.mk.injEq]

theorem Ipv4Addr.toIpv4Mapped_toIpv6Mapped (v4 : Ipv4Addr) :
    v4.toIpv6Mapped.toIpv4Mapped = some v4 := by
  have hhead : v4.toIpv6Mapped.segments.take 6 = [0, 0, 0, 0, 0, 0xffff] := rfl
  rw [Ipv6Addr.toIpv4Mapped, if_pos hhead, Ipv4Addr.toIpv6Mapped,
    BitVec.extractLsb'_append_eq_left, BitVec.extractLsb'_append_eq_right,
    BitVec.extractLsb'_append_eq_left, BitVec.extractLsb'_append_eq_right]

/-- `to_ipv4_mapped` finds exactly the mapped addresses. -/
theorem Ipv6Addr.toIpv4Mapped_eq_some_iff {ip : Ipv6Addr} {v4 : Ipv4Addr} :
    ip.toIpv4Mapped = some v4 ↔ ip = v4.toIpv6Mapped := by
  constructor
  · obtain ⟨s0, s1, s2, s3, s4, s5, s6, s7⟩ := ip
    intro h
    rw [toIpv4Mapped] at h
    split at h
    next hhead =>
      cases h
      have h6 := @BitVec.extractLsb'_append_extractLsb' 8 8 s6
      have h7 := @BitVec.extractLsb'_append_extractLsb' 8 8 s7
      simp only [segments, List.take_succ_cons, List.take_zero, List.cons.injEq, and_true] at hhead
      obtain ⟨rfl, rfl, rfl, rfl, rfl, rfl⟩ := hhead
      rw [Ipv4Addr.toIpv6Mapped, h6, h7]
    next => cases h
  · rintro rfl
    exact v4.toIpv4Mapped_toIpv6Mapped

theorem isBlockedIpv6_iff (ip : Ipv6Addr) : isBlockedIpv6 ip = true ↔ ip.Blocked := by
  have hmapped : (∃ v4 : Ipv4Addr, ip = v4.toIpv6Mapped ∧ v4.Blocked) ↔
      (match ip.toIpv4Mapped with
        | some v4 => isBlockedIpv4 v4
        | none => false) = true := by
    cases h : ip.toIpv4Mapped with
    | none =>
        simp only [← Ipv6Addr.toIpv4Mapped_eq_some_iff, h]
        simp
    | some v4 =>
        simp only [← Ipv6Addr.toIpv4Mapped_eq_some_iff, h, Option.some.injEq]
        simp [isBlockedIpv4_iff]
  rw [Ipv6Addr.Blocked, hmapped]
  simp only [blockedIpv6, List.exists_mem_cons_iff, Ipv6Addr.contains_128, Ipv6Addr.contains_32,
    List.not_mem_nil, false_and, exists_false, or_false]
  have h8 : (Cidr.mk (Ipv6Addr.bits ⟨0xff00, 0, 0, 0, 0, 0, 0, 0⟩) 8).Contains ip.bits ↔
      ip.s0 &&& 0xff00 = 0xff00 := Ipv6Addr.contains_first (by omega)
  have h10 : (Cidr.mk (Ipv6Addr.bits ⟨0xfe80, 0, 0, 0, 0, 0, 0, 0⟩) 10).Contains ip.bits ↔
      ip.s0 &&& 0xffc0 = 0xfe80 := Ipv6Addr.contains_first (by omega)
  have h7 : (Cidr.mk (Ipv6Addr.bits ⟨0xfc00, 0, 0, 0, 0, 0, 0, 0⟩) 7).Contains ip.bits ↔
      ip.s0 &&& 0xfe00 = 0xfc00 := Ipv6Addr.contains_first (by omega)
  simp only [h8, h10, h7, isBlockedIpv6, Ipv6Addr.isLoopback, Ipv6Addr.isUnspecified,
    Ipv6Addr.isMulticast, Bool.if_true_left, decide_eq_true_eq, Bool.or_eq_true,
    Bool.and_eq_true, beq_iff_eq, or_assoc]

/-- The classifiers refuse exactly the addresses in the blocks. -/
theorem isBlockedIp_iff (ip : IpAddr) : isBlockedIp ip = true ↔ ip.Blocked := by
  cases ip with
  | v4 ip => exact isBlockedIpv4_iff ip
  | v6 ip => exact isBlockedIpv6_iff ip

end Ssrf
end BrowserHeadless
