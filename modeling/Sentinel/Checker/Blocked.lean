import Sentinel.Checker.Ssrf
import Sentinel.Library.BitPrefix

/-!
# Checker — Blocked

The set of addresses `isIPBlocked` blocks. The tables of the guard are texts that `init` parses
(`parseCIDR`); an address is covered by a network when it has its length and its first `ones`
bits (`IPNet.Covers`), which `contains` decides by masks. `isIPBlocked_exact` says that the answer
is the union of the documented networks and nothing else.

The second line of the filter, the predicates of the `net` package, is the union of the ranges
these are documented for (`isReserved_iff`), and each of the ranges lies within a network of
the tables.
-/

namespace Sentinel.Checker

open IpText BitPrefix

/-! ### The tables -/

/-- The texts of `defaultBlockedIPv4CIDRs`. -/
def ipv4CIDRs : List Text :=
  ["0.0.0.0/8".toList, "10.0.0.0/8".toList, "100.64.0.0/10".toList, "127.0.0.0/8".toList,
    "169.254.0.0/16".toList, "172.16.0.0/12".toList, "192.168.0.0/16".toList,
    "224.0.0.0/4".toList, "240.0.0.0/4".toList]

/-- The texts of `defaultBlockedIPv6CIDRs`. -/
def ipv6CIDRs : List Text :=
  ["::/128".toList, "::1/128".toList, "fc00::/7".toList, "fe80::/10".toList, "ff00::/8".toList]

/-- `IP.Mask`, with a mask of `ones` bits as long as the address. -/
def maskBytes (ones : Nat) (bs : List UInt8) : List UInt8 :=
  bs.zipIdx.map fun x => x.1 &&& maskByte ones x.2

/-- The network `net.ParseCIDR` returns. The text of the address decides how long it is. -/
def parseCIDR (s : Text) : Option IPNet :=
  match s.span (· ≠ '/') with
  | (_, []) => none
  | (addr, _ :: mask) => do
      let ip ← parseIP addr
      let bs ← if ':' ∈ addr then some ip.bytes else ip.to4
      let n ← digits mask
      if n > 8 * bs.length then none else some ⟨maskBytes n bs, n⟩

/-- `init` parses the tables without a panic. -/
theorem init_blockedNets :
    ipv4CIDRs.mapM parseCIDR = some defaultBlockedIPv4CIDRs ∧
      ipv6CIDRs.mapM parseCIDR = some defaultBlockedIPv6CIDRs := by
  decide

/-- When a table parses, what its texts parse to are its networks. -/
theorem exists_parsed {cidrs : List Text} {nets : List IPNet} (h : cidrs.mapM parseCIDR = some nets)
    {P : IPNet → Prop} :
    (∃ cidr ∈ cidrs, ∃ n, parseCIDR cidr = some n ∧ P n) ↔ ∃ n ∈ nets, P n := by
  induction cidrs generalizing nets with
  | nil => simp_all
  | cons cidr cidrs ih =>
      simp only [List.mapM_cons, Option.bind_eq_bind, Option.bind_eq_some_iff, Option.pure_def,
        Option.some.injEq] at h
      obtain ⟨n, hn, ns, hns, rfl⟩ := h
      simp [hn, ih hns]

/-! ### Networks -/

/-- `bs` is an address of the network: its length, and its first `ones` bits. -/
def IPNet.Covers (n : IPNet) (bs : List UInt8) : Prop :=
  bs.length = n.number.length ∧ prefixOf n.ones bs = prefixOf n.ones n.number

/-- The masks of `contains` decide the networks, whatever the length of the prefix. -/
theorem IPNet.contains_iff (n : IPNet) (bs : List UInt8) :
    n.contains bs = true ↔ n.Covers bs := by
  have hagree : n.contains bs =
      (decide (bs.length = n.number.length) && agree n.ones n.number bs 0) := rfl
  rw [hagree, Bool.and_eq_true, decide_eq_true_iff, IPNet.Covers]
  refine and_congr_right fun hlen => ?_
  rw [agree_iff n.ones hlen.symm 0, Nat.mul_zero, Nat.sub_zero, eq_comm]

theorem IPNet.covers_cons (x y : UInt8) (xs ys : List UInt8) (k : Nat) :
    IPNet.Covers ⟨x :: xs, k⟩ (y :: ys) ↔
      y &&& highMask k = x &&& highMask k ∧ IPNet.Covers ⟨xs, k - 8⟩ ys := by
  simp only [IPNet.Covers, List.length_cons, Nat.add_right_cancel_iff]
  constructor
  · rintro ⟨hlen, hbits⟩
    obtain ⟨hbyte, hrest⟩ := (prefixOf_cons_iff hlen k y x).mp hbits
    exact ⟨hbyte, hlen, hrest⟩
  · rintro ⟨hbyte, hlen, hrest⟩
    exact ⟨hlen, (prefixOf_cons_iff hlen k y x).mpr ⟨hbyte, hrest⟩⟩

@[simp] theorem IPNet.covers_zero (xs ys : List UInt8) :
    IPNet.Covers ⟨xs, 0⟩ ys ↔ ys.length = xs.length := by
  simp [IPNet.Covers, prefixOf_zero]

/-- A network with a prefix of full length is one address. -/
theorem IPNet.covers_full : ∀ {xs ys : List UInt8} {k : Nat}, 8 * xs.length ≤ k →
    (IPNet.Covers ⟨xs, k⟩ ys ↔ ys = xs)
  | [], [], k, _ => by simp [IPNet.Covers]
  | [], y :: ys, k, _ => by simp [IPNet.Covers]
  | x :: xs, [], k, _ => by simp [IPNet.Covers]
  | x :: xs, y :: ys, k, h => by
      have hk : 8 * xs.length + 8 ≤ k := by simpa [Nat.mul_add] using h
      rw [IPNet.covers_cons, IPNet.covers_full (by omega), highMask_full (by omega)]
      simp

/-- `n` is a part of `m`: its prefix is a longer one of the same number. -/
def IPNet.Within (n m : IPNet) : Prop :=
  m.ones ≤ n.ones ∧ n.ones ≤ 8 * n.number.length ∧ m.Covers n.number

instance (n : IPNet) (bs : List UInt8) : Decidable (n.Covers bs) :=
  inferInstanceAs (Decidable (_ ∧ _))

instance (n m : IPNet) : Decidable (n.Within m) := inferInstanceAs (Decidable (_ ∧ _ ∧ _))

theorem IPNet.Covers.within {n m : IPNet} {bs : List UInt8} (h : n.Covers bs)
    (hw : n.Within m) : m.Covers bs := by
  obtain ⟨hlen, hbits⟩ := h
  obtain ⟨hle, hmax, hlen', hbits'⟩ := hw
  refine ⟨hlen.trans hlen', ?_⟩
  rw [← hbits', ← prefixOf_prefixOf hle (hlen ▸ hmax), ← prefixOf_prefixOf hle hmax, hbits]

/-- A set of addresses: networks of IPv4 addresses and of IPv6 ones. -/
structure Ranges where
  v4 : List IPNet
  v6 : List IPNet

/-- The address lies in one of the networks. An IPv4-mapped address is the IPv4 address it
carries. -/
def Ranges.Has (r : Ranges) (ip : IP) : Prop :=
  match ip.to4 with
  | some ipv4 => ∃ n ∈ r.v4, n.Covers ipv4
  | none => ∃ n ∈ r.v6, n.Covers ip.bytes

theorem Ranges.has_v4 {r : Ranges} {ip : IP} {ipv4 : List UInt8} (h : ip.to4 = some ipv4) :
    r.Has ip ↔ ∃ n ∈ r.v4, n.Covers ipv4 := by
  rw [Ranges.Has, h]

theorem Ranges.has_v6 {r : Ranges} {ip : IP} (h : ip.to4 = none) :
    r.Has ip ↔ ∃ n ∈ r.v6, n.Covers ip.bytes := by
  rw [Ranges.Has, h]

/-- Every network of one set is a part of a network of the other. -/
def Ranges.Within (r s : Ranges) : Prop :=
  (∀ n ∈ r.v4, ∃ m ∈ s.v4, n.Within m) ∧ ∀ n ∈ r.v6, ∃ m ∈ s.v6, n.Within m

theorem Ranges.Has.within {r s : Ranges} {ip : IP} (h : r.Has ip) (hw : r.Within s) :
    s.Has ip := by
  cases hip : ip.to4 with
  | some ipv4 =>
      obtain ⟨n, hn, hcovers⟩ := (Ranges.has_v4 hip).mp h
      obtain ⟨m, hm, hnm⟩ := hw.1 n hn
      exact (Ranges.has_v4 hip).mpr ⟨m, hm, hcovers.within hnm⟩
  | none =>
      obtain ⟨n, hn, hcovers⟩ := (Ranges.has_v6 hip).mp h
      obtain ⟨m, hm, hnm⟩ := hw.2 n hn
      exact (Ranges.has_v6 hip).mpr ⟨m, hm, hcovers.within hnm⟩

/-- The documented set: the union of the tables. -/
def blockedNets : Ranges := ⟨defaultBlockedIPv4CIDRs, defaultBlockedIPv6CIDRs⟩

/-! ### The predicates of the `net` package -/

/-- 127.0.0.0/8 and ::1. -/
def loopback : Ranges := ⟨[⟨[127, 0, 0, 0], 8⟩], [⟨List.replicate 15 0 ++ [1], 128⟩]⟩

/-- 10.0.0.0/8, 172.16.0.0/12, 192.168.0.0/16 and fc00::/7. -/
def privateUse : Ranges :=
  ⟨[⟨[10, 0, 0, 0], 8⟩, ⟨[172, 16, 0, 0], 12⟩, ⟨[192, 168, 0, 0], 16⟩],
    [⟨0xfc :: 0 :: List.replicate 14 0, 7⟩]⟩

/-- 169.254.0.0/16 and fe80::/10. -/
def linkLocalUnicast : Ranges :=
  ⟨[⟨[169, 254, 0, 0], 16⟩], [⟨0xfe :: 0x80 :: List.replicate 14 0, 10⟩]⟩

/-- 224.0.0.0/24 and the multicast prefixes of link-local scope, whatever their four flags. -/
def linkLocalMulticast : Ranges :=
  ⟨[⟨[224, 0, 0, 0], 24⟩], (List.range 16).map fun flags =>
    ⟨0xff :: UInt8.ofNat (16 * flags + 2) :: List.replicate 14 0, 16⟩⟩

/-- 224.0.0.0/4 and ff00::/8. -/
def multicast : Ranges := ⟨[⟨[224, 0, 0, 0], 4⟩], [⟨0xff :: 0 :: List.replicate 14 0, 8⟩]⟩

/-- 0.0.0.0 and ::. -/
def unspecified : Ranges := ⟨[⟨List.replicate 4 0, 32⟩], [⟨List.replicate 16 0, 128⟩]⟩

section Predicates

variable (ip : IP)

theorem bytes_cons_cons {ip : IP} (h : ip.to4 = none) :
    ∃ a b bs, ip.bytes = a :: b :: bs ∧ bs.length = 14 := by
  have hlen : ip.bytes.length = 16 := by
    refine ip.length_eq.resolve_left fun h4 => ?_
    simp [IP.to4, h4] at h
  obtain ⟨a, as, hbytes⟩ := List.exists_cons_of_length_eq_add_one hlen
  rw [hbytes, List.length_cons, Nat.add_right_cancel_iff (k := 15)] at hlen
  obtain ⟨b, bs, rfl⟩ := List.exists_cons_of_length_eq_add_one hlen
  exact ⟨a, b, bs, hbytes, Nat.succ.inj hlen⟩

theorem isLoopback_iff : isLoopback ip = true ↔ loopback.Has ip := by
  cases h : ip.to4 with
  | some ipv4 =>
      rw [Ranges.has_v4 h]
      match ipv4, IP.to4_length h with
      | [a, b, c, d], _ => simp [isLoopback, h, loopback, IPNet.covers_cons, highMask, byte]
  | none => simp [Ranges.has_v6 h, isLoopback, h, loopback, IPNet.covers_full]

theorem isUnspecified_iff : isUnspecified ip = true ↔ unspecified.Has ip := by
  cases h : ip.to4 with
  | some ipv4 => simp [Ranges.has_v4 h, isUnspecified, h, unspecified, IPNet.covers_full]
  | none => simp [Ranges.has_v6 h, isUnspecified, h, unspecified, IPNet.covers_full]

theorem isPrivate_iff : isPrivate ip = true ↔ privateUse.Has ip := by
  cases h : ip.to4 with
  | some ipv4 =>
      rw [Ranges.has_v4 h]
      match ipv4, IP.to4_length h with
      | [a, b, c, d], _ =>
          simp [isPrivate, h, privateUse, IPNet.covers_cons, highMask, byte, or_assoc,
            show (16 : UInt8) &&& 240 = 16 from rfl]
  | none =>
      obtain ⟨a, b, bs, hbytes, hlen⟩ := bytes_cons_cons h
      simp [Ranges.has_v6 h, isPrivate, h, privateUse, hbytes, IPNet.covers_cons, highMask, byte,
        hlen, show (252 : UInt8) &&& 254 = 252 from rfl]

theorem isLinkLocalUnicast_iff : isLinkLocalUnicast ip = true ↔ linkLocalUnicast.Has ip := by
  cases h : ip.to4 with
  | some ipv4 =>
      rw [Ranges.has_v4 h]
      match ipv4, IP.to4_length h with
      | [a, b, c, d], _ =>
          simp [isLinkLocalUnicast, h, linkLocalUnicast, IPNet.covers_cons, highMask, byte]
  | none =>
      obtain ⟨a, b, bs, hbytes, hlen⟩ := bytes_cons_cons h
      simp [Ranges.has_v6 h, isLinkLocalUnicast, h, linkLocalUnicast, hbytes, IPNet.covers_cons,
        highMask, byte, hlen, show (128 : UInt8) &&& 192 = 128 from rfl]

theorem isMulticast_iff : isMulticast ip = true ↔ multicast.Has ip := by
  cases h : ip.to4 with
  | some ipv4 =>
      rw [Ranges.has_v4 h]
      match ipv4, IP.to4_length h with
      | [a, b, c, d], _ =>
          simp [isMulticast, h, multicast, IPNet.covers_cons, highMask, byte,
            show (224 : UInt8) &&& 240 = 224 from rfl]
  | none =>
      obtain ⟨a, b, bs, hbytes, hlen⟩ := bytes_cons_cons h
      simp [Ranges.has_v6 h, isMulticast, h, multicast, hbytes, IPNet.covers_cons, highMask, byte,
        hlen]

/-- The last four bits of a byte are 2: the scope of a multicast address. -/
theorem scope_iff (b : UInt8) : b &&& 15 = 2 ↔ ∃ flags < 16, b = 16 * UInt8.ofNat flags + 2 := by
  have hlow : b &&& 15 = 2 ↔ b.toNat % 16 = 2 := by
    rw [← UInt8.toNat_inj, UInt8.toNat_and]
    exact iff_of_eq (congrArg (· = 2) (Nat.and_two_pow_sub_one_eq_mod b.toNat 4))
  have hflags (flags : Nat) : b = 16 * UInt8.ofNat flags + 2 ↔
      b.toNat = (16 * flags + 2) % 256 := by
    rw [← UInt8.toNat_inj]
    simp
  have hb := b.toNat_lt
  simp only [hlow, hflags]
  constructor
  · intro h2
    exact ⟨b.toNat / 16, by omega, by omega⟩
  · rintro ⟨flags, hlt, h2⟩
    omega

theorem isLinkLocalMulticast_iff :
    isLinkLocalMulticast ip = true ↔ linkLocalMulticast.Has ip := by
  cases h : ip.to4 with
  | some ipv4 =>
      rw [Ranges.has_v4 h]
      match ipv4, IP.to4_length h with
      | [a, b, c, d], _ =>
          simp [isLinkLocalMulticast, h, linkLocalMulticast, IPNet.covers_cons, highMask, byte,
            and_assoc]
  | none =>
      obtain ⟨a, b, bs, hbytes, hlen⟩ := bytes_cons_cons h
      simp [Ranges.has_v6 h, isLinkLocalMulticast, h, linkLocalMulticast, hbytes,
        IPNet.covers_cons, highMask, byte, hlen, scope_iff]
      constructor
      · rintro ⟨ha, flags, hlt, hb⟩
        exact ⟨flags, hlt, ha, hb⟩
      · rintro ⟨flags, hlt, ha, hb⟩
        exact ⟨ha, flags, hlt, hb⟩

end Predicates

/-! ### The filter -/

/-- The ranges of the second line. -/
def reserved : Ranges :=
  ⟨loopback.v4 ++ privateUse.v4 ++ linkLocalUnicast.v4 ++ linkLocalMulticast.v4 ++ multicast.v4 ++
      unspecified.v4,
    loopback.v6 ++ privateUse.v6 ++ linkLocalUnicast.v6 ++ linkLocalMulticast.v6 ++ multicast.v6 ++
      unspecified.v6⟩

theorem isReserved_iff (ip : IP) : isReserved ip = true ↔ reserved.Has ip := by
  simp only [isReserved, Bool.or_eq_true, isLoopback_iff, isPrivate_iff, isLinkLocalUnicast_iff,
    isLinkLocalMulticast_iff, isMulticast_iff, isUnspecified_iff]
  cases h : ip.to4 with
  | some ipv4 => simp only [Ranges.has_v4 h, reserved, List.mem_append, or_and_right, exists_or]
  | none => simp only [Ranges.has_v6 h, reserved, List.mem_append, or_and_right, exists_or]

/-- Every range of the second line is a part of one of the tables. -/
theorem reserved_within : reserved.Within blockedNets := by
  constructor <;> decide

/-- The filter without its second line. -/
def firstLine (ip : IP) : Bool :=
  match ip.to4 with
  | some ipv4 => defaultBlockedIPv4CIDRs.any (·.contains ipv4)
  | none => defaultBlockedIPv6CIDRs.any (·.contains ip.bytes)

/-- The tables decide the documented set. -/
theorem firstLine_iff (ip : IP) : firstLine ip = true ↔ blockedNets.Has ip := by
  cases h : ip.to4 with
  | some ipv4 =>
      simp only [firstLine, h, Ranges.has_v4 h, blockedNets, List.any_eq_true, IPNet.contains_iff]
  | none =>
      simp only [firstLine, h, Ranges.has_v6 h, blockedNets, List.any_eq_true, IPNet.contains_iff]

theorem to4_of4 {bs : List UInt8} (h : bs.length = 4) : (IP.of4 bs h).to4 = some bs :=
  if_pos h

/-- The predicates read an address as what it unwraps to. -/
theorem isReserved_of4 {ip : IP} {ipv4 : List UInt8} (h : ip.to4 = some ipv4) :
    isReserved (IP.of4 ipv4 (IP.to4_length h)) = isReserved ip := by
  rw [Bool.eq_iff_iff, isReserved_iff, isReserved_iff, Ranges.has_v4 h, Ranges.has_v4 (to4_of4 _)]

theorem isIPBlocked_eq (ip : IP) : isIPBlocked (some ip) = (firstLine ip || isReserved ip) := by
  cases h : ip.to4 with
  | some ipv4 => rw [isIPBlocked_v4 h, isReserved_of4 h, firstLine, h]
  | none =>
      have hfirst : firstLine ip = defaultBlockedIPv6CIDRs.any (·.contains ip.bytes) := by
        rw [firstLine, h]
      rw [isIPBlocked, hfirst]
      split
      · rename_i hsome
        cases h.symm.trans hsome
      · rfl

/-- The second line does not change the answer. -/
theorem isIPBlocked_firstLine (ip : IP) : isIPBlocked (some ip) = firstLine ip := by
  rw [isIPBlocked_eq]
  cases hres : isReserved ip with
  | false => rw [Bool.or_false]
  | true =>
      have hfirst : firstLine ip = true :=
        (firstLine_iff ip).mpr (((isReserved_iff ip).mp hres).within reserved_within)
      rw [hfirst, Bool.or_true]

/-- The documented set, on the texts: some text of the table of the address's family parses to
a network that covers the address. -/
def Documented (ip : IP) : Prop :=
  match ip.to4 with
  | some ipv4 => ∃ cidr ∈ ipv4CIDRs, ∃ n, parseCIDR cidr = some n ∧ n.Covers ipv4
  | none => ∃ cidr ∈ ipv6CIDRs, ∃ n, parseCIDR cidr = some n ∧ n.Covers ip.bytes

theorem documented_iff (ip : IP) : Documented ip ↔ blockedNets.Has ip := by
  cases h : ip.to4 with
  | some ipv4 =>
      rw [Documented, h, Ranges.has_v4 h]
      exact exists_parsed init_blockedNets.1
  | none =>
      rw [Documented, h, Ranges.has_v6 h]
      exact exists_parsed init_blockedNets.2

/-- **The filter decides the documented set**: an address is blocked iff it lies in a network of
the tables, an IPv4-mapped address being the IPv4 address it carries; the predicates of the
second line never change the answer; the 4-byte and the mapped 16-byte form of an address get the
same answer; and the nil address is blocked. -/
theorem isIPBlocked_exact :
    (∀ ip, isIPBlocked (some ip) = true ↔ Documented ip) ∧
      (∀ ip, isIPBlocked (some ip) = firstLine ip) ∧
      (∀ bs (h4 : bs.length = 4) (h16 : (mappedPrefix ++ bs).length = 16),
        isIPBlocked (some (IP.of4 bs h4)) =
          isIPBlocked (some (IP.of16 (mappedPrefix ++ bs) h16))) ∧
      isIPBlocked none = true := by
  refine ⟨fun ip => ?_, isIPBlocked_firstLine, fun bs h4 h16 => ?_, rfl⟩
  · rw [isIPBlocked_firstLine, firstLine_iff, documented_iff]
  · have hto16 : (IP.of4 bs h4).to16 = mappedPrefix ++ bs := if_pos h4
    rw [← isIPBlocked_of16 (IP.of4 bs h4)]
    simp only [hto16]

theorem isIPBlocked_exact_metadata :
    Documented (IP.of4 [169, 254, 169, 254] rfl) ∧
      isIPBlocked (some (IP.of16 (mappedPrefix ++ [169, 254, 169, 254]) rfl)) = true :=
  ⟨(isIPBlocked_exact.1 _).mp (by decide),
    (isIPBlocked_exact.2.2.1 _ rfl rfl).symm.trans (by decide)⟩

end Sentinel.Checker
