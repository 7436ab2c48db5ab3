import MpvmApp.Lib.IpAddress

/-!
# IP networks

A network is an address whose host bits are cleared, with the length of its prefix.  Its text is
the address, a slash and the length; an IPv4 network may also be given with a netmask or a host
mask.

Main definitions:

- `IpNetwork`: a network; host bits that are set cannot be built.
- `ipNetwork`: the network of a text, whose host bits are cleared.

Main results:

- Theorem `ipNetwork_text`: a written network is read back.
-/

namespace MpvmApp
namespace Ip

open Numerals

/-! ## Host bits -/

/-- The bits of an address. -/
def IpAddress.width : IpAddress → Nat
  | .v4 _ => 32
  | .v6 _ _ => 128

/-- `_ip_int_from_prefix`. -/
def netmask (width prefixlen : Nat) : BitVec width :=
  BitVec.allOnes width ^^^ (BitVec.allOnes width >>> prefixlen)

/-- The network address; an address that changes loses its zone. -/
def IpAddress.clearHost (prefixlen : Nat) : IpAddress → IpAddress
  | .v4 ip => .v4 (ip &&& netmask 32 prefixlen)
  | .v6 ip zone =>
      if ip &&& netmask 128 prefixlen = ip then .v6 ip zone
      else .v6 (ip &&& netmask 128 prefixlen) none

theorem IpAddress.clearHost_v4 (ip : BitVec 32) (prefixlen : Nat) :
    (IpAddress.v4 ip).clearHost prefixlen = .v4 (ip &&& netmask 32 prefixlen) :=
  rfl

theorem IpAddress.clearHost_v6 (ip : BitVec 128) (zone : Option Zone) (prefixlen : Nat) :
    (IpAddress.v6 ip zone).clearHost prefixlen =
      if ip &&& netmask 128 prefixlen = ip then .v6 ip zone
      else .v6 (ip &&& netmask 128 prefixlen) none :=
  rfl

@[simp]
theorem IpAddress.width_clearHost (address : IpAddress) (prefixlen : Nat) :
    (address.clearHost prefixlen).width = address.width := by
  cases address with
  | v4 ip => rfl
  | v6 ip zone =>
      rw [IpAddress.clearHost_v6]
      split <;> rfl

/-- The host bits are cleared once. -/
theorem IpAddress.clearHost_clearHost (address : IpAddress) (prefixlen : Nat) :
    (address.clearHost prefixlen).clearHost prefixlen = address.clearHost prefixlen := by
  cases address with
  | v4 ip =>
      rw [IpAddress.clearHost_v4, IpAddress.clearHost_v4, BitVec.and_assoc, BitVec.and_self]
  | v6 ip zone =>
      by_cases hclear : ip &&& netmask 128 prefixlen = ip
      · have hsame : (IpAddress.v6 ip zone).clearHost prefixlen = .v6 ip zone := if_pos hclear
        rw [hsame, hsame]
      · have hchanged : (IpAddress.v6 ip zone).clearHost prefixlen =
            .v6 (ip &&& netmask 128 prefixlen) none := if_neg hclear
        rw [hchanged, IpAddress.clearHost_v6, if_pos]
        rw [BitVec.and_assoc, BitVec.and_self]

theorem IpAddress.le_width_clearHost {address : IpAddress} {prefixlen : Nat}
    (h : prefixlen ≤ address.width) :
    prefixlen ≤ (address.clearHost prefixlen).width := by
  rwa [IpAddress.width_clearHost]

/-! ## Networks -/

/-- `IPv4Network | IPv6Network`. -/
structure IpNetwork where
  address : IpAddress
  prefixlen : Nat
  prefixlen_le : prefixlen ≤ address.width
  host_bits : address.clearHost prefixlen = address
deriving DecidableEq

/-- The network of an address and the length of a prefix. -/
def IpAddress.network (address : IpAddress) (prefixlen : Nat) (h : prefixlen ≤ address.width) :
    IpNetwork where
  address := address.clearHost prefixlen
  prefixlen := prefixlen
  prefixlen_le := IpAddress.le_width_clearHost h
  host_bits := IpAddress.clearHost_clearHost address prefixlen

/-- `str(network)`. -/
def IpNetwork.text (network : IpNetwork) : List Char :=
  network.address.text ++ '/' :: Nat.toDigits 10 network.prefixlen

/-- `_prefix_from_prefix_string`. -/
def prefixFromPrefixString (width : Nat) (text : List Char) : Option Nat :=
  if text.isEmpty || !text.all Char.isDigit then none
  else if width < Nat.ofDigitChars 10 text 0 then none
  else some (Nat.ofDigitChars 10 text 0)

/-- `_count_righthand_zero_bits`. -/
def countRighthandZeroBits (number bits : Nat) : Nat :=
  ((List.range bits).find? fun i => number.testBit i).getD bits

/-- `_prefix_from_ip_int` of an IPv4 mask. -/
def prefixFromIpInt (mask : Nat) : Option Nat :=
  if mask >>> countRighthandZeroBits mask 32 = 2 ^ (32 - countRighthandZeroBits mask 32) - 1 then
    some (32 - countRighthandZeroBits mask 32)
  else none

/-- `_prefix_from_ip_string`: a netmask, or a host mask. -/
def prefixFromIpString (text : List Char) : Option Nat :=
  (ipv4FromText text).bind fun mask =>
    (prefixFromIpInt mask.toNat).or (prefixFromIpInt (mask ^^^ BitVec.allOnes 32).toNat)

/-- `_make_netmask`. -/
def IpAddress.prefixFromText (text : List Char) : IpAddress → Option Nat
  | .v4 _ => (prefixFromPrefixString 32 text).or (prefixFromIpString text)
  | .v6 _ _ => prefixFromPrefixString 128 text

/-- `IPv4Address(text)`. -/
def ipv4Address (text : List Char) : Option IpAddress :=
  (ipv4FromText text).map .v4

/-- The network of the parts between slashes, with `strict=False`. -/
def networkOfParts (read : List Char → Option IpAddress) (parts : List (List Char)) :
    Option IpNetwork :=
  match parts with
  | [address] =>
      (read address).map fun address => address.network address.width (Nat.le_refl _)
  | [address, mask] =>
      (read address).bind fun address =>
        (address.prefixFromText mask).bind fun prefixlen =>
          if h : prefixlen ≤ address.width then some (address.network prefixlen h) else none
  | _ => none

/-- `ip_network(text, strict=False)`. -/
def ipNetwork (text : List Char) : Option IpNetwork :=
  (networkOfParts ipv4Address (text.splitOn '/')).or
    (networkOfParts ipv6Address (text.splitOn '/'))

/-! ## Written networks -/

/-- The characters of a written address. -/
theorem IpAddress.mem_text {address : IpAddress} {c : Char} (h : c ∈ address.text) :
    isHexDigit c = true ∨ c = ':' ∨ c = '.' ∨ c = '%' ∨
      ∃ zone, address.zone = some zone ∧ c ∈ zone.text := by
  cases address with
  | v4 ip =>
      rcases mem_ipv4Text h with hdigit | hpoint
      · exact .inl (isHexDigit_of_isDigit hdigit)
      · exact .inr (.inr (.inl hpoint))
  | v6 ip zone =>
      have hplain : c ∈ ipv6Text ip → isHexDigit c = true ∨ c = ':' ∨ c = '.' := mem_ipv6Text
      cases zone with
      | none => exact (hplain h).imp id (Or.imp id .inl)
      | some zone =>
          rcases List.mem_append.1 h with hfront | hback
          · exact (hplain hfront).imp id (Or.imp id .inl)
          · rcases List.mem_cons.1 hback with heq | hmem
            · exact .inr (.inr (.inr (.inl heq)))
            · exact .inr (.inr (.inr (.inr ⟨zone, rfl, hmem⟩)))

theorem IpAddress.slash_not_mem_text (address : IpAddress) :
    '/' ∉ address.text := by
  intro hmem
  rcases IpAddress.mem_text hmem with hdigit | heq | heq | heq | ⟨zone, _, hzone⟩
  · exact absurd hdigit (by decide)
  · exact absurd heq (by decide)
  · exact absurd heq (by decide)
  · exact absurd heq (by decide)
  · exact zone.no_slash hzone

theorem splitOn_text (network : IpNetwork) :
    network.text.splitOn '/' = [network.address.text, Nat.toDigits 10 network.prefixlen] := by
  have hdigits : '/' ∉ Nat.toDigits 10 network.prefixlen := by
    intro hmem
    exact absurd (isDigit_of_mem_decimal hmem) (by decide)
  unfold IpNetwork.text
  rw [List.splitOn_append_cons_self_of_not_mem network.address.slash_not_mem_text,
    List.splitOn_eq_singleton hdigits]

/-- A written prefix length is read back. -/
theorem prefixFromPrefixString_toDigits {width n : Nat} (h : n ≤ width) :
    prefixFromPrefixString width (Nat.toDigits 10 n) = some n := by
  have hvalue : Nat.ofDigitChars 10 (Nat.toDigits 10 n) 0 = n := Nat.ofDigitChars_ten_toDigits
  have hempty : (Nat.toDigits 10 n).isEmpty = false := by
    rw [List.isEmpty_eq_false_iff]
    exact Nat.toDigits_ne_nil
  have hdigits : (Nat.toDigits 10 n).all Char.isDigit = true :=
    List.all_eq_true.2 fun c hc => isDigit_of_mem_decimal hc
  have hsmall : ¬ width < n := by omega
  unfold prefixFromPrefixString
  simp only [hvalue, hempty, hdigits, hsmall, Bool.not_true, Bool.or_self, Bool.false_eq_true,
    if_false]

theorem prefixFromText_toDigits {address : IpAddress} {n : Nat} (h : n ≤ address.width) :
    address.prefixFromText (Nat.toDigits 10 n) = some n := by
  cases address with
  | v4 ip => simp [IpAddress.prefixFromText, @prefixFromPrefixString_toDigits 32 n h]
  | v6 ip zone => exact prefixFromPrefixString_toDigits h

/-- A network is the network of its address. -/
theorem network_address (network : IpNetwork) :
    network.address.network network.prefixlen network.prefixlen_le = network := by
  obtain ⟨address, prefixlen, hle, hbits⟩ := network
  unfold IpAddress.network
  dsimp only
  congr 1

/-- The parts of a written network are read back. -/
theorem networkOfParts_text {read : List Char → Option IpAddress} (network : IpNetwork)
    (h : read network.address.text = some network.address) :
    networkOfParts read [network.address.text, Nat.toDigits 10 network.prefixlen] =
      some network := by
  unfold networkOfParts
  dsimp only
  rw [h, Option.bind_some, prefixFromText_toDigits network.prefixlen_le, Option.bind_some,
    dif_pos network.prefixlen_le, network_address]

/-- A written network is read back. -/
theorem ipNetwork_text (network : IpNetwork) :
    ipNetwork network.text = some network := by
  have haddress := ipAddress_text network.address
  unfold ipNetwork
  rw [splitOn_text]
  unfold ipAddress at haddress
  cases hread : ipv4Address network.address.text with
  | some address =>
      unfold ipv4Address at hread
      rw [hread, Option.some_or] at haddress
      have hfirst : ipv4Address network.address.text = some network.address := by
        unfold ipv4Address
        rw [hread, haddress]
      rw [networkOfParts_text network hfirst, Option.some_or]
  | none =>
      have hnone : networkOfParts ipv4Address
          [network.address.text, Nat.toDigits 10 network.prefixlen] = none := by
        unfold networkOfParts
        dsimp only
        rw [hread, Option.bind_none]
      unfold ipv4Address at hread
      rw [hread, Option.none_or] at haddress
      rw [hnone, Option.none_or, networkOfParts_text network haddress]

/-! ## Zones of what is read -/

/-- The zone of an address is the end of its text. -/
theorem zone_of_ipv6Address {text : List Char} {address : IpAddress}
    (h : ipv6Address text = some address) {zone : Zone} (hzone : address.zone = some zone) :
    ∃ front, text = front ++ '%' :: zone.text := by
  unfold ipv6Address at h
  split at h
  · cases h
  · split at h
    · obtain ⟨ip, _, rfl⟩ := Option.map_eq_some_iff.1 h
      cases hzone
    · rename_i mark rest hdrop
      obtain ⟨read, hread, haddress⟩ := Option.bind_eq_some_iff.1 h
      obtain ⟨ip, _, rfl⟩ := Option.map_eq_some_iff.1 haddress
      obtain rfl : read = zone := Option.some.inj hzone
      have hmark : mark = '%' := by
        have hhead := List.head?_dropWhile_not (fun c => !decide (c = '%')) text
        rw [hdrop, List.head?_cons] at hhead
        simpa using hhead
      refine ⟨text.takeWhile fun c => !decide (c = '%'), ?_⟩
      subst hmark
      rw [text_of_zoneOf hread, ← hdrop, List.takeWhile_append_dropWhile]

theorem zone_of_ipAddress {text : List Char} {address : IpAddress}
    (h : ipAddress text = some address) {zone : Zone} (hzone : address.zone = some zone) :
    ∃ front, text = front ++ '%' :: zone.text := by
  unfold ipAddress at h
  rcases Option.or_eq_some_iff.1 h with hv4 | ⟨_, hv6⟩
  · obtain ⟨ip, _, rfl⟩ := Option.map_eq_some_iff.1 hv4
    cases hzone
  · exact zone_of_ipv6Address hv6 hzone

end Ip
end MpvmApp
