import Mathlib.Data.List.Basic
import Mathlib.Data.List.Nodup
import Mathlib.Data.List.DropRight
import MpvmApp.Lib.Numerals

/-!
# Texts of IP addresses and networks

Addresses are bit vectors.  A text is read as an IPv4 address (four decimal numbers) or as an IPv6
address (eight hexadecimal numbers, where `::` stands for a run of zeros, the last two may
be an IPv4 address, and a zone may follow).  An address is written in one way: the first longest
run of zeros is compressed.

Main definitions:

- `ipv4FromText`, `ipv4Text`: IPv4 addresses.
- `ipv6FromText`, `ipv6Text`: IPv6 addresses.
- `ipAddress`, `IpAddress.text`: addresses of either version.
- `ipNetwork`, `IpNetwork.text`: networks with the host bits cleared.

Main results:

- Theorem `ipv4FromText_ipv4Text`, `ipv6FromText_ipv6Text`: a written address is read
  back.
- Theorem `ipAddress_text`, `ipNetwork_text`: the same for both versions and for
  networks.
-/

namespace MpvmApp
namespace Ip

open Numerals

/-! ## Texts with separators -/

/-- Parts that are read one by one. -/
theorem mapM_map_eq_some {α β : Type} {f : β → Option α} {g : α → β} {l : List α}
    (h : ∀ a ∈ l, f (g a) = some a) :
    (l.map g).mapM f = some l := by
  induction l with
  | nil => rfl
  | cons a l ih =>
      have hrest := ih fun b hb => h b (List.mem_cons_of_mem _ hb)
      rw [List.map_cons, List.mapM_cons, h a List.mem_cons_self, hrest]
      rfl

/-- The characters of joined parts. -/
theorem mem_intercalate {c : Char} {sep : List Char} {parts : List (List Char)}
    (h : c ∈ sep.intercalate parts) :
    c ∈ sep ∨ ∃ part ∈ parts, c ∈ part := by
  induction parts with
  | nil => cases h
  | cons part parts ih =>
      cases parts with
      | nil => exact .inr ⟨part, List.mem_singleton.2 rfl, by simpa using h⟩
      | cons next rest =>
          rw [List.intercalate_cons_cons, List.mem_append, List.mem_append] at h
          rcases h with (hpart | hsep) | hrest
          · exact .inr ⟨part, List.mem_cons_self, hpart⟩
          · exact .inl hsep
          · rcases ih hrest with hsep | ⟨other, hother, hmem⟩
            · exact .inl hsep
            · exact .inr ⟨other, List.mem_cons_of_mem _ hother, hmem⟩

/-- A character of a part is a character of the joined parts. -/
theorem mem_intercalate_of_mem {c : Char} {sep : List Char} {parts : List (List Char)}
    {part : List Char} (hpart : part ∈ parts) (hc : c ∈ part) :
    c ∈ sep.intercalate parts := by
  induction parts with
  | nil => cases hpart
  | cons first parts ih =>
      cases parts with
      | nil =>
          rw [List.mem_singleton.1 hpart] at hc
          simpa using hc
      | cons next rest =>
          rw [List.intercalate_cons_cons]
          rcases List.mem_cons.1 hpart with rfl | hmem
          · exact List.mem_append_left _ (List.mem_append_left _ hc)
          · exact List.mem_append_right _ (ih hmem)

/-- The characters of a text are those of its parts and the separators. -/
theorem mem_parts_of_mem {c sep : Char} {text : List Char} (h : c ∈ text) (hsep : c ≠ sep) :
    ∃ part ∈ text.splitOn sep, c ∈ part := by
  rw [← @List.intercalate_splitOn _ text _ _ sep] at h
  exact (mem_intercalate h).resolve_left fun hmem => hsep (List.mem_singleton.1 hmem)

/-! ## IPv4 addresses -/

/-- `_parse_octet`. -/
def parseOctet (text : List Char) : Option Nat :=
  if text.isEmpty then none
  else if !text.all Char.isDigit then none
  else if 3 < text.length then none
  else if text ≠ ['0'] ∧ text.head? = some '0' then none
  else if 255 < Nat.ofDigitChars 10 text 0 then none
  else some (Nat.ofDigitChars 10 text 0)

/-- `IPv4Address(text)`. -/
def ipv4FromText (text : List Char) : Option (BitVec 32) :=
  if (text.splitOn '.').length = 4 then
    ((text.splitOn '.').mapM parseOctet).map fun octets => BitVec.ofNat 32 (ofDigits 256 octets)
  else none

/-- `str(IPv4Address)`. -/
def ipv4Text (ip : BitVec 32) : List Char :=
  ['.'].intercalate ((digits 256 4 ip.toNat).map (Nat.toDigits 10))

theorem isDigit_of_mem_decimal {n : Nat} {c : Char} (h : c ∈ Nat.toDigits 10 n) :
    c.isDigit = true :=
  Nat.isDigit_of_mem_toDigits (by decide) (by decide) h

/-- A number starts with zero only when it is zero. -/
theorem head?_toDigits_ne_zero {n : Nat} (h : n ≠ 0) :
    (Nat.toDigits 10 n).head? ≠ some '0' := by
  induction n using Nat.strongRecOn with
  | ind n ih =>
      by_cases hsmall : n < 10
      · rw [Nat.toDigits_of_lt_base hsmall, List.head?_cons]
        have hall : ∀ d : Fin 10, d.val ≠ 0 → some (Nat.digitChar d) ≠ some '0' := by decide
        exact hall ⟨n, hsmall⟩ h
      · rw [toDigits_of_not_lt (by decide) hsmall, List.head?_append]
        have hfront := ih (n / 10) (Nat.div_lt_self (by omega) (by decide)) (by omega)
        cases hhead : (Nat.toDigits 10 (n / 10)).head? with
        | none => exact absurd (List.head?_eq_none_iff.1 hhead) Nat.toDigits_ne_nil
        | some c =>
            rw [hhead] at hfront
            simpa using hfront

/-- A written octet is read back. -/
theorem parseOctet_toDigits {n : Nat} (h : n < 256) :
    parseOctet (Nat.toDigits 10 n) = some n := by
  have hvalue : Nat.ofDigitChars 10 (Nat.toDigits 10 n) 0 = n := Nat.ofDigitChars_ten_toDigits
  have hempty : (Nat.toDigits 10 n).isEmpty = false := by
    rw [List.isEmpty_eq_false_iff]
    exact Nat.toDigits_ne_nil
  have hdigits : (Nat.toDigits 10 n).all Char.isDigit = true :=
    List.all_eq_true.2 fun c hc => isDigit_of_mem_decimal hc
  have hlength : ¬ 3 < (Nat.toDigits 10 n).length := by
    have hle := (@Nat.length_toDigits_le_iff 10 n 3 (by decide)
      (by decide)).2 (by omega)
    omega
  have hhead : ¬ (Nat.toDigits 10 n ≠ ['0'] ∧ (Nat.toDigits 10 n).head? = some '0') := by
    rintro ⟨hne, hzero⟩
    by_cases hn : n = 0
    · exact hne (by rw [hn, Nat.toDigits_zero])
    · exact head?_toDigits_ne_zero hn hzero
  unfold parseOctet
  have hsmall : ¬ 255 < n := by omega
  simp only [hempty, hdigits, hvalue, hlength, hhead, hsmall, Bool.not_true, Bool.false_eq_true,
    if_false]

theorem splitOn_ipv4Text (ip : BitVec 32) :
    (ipv4Text ip).splitOn '.' = (digits 256 4 ip.toNat).map (Nat.toDigits 10) := by
  apply List.splitOn_intercalate
  · intro part hpart hdot
    obtain ⟨n, _, rfl⟩ := List.mem_map.1 hpart
    exact absurd (isDigit_of_mem_decimal hdot) (by decide)
  · intro hnil
    have hlength := congrArg List.length hnil
    simp at hlength

/-- A written IPv4 address is read back. -/
theorem ipv4FromText_ipv4Text (ip : BitVec 32) :
    ipv4FromText (ipv4Text ip) = some ip := by
  have hoctets : ∀ n ∈ digits 256 4 ip.toNat, parseOctet (Nat.toDigits 10 n) = some n :=
    fun n hn => parseOctet_toDigits (lt_of_mem_digits (by decide) hn)
  have hvalue : BitVec.ofNat 32 (ofDigits 256 (digits 256 4 ip.toNat)) = ip := by
    rw [ofDigits_digits, show 256 ^ 4 = 2 ^ 32 from rfl, Nat.mod_eq_of_lt ip.isLt,
      BitVec.ofNat_toNat, BitVec.setWidth_eq]
  unfold ipv4FromText
  rw [splitOn_ipv4Text, if_pos (by simp), mapM_map_eq_some hoctets, Option.map_some, hvalue]

/-- The characters of an octet. -/
theorem isDigit_of_parseOctet {text : List Char} {n : Nat} (h : parseOctet text = some n) {c : Char}
    (hc : c ∈ text) :
    c.isDigit = true := by
  unfold parseOctet at h
  split at h
  · cases h
  · split at h
    · cases h
    · rename_i hdigits
      rw [Bool.not_eq_true', Bool.not_eq_false] at hdigits
      exact List.all_eq_true.1 hdigits c hc

/-- Parts that are read are read one by one. -/
theorem exists_of_mapM_eq_some {α β : Type} {f : β → Option α} {parts : List β} {values : List α}
    (h : parts.mapM f = some values) {part : β} (hpart : part ∈ parts) :
    ∃ value, f part = some value := by
  induction parts generalizing values with
  | nil => cases hpart
  | cons first parts ih =>
      rw [List.mapM_cons] at h
      cases hfirst : f first with
      | none =>
          rw [hfirst] at h
          cases h
      | some value =>
          cases hrest : parts.mapM f with
          | none =>
              rw [hfirst, hrest] at h
              cases h
          | some rest =>
              rcases List.mem_cons.1 hpart with rfl | hmem
              · exact ⟨value, hfirst⟩
              · exact ih hrest hmem

/-- The characters of an IPv4 address. -/
theorem mem_of_ipv4FromText {text : List Char} {ip : BitVec 32} (h : ipv4FromText text = some ip)
    {c : Char} (hc : c ∈ text) :
    c.isDigit = true ∨ c = '.' := by
  unfold ipv4FromText at h
  split at h
  · by_cases hdot : c = '.'
    · exact .inr hdot
    · obtain ⟨part, hpart, hmem⟩ := mem_parts_of_mem hc hdot
      obtain ⟨octets, hoctets, _⟩ := Option.map_eq_some_iff.1 h
      obtain ⟨n, hn⟩ := exists_of_mapM_eq_some hoctets hpart
      exact .inl (isDigit_of_parseOctet hn hmem)
  · cases h

theorem mem_ipv4Text {ip : BitVec 32} {c : Char} (h : c ∈ ipv4Text ip) :
    c.isDigit = true ∨ c = '.' :=
  mem_of_ipv4FromText (ipv4FromText_ipv4Text ip) h

/-! ## IPv6 addresses -/

/-- `_parse_hextet`; an empty text is no number. -/
def parseHextet (text : List Char) : Option Nat :=
  if text.all isHexDigit && decide (text.length ≤ 4) && !text.isEmpty then some (ofHex text)
  else none

/-- An IPv4 address at the end becomes two hextets. -/
def expandSuffix (parts : List (List Char)) : Option (List (List Char)) :=
  match parts.getLast? with
  | none => some parts
  | some last =>
      if '.' ∈ last then
        (ipv4FromText last).map fun ip =>
          parts.dropLast ++
            [Nat.toDigits 16 (ip.toNat / 65536 % 65536), Nat.toDigits 16 (ip.toNat % 65536)]
      else some parts

/-- The empty parts between the first and the last one. -/
def skips (parts : List (List Char)) : List Nat :=
  (List.range parts.length).filter fun i =>
    decide (0 < i) && decide (i + 1 < parts.length) && decide (parts[i]? = some [])

/-- The hextets around a gap at the position `skip`. -/
def hextetsAround (parts : List (List Char)) (skip : Nat) : Option (List Nat) :=
  let leading := decide (parts.head? = some [])
  let trailing := decide (parts.getLast? = some [])
  let high := if leading then skip - 1 else skip
  let low := if trailing then parts.length - skip - 1 - 1 else parts.length - skip - 1
  if leading && decide (high ≠ 0) then none
  else if trailing && decide (low ≠ 0) then none
  else if 8 < high + low + 1 then none
  else
    match (parts.take high).mapM parseHextet,
        (parts.drop (parts.length - low)).mapM parseHextet with
    | some front, some back => some (front ++ List.replicate (8 - (high + low)) 0 ++ back)
    | _, _ => none

/-- The hextets of the parts between the colons. -/
def hextetsOfParts (parts : List (List Char)) : Option (List Nat) :=
  if 9 < parts.length then none
  else
    match skips parts with
    | [] => if parts.length = 8 then parts.mapM parseHextet else none
    | [skip] => hextetsAround parts skip
    | _ :: _ :: _ => none

/-- The number of an IPv6 address without a zone. -/
def ipv6FromText (text : List Char) : Option (BitVec 128) :=
  if (text.splitOn ':').length < 3 then none
  else
    ((expandSuffix (text.splitOn ':')).bind hextetsOfParts).map fun hextets =>
      BitVec.ofNat 128 (ofDigits 65536 hextets)

/-- The runs of zeros that `_compress_hextets` has found. -/
structure Runs where
  bestStart : Nat := 0
  bestLen : Nat := 0
  start : Option Nat := none
  len : Nat := 0

/-- One hextet of `_compress_hextets`. -/
def Runs.step (runs : Runs) (index : Nat) (hextet : List Char) : Runs :=
  if hextet = ['0'] then
    let start := runs.start.getD index
    let len := runs.len + 1
    if runs.bestLen < len then
      { bestStart := start, bestLen := len, start := some start, len := len }
    else { runs with start := some start, len := len }
  else { runs with start := none, len := 0 }

/-- The loop of `_compress_hextets`. -/
def Runs.loop : Runs → Nat → List (List Char) → Runs
  | runs, _, [] => runs
  | runs, index, hextet :: rest => (runs.step index hextet).loop (index + 1) rest

/-- `_compress_hextets`. -/
def compressHextets (hextets : List (List Char)) : List (List Char) :=
  let runs := Runs.loop {} 0 hextets
  if 1 < runs.bestLen then
    let stop := runs.bestStart + runs.bestLen
    (if runs.bestStart = 0 then [[]] else []) ++ hextets.take runs.bestStart ++ [[]] ++
      hextets.drop stop ++ (if stop = hextets.length then [[]] else [])
  else hextets

/-- `_string_from_ip_int`. -/
def stringFromIpInt (n : Nat) : List Char :=
  [':'].intercalate (compressHextets ((digits 65536 8 n).map (Nat.toDigits 16)))

/-- The text of an IPv6 address without its zone; a mapped IPv4 address is written as one. -/
def ipv6Text (ip : BitVec 128) : List Char :=
  if ip.toNat / 2 ^ 32 = 65535 then
    stringFromIpInt 65535 ++ ':' :: ipv4Text (BitVec.ofNat 32 ip.toNat)
  else stringFromIpInt ip.toNat

/-- A written hextet is read back. -/
theorem parseHextet_toDigits {n : Nat} (h : n < 65536) :
    parseHextet (Nat.toDigits 16 n) = some n := by
  have hdigits : (Nat.toDigits 16 n).all isHexDigit = true :=
    List.all_eq_true.2 fun c hc => isHexDigit_of_mem_toDigits hc
  have hlength : (Nat.toDigits 16 n).length ≤ 4 :=
    (@Nat.length_toDigits_le_iff 16 n 4 (by decide) (by decide)).2 h
  have hempty : (Nat.toDigits 16 n).isEmpty = false := by
    rw [List.isEmpty_eq_false_iff]
    exact Nat.toDigits_ne_nil
  simp [parseHextet, hdigits, hlength, hempty, ofHex_toDigits]

/-- A gap is found where it is. -/
theorem skips_gap {front back : List (List Char)} (hfront : front ≠ []) (hback : back ≠ [])
    (hleft : ∀ part ∈ front.tail, part ≠ []) (hright : ∀ part ∈ back.dropLast, part ≠ []) :
    skips (front ++ [] :: back) = [front.length] := by
  have hpos : 0 < front.length := List.length_pos_iff.2 hfront
  have hpos' : 0 < back.length := List.length_pos_iff.2 hback
  have hsame : skips (front ++ [] :: back) =
      (List.range (front ++ [] :: back).length).filter fun i => i == front.length := by
    unfold skips
    apply List.filter_congr
    intro i hi
    rw [List.mem_range] at hi
    rw [Bool.eq_iff_iff]
    simp only [Bool.and_eq_true, decide_eq_true_eq, beq_iff_eq]
    simp only [List.length_append, List.length_cons] at hi ⊢
    constructor
    · rintro ⟨⟨hzero, hlast⟩, hgap⟩
      rcases Nat.lt_trichotomy i front.length with hlt | heq | hgt
      · rw [List.getElem?_append_left hlt] at hgap
        have hmem : ([] : List Char) ∈ front.tail := by
          rw [List.mem_iff_getElem?]
          refine ⟨i - 1, ?_⟩
          rw [List.getElem?_tail, Nat.sub_add_cancel hzero]
          exact hgap
        exact absurd rfl (hleft [] hmem)
      · exact heq
      · rw [List.getElem?_append_right (Nat.le_of_lt hgt)] at hgap
        obtain ⟨k, hk⟩ : ∃ k, i - front.length = k + 1 := ⟨i - front.length - 1, by omega⟩
        rw [hk, List.getElem?_cons_succ] at hgap
        have hmem : ([] : List Char) ∈ back.dropLast := by
          rw [List.mem_iff_getElem?]
          refine ⟨k, ?_⟩
          rw [List.getElem?_dropLast, if_pos (by omega)]
          exact hgap
        exact absurd rfl (hright [] hmem)
    · rintro rfl
      refine ⟨⟨hpos, by omega⟩, ?_⟩
      rw [List.getElem?_append_right (Nat.le_refl _), Nat.sub_self, List.getElem?_cons_zero]
  have hcount : (List.range (front ++ [] :: back).length).count front.length = 1 :=
    List.count_eq_one_of_mem List.nodup_range (List.mem_range.2 (by simp))
  rw [hsame, List.filter_beq, hcount]
  rfl

/-- Parts that are not empty have no gap. -/
theorem skips_eq_nil {parts : List (List Char)} (h : ∀ part ∈ parts, part ≠ []) :
    skips parts = [] := by
  unfold skips
  rw [List.filter_eq_nil_iff]
  intro i _ hi
  simp only [Bool.and_eq_true, decide_eq_true_eq] at hi
  exact h [] (List.mem_of_getElem? hi.2) rfl

/-- An end of an address; nothing is an empty part. -/
def paddedEnd (hextets : List Nat) : List (List Char) :=
  if hextets = [] then [[]] else hextets.map (Nat.toDigits 16)

theorem mem_map_toDigits_ne_nil {hextets : List Nat} {part : List Char}
    (h : part ∈ hextets.map (Nat.toDigits 16)) :
    part ≠ [] := by
  obtain ⟨n, _, rfl⟩ := List.mem_map.1 h
  exact Nat.toDigits_ne_nil

theorem paddedEnd_ne_nil (hextets : List Nat) :
    paddedEnd hextets ≠ [] := by
  unfold paddedEnd
  split
  · simp
  · rename_i hne
    intro hnil
    exact hne (List.map_eq_nil_iff.1 hnil)

theorem length_paddedEnd (hextets : List Nat) :
    (paddedEnd hextets).length = max 1 hextets.length := by
  unfold paddedEnd
  split
  · rename_i hnil
    rw [hnil]
    rfl
  · rename_i hne
    have hpos := List.length_pos_iff.2 hne
    rw [List.length_map]
    omega

/-- The hextets around a gap are read back. -/
theorem hextetsOfParts_gap {front back : List Nat} (hfront : ∀ n ∈ front, n < 65536)
    (hback : ∀ n ∈ back, n < 65536) (hlength : front.length + back.length ≤ 7) :
    hextetsOfParts (paddedEnd front ++ [] :: paddedEnd back) =
      some (front ++ List.replicate (8 - (front.length + back.length)) 0 ++ back) := by
  have hskips : skips (paddedEnd front ++ [] :: paddedEnd back) = [(paddedEnd front).length] := by
    apply skips_gap (paddedEnd_ne_nil front) (paddedEnd_ne_nil back)
    · intro part hpart
      unfold paddedEnd at hpart
      split at hpart
      · cases hpart
      · exact mem_map_toDigits_ne_nil (List.mem_of_mem_tail hpart)
    · intro part hpart
      unfold paddedEnd at hpart
      split at hpart
      · cases hpart
      · exact mem_map_toDigits_ne_nil (List.dropLast_subset _ hpart)
  have hlen : (paddedEnd front ++ [] :: paddedEnd back).length =
      max 1 front.length + (max 1 back.length + 1) := by
    rw [List.length_append, List.length_cons, length_paddedEnd, length_paddedEnd]
  have hmapFront := mapM_map_eq_some fun n hn => parseHextet_toDigits (hfront n hn)
  have hmapBack := mapM_map_eq_some fun n hn => parseHextet_toDigits (hback n hn)
  have hhead : decide ((paddedEnd front ++ [] :: paddedEnd back).head? = some []) =
      decide (front = []) := by
    cases front with
    | nil => rfl
    | cons n front =>
        simp [paddedEnd, Nat.toDigits_ne_nil]
  have hlast : decide ((paddedEnd front ++ [] :: paddedEnd back).getLast? = some []) =
      decide (back = []) := by
    have hend : (paddedEnd front ++ [] :: paddedEnd back).getLast? = (paddedEnd back).getLast? := by
      rw [List.getLast?_append, List.getLast?_cons_of_ne_nil (paddedEnd_ne_nil back)]
      cases hback : (paddedEnd back).getLast? with
      | none => exact absurd (List.getLast?_eq_none_iff.1 hback) (paddedEnd_ne_nil back)
      | some part => rfl
    rw [hend]
    rcases List.eq_nil_or_concat back with rfl | ⟨back, n, rfl⟩
    · rfl
    · simp [paddedEnd, Nat.toDigits_ne_nil]
  have hhigh : (if decide (front = []) = true then max 1 front.length - 1
      else max 1 front.length) = front.length := by
    cases front with
    | nil => rfl
    | cons n front => simp
  have hlow : (if decide (back = []) = true then
        max 1 front.length + (max 1 back.length + 1) - max 1 front.length - 1 - 1
      else max 1 front.length + (max 1 back.length + 1) - max 1 front.length - 1) =
      back.length := by
    cases back with
    | nil =>
        rw [if_pos (decide_eq_true rfl), List.length_nil]
        omega
    | cons n back =>
        rw [if_neg (by simp), List.length_cons]
        omega
  have hleading : (decide (front = []) && decide (front.length ≠ 0)) = false := by
    cases front <;> simp
  have htrailing : (decide (back = []) && decide (back.length ≠ 0)) = false := by
    cases back <;> simp
  have htake : (paddedEnd front ++ [] :: paddedEnd back).take front.length =
      front.map (Nat.toDigits 16) := by
    cases front with
    | nil => rfl
    | cons n front =>
        have hpadded : paddedEnd (n :: front) = (n :: front).map (Nat.toDigits 16) := by
          simp [paddedEnd]
        rw [hpadded, List.take_left']
        rw [List.length_map]
  have hdrop : (paddedEnd front ++ [] :: paddedEnd back).drop
      (max 1 front.length + (max 1 back.length + 1) - back.length) =
      back.map (Nat.toDigits 16) := by
    cases back with
    | nil =>
        rw [List.map_nil]
        apply List.drop_eq_nil_of_le
        rw [hlen, List.length_nil]
        omega
    | cons n back =>
        have hpadded : paddedEnd (n :: back) = (n :: back).map (Nat.toDigits 16) := by
          simp [paddedEnd]
        have hfit : max 1 front.length + (max 1 (n :: back).length + 1) - (n :: back).length =
            (paddedEnd front).length + 1 := by
          rw [length_paddedEnd, List.length_cons]
          omega
        rw [hfit, ← List.drop_drop, List.drop_left, List.drop_one, List.tail_cons, hpadded]
  have hskip : max 1 front.length = (paddedEnd front).length := (length_paddedEnd front).symm
  unfold hextetsOfParts
  rw [hskips, if_neg (by rw [hlen]; omega)]
  show hextetsAround (paddedEnd front ++ [] :: paddedEnd back) (paddedEnd front).length = _
  unfold hextetsAround
  rw [← hskip]
  simp only [hhead, hlast, hlen, hhigh, hlow, hleading, htrailing, htake, hdrop, hmapFront,
    hmapBack, Bool.false_eq_true, if_false]
  rw [if_neg (by omega)]

/-- The runs that are found are runs of zeros before the position. -/
structure RunsOf (hextets : List (List Char)) (index : Nat) (runs : Runs) : Prop where
  current : runs.start = none ∧ runs.len = 0 ∨
    ∃ start, runs.start = some start ∧ start + runs.len = index ∧
      ∀ j, start ≤ j → j < index → hextets[j]? = some ['0']
  fits : runs.bestStart + runs.bestLen ≤ index
  best : ∀ j, runs.bestStart ≤ j → j < runs.bestStart + runs.bestLen →
    hextets[j]? = some ['0']

theorem RunsOf.step {hextets : List (List Char)} {index : Nat} {runs : Runs}
    (h : RunsOf hextets index runs) {hextet : List Char} (hget : hextets[index]? = some hextet) :
    RunsOf hextets (index + 1) (runs.step index hextet) := by
  unfold Runs.step
  split
  · rename_i hzero
    -- the current run goes on, or starts at this position
    have hcurrent : runs.start.getD index + (runs.len + 1) = index + 1 ∧
        ∀ j, runs.start.getD index ≤ j → j < index + 1 → hextets[j]? = some ['0'] := by
      rcases h.current with ⟨hstart, hlen⟩ | ⟨start, hstart, hlen, hrun⟩
      · rw [hstart, hlen, Option.getD_none]
        refine ⟨by omega, ?_⟩
        intro j hle hlt
        have hj : j = index := by omega
        rw [hj, hget, hzero]
      · rw [hstart, Option.getD_some]
        refine ⟨by omega, ?_⟩
        intro j hle hlt
        by_cases hj : j = index
        · rw [hj, hget, hzero]
        · exact hrun j hle (by omega)
    dsimp only
    split
    · refine ⟨.inr ⟨_, rfl, hcurrent.1, hcurrent.2⟩, Nat.le_of_eq hcurrent.1, ?_⟩
      intro j hle hlt
      exact hcurrent.2 j hle (hcurrent.1 ▸ hlt)
    · exact ⟨.inr ⟨_, rfl, hcurrent.1, hcurrent.2⟩, Nat.le_succ_of_le h.fits, h.best⟩
  · exact ⟨.inl ⟨rfl, rfl⟩, Nat.le_succ_of_le h.fits, h.best⟩

theorem RunsOf.loop {hextets rest : List (List Char)} {index : Nat} {runs : Runs}
    (h : RunsOf hextets index runs) (hrest : hextets.drop index = rest) :
    RunsOf hextets (index + rest.length) (runs.loop index rest) := by
  induction rest generalizing index runs with
  | nil => exact h
  | cons hextet rest ih =>
      have hget : hextets[index]? = some hextet := by
        rw [← List.head?_drop, hrest]
        rfl
      have hnext : hextets.drop (index + 1) = rest := by
        rw [← List.tail_drop, hrest]
        rfl
      have hloop := ih (h.step hget) hnext
      rw [Nat.add_right_comm] at hloop
      exact hloop

/-- The compressed run is a run of zeros. -/
theorem runsOf_loop (hextets : List (List Char)) :
    RunsOf hextets hextets.length (Runs.loop {} 0 hextets) := by
  have hstart : RunsOf hextets 0 {} := by
    refine ⟨.inl ⟨rfl, rfl⟩, Nat.le_refl 0, ?_⟩
    intro j _ hlt
    exact absurd hlt (Nat.not_lt_zero j)
  have hloop := hstart.loop (List.drop_zero)
  rw [Nat.zero_add] at hloop
  exact hloop

/-- A run of zeros of hextets. -/
theorem eq_append_replicate {hextets : List Nat} {start len : Nat}
    (hfit : start + len ≤ hextets.length)
    (h : ∀ j, start ≤ j → j < start + len →
      (hextets.map (Nat.toDigits 16))[j]? = some ['0']) :
    hextets = hextets.take start ++ List.replicate len 0 ++ hextets.drop (start + len) := by
  have hmiddle : (hextets.drop start).take len = List.replicate len 0 := by
    rw [List.eq_replicate_iff]
    refine ⟨by rw [List.length_take, List.length_drop]; omega, ?_⟩
    intro n hn
    obtain ⟨k, hk⟩ := List.mem_iff_getElem?.1 hn
    have hlt : k < len := by
      by_contra hge
      rw [List.getElem?_take, if_neg hge] at hk
      cases hk
    rw [List.getElem?_take, if_pos hlt, List.getElem?_drop] at hk
    have htext := h (start + k) (Nat.le_add_right _ _) (by omega)
    rw [List.getElem?_map, hk, Option.map_some, Option.some.injEq] at htext
    rw [← ofHex_toDigits n, htext]
    rfl
  calc hextets = hextets.take start ++ hextets.drop start := (List.take_append_drop _ _).symm
    _ = hextets.take start ++ ((hextets.drop start).take len ++
        (hextets.drop start).drop len) := by
          rw [List.take_append_drop, List.take_append_drop, List.take_append_drop]
    _ = _ := by rw [hmiddle, List.drop_drop, List.append_assoc]

/-- Compressed hextets are parts with a gap, or the hextets as they are. -/
theorem compressHextets_cases (hextets : List Nat) (hlength : hextets.length = 8) :
    compressHextets (hextets.map (Nat.toDigits 16)) = hextets.map (Nat.toDigits 16) ∨
    ∃ front back, hextets = front ++ List.replicate (8 - (front.length + back.length)) 0 ++ back ∧
      front.length + back.length ≤ 6 ∧
      compressHextets (hextets.map (Nat.toDigits 16)) =
        paddedEnd front ++ [] :: paddedEnd back := by
  have hruns := runsOf_loop (hextets.map (Nat.toDigits 16))
  unfold compressHextets
  dsimp only
  generalize Runs.loop {} 0 (hextets.map (Nat.toDigits 16)) = runs at hruns ⊢
  by_cases hlong : 1 < runs.bestLen
  · rw [if_pos hlong]
    have hfit : runs.bestStart + runs.bestLen ≤ hextets.length := by
      have hle := hruns.fits
      rwa [List.length_map] at hle
    have hfront : (hextets.take runs.bestStart).length = runs.bestStart := by
      rw [List.length_take]
      omega
    have hback : (hextets.drop (runs.bestStart + runs.bestLen)).length =
        8 - (runs.bestStart + runs.bestLen) := by
      rw [List.length_drop, hlength]
    refine .inr ⟨hextets.take runs.bestStart,
      hextets.drop (runs.bestStart + runs.bestLen), ?_, ?_, ?_⟩
    · have hskipped : 8 - ((hextets.take runs.bestStart).length +
          (hextets.drop (runs.bestStart + runs.bestLen)).length) = runs.bestLen := by
        omega
      rw [hskipped]
      exact eq_append_replicate hfit hruns.best
    · omega
    · have hleft : (if runs.bestStart = 0 then [[]] else []) ++
          (hextets.map (Nat.toDigits 16)).take runs.bestStart =
          paddedEnd (hextets.take runs.bestStart) := by
        unfold paddedEnd
        by_cases hzero : runs.bestStart = 0
        · simp [hzero]
        · have hne : hextets.take runs.bestStart ≠ [] := fun hnil => by
            rw [hnil] at hfront
            exact hzero hfront.symm
          rw [if_neg hzero, if_neg hne, List.nil_append, List.map_take]
      have hright : (hextets.map (Nat.toDigits 16)).drop (runs.bestStart + runs.bestLen) ++
          (if runs.bestStart + runs.bestLen = (hextets.map (Nat.toDigits 16)).length then [[]]
            else []) = paddedEnd (hextets.drop (runs.bestStart + runs.bestLen)) := by
        unfold paddedEnd
        rw [List.length_map]
        by_cases hend : runs.bestStart + runs.bestLen = hextets.length
        · simp [hend]
        · have hne : hextets.drop (runs.bestStart + runs.bestLen) ≠ [] := fun hnil => by
            rw [hnil] at hback
            simp only [List.length_nil] at hback
            omega
          rw [if_neg hend, if_neg hne, List.append_nil, List.map_drop]
      rw [← hleft, ← hright]
      simp
  · rw [if_neg hlong]
    exact .inl rfl

/-- What is written for eight hextets is read back. -/
theorem hextetsOfParts_compressHextets {hextets : List Nat} (hlength : hextets.length = 8)
    (hsmall : ∀ n ∈ hextets, n < 65536) :
    hextetsOfParts (compressHextets (hextets.map (Nat.toDigits 16))) = some hextets := by
  rcases compressHextets_cases hextets hlength with hplain | ⟨front, back, heq, hle, hgap⟩
  · rw [hplain]
    unfold hextetsOfParts
    rw [skips_eq_nil fun part => mem_map_toDigits_ne_nil, List.length_map, hlength]
    exact mapM_map_eq_some fun n hn => parseHextet_toDigits (hsmall n hn)
  · rw [hgap]
    have hfront : ∀ n ∈ front, n < 65536 := by
      intro n hn
      apply hsmall n
      rw [heq]
      simp [hn]
    have hback : ∀ n ∈ back, n < 65536 := by
      intro n hn
      apply hsmall n
      rw [heq]
      simp [hn]
    rw [hextetsOfParts_gap hfront hback (by omega), ← heq]

/-- The characters of compressed hextets are hexadecimal digits. -/
theorem isHexDigit_of_mem_compressHextets {hextets : List Nat} (hlength : hextets.length = 8)
    {part : List Char} (hpart : part ∈ compressHextets (hextets.map (Nat.toDigits 16)))
    {c : Char} (hc : c ∈ part) :
    isHexDigit c = true := by
  have hplain : ∀ ns : List Nat, part ∈ ns.map (Nat.toDigits 16) → isHexDigit c = true := by
    intro ns hmem
    obtain ⟨n, _, rfl⟩ := List.mem_map.1 hmem
    exact isHexDigit_of_mem_toDigits hc
  have hpadded : ∀ ns : List Nat, part ∈ paddedEnd ns → isHexDigit c = true := by
    intro ns hmem
    unfold paddedEnd at hmem
    split at hmem
    · rw [List.mem_singleton.1 hmem] at hc
      cases hc
    · exact hplain ns hmem
  rcases compressHextets_cases hextets hlength with heq | ⟨front, back, _, _, heq⟩
  · rw [heq] at hpart
    exact hplain _ hpart
  · rw [heq] at hpart
    rcases List.mem_append.1 hpart with hfront | hrest
    · exact hpadded front hfront
    · rcases List.mem_cons.1 hrest with rfl | hback
      · cases hc
      · exact hpadded back hback

theorem three_le_length_compressHextets {hextets : List Nat} (hlength : hextets.length = 8) :
    3 ≤ (compressHextets (hextets.map (Nat.toDigits 16))).length := by
  rcases compressHextets_cases hextets hlength with heq | ⟨front, back, _, _, heq⟩
  · rw [heq, List.length_map]
    omega
  · rw [heq, List.length_append, List.length_cons, length_paddedEnd, length_paddedEnd]
    omega

/-- A text without a point in its last part has no IPv4 address at its end. -/
theorem expandSuffix_of_no_point {parts : List (List Char)} (h : ∀ part ∈ parts, '.' ∉ part) :
    expandSuffix parts = some parts := by
  unfold expandSuffix
  cases hlast : parts.getLast? with
  | none => rfl
  | some last => exact if_neg (h last (List.mem_of_getLast? hlast))

/-- The parts of a written number. -/
theorem splitOn_stringFromIpInt (n : Nat) :
    (stringFromIpInt n).splitOn ':' =
      compressHextets ((digits 65536 8 n).map (Nat.toDigits 16)) := by
  apply List.splitOn_intercalate
  · intro part hpart hcolon
    have hhex := isHexDigit_of_mem_compressHextets (length_digits 65536 8 n) hpart hcolon
    exact absurd hhex (by decide)
  · intro hnil
    have hthree := three_le_length_compressHextets (length_digits 65536 8 n)
    rw [hnil, List.length_nil] at hthree
    omega

/-- A written number is read back. -/
theorem ipv6FromText_stringFromIpInt {n : Nat} (h : n < 2 ^ 128) :
    ipv6FromText (stringFromIpInt n) = some (BitVec.ofNat 128 n) := by
  have hlength := length_digits 65536 8 n
  have hthree := three_le_length_compressHextets hlength
  have hpoint : ∀ part ∈ compressHextets ((digits 65536 8 n).map (Nat.toDigits 16)),
      '.' ∉ part := by
    intro part hpart hmem
    exact absurd (isHexDigit_of_mem_compressHextets hlength hpart hmem) (by decide)
  unfold ipv6FromText
  rw [splitOn_stringFromIpInt, if_neg (Nat.not_lt.2 hthree), expandSuffix_of_no_point hpoint,
    Option.bind_some, hextetsOfParts_compressHextets hlength fun m hm =>
      lt_of_mem_digits (by decide) hm, Option.map_some, ofDigits_digits,
    show 65536 ^ 8 = 2 ^ 128 from rfl, Nat.mod_eq_of_lt h]

/-- The text of a mapped IPv4 address has four parts. -/
theorem splitOn_mapped (ip : BitVec 32) :
    (stringFromIpInt 65535 ++ ':' :: ipv4Text ip).splitOn ':' =
      [[], [], ['f', 'f', 'f', 'f'], ipv4Text ip] := by
  have hmarks : stringFromIpInt 65535 = [':', ':', 'f', 'f', 'f', 'f'] := by decide +kernel
  have hjoin : stringFromIpInt 65535 ++ ':' :: ipv4Text ip =
      [':'].intercalate [[], [], ['f', 'f', 'f', 'f'], ipv4Text ip] := by
    rw [hmarks]
    simp [List.intercalate_cons_cons]
  rw [hjoin]
  apply List.splitOn_intercalate
  · intro part hpart hcolon
    simp only [List.mem_cons, List.not_mem_nil, or_false] at hpart
    rcases hpart with rfl | rfl | rfl | rfl
    · cases hcolon
    · cases hcolon
    · exact absurd hcolon (by decide)
    · rcases mem_ipv4Text hcolon with hdigit | hpoint
      · exact absurd hdigit (by decide)
      · exact absurd hpoint (by decide)
  · simp

theorem point_mem_ipv4Text (ip : BitVec 32) :
    '.' ∈ ipv4Text ip := by
  unfold ipv4Text
  simp [digits, List.intercalate_cons_cons]

/-- A written IPv6 address is read back. -/
theorem ipv6FromText_ipv6Text (ip : BitVec 128) :
    ipv6FromText (ipv6Text ip) = some ip := by
  unfold ipv6Text
  split
  · rename_i hmapped
    have hlow : (BitVec.ofNat 32 ip.toNat).toNat = ip.toNat % 2 ^ 32 := BitVec.toNat_ofNat _ _
    have hsuffix : expandSuffix
        [[], [], ['f', 'f', 'f', 'f'], ipv4Text (BitVec.ofNat 32 ip.toNat)] =
        some (paddedEnd [] ++ [] :: paddedEnd [65535, ip.toNat % 2 ^ 32 / 65536 % 65536,
          ip.toNat % 2 ^ 32 % 65536]) := by
      have hhex : Nat.toDigits 16 65535 = ['f', 'f', 'f', 'f'] := by decide +kernel
      have hlast : [[], [], ['f', 'f', 'f', 'f'], ipv4Text (BitVec.ofNat 32 ip.toNat)].getLast? =
          some (ipv4Text (BitVec.ofNat 32 ip.toNat)) := rfl
      unfold expandSuffix
      rw [hlast]
      dsimp only
      rw [if_pos (point_mem_ipv4Text _), ipv4FromText_ipv4Text, Option.map_some, hlow]
      simp [paddedEnd, hhex]
    have hgap := @hextetsOfParts_gap []
      [65535, ip.toNat % 2 ^ 32 / 65536 % 65536, ip.toNat % 2 ^ 32 % 65536]
      (by simp) (by
        intro n hn
        simp only [List.mem_cons, List.not_mem_nil, or_false] at hn
        rcases hn with rfl | rfl | rfl
        · omega
        · exact Nat.mod_lt _ (by decide)
        · exact Nat.mod_lt _ (by decide)) (by simp)
    have hvalue : ofDigits 65536 ([] ++ List.replicate (8 - (([] : List Nat).length +
        [65535, ip.toNat % 2 ^ 32 / 65536 % 65536, ip.toNat % 2 ^ 32 % 65536].length)) 0 ++
        [65535, ip.toNat % 2 ^ 32 / 65536 % 65536, ip.toNat % 2 ^ 32 % 65536]) = ip.toNat := by
      simp only [List.length_nil, List.length_cons, List.nil_append]
      unfold ofDigits
      simp only [Nat.reduceAdd, Nat.reduceSub, List.replicate, List.cons_append, List.nil_append,
        List.foldl_cons, List.foldl_nil]
      omega
    unfold ipv6FromText
    rw [splitOn_mapped, if_neg (by simp), hsuffix, Option.bind_some, hgap, Option.map_some, hvalue,
      BitVec.ofNat_toNat, BitVec.setWidth_eq]
  · rw [ipv6FromText_stringFromIpInt ip.isLt, BitVec.ofNat_toNat, BitVec.setWidth_eq]

/-- The characters of a written number. -/
theorem mem_stringFromIpInt {n : Nat} {c : Char} (h : c ∈ stringFromIpInt n) :
    isHexDigit c = true ∨ c = ':' := by
  rcases mem_intercalate h with hcolon | ⟨part, hpart, hmem⟩
  · exact .inr (List.mem_singleton.1 hcolon)
  · exact .inl (isHexDigit_of_mem_compressHextets (length_digits 65536 8 n) hpart hmem)

theorem isHexDigit_of_isDigit {c : Char} (h : c.isDigit = true) :
    isHexDigit c = true := by
  simp [isHexDigit, h]

/-- The characters of a written IPv6 address. -/
theorem mem_ipv6Text {ip : BitVec 128} {c : Char} (h : c ∈ ipv6Text ip) :
    isHexDigit c = true ∨ c = ':' ∨ c = '.' := by
  unfold ipv6Text at h
  split at h
  · rcases List.mem_append.1 h with hfront | hrest
    · exact (mem_stringFromIpInt hfront).imp id .inl
    · rcases List.mem_cons.1 hrest with hcolon | hback
      · exact .inr (.inl hcolon)
      · exact (mem_ipv4Text hback).imp isHexDigit_of_isDigit .inr
  · exact (mem_stringFromIpInt h).imp id .inl

/-- A written IPv6 address has a colon. -/
theorem colon_mem_ipv6Text (ip : BitVec 128) :
    ':' ∈ ipv6Text ip := by
  by_contra hcolon
  have hread := ipv6FromText_ipv6Text ip
  have hsplit : (ipv6Text ip).splitOn ':' = [ipv6Text ip] := List.splitOn_eq_singleton hcolon
  unfold ipv6FromText at hread
  rw [hsplit, if_pos (by simp)] at hread
  cases hread

/-! ## Addresses of both versions -/

/-- A zone of an IPv6 address. -/
structure Zone where
  text : List Char
  ne_nil : text ≠ []
  no_percent : '%' ∉ text
  no_slash : '/' ∉ text
deriving DecidableEq

/-- The text after the first `%` as a zone. -/
def zoneOf (text : List Char) : Option Zone :=
  if h : text ≠ [] ∧ '%' ∉ text ∧ '/' ∉ text then some ⟨text, h.1, h.2.1, h.2.2⟩ else none

/-- `IPv4Address | IPv6Address`. -/
inductive IpAddress where
  | v4 (ip : BitVec 32)
  | v6 (ip : BitVec 128) (zone : Option Zone)
deriving DecidableEq

/-- `IPv6Address(text)`. -/
def ipv6Address (text : List Char) : Option IpAddress :=
  if '/' ∈ text then none
  else
    match text.dropWhile fun c => !decide (c = '%') with
    | [] => (ipv6FromText text).map fun ip => .v6 ip none
    | _ :: zone =>
        (zoneOf zone).bind fun zone =>
          (ipv6FromText (text.takeWhile fun c => !decide (c = '%'))).map fun ip =>
            .v6 ip (some zone)

/-- `ip_address(text)`. -/
def ipAddress (text : List Char) : Option IpAddress :=
  ((ipv4FromText text).map .v4).or (ipv6Address text)

/-- `str(address)`. -/
def IpAddress.text : IpAddress → List Char
  | .v4 ip => ipv4Text ip
  | .v6 ip none => ipv6Text ip
  | .v6 ip (some zone) => ipv6Text ip ++ '%' :: zone.text

/-- The zone of an address. -/
def IpAddress.zone : IpAddress → Option Zone
  | .v4 _ => none
  | .v6 _ zone => zone

/-- `address.version`. -/
def IpAddress.version : IpAddress → Nat
  | .v4 _ => 4
  | .v6 _ _ => 6

/-- `int(address)`. -/
def IpAddress.toNat : IpAddress → Nat
  | .v4 ip => ip.toNat
  | .v6 ip _ => ip.toNat

theorem zoneOf_text (zone : Zone) :
    zoneOf zone.text = some zone := by
  unfold zoneOf
  rw [dif_pos ⟨zone.ne_nil, zone.no_percent, zone.no_slash⟩]

theorem text_of_zoneOf {text : List Char} {zone : Zone} (h : zoneOf text = some zone) :
    zone.text = text := by
  unfold zoneOf at h
  split at h
  · exact congrArg Zone.text (Option.some.inj h).symm
  · cases h

/-- A text with a colon is no IPv4 address. -/
theorem ipv4FromText_eq_none {text : List Char} (h : ':' ∈ text) :
    ipv4FromText text = none := by
  cases hread : ipv4FromText text with
  | none => rfl
  | some ip =>
      rcases mem_of_ipv4FromText hread h with hdigit | hpoint
      · exact absurd hdigit (by decide)
      · exact absurd hpoint (by decide)

/-- Characters that are in no written IPv6 address. -/
theorem not_mem_ipv6Text {ip : BitVec 128} {c : Char} (hhex : isHexDigit c = false)
    (hcolon : c ≠ ':') (hpoint : c ≠ '.') :
    c ∉ ipv6Text ip := by
  intro hmem
  rcases mem_ipv6Text hmem with hdigit | heq | heq
  · rw [hhex] at hdigit
    cases hdigit
  · exact hcolon heq
  · exact hpoint heq

/-- A written IPv6 address is read back with its zone. -/
theorem ipv6Address_text (ip : BitVec 128) (zone : Option Zone) :
    ipv6Address (IpAddress.v6 ip zone).text = some (.v6 ip zone) := by
  have hslash : '/' ∉ ipv6Text ip := not_mem_ipv6Text (by decide) (by decide) (by decide)
  have hpercent : ∀ c ∈ ipv6Text ip, (!decide (c = '%')) = true := by
    intro c hc
    have hne : c ≠ '%' := by
      rintro rfl
      exact not_mem_ipv6Text (by decide) (by decide) (by decide) hc
    simp [hne]
  unfold ipv6Address
  cases zone with
  | none =>
      have hdrop : (ipv6Text ip).dropWhile (fun c => !decide (c = '%')) = [] :=
        List.dropWhile_eq_nil_iff.2 hpercent
      rw [IpAddress.text, if_neg hslash, hdrop]
      dsimp only
      rw [ipv6FromText_ipv6Text]
      rfl
  | some zone =>
      have hslash' : '/' ∉ ipv6Text ip ++ '%' :: zone.text := by
        rw [List.mem_append, List.mem_cons]
        rintro (hfront | heq | hback)
        · exact hslash hfront
        · exact absurd heq (by decide)
        · exact zone.no_slash hback
      have hdrop : (ipv6Text ip ++ '%' :: zone.text).dropWhile (fun c => !decide (c = '%')) =
          '%' :: zone.text := by
        rw [List.dropWhile_append_of_pos hpercent]
        rfl
      have htake : (ipv6Text ip ++ '%' :: zone.text).takeWhile (fun c => !decide (c = '%')) =
          ipv6Text ip := by
        rw [List.takeWhile_append_of_pos hpercent]
        simp
      rw [IpAddress.text, if_neg hslash', hdrop]
      dsimp only
      rw [htake, zoneOf_text, Option.bind_some, ipv6FromText_ipv6Text]
      rfl

/-- A written address is read back. -/
theorem ipAddress_text (address : IpAddress) :
    ipAddress address.text = some address := by
  cases address with
  | v4 ip => simp [ipAddress, IpAddress.text, ipv4FromText_ipv4Text]
  | v6 ip zone =>
      have hcolon : ':' ∈ (IpAddress.v6 ip zone).text := by
        cases zone with
        | none => exact colon_mem_ipv6Text ip
        | some zone => exact List.mem_append_left _ (colon_mem_ipv6Text ip)
      rw [ipAddress, ipv4FromText_eq_none hcolon, ipv6Address_text]
      rfl

end Ip
end MpvmApp
