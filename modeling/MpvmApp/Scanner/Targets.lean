import MpvmApp.Lib.CharTables
import MpvmApp.Lib.IpNetwork
import MpvmApp.Lib.Table

/-!
# Scan targets

A target is an IP address, a network, a range of addresses or a host name.  Normalising strips the
text, reads it as one of these, and writes it in its canonical form.

Main definitions:

- `readTarget`: what a text names.
- `normalizeScanTarget`: the canonical text.
- `Canonical`: a text of the target grammar that normalising leaves as it is.
- `Sound`: no line feed in a host name, no odd characters in a zone, not too long.

Main results:

- Theorem `readStripped_text`: a canonical address, network or range is read back.
- Theorem `readStripped_host`: so is a canonical host name.
- Theorem `normalize_scan_targets`: when the result is canonical, and what the list of
  targets holds.
-/

namespace MpvmApp
namespace Scanner

open Sql Ip

/-! ## Reading a target -/

/-- The errors of `normalize_scan_target`. -/
inductive TargetError where
  | empty
  | tooLong (target : List Char)
  | badAddress (target : List Char)
  | badHost (target : List Char)
deriving DecidableEq, Repr

/-- `MAX_TARGET_LENGTH`. -/
def maxTargetLength : Nat :=
  253

/-- The text of an error. -/
def TargetError.message : TargetError → String
  | .empty => "Пустая цель сканирования."
  | .tooLong target =>
      "Цель «" ++ String.ofList (target.take 40) ++ "…» длиннее " ++ toString maxTargetLength ++
        " символов."
  | .badAddress target =>
      "Некорректный IP-адрес, подсеть или диапазон: «" ++ String.ofList target ++ "»."
  | .badHost target => "Некорректное FQDN-имя: «" ++ String.ofList target ++ "»."

/-- What a target names. -/
inductive Target where
  | network (network : IpNetwork)
  | range (first last : IpAddress)
  | address (address : IpAddress)
  | host (text : List Char)
deriving DecidableEq

/-- The canonical text. -/
def Target.text : Target → List Char
  | .network net => net.text
  | .range first last => first.text ++ '-' :: last.text
  | .address ip => ip.text
  | .host name => name

/-- `[a-z0-9_-]`. -/
def isHostChar (c : Char) : Bool :=
  (decide ('a' ≤ c) && decide (c ≤ 'z')) || c.isDigit || decide (c = '_') || decide (c = '-')

/-- A label of 1 to 63 characters without a hyphen at either end. -/
def isLabel (label : List Char) : Bool :=
  decide (1 ≤ label.length) && decide (label.length ≤ 63) && label.all isHostChar &&
    !decide (label.head? = some '-') && !decide (label.getLast? = some '-')

/-- `_HOST_LABEL.match`: `$` also matches before a line feed at the end. -/
def hostLabelMatches (label : List Char) : Bool :=
  isLabel (if label.getLast? = some '\n' then label.dropLast else label)

/-- `_ip_or_none`. -/
def ipOrNone (text : List Char) : Option IpAddress :=
  ipAddress (stripText text)

/-- The host name of a target. -/
def readHost (tables : CharTables) (target : List Char) : Except TargetError Target :=
  let host := tables.lowerText (target.rdropWhile fun c => decide (c = '.'))
  let labels := host.splitOn '.'
  if host.isEmpty || labels.getLast?.any tables.isDigitText || !labels.all hostLabelMatches then
    .error (.badHost target)
  else .ok (.host host)

/-- What a stripped text of admitted length names. -/
def readStripped (tables : CharTables) (target : List Char) : Except TargetError Target :=
  if '/' ∈ target then
    match ipNetwork target with
    | some network => .ok (.network network)
    | none => .error (.badAddress target)
  else if '-' ∈ target then
    match ipOrNone (target.takeWhile fun c => !decide (c = '-')),
        ipOrNone (target.dropWhile fun c => !decide (c = '-')).tail with
    | none, none => readHost tables target
    | some first, some last =>
        if first.version ≠ last.version ∨ last.toNat < first.toNat then
          .error (.badAddress target)
        else .ok (.range first last)
    | some _, none => .error (.badAddress target)
    | none, some _ => .error (.badAddress target)
  else if ':' ∈ target ∨
      tables.isDigitText (target.filter fun c => !decide (c = '.')) = true then
    match ipAddress target with
    | some address => .ok (.address address)
    | none => .error (.badAddress target)
  else readHost tables target

/-- What a text names. -/
def readTarget (tables : CharTables) (value : String) : Except TargetError Target :=
  let target := stripText value.toList
  if target.isEmpty then .error .empty
  else if maxTargetLength < target.length then .error (.tooLong target)
  else readStripped tables target

/-- `normalize_scan_target`. -/
def normalizeScanTarget (tables : CharTables) (value : String) : Except TargetError String :=
  match readTarget tables value with
  | .ok target => .ok (String.ofList target.text)
  | .error error => .error error

/-- `normalize_scan_targets`. -/
def normalizeScanTargets (tables : CharTables) (values : List String) :
    Except TargetError (List String) :=
  match values.mapM (normalizeScanTarget tables) with
  | .ok targets => .ok (fromKeys targets)
  | .error error => .error error

/-! ## The grammar -/

/-- A host name. -/
def IsHostName (text : List Char) : Prop :=
  ∃ labels, labels ≠ [] ∧ text = ['.'].intercalate labels ∧ ∀ label ∈ labels, isLabel label = true

/-- An address, a network, a range of ordered addresses of one version, or a host name. -/
def InGrammar (text : List Char) : Prop :=
  (∃ address : IpAddress, text = address.text) ∨
  (∃ network : IpNetwork, text = network.text) ∨
  (∃ first last : IpAddress, first.version = last.version ∧ first.toNat ≤ last.toNat ∧
    text = first.text ++ '-' :: last.text) ∨
  IsHostName text

/-- A text of the grammar without white space that normalising leaves as it is. -/
structure Canonical (tables : CharTables) (text : String) : Prop where
  grammar : InGrammar text.toList
  plain : ∀ c ∈ text.toList, isSpace c = false ∧ isControl c = false
  fixed : normalizeScanTarget tables text = .ok text

/-- The zones of a target. -/
def Target.zones : Target → List Zone
  | .network net => net.address.zone.toList
  | .range first last => first.zone.toList ++ last.zone.toList
  | .address ip => ip.zone.toList
  | .host _ => []

/-- A host name. -/
def Target.isHost : Target → Bool
  | .host _ => true
  | _ => false

/-- What keeps the canonical text of a value clean. -/
structure Sound (value : String) (target : Target) : Prop where
  /-- No line feed is in a host name. -/
  labels : target.isHost = true → '\n' ∉ stripText value.toList
  /-- No white space and no control character is in a zone. -/
  zones : ∀ zone ∈ target.zones, ∀ c ∈ zone.text, isSpace c = false ∧ isControl c = false
  /-- The canonical text is not too long. -/
  fits : target.text.length ≤ maxTargetLength

/-! ## Addresses, networks and ranges -/

theorem toNat_bounds_of_isDigit {c : Char} (h : c.isDigit = true) :
    48 ≤ c.toNat ∧ c.toNat ≤ 57 := by
  unfold Char.isDigit at h
  rw [Bool.and_eq_true, decide_eq_true_eq, decide_eq_true_eq] at h
  exact ⟨h.1, h.2⟩

theorem toNat_bounds_of_le {a b c : Char} (h : a ≤ c ∧ c ≤ b) :
    a.toNat ≤ c.toNat ∧ c.toNat ≤ b.toNat :=
  h

theorem visible_of_isHexDigit {c : Char} (h : Numerals.isHexDigit c = true) :
    33 ≤ c.toNat ∧ c.toNat ≤ 126 := by
  unfold Numerals.isHexDigit at h
  simp only [Bool.or_eq_true, Bool.and_eq_true, decide_eq_true_eq] at h
  rcases h with (hdigit | hlower) | hupper
  · have hbounds := toNat_bounds_of_isDigit hdigit
    omega
  · have hbounds := toNat_bounds_of_le hlower
    have ha : 'a'.toNat = 97 := rfl
    have hf : 'f'.toNat = 102 := rfl
    omega
  · have hbounds := toNat_bounds_of_le hupper
    have ha : 'A'.toNat = 65 := rfl
    have hf : 'F'.toNat = 70 := rfl
    omega

/-- The zone of an address has plain characters. -/
def PlainZone (address : IpAddress) : Prop :=
  ∀ zone ∈ address.zone, ∀ c ∈ zone.text, isSpace c = false ∧ isControl c = false

theorem plain_text {address : IpAddress} (h : PlainZone address) {c : Char}
    (hc : c ∈ address.text) :
    isSpace c = false ∧ isControl c = false := by
  rcases IpAddress.mem_text hc with hdigit | rfl | rfl | rfl | ⟨zone, hzone, hmem⟩
  · exact plain_of_visible (visible_of_isHexDigit hdigit)
  · decide
  · decide
  · decide
  · exact h zone hzone c hmem

theorem ipOrNone_text {address : IpAddress} (h : PlainZone address) :
    ipOrNone address.text = some address := by
  unfold ipOrNone
  rw [stripText_eq_self fun c hc => (plain_text h hc).1, ipAddress_text]

theorem readStripped_network (tables : CharTables) (network : IpNetwork) :
    readStripped tables network.text = .ok (.network network) := by
  have hslash : '/' ∈ network.text := by
    unfold IpNetwork.text
    simp
  unfold readStripped
  rw [if_pos hslash, ipNetwork_text]

/-- A canonical address without a hyphen is read back. -/
theorem readStripped_address (tables : CharTables) {address : IpAddress}
    (h : '-' ∉ address.text) :
    readStripped tables address.text = .ok (.address address) := by
  have hform : ':' ∈ address.text ∨
      tables.isDigitText (address.text.filter fun c => !decide (c = '.')) = true := by
    cases address with
    | v4 ip =>
        right
        have hdigits : ∀ c ∈ (ipv4Text ip).filter fun c => !decide (c = '.'),
            c.isDigit = true := by
          intro c hc
          obtain ⟨hmem, hpoint⟩ := List.mem_filter.1 hc
          refine (mem_ipv4Text hmem).resolve_right ?_
          simpa using hpoint
        have hne : (ipv4Text ip).filter (fun c => !decide (c = '.')) ≠ [] := by
          intro hnil
          have hpoints : ∀ c ∈ ipv4Text ip, c = '.' := by
            intro c hc
            by_contra hpoint
            have hmem : c ∈ (ipv4Text ip).filter fun c => !decide (c = '.') :=
              List.mem_filter.2 ⟨hc, by simp [hpoint]⟩
            rw [hnil] at hmem
            cases hmem
          have hread := ipv4FromText_ipv4Text ip
          unfold ipv4FromText at hread
          split at hread
          · obtain ⟨octets, hoctets, _⟩ := Option.map_eq_some_iff.1 hread
            obtain ⟨part, hpart⟩ := List.exists_mem_of_ne_nil _
              (List.splitOn_ne_nil '.' (ipv4Text ip))
            obtain ⟨n, hn⟩ := exists_of_mapM_eq_some hoctets hpart
            cases part with
            | nil => cases hn
            | cons c rest =>
                have hc : c ∈ ipv4Text ip := by
                  rw [← @List.intercalate_splitOn _ (ipv4Text ip) _ _ '.']
                  exact mem_intercalate_of_mem hpart List.mem_cons_self
                have hdigit := @isDigit_of_parseOctet (c :: rest) n hn c List.mem_cons_self
                rw [hpoints c hc] at hdigit
                exact absurd hdigit (by decide)
          · cases hread
        unfold CharTables.isDigitText
        rw [Bool.and_eq_true, Bool.not_eq_true', List.isEmpty_eq_false_iff, List.all_eq_true]
        refine ⟨hne, ?_⟩
        intro c hc
        have hdigit := hdigits c hc
        have hbounds := toNat_bounds_of_isDigit hdigit
        rw [tables.isDigit_ascii c (by omega), hdigit]
    | v6 ip zone =>
        left
        cases zone with
        | none => exact colon_mem_ipv6Text ip
        | some zone => exact List.mem_append_left _ (colon_mem_ipv6Text ip)
  unfold readStripped
  rw [if_neg address.slash_not_mem_text, if_neg h, if_pos hform, ipAddress_text]

/-- A canonical range whose first address has no hyphen is read back. -/
theorem readStripped_range (tables : CharTables) {first last : IpAddress}
    (hversion : first.version = last.version) (hle : first.toNat ≤ last.toNat)
    (hhyphen : '-' ∉ first.text) (hfirst : PlainZone first) (hlast : PlainZone last) :
    readStripped tables (first.text ++ '-' :: last.text) = .ok (.range first last) := by
  have hslash : '/' ∉ first.text ++ '-' :: last.text := by
    rw [List.mem_append, List.mem_cons]
    rintro (hfront | heq | hback)
    · exact first.slash_not_mem_text hfront
    · exact absurd heq (by decide)
    · exact last.slash_not_mem_text hback
  have hfront : ∀ c ∈ first.text, (!decide (c = '-')) = true := by
    intro c hc
    have hne : c ≠ '-' := by
      rintro rfl
      exact hhyphen hc
    simp [hne]
  have htake : (first.text ++ '-' :: last.text).takeWhile (fun c => !decide (c = '-')) =
      first.text := by
    rw [List.takeWhile_append_of_pos hfront]
    simp
  have hdrop : ((first.text ++ '-' :: last.text).dropWhile fun c => !decide (c = '-')).tail =
      last.text := by
    rw [List.dropWhile_append_of_pos hfront]
    rfl
  unfold readStripped
  rw [if_neg hslash, if_pos (by simp), htake, hdrop, ipOrNone_text hfirst, ipOrNone_text hlast]
  dsimp only
  rw [if_neg]
  rintro (hne | hlt)
  · exact hne hversion
  · omega

/-! ## Host names -/

/-- No part of a text has the separator. -/
theorem not_mem_of_mem_splitOn {sep : Char} {text part : List Char}
    (h : part ∈ text.splitOn sep) :
    sep ∉ part := by
  induction text generalizing part with
  | nil =>
      rw [List.splitOn_nil, List.mem_singleton] at h
      rw [h]
      exact List.not_mem_nil
  | cons c text ih =>
      rw [List.splitOn_cons_eq_if_modifyHead] at h
      split at h
      · rcases List.mem_cons.1 h with rfl | hrest
        · exact List.not_mem_nil
        · exact ih hrest
      · rename_i hne
        cases hparts : text.splitOn sep with
        | nil => exact absurd hparts (List.splitOn_ne_nil _ _)
        | cons first rest =>
            rw [hparts] at h ih
            rcases List.mem_cons.1 h with rfl | hrest
            · rw [List.mem_cons]
              rintro (heq | hmem)
              · exact hne (by simp [heq])
              · exact ih List.mem_cons_self hmem
            · exact ih (List.mem_cons_of_mem _ hrest)

theorem getLast?_splitOn_append {sep : Char} (front : List Char) {back : List Char}
    (h : sep ∈ back) :
    ((front ++ back).splitOn sep).getLast? = (back.splitOn sep).getLast? := by
  obtain ⟨x, y, rfl⟩ := List.append_of_mem h
  have hne : y.splitOn sep ≠ [] := List.splitOn_ne_nil _ _
  rw [← List.append_assoc, List.splitOn_append_cons_self, List.splitOn_append_cons_self,
    List.getLast?_append_of_ne_nil _ hne, List.getLast?_append_of_ne_nil _ hne]

theorem isHostChar_of_isLabel {label : List Char} (h : isLabel label = true) {c : Char}
    (hc : c ∈ label) :
    isHostChar c = true := by
  unfold isLabel at h
  simp only [Bool.and_eq_true] at h
  exact List.all_eq_true.1 h.1.1.2 c hc

theorem hostLabelMatches_eq {label : List Char} (h : '\n' ∉ label) :
    hostLabelMatches label = isLabel label := by
  unfold hostLabelMatches
  rw [if_neg]
  intro hlast
  exact h (List.mem_of_getLast? hlast)

theorem mem_of_hostLabelMatches {label : List Char} (h : hostLabelMatches label = true) {c : Char}
    (hc : c ∈ label) :
    isHostChar c = true ∨ c = '\n' := by
  unfold hostLabelMatches at h
  split at h
  · rename_i hlast
    obtain ⟨front, rfl⟩ := List.getLast?_eq_some_iff.1 hlast
    rw [List.dropLast_concat] at h
    rcases List.mem_append.1 hc with hfront | hend
    · exact .inl (isHostChar_of_isLabel h hfront)
    · exact .inr (List.mem_singleton.1 hend)
  · exact .inl (isHostChar_of_isLabel h hc)

theorem ne_nil_of_hostLabelMatches {label : List Char} (h : hostLabelMatches label = true) :
    label ≠ [] := by
  rintro rfl
  exact absurd h (by decide)

theorem toNat_of_isHostChar {c : Char} (h : isHostChar c = true) :
    c.toNat = 45 ∨ (48 ≤ c.toNat ∧ c.toNat ≤ 57) ∨ c.toNat = 95 ∨
      (97 ≤ c.toNat ∧ c.toNat ≤ 122) := by
  unfold isHostChar at h
  simp only [Bool.or_eq_true, Bool.and_eq_true, decide_eq_true_eq] at h
  rcases h with ((hletter | hdigit) | rfl) | rfl
  · exact .inr (.inr (.inr (toNat_bounds_of_le hletter)))
  · exact .inr (.inl (toNat_bounds_of_isDigit hdigit))
  · exact .inr (.inr (.inl rfl))
  · exact .inl rfl

/-- What is read as a host name. -/
structure HostOf (tables : CharTables) (target host : List Char) : Prop where
  eq : host = tables.lowerText (target.rdropWhile fun c => decide (c = '.'))
  ne_nil : host ≠ []
  last : ∀ label, (host.splitOn '.').getLast? = some label → tables.isDigitText label = false
  labels : ∀ label ∈ host.splitOn '.', hostLabelMatches label = true

theorem hostOf_of_readHost {tables : CharTables} {target : List Char} {t : Target}
    (h : readHost tables target = .ok t) :
    ∃ host, t = .host host ∧ HostOf tables target host := by
  unfold readHost at h
  dsimp only at h
  split at h
  · cases h
  · rename_i hgood
    simp only [Bool.or_eq_true, not_or, Bool.not_eq_true, List.isEmpty_eq_false_iff,
      Bool.not_eq_false', List.all_eq_true] at hgood
    refine ⟨_, (Except.ok.inj h).symm, rfl, hgood.1.1, ?_, hgood.2⟩
    intro label hlast
    have hdigit := hgood.1.2
    rw [hlast, Option.any_some] at hdigit
    exact hdigit

theorem HostOf.readHost {tables : CharTables} {target host : List Char}
    (h : HostOf tables target host) :
    readHost tables target = .ok (.host host) := by
  have hlast : (host.splitOn '.').getLast?.any tables.isDigitText = false := by
    cases hlabel : (host.splitOn '.').getLast? with
    | none => rfl
    | some label => exact h.last label hlabel
  have hempty : host.isEmpty = false := List.isEmpty_eq_false_iff.2 h.ne_nil
  have hlabels : (host.splitOn '.').all hostLabelMatches = true := List.all_eq_true.2 h.labels
  unfold Scanner.readHost
  dsimp only
  rw [← h.eq, hlast, hempty, hlabels]
  rfl

theorem HostOf.mem {tables : CharTables} {target host : List Char} (h : HostOf tables target host)
    {c : Char} (hc : c ∈ host) :
    isHostChar c = true ∨ c = '\n' ∨ c = '.' := by
  by_cases hpoint : c = '.'
  · exact .inr (.inr hpoint)
  · obtain ⟨label, hlabel, hmem⟩ := mem_parts_of_mem hc hpoint
    exact (mem_of_hostLabelMatches (h.labels label hlabel) hmem).imp id .inl

theorem HostOf.ascii {tables : CharTables} {target host : List Char}
    (h : HostOf tables target host) {c : Char} (hc : c ∈ host) :
    c.toNat < 128 := by
  rcases h.mem hc with hchar | rfl | rfl
  · have hbounds := toNat_of_isHostChar hchar
    omega
  · decide
  · decide

/-- The lower case of a character of a host name. -/
def lowerOne (c : Char) : Char :=
  if c = '\u212A' then 'k' else c.toLower

/-- A host name is written character by character. -/
theorem HostOf.eq_map {tables : CharTables} {target host : List Char}
    (h : HostOf tables target host) :
    host = (target.rdropWhile fun c => decide (c = '.')).map lowerOne := by
  have hlower : ∀ c ∈ target.rdropWhile fun c => decide (c = '.'),
      tables.lower c = [lowerOne c] := by
    intro c hc
    have hascii : ∀ d ∈ tables.lower c, d.toNat < 128 := by
      intro d hd
      apply h.ascii
      rw [h.eq]
      exact List.mem_flatMap.2 ⟨c, hc, hd⟩
    unfold lowerOne
    rcases tables.lower_cases hascii with ⟨hsmall, heq⟩ | ⟨hkelvin, heq⟩
    · rw [heq, if_neg]
      rintro rfl
      exact absurd hsmall (by decide)
    · rw [heq, if_pos hkelvin]
  rw [h.eq]
  unfold CharTables.lowerText
  generalize target.rdropWhile (fun c => decide (c = '.')) = text at hlower
  induction text with
  | nil => rfl
  | cons c text ih =>
      rw [List.flatMap_cons, hlower c List.mem_cons_self,
        ih fun d hd => hlower d (List.mem_cons_of_mem _ hd)]
      rfl

/-- A lower case that is no letter is the character itself. -/
theorem eq_of_lowerOne_eq {c d : Char} (hd : ¬ (97 ≤ d.toNat ∧ d.toNat ≤ 122))
    (h : lowerOne c = d) :
    c = d := by
  unfold lowerOne at h
  split at h
  · rw [← h] at hd
    exact absurd (by decide) hd
  · unfold Char.toLower at h
    split at h
    · rename_i hupper
      exfalso
      apply hd
      have hlow : 65 ≤ c.toNat := hupper.1
      have hhigh : c.toNat ≤ 90 := hupper.2
      have hval : d.toNat = (c.val + ('a'.val - 'A'.val)).toNat := by
        rw [← h]
        rfl
      have hsum : (c.val + ('a'.val - 'A'.val)).toNat = c.toNat + 32 := by
        rw [UInt32.toNat_add]
        have hdiff : ('a'.val - 'A'.val).toNat = 32 := rfl
        rw [hdiff]
        exact Nat.mod_eq_of_lt (by show c.toNat + 32 < _; omega)
      omega
    · exact h

theorem lower_of_mem (tables : CharTables) {c : Char}
    (h : isHostChar c = true ∨ c = '\n' ∨ c = '.') :
    tables.lower c = [c] := by
  have hbounds : c.toNat < 128 ∧ ¬ (65 ≤ c.toNat ∧ c.toNat ≤ 90) := by
    rcases h with hchar | rfl | rfl
    · have hcases := toNat_of_isHostChar hchar
      omega
    · decide
    · decide
  have hsame : c.toLower = c := by
    unfold Char.toLower
    rw [dif_neg]
    rintro ⟨hlow, hhigh⟩
    exact hbounds.2 ⟨hlow, hhigh⟩
  rw [tables.lower_ascii c hbounds.1, hsame]

theorem HostOf.rdropWhile_eq {tables : CharTables} {target host : List Char}
    (h : HostOf tables target host) :
    host.rdropWhile (fun c => decide (c = '.')) = host := by
  rw [List.rdropWhile_eq_self_iff]
  intro hne hpoint
  have hsplit : host = host.dropLast ++ '.' :: [] := by
    rw [← of_decide_eq_true hpoint]
    exact (List.dropLast_append_getLast hne).symm
  have hmem : [] ∈ host.splitOn '.' := by
    rw [hsplit, List.splitOn_append_cons_self]
    simp
  exact ne_nil_of_hostLabelMatches (h.labels [] hmem) rfl

theorem HostOf.self {tables : CharTables} {target host : List Char}
    (h : HostOf tables target host) :
    HostOf tables host host := by
  refine ⟨?_, h.ne_nil, h.last, h.labels⟩
  rw [h.rdropWhile_eq]
  unfold CharTables.lowerText
  have hsame : ∀ c ∈ host, tables.lower c = [c] := fun c hc => lower_of_mem tables (h.mem hc)
  clear h
  induction host with
  | nil => rfl
  | cons c host ih =>
      rw [List.flatMap_cons, hsame c List.mem_cons_self,
        ← ih fun d hd => hsame d (List.mem_cons_of_mem _ hd)]
      rfl

/-- A text without a colon is no IPv6 address. -/
theorem ipv4FromText_of_ipAddress {text : List Char} (hcolon : ':' ∉ text) {address : IpAddress}
    (h : ipAddress text = some address) :
    ∃ ip, ipv4FromText text = some ip := by
  have hnone : ∀ part : List Char, ':' ∉ part → ipv6FromText part = none := by
    intro part hpart
    unfold ipv6FromText
    rw [List.splitOn_eq_singleton hpart, if_pos (by simp)]
  unfold ipAddress at h
  rcases Option.or_eq_some_iff.1 h with hv4 | ⟨_, hv6⟩
  · obtain ⟨ip, hip, _⟩ := Option.map_eq_some_iff.1 hv4
    exact ⟨ip, hip⟩
  · exfalso
    unfold ipv6Address at hv6
    split at hv6
    · cases hv6
    · split at hv6
      · rw [hnone text hcolon] at hv6
        cases hv6
      · have hfront : ':' ∉ text.takeWhile fun c => !decide (c = '%') := fun hmem =>
          hcolon ((List.takeWhile_prefix _).subset hmem)
        obtain ⟨zone, _, hzone⟩ := Option.bind_eq_some_iff.1 hv6
        rw [hnone _ hfront] at hzone
        cases hzone

/-- The last part of an IPv4 address is a number. -/
theorem last_of_ipv4FromText (tables : CharTables) {text : List Char} {ip : BitVec 32}
    (h : ipv4FromText text = some ip) :
    '.' ∈ text ∧ ∃ label, (text.splitOn '.').getLast? = some label ∧
      tables.isDigitText label = true := by
  unfold ipv4FromText at h
  split at h
  · rename_i hfour
    constructor
    · by_contra hpoint
      rw [List.splitOn_eq_singleton hpoint] at hfour
      cases hfour
    · obtain ⟨octets, hoctets, _⟩ := Option.map_eq_some_iff.1 h
      cases hlast : (text.splitOn '.').getLast? with
      | none =>
          exact absurd (List.getLast?_eq_none_iff.1 hlast) (List.splitOn_ne_nil _ _)
      | some label =>
          obtain ⟨n, hn⟩ := exists_of_mapM_eq_some hoctets (List.mem_of_getLast? hlast)
          refine ⟨label, rfl, ?_⟩
          have hne : label ≠ [] := by
            rintro rfl
            cases hn
          unfold CharTables.isDigitText
          rw [Bool.and_eq_true, Bool.not_eq_true', List.isEmpty_eq_false_iff, List.all_eq_true]
          refine ⟨hne, ?_⟩
          intro c hc
          have hdigit := isDigit_of_parseOctet hn hc
          have hbounds := toNat_bounds_of_isDigit hdigit
          rw [tables.isDigit_ascii c (by omega), hdigit]
  · cases h

theorem HostOf.not_mem {tables : CharTables} {target host : List Char}
    (h : HostOf tables target host) {c : Char} (hchar : isHostChar c = false) (hfeed : c ≠ '\n')
    (hpoint : c ≠ '.') :
    c ∉ host := by
  intro hmem
  rcases h.mem hmem with heq | heq | heq
  · rw [hchar] at heq
    cases heq
  · exact hfeed heq
  · exact hpoint heq

/-- The end of a host name is no address: the last label is no number. -/
theorem HostOf.ipOrNone_back {tables : CharTables} {target host front back : List Char}
    (h : HostOf tables target host) (hfeed : '\n' ∉ host) (hsplit : host = front ++ back) :
    ipOrNone back = none := by
  have hsub : ∀ c ∈ back, c ∈ host := by
    intro c hc
    rw [hsplit]
    exact List.mem_append_right _ hc
  have hspace : ∀ c ∈ back, isSpace c = false := by
    intro c hc
    rcases h.mem (hsub c hc) with hchar | rfl | rfl
    · have hbounds := toNat_of_isHostChar hchar
      exact (plain_of_visible (by omega)).1
    · exact absurd (hsub _ hc) hfeed
    · decide
  have hcolon : ':' ∉ back := fun hmem =>
    h.not_mem (by decide) (by decide) (by decide) (hsub _ hmem)
  unfold ipOrNone
  rw [stripText_eq_self hspace]
  cases haddress : ipAddress back with
  | none => rfl
  | some address =>
      exfalso
      obtain ⟨ip, hip⟩ := ipv4FromText_of_ipAddress hcolon haddress
      obtain ⟨hpoint, label, hlast, hdigits⟩ := last_of_ipv4FromText tables hip
      have hlabel : (host.splitOn '.').getLast? = some label := by
        rw [hsplit, getLast?_splitOn_append front hpoint, hlast]
      rw [h.last label hlabel] at hdigits
      cases hdigits

/-- The start of a host name is no address, when that of the target is none. -/
theorem HostOf.ipOrNone_front {tables : CharTables} {target host : List Char}
    (h : HostOf tables target host) (hfeed : '\n' ∉ host) (hhyphen : '-' ∈ host)
    (hnone : ipOrNone (target.takeWhile fun c => !decide (c = '-')) = none) :
    ipOrNone (host.takeWhile fun c => !decide (c = '-')) = none := by
  have hmap := h.eq_map
  have htarget : target = (target.rdropWhile fun c => decide (c = '.')) ++
      target.rtakeWhile fun c => decide (c = '.') :=
    List.rdropWhile_append_rtakeWhile.symm
  generalize (target.rdropWhile fun c => decide (c = '.')) = text at hmap htarget
  -- the hyphens of the host name are those of the target
  have hlower : ∀ c, lowerOne c = '-' → c = '-' := fun c hc => eq_of_lowerOne_eq (by decide) hc
  have htext : '-' ∈ text := by
    rw [hmap, List.mem_map] at hhyphen
    obtain ⟨c, hc, heq⟩ := hhyphen
    rwa [← hlower c heq]
  obtain ⟨x, y, hsplit, hx⟩ := List.eq_append_cons_of_mem htext
  have hplain : ∀ c ∈ x, (!decide (c = '-')) = true := by
    intro c hc
    have hne : c ≠ '-' := by
      rintro rfl
      exact hx hc
    simp [hne]
  have hplain' : ∀ c ∈ x.map lowerOne, (!decide (c = '-')) = true := by
    intro c hc
    obtain ⟨d, hd, rfl⟩ := List.mem_map.1 hc
    have hne : lowerOne d ≠ '-' := by
      intro heq
      rw [hlower d heq] at hd
      exact hx hd
    simp [hne]
  have htakeTarget : target.takeWhile (fun c => !decide (c = '-')) = x := by
    rw [htarget, hsplit, List.append_assoc, List.takeWhile_append_of_pos hplain]
    simp
  have htakeHost : host.takeWhile (fun c => !decide (c = '-')) = x.map lowerOne := by
    rw [hmap, hsplit, List.map_append, List.takeWhile_append_of_pos hplain', List.map_cons]
    have hself : lowerOne '-' = '-' := by decide
    simp [hself]
  have hsub : ∀ c ∈ x.map lowerOne, c ∈ host := by
    intro c hc
    rw [hmap, hsplit, List.map_append]
    exact List.mem_append_left _ hc
  have hspace : ∀ c ∈ x.map lowerOne, isSpace c = false := by
    intro c hc
    rcases h.mem (hsub c hc) with hchar | rfl | rfl
    · have hbounds := toNat_of_isHostChar hchar
      exact (plain_of_visible (by omega)).1
    · exact absurd (hsub _ hc) hfeed
    · decide
  have hcolon : ':' ∉ x.map lowerOne := fun hmem =>
    h.not_mem (by decide) (by decide) (by decide) (hsub _ hmem)
  rw [htakeTarget] at hnone
  rw [htakeHost]
  cases haddress : ipOrNone (x.map lowerOne) with
  | none => rfl
  | some address =>
      exfalso
      have hread := haddress
      unfold ipOrNone at hread
      rw [stripText_eq_self hspace] at hread
      obtain ⟨ip, hip⟩ := ipv4FromText_of_ipAddress hcolon hread
      have hfixed : ∀ c ∈ x, lowerOne c = id c := by
        intro c hc
        have hd := mem_of_ipv4FromText hip (List.mem_map_of_mem hc)
        refine (eq_of_lowerOne_eq ?_ rfl).symm
        rcases hd with hdigit | hpoint
        · have hbounds := toNat_bounds_of_isDigit hdigit
          omega
        · rw [hpoint]
          decide
      have hsame : x.map lowerOne = x := by
        rw [List.map_congr_left hfixed, List.map_id]
      rw [hsame, hnone] at haddress
      cases haddress

/-- How a host name is read. -/
theorem readStripped_eq_host {tables : CharTables} {target : List Char} {host : List Char}
    (h : readStripped tables target = .ok (.host host)) :
    HostOf tables target host ∧
      ('-' ∈ target → ipOrNone (target.takeWhile fun c => !decide (c = '-')) = none) := by
  have hhost : readHost tables target = .ok (.host host) → HostOf tables target host := by
    intro hread
    obtain ⟨name, hname, hof⟩ := hostOf_of_readHost hread
    rwa [Target.host.inj hname]
  unfold readStripped at h
  split at h
  · split at h <;> cases h
  · split at h
    · split at h
      · rename_i hfirst _
        exact ⟨hhost h, fun _ => hfirst⟩
      · split at h <;> cases h
      · cases h
      · cases h
    · rename_i hhyphen
      split at h
      · split at h <;> cases h
      · exact ⟨hhost h, fun hmem => absurd hmem hhyphen⟩

/-- A canonical host name is read back. -/
theorem readStripped_host {tables : CharTables} {target host : List Char}
    (h : readStripped tables target = .ok (.host host)) (hfeed : '\n' ∉ host) :
    readStripped tables host = .ok (.host host) := by
  obtain ⟨hof, hfirst⟩ := readStripped_eq_host h
  have hslash : '/' ∉ host := hof.not_mem (by decide) (by decide) (by decide)
  have hcolon : ':' ∉ host := hof.not_mem (by decide) (by decide) (by decide)
  unfold readStripped
  rw [if_neg hslash]
  by_cases hhyphen : '-' ∈ host
  · have hmem : '-' ∈ target := by
      have hmap := hof.eq_map
      rw [hmap, List.mem_map] at hhyphen
      obtain ⟨c, hc, heq⟩ := hhyphen
      have hc' : c = '-' := eq_of_lowerOne_eq (by decide) heq
      rw [hc'] at hc
      exact (List.rdropWhile_prefix _ _).subset hc
    have hfront := hof.ipOrNone_front hfeed hhyphen (hfirst hmem)
    have hback : ipOrNone (host.dropWhile fun c => !decide (c = '-')).tail = none := by
      cases hdrop : host.dropWhile fun c => !decide (c = '-') with
      | nil =>
          exact hof.ipOrNone_back hfeed (List.append_nil host).symm
      | cons c rest =>
          have hsplit : host = (host.takeWhile fun c => !decide (c = '-')) ++ [c] ++ rest := by
            rw [List.append_assoc, List.singleton_append, ← hdrop,
              List.takeWhile_append_dropWhile]
          exact hof.ipOrNone_back hfeed hsplit
    rw [if_pos hhyphen, hfront, hback]
    exact hof.self.readHost
  · have hform : ¬ (':' ∈ host ∨
        tables.isDigitText (host.filter fun c => !decide (c = '.')) = true) := by
      rintro (hmem | hdigits)
      · exact hcolon hmem
      · cases hlast : (host.splitOn '.').getLast? with
        | none => exact List.splitOn_ne_nil _ _ (List.getLast?_eq_none_iff.1 hlast)
        | some label =>
            have hmem := List.mem_of_getLast? hlast
            have hlabel := hof.last label hlast
            have hne := ne_nil_of_hostLabelMatches (hof.labels label hmem)
            unfold CharTables.isDigitText at hlabel hdigits
            rw [List.isEmpty_eq_false_iff.2 hne, Bool.not_false, Bool.true_and] at hlabel
            rw [Bool.and_eq_true, List.all_eq_true] at hdigits
            rw [List.all_eq_false] at hlabel
            obtain ⟨c, hc, hdigit⟩ := hlabel
            have hchost : c ∈ host := by
              rw [← @List.intercalate_splitOn _ host _ _ '.']
              exact mem_intercalate_of_mem hmem hc
            have hpoint : c ≠ '.' := by
              rintro rfl
              exact not_mem_of_mem_splitOn hmem hc
            exact hdigit (hdigits.2 c (List.mem_filter.2 ⟨hchost, by simp [hpoint]⟩))
    rw [if_neg hhyphen, if_neg hform]
    exact hof.self.readHost

/-! ## Canonical texts -/

/-- How an address is read. -/
theorem readStripped_eq_address {tables : CharTables} {target : List Char} {address : IpAddress}
    (h : readStripped tables target = .ok (.address address)) :
    '-' ∉ target ∧ ipAddress target = some address := by
  have hhost : readHost tables target ≠ .ok (.address address) := by
    intro hread
    obtain ⟨_, hname, _⟩ := hostOf_of_readHost hread
    cases hname
  unfold readStripped at h
  split at h
  · split at h <;> cases h
  · split at h
    · split at h
      · exact absurd h hhost
      · split at h <;> cases h
      · cases h
      · cases h
    · rename_i hhyphen
      split at h
      · split at h
        · rename_i found hfound
          rw [hfound, Target.address.inj (Except.ok.inj h)]
          exact ⟨hhyphen, rfl⟩
        · cases h
      · exact absurd h hhost

/-- How a range is read. -/
theorem readStripped_eq_range {tables : CharTables} {target : List Char} {first last : IpAddress}
    (h : readStripped tables target = .ok (.range first last)) :
    ipOrNone (target.takeWhile fun c => !decide (c = '-')) = some first ∧
      first.version = last.version ∧ first.toNat ≤ last.toNat := by
  have hhost : readHost tables target ≠ .ok (.range first last) := by
    intro hread
    obtain ⟨_, hname, _⟩ := hostOf_of_readHost hread
    cases hname
  unfold readStripped at h
  split at h
  · split at h <;> cases h
  · split at h
    · split at h
      · exact absurd h hhost
      · rename_i a b hfirst hlast
        split at h
        · cases h
        · rename_i hordered
          obtain ⟨rfl, rfl⟩ := Target.range.inj (Except.ok.inj h)
          rw [not_or, not_not, Nat.not_lt] at hordered
          exact ⟨hfirst, hordered⟩
      · cases h
      · cases h
    · split at h
      · split at h <;> cases h
      · exact absurd h hhost

theorem mem_of_mem_stripText {text : List Char} {c : Char} (h : c ∈ stripText text) :
    c ∈ text :=
  (List.dropWhile_suffix _).subset ((List.rdropWhile_prefix _ _).subset h)

theorem mem_text_of_mem_zone {address : IpAddress} {zone : Zone} (h : address.zone = some zone)
    {c : Char} (hc : c ∈ zone.text) :
    c ∈ address.text := by
  cases address with
  | v4 ip => cases h
  | v6 ip z =>
      obtain rfl : z = some zone := h
      exact List.mem_append_right _ (List.mem_cons_of_mem _ hc)

theorem hyphen_not_mem_text {text : List Char} {address : IpAddress}
    (h : ipAddress text = some address) (hhyphen : '-' ∉ text) :
    '-' ∉ address.text := by
  intro hmem
  rcases IpAddress.mem_text hmem with hdigit | heq | heq | heq | ⟨zone, hzone, hchar⟩
  · exact absurd hdigit (by decide)
  · exact absurd heq (by decide)
  · exact absurd heq (by decide)
  · exact absurd heq (by decide)
  · obtain ⟨front, rfl⟩ := zone_of_ipAddress h hzone
    exact hhyphen (List.mem_append_right _ (List.mem_cons_of_mem _ hchar))

theorem text_ne_nil (address : IpAddress) :
    address.text ≠ [] := by
  cases address with
  | v4 ip => exact List.ne_nil_of_mem (point_mem_ipv4Text ip)
  | v6 ip zone =>
      cases zone with
      | none => exact List.ne_nil_of_mem (colon_mem_ipv6Text ip)
      | some zone => exact List.ne_nil_of_mem (List.mem_append_left _ (colon_mem_ipv6Text ip))

theorem HostOf.feed_iff {tables : CharTables} {target host : List Char}
    (h : HostOf tables target host) :
    '\n' ∈ host ↔ '\n' ∈ target := by
  have htarget : target = (target.rdropWhile fun c => decide (c = '.')) ++
      target.rtakeWhile fun c => decide (c = '.') :=
    List.rdropWhile_append_rtakeWhile.symm
  rw [h.eq_map, List.mem_map]
  constructor
  · rintro ⟨c, hc, heq⟩
    rw [← eq_of_lowerOne_eq (by decide) heq]
    exact (List.rdropWhile_prefix _ _).subset hc
  · intro hmem
    rw [htarget] at hmem
    rcases List.mem_append.1 hmem with hfront | hback
    · exact ⟨'\n', hfront, by decide⟩
    · have hpoint := List.mem_rtakeWhile_imp hback
      exact absurd (of_decide_eq_true hpoint) (by decide)

theorem HostOf.isHostName {tables : CharTables} {target host : List Char}
    (h : HostOf tables target host) (hfeed : '\n' ∉ host) :
    IsHostName host := by
  refine ⟨host.splitOn '.', List.splitOn_ne_nil _ _, (List.intercalate_splitOn '.').symm, ?_⟩
  intro label hlabel
  have hmatch := h.labels label hlabel
  rw [hostLabelMatches_eq] at hmatch
  · exact hmatch
  · intro hmem
    apply hfeed
    rw [← @List.intercalate_splitOn _ host _ _ '.']
    exact mem_intercalate_of_mem hlabel hmem

/-- The canonical text of what is read has no odd characters. -/
theorem Sound.plain {tables : CharTables} {value : String} {target : Target}
    (hread : readStripped tables (stripText value.toList) = .ok target) (h : Sound value target)
    {c : Char} (hc : c ∈ target.text) :
    isSpace c = false ∧ isControl c = false := by
  cases target with
  | network network =>
      have hzone : PlainZone network.address := by
        intro zone hzone
        exact h.zones zone (Option.mem_toList.2 hzone)
      rcases List.mem_append.1 hc with haddress | hrest
      · exact plain_text hzone haddress
      · rcases List.mem_cons.1 hrest with rfl | hdigits
        · decide
        · have hbounds := toNat_bounds_of_isDigit (isDigit_of_mem_decimal hdigits)
          exact plain_of_visible (by omega)
  | range first last =>
      have hfirst : PlainZone first := fun zone hzone =>
        h.zones zone (List.mem_append_left _ (Option.mem_toList.2 hzone))
      have hlast : PlainZone last := fun zone hzone =>
        h.zones zone (List.mem_append_right _ (Option.mem_toList.2 hzone))
      rcases List.mem_append.1 hc with hfront | hrest
      · exact plain_text hfirst hfront
      · rcases List.mem_cons.1 hrest with rfl | hback
        · decide
        · exact plain_text hlast hback
  | address address =>
      exact plain_text (fun zone hzone => h.zones zone (Option.mem_toList.2 hzone)) hc
  | host name =>
      obtain ⟨hof, _⟩ := readStripped_eq_host hread
      rcases hof.mem hc with hchar | rfl | rfl
      · have hbounds := toNat_of_isHostChar hchar
        exact plain_of_visible (by omega)
      · exact absurd (hof.feed_iff.1 hc) (h.labels rfl)
      · decide

/-- The canonical text of what is read is read back. -/
theorem Sound.readStripped_text {tables : CharTables} {value : String} {target : Target}
    (hread : readStripped tables (stripText value.toList) = .ok target)
    (h : Sound value target) :
    readStripped tables target.text = .ok target ∧ target.text ≠ [] ∧ InGrammar target.text := by
  cases target with
  | network network =>
      refine ⟨readStripped_network tables network, ?_, .inr (.inl ⟨network, rfl⟩)⟩
      simp [Target.text, IpNetwork.text]
  | range first last =>
      obtain ⟨hfirst, hversion, hle⟩ := readStripped_eq_range hread
      have hhyphen : '-' ∉ first.text := by
        apply hyphen_not_mem_text hfirst
        intro hmem
        have htake := List.mem_takeWhile_imp (mem_of_mem_stripText hmem)
        exact absurd htake (by decide)
      have hplainFirst : PlainZone first := fun zone hzone =>
        h.zones zone (List.mem_append_left _ (Option.mem_toList.2 hzone))
      have hplainLast : PlainZone last := fun zone hzone =>
        h.zones zone (List.mem_append_right _ (Option.mem_toList.2 hzone))
      refine ⟨readStripped_range tables hversion hle hhyphen hplainFirst hplainLast, ?_,
        .inr (.inr (.inl ⟨first, last, hversion, hle, rfl⟩))⟩
      simp [Target.text]
  | address address =>
      obtain ⟨hhyphen, hfound⟩ := readStripped_eq_address hread
      exact ⟨readStripped_address tables (hyphen_not_mem_text hfound hhyphen), text_ne_nil address,
        .inl ⟨address, rfl⟩⟩
  | host name =>
      obtain ⟨hof, _⟩ := readStripped_eq_host hread
      have hfeed : '\n' ∉ name := fun hmem => h.labels rfl (hof.feed_iff.1 hmem)
      exact ⟨readStripped_host hread hfeed, hof.ne_nil, .inr (.inr (.inr (hof.isHostName hfeed)))⟩

theorem readTarget_eq_ok_iff {tables : CharTables} {value : String} {target : Target} :
    readTarget tables value = .ok target ↔
      stripText value.toList ≠ [] ∧ (stripText value.toList).length ≤ maxTargetLength ∧
        readStripped tables (stripText value.toList) = .ok target := by
  unfold readTarget
  dsimp only
  by_cases hempty : stripText value.toList = []
  · simp [hempty]
  · rw [if_neg (by simpa using hempty)]
    by_cases hlong : maxTargetLength < (stripText value.toList).length
    · simp [hlong]
    · simp [hlong, hempty, Nat.le_of_not_lt hlong]

theorem normalizeScanTarget_eq_ok_iff {tables : CharTables} {value text : String} :
    normalizeScanTarget tables value = .ok text ↔
      ∃ target, readTarget tables value = .ok target ∧ text = String.ofList target.text := by
  unfold normalizeScanTarget
  cases readTarget tables value with
  | error e => simp
  | ok target =>
      constructor
      · intro h
        exact ⟨target, rfl, (Except.ok.inj h).symm⟩
      · rintro ⟨other, hother, rfl⟩
        rw [Except.ok.inj hother]

/-- The canonical text is canonical exactly when it is clean. -/
theorem canonical_iff_sound {tables : CharTables} {value : String} {target : Target}
    (h : readTarget tables value = .ok target) :
    Canonical tables (String.ofList target.text) ↔ Sound value target := by
  obtain ⟨_, _, hread⟩ := readTarget_eq_ok_iff.1 h
  have hlist : (String.ofList target.text).toList = target.text := String.toList_ofList
  constructor
  · intro hcanonical
    have hplain := hcanonical.plain
    rw [hlist] at hplain
    refine ⟨?_, ?_, ?_⟩
    · intro hhost hmem
      cases target with
      | network network => cases hhost
      | range first last => cases hhost
      | address address => cases hhost
      | host name =>
          obtain ⟨hof, _⟩ := readStripped_eq_host hread
          have hcontrol := (hplain '\n' (hof.feed_iff.2 hmem)).2
          exact absurd hcontrol (by decide)
    · intro zone hzone c hc
      apply hplain c
      cases target with
      | network network =>
          exact List.mem_append_left _ (mem_text_of_mem_zone (Option.mem_toList.1 hzone) hc)
      | range first last =>
          rcases List.mem_append.1 hzone with hfirst | hlast
          · exact List.mem_append_left _ (mem_text_of_mem_zone (Option.mem_toList.1 hfirst) hc)
          · exact List.mem_append_right _ (List.mem_cons_of_mem _
              (mem_text_of_mem_zone (Option.mem_toList.1 hlast) hc))
      | address address => exact mem_text_of_mem_zone (Option.mem_toList.1 hzone) hc
      | host name => cases hzone
    · obtain ⟨other, hother, _⟩ := normalizeScanTarget_eq_ok_iff.1 hcanonical.fixed
      have hlength := (readTarget_eq_ok_iff.1 hother).2.1
      rw [hlist, stripText_eq_self fun c hc => (hplain c hc).1] at hlength
      exact hlength
  · intro hsound
    obtain ⟨hback, hne, hgrammar⟩ := hsound.readStripped_text hread
    have hplain : ∀ c ∈ target.text, isSpace c = false ∧ isControl c = false :=
      fun c hc => hsound.plain hread hc
    have hstrip : stripText target.text = target.text :=
      stripText_eq_self fun c hc => (hplain c hc).1
    refine ⟨?_, ?_, ?_⟩
    · rw [hlist]
      exact hgrammar
    · rw [hlist]
      exact hplain
    · rw [normalizeScanTarget_eq_ok_iff]
      refine ⟨target, ?_, rfl⟩
      rw [readTarget_eq_ok_iff, hlist, hstrip]
      exact ⟨hne, hsound.fits, hback⟩

/-! ## Lists of targets -/

/-- The targets of a list. -/
theorem mem_of_mapM_eq_ok {tables : CharTables} {values targets : List String}
    (h : values.mapM (normalizeScanTarget tables) = .ok targets) (text : String) :
    text ∈ targets ↔ ∃ value ∈ values, normalizeScanTarget tables value = .ok text := by
  induction values generalizing targets with
  | nil =>
      obtain rfl : [] = targets := Except.ok.inj h
      simp
  | cons value values ih =>
      rw [List.mapM_cons] at h
      cases hvalue : normalizeScanTarget tables value with
      | error e =>
          rw [hvalue] at h
          cases h
      | ok first =>
          cases hrest : values.mapM (normalizeScanTarget tables) with
          | error e =>
              rw [hvalue, hrest] at h
              cases h
          | ok rest =>
              rw [hvalue, hrest] at h
              obtain rfl : first :: rest = targets := Except.ok.inj h
              rw [List.mem_cons, ih hrest]
              constructor
              · rintro (rfl | ⟨other, hother, htext⟩)
                · exact ⟨value, List.mem_cons_self, hvalue⟩
                · exact ⟨other, List.mem_cons_of_mem _ hother, htext⟩
              · rintro ⟨other, hother, htext⟩
                rcases List.mem_cons.1 hother with rfl | hmem
                · rw [hvalue] at htext
                  exact .inl (Except.ok.inj htext).symm
                · exact .inr ⟨other, hmem, htext⟩

/-- The targets of a list are rejected when one of them is. -/
theorem mapM_eq_error {tables : CharTables} {values : List String} {error : TargetError}
    (h : values.mapM (normalizeScanTarget tables) = .error error) :
    ∃ value ∈ values, normalizeScanTarget tables value = .error error := by
  induction values with
  | nil => cases h
  | cons value values ih =>
      rw [List.mapM_cons] at h
      cases hvalue : normalizeScanTarget tables value with
      | error e =>
          rw [hvalue] at h
          obtain rfl : e = error := Except.error.inj h
          exact ⟨value, List.mem_cons_self, hvalue⟩
      | ok first =>
          cases hrest : values.mapM (normalizeScanTarget tables) with
          | error e =>
              rw [hvalue, hrest] at h
              obtain rfl : e = error := Except.error.inj h
              obtain ⟨other, hother, hmem⟩ := ih hrest
              exact ⟨other, List.mem_cons_of_mem _ hother, hmem⟩
          | ok rest =>
              rw [hvalue, hrest] at h
              cases h

/-- When the result is canonical, and what the list of targets holds. -/
theorem normalize_scan_targets (tables : CharTables) :
    (∀ value, (∀ text, normalizeScanTarget tables value = .ok text → Canonical tables text) ↔
      ∀ target, readTarget tables value = .ok target → Sound value target) ∧
    (∀ values targets, normalizeScanTargets tables values = .ok targets →
      targets.Nodup ∧ ∀ text, text ∈ targets ↔
        ∃ value ∈ values, normalizeScanTarget tables value = .ok text) ∧
    (∀ values error, normalizeScanTargets tables values = .error error →
      ∃ value ∈ values, normalizeScanTarget tables value = .error error) := by
  refine ⟨?_, ?_, ?_⟩
  · intro value
    constructor
    · intro h target hread
      apply (canonical_iff_sound hread).1
      exact h _ (normalizeScanTarget_eq_ok_iff.2 ⟨target, hread, rfl⟩)
    · intro h text hnormalize
      obtain ⟨target, hread, rfl⟩ := normalizeScanTarget_eq_ok_iff.1 hnormalize
      exact (canonical_iff_sound hread).2 (h target hread)
  · intro values targets h
    unfold normalizeScanTargets at h
    split at h
    · rename_i found hfound
      obtain rfl : fromKeys found = targets := Except.ok.inj h
      refine ⟨nodup_fromKeys found, ?_⟩
      intro text
      rw [mem_fromKeys, mem_of_mapM_eq_ok hfound]
    · cases h
  · intro values error h
    unfold normalizeScanTargets at h
    split at h
    · cases h
    · rename_i found hfound
      obtain rfl : found = error := Except.error.inj h
      exact mapM_eq_error hfound

/-- A line feed inside a host name stays in it. -/
theorem line_feed_in_host_name :
    ¬ ∀ text, normalizeScanTarget CharTables.ascii "a\n.b" = .ok text →
      Canonical CharTables.ascii text := by
  intro h
  have hresult : normalizeScanTarget CharTables.ascii "a\n.b" = .ok "a\n.b" := by decide +kernel
  have hplain := (h "a\n.b" hresult).plain '\n' (by decide +kernel)
  exact absurd hplain.2 (by decide)

end Scanner
end MpvmApp
