import MpvmApp.Exports.Removal
import MpvmApp.Lib.CharTables
import MpvmApp.Lib.IpNetwork

/-!
# Queries for the assets of a target

A target or an address from a CSV text becomes a literal of a PDQL query.  What
`ipaddress` reads is written into the query as it is; any other target is
written between quotes, with a backslash before each quote and backslash.

Main definitions:

- `buildAssetResolutionPdql`: the query for the assets of a target.
- `readLiteral`: how a quoted text of a query is read.
- `ResolutionQuery`, `IdQuery`: a query with one literal for each value.

Main results:

- Theorem `readLiteral_pdqlQuote`: a quoted text is read to its end, and gives the
  text that was quoted.
- Theorem `queries_hold_literals`: the queries hold literals only, exactly when no
  value is an address with a zone.
-/

namespace MpvmApp
namespace Scanner

open Sql Ip Exports

/-! ## Quoted texts -/

/-- The character that opens and closes a quoted text. -/
def pdqlMark : Char :=
  Char.ofNat 39

/-- The character that escapes the next one in a quoted text. -/
def pdqlEscape : Char :=
  Char.ofNat 92

/-- `str.replace` of one character. -/
def replaceChar (old : Char) (new text : List Char) : List Char :=
  text.flatMap fun c => if c = old then new else [c]

/-- `pdql_quote`. -/
def pdqlQuote (value : List Char) : List Char :=
  [pdqlMark] ++
    replaceChar pdqlMark [pdqlEscape, pdqlMark]
      (replaceChar pdqlEscape [pdqlEscape, pdqlEscape] value) ++ [pdqlMark]

/-- The rest of a quoted text: what it stands for, and what follows its closing mark. -/
def readQuoted : List Char → Option (List Char × List Char)
  | [] => none
  | [c] => if c = pdqlMark then some ([], []) else none
  | c :: d :: rest =>
      if c = pdqlMark then some ([], d :: rest)
      else if c = pdqlEscape then (readQuoted rest).map fun found => (d :: found.1, found.2)
      else (readQuoted (d :: rest)).map fun found => (c :: found.1, found.2)

/-- The quoted text at the start of a query, and what follows it. -/
def readLiteral : List Char → Option (List Char × List Char)
  | [] => none
  | c :: rest => if c = pdqlMark then readQuoted rest else none

theorem readQuoted_mark (rest : List Char) :
    readQuoted (pdqlMark :: rest) = some ([], rest) := by
  cases rest <;> simp [readQuoted]

theorem readQuoted_escape (c : Char) (rest : List Char) :
    readQuoted (pdqlEscape :: c :: rest) =
      (readQuoted rest).map fun found => (c :: found.1, found.2) := by
  have hne : pdqlEscape ≠ pdqlMark := by decide
  rw [readQuoted, if_neg hne, if_pos rfl]

theorem readQuoted_plain {c : Char} (hmark : c ≠ pdqlMark) (hescape : c ≠ pdqlEscape)
    {rest : List Char} (h : rest ≠ []) :
    readQuoted (c :: rest) = (readQuoted rest).map fun found => (c :: found.1, found.2) := by
  cases rest with
  | nil => exact absurd rfl h
  | cons d rest => rw [readQuoted, if_neg hmark, if_neg hescape]

/-- The characters that stand for one character between quotes. -/
def quotedChar (c : Char) : List Char :=
  if c = pdqlEscape then [pdqlEscape, pdqlEscape]
  else if c = pdqlMark then [pdqlEscape, pdqlMark]
  else [c]

theorem pdqlQuote_eq (value : List Char) :
    pdqlQuote value = pdqlMark :: (value.flatMap quotedChar ++ [pdqlMark]) := by
  have hchar : ∀ c, replaceChar pdqlMark [pdqlEscape, pdqlMark]
      (if c = pdqlEscape then [pdqlEscape, pdqlEscape] else [c]) = quotedChar c := by
    intro c
    have hne : pdqlEscape ≠ pdqlMark := by decide
    unfold quotedChar
    split
    · simp [replaceChar, hne]
    · simp [replaceChar]
  unfold pdqlQuote
  rw [List.singleton_append, List.cons_append]
  congr 2
  unfold replaceChar at *
  rw [List.flatMap_assoc]
  congr 1
  funext c
  exact hchar c

theorem readQuoted_quotedChar (c : Char) {rest : List Char} (h : rest ≠ []) :
    readQuoted (quotedChar c ++ rest) =
      (readQuoted rest).map fun found => (c :: found.1, found.2) := by
  unfold quotedChar
  split
  · rename_i hc
    rw [hc]
    exact readQuoted_escape pdqlEscape rest
  · split
    · rename_i hc
      rw [hc]
      exact readQuoted_escape pdqlMark rest
    · rename_i hescape hmark
      exact readQuoted_plain hmark hescape h

theorem readQuoted_quotedChars (value rest : List Char) :
    readQuoted (value.flatMap quotedChar ++ pdqlMark :: rest) = some (value, rest) := by
  induction value with
  | nil => exact readQuoted_mark rest
  | cons c value ih =>
      rw [List.flatMap_cons, List.append_assoc, readQuoted_quotedChar c (by simp), ih]
      rfl

/-- A quoted text is one literal, which stands for the text that was quoted. -/
theorem readLiteral_pdqlQuote (value rest : List Char) :
    readLiteral (pdqlQuote value ++ rest) = some (value, rest) := by
  rw [pdqlQuote_eq, List.cons_append, List.append_assoc, List.singleton_append, readLiteral,
    if_pos rfl]
  exact readQuoted_quotedChars value rest

/-! ## The queries -/

/-- `str(ipaddress.ip_address(x))`, or none for a `ValueError`. -/
def ipText (text : String) : Option String :=
  (ipAddress text.toList).map fun address => String.ofList address.text

/-- A runtime with the addresses of `ipaddress`. -/
def withIpAddress (rt : Runtime) : Runtime :=
  { rt with ipAddress := ipText }

/-- The columns of the query for the assets of a target. -/
def assetResolutionPdql : String :=
  "select(Host.@Id as AssetId, @Host as HostName, Host.IpAddress as IpAddress, " ++
    "Host.Fqdn as Fqdn, Host.@CreationTime as CreationTime, " ++
    "Host.@UpdateTime as UpdateTime)"

/-- The exception for a target without text. -/
def emptyTarget : Failure :=
  .remote "Cannot build an asset resolution query for an empty target."

/-- The query with a predicate. -/
def resolutionPdql (predicate : String) : String :=
  "filter(" ++ predicate ++ ") | " ++ assetResolutionPdql

/-- The predicate for a host name. -/
def fqdnPredicate (value : String) : String :=
  "Host.Fqdn = " ++ String.ofList (pdqlQuote value.toList)

/-- The query for the assets of a target. -/
def buildAssetResolutionPdql (target : String) : Except Failure String :=
  let value := strip target
  if value = "" then .error emptyTarget
  else if '/' ∈ value.toList then
    match ipNetwork value.toList with
    | some network =>
        .ok (resolutionPdql ("Host.@IpAddresses.Item in " ++ String.ofList network.text))
    | none => .ok (resolutionPdql (fqdnPredicate value))
  else
    match ipAddress value.toList with
    | some address =>
        .ok (resolutionPdql ("Host.@IpAddresses contains " ++ String.ofList address.text))
    | none => .ok (resolutionPdql (fqdnPredicate value))

/-! ## Literals -/

/-- The characters of an address or a network in a query. -/
def isTokenChar (c : Char) : Bool :=
  Numerals.isHexDigit c || c == '.' || c == ':' || c == '/'

/-- The text of an address or a network, without other characters. -/
structure IpToken (literal : String) : Prop where
  text : (∃ address : IpAddress, literal.toList = address.text) ∨
    ∃ network : IpNetwork, literal.toList = network.text
  plain : ∀ c ∈ literal.toList, isTokenChar c = true

/-- The places of a literal in the query for the assets of a target. -/
inductive Place where
  | inNetwork
  | containsAddress
  | fqdn
deriving DecidableEq

/-- The predicate before the literal. -/
def Place.front : Place → String
  | .inNetwork => "Host.@IpAddresses.Item in "
  | .containsAddress => "Host.@IpAddresses contains "
  | .fqdn => "Host.Fqdn = "

/-- What stands at a place: an address or a network, or one quoted text. -/
def Place.Holds (value literal : String) : Place → Prop
  | .fqdn => readLiteral literal.toList = some (value.toList, [])
  | .inNetwork | .containsAddress => IpToken literal

/-- The query is the template of a place with one literal in it. -/
def ResolutionQuery (value pdql : String) : Prop :=
  ∃ place : Place, ∃ literal, place.Holds value literal ∧
    pdql = resolutionPdql (place.front ++ literal)

/-- The query for ids with literals in it, or the one without a filter. -/
def idTemplate (literals : List String) : String :=
  if literals = [] then assetIdPdql
  else
    "filter(Host.@IpAddresses intersect [" ++ String.intercalate ", " literals ++ "]) | " ++
      assetIdPdql

/-- The query has one literal for each value that is an address. -/
def IdQuery (ips : List String) (pdql : String) : Prop :=
  ∃ literals : List String, pdql = idTemplate literals ∧
    literals.length = (ips.filter fun ip => (ipText (strip ip)).isSome).length ∧
    ∀ literal ∈ literals, IpToken literal

/-- The stripped target is no address or network that keeps a zone. -/
def TargetWithoutZone (value : String) : Prop :=
  if '/' ∈ value.toList then
    ∀ network, ipNetwork value.toList = some network → network.address.zone = none
  else
    ∀ address, ipAddress value.toList = some address → address.zone = none

/-- The value is no address with a zone. -/
def AddressWithoutZone (ip : String) : Prop :=
  ∀ address, ipAddress (strip ip).toList = some address → address.zone = none

/-! ## Zones in literals -/

theorem isTokenChar_of_mem_text {address : IpAddress} (h : address.zone = none) {c : Char}
    (hc : c ∈ address.text) :
    isTokenChar c = true := by
  unfold isTokenChar
  have hpercent : c ≠ '%' := by
    rintro rfl
    cases address with
    | v4 ip => rcases mem_ipv4Text hc with hdigit | heq <;> simp at *
    | v6 ip zone =>
        obtain rfl : zone = none := h
        exact not_mem_ipv6Text (by decide) (by decide) (by decide) hc
  rcases IpAddress.mem_text hc with hdigit | heq | heq | heq | ⟨zone, hzone, _⟩
  · simp [hdigit]
  · simp [heq]
  · simp [heq]
  · exact absurd heq hpercent
  · rw [h] at hzone
    cases hzone

theorem percent_mem_text {address : IpAddress} (h : address.zone ≠ none) :
    '%' ∈ address.text := by
  cases address with
  | v4 ip => exact absurd rfl h
  | v6 ip zone =>
      cases zone with
      | none => exact absurd rfl h
      | some zone => exact List.mem_append_right _ List.mem_cons_self

theorem ipToken_address_iff (address : IpAddress) :
    IpToken (String.ofList address.text) ↔ address.zone = none := by
  constructor
  · intro h
    by_contra hzone
    have hmem : '%' ∈ (String.ofList address.text).toList := by
      rw [String.toList_ofList]
      exact percent_mem_text hzone
    exact absurd (h.plain '%' hmem) (by decide)
  · intro h
    refine ⟨.inl ⟨address, String.toList_ofList⟩, ?_⟩
    intro c hc
    rw [String.toList_ofList] at hc
    exact isTokenChar_of_mem_text h hc

/-- A written network is a token exactly when its address has no zone. -/
theorem ipToken_network_iff (network : IpNetwork) :
    IpToken (String.ofList network.text) ↔ network.address.zone = none := by
  constructor
  · intro h
    by_contra hzone
    have hmem : '%' ∈ (String.ofList network.text).toList := by
      rw [String.toList_ofList]
      exact List.mem_append_left _ (percent_mem_text hzone)
    exact absurd (h.plain '%' hmem) (by decide)
  · intro h
    refine ⟨.inr ⟨network, String.toList_ofList⟩, ?_⟩
    intro c hc
    rw [String.toList_ofList] at hc
    rcases List.mem_append.1 hc with haddress | hprefix
    · exact isTokenChar_of_mem_text h haddress
    · rcases List.mem_cons.1 hprefix with rfl | hdigit
      · decide
      · have hhex := isHexDigit_of_isDigit (isDigit_of_mem_decimal hdigit)
        simp [isTokenChar, hhex]

/-! ## The query for a target -/

theorem resolutionPdql_inj {predicate other : String}
    (h : resolutionPdql predicate = resolutionPdql other) :
    predicate = other := by
  unfold resolutionPdql at h
  have hopen := (String.append_left_inj _).1 ((String.append_left_inj _).1 h)
  exact (String.append_right_inj _).1 hopen

theorem resolutionPdql_front_inj {place other : Place} {literal found : String}
    (h : resolutionPdql (place.front ++ literal) = resolutionPdql (other.front ++ found)) :
    place = other ∧ literal = found := by
  have hbody := resolutionPdql_inj h
  have hplace : place = other := by
    have hlist := congrArg String.toList hbody
    rw [String.toList_append, String.toList_append] at hlist
    cases place <;> cases other <;> simp [Place.front] at hlist ⊢
  subst hplace
  exact ⟨rfl, (String.append_right_inj _).1 hbody⟩

theorem resolutionQuery_iff {value literal : String} (place : Place) :
    ResolutionQuery value (resolutionPdql (place.front ++ literal)) ↔
      place.Holds value literal := by
  constructor
  · rintro ⟨other, found, hholds, heq⟩
    obtain ⟨rfl, rfl⟩ := resolutionPdql_front_inj heq
    exact hholds
  · intro h
    exact ⟨place, literal, h, rfl⟩

theorem resolutionQuery_fqdn (value : String) :
    ResolutionQuery value (resolutionPdql (fqdnPredicate value)) := by
  apply (resolutionQuery_iff Place.fqdn).2
  have hread := readLiteral_pdqlQuote value.toList []
  rw [List.append_nil] at hread
  unfold Place.Holds
  rw [String.toList_ofList]
  exact hread

/-- The query for a target has one literal exactly when the target has no zone. -/
theorem buildAssetResolutionPdql_iff (target : String) :
    (∀ pdql, buildAssetResolutionPdql target = .ok pdql → ResolutionQuery (strip target) pdql) ↔
      TargetWithoutZone (strip target) := by
  unfold buildAssetResolutionPdql TargetWithoutZone
  generalize strip target = value
  dsimp only
  have hone (query : String) (P : Prop) (h : ResolutionQuery value query ↔ P) :
      (∀ pdql, (Except.ok query : Except Failure String) = .ok pdql →
        ResolutionQuery value pdql) ↔ P := by
    rw [← h]
    constructor
    · exact fun hall => hall query rfl
    · intro hquery pdql heq
      rwa [← Except.ok.inj heq]
  by_cases hempty : value = ""
  · subst hempty
    rw [if_pos rfl, if_neg (by decide)]
    have hnone : ipAddress "".toList = none := by decide
    constructor
    · intro _ address hread
      rw [hnone] at hread
      cases hread
    · intro _ pdql heq
      cases heq
  · rw [if_neg hempty]
    by_cases hslash : '/' ∈ value.toList
    · rw [if_pos hslash, if_pos hslash]
      cases hread : ipNetwork value.toList with
      | none =>
          apply hone
          simp [resolutionQuery_fqdn value]
      | some network =>
          apply hone
          refine (resolutionQuery_iff Place.inNetwork).trans ?_
          refine (ipToken_network_iff network).trans ?_
          simp
    · rw [if_neg hslash, if_neg hslash]
      cases hread : ipAddress value.toList with
      | none =>
          apply hone
          simp [resolutionQuery_fqdn value]
      | some address =>
          apply hone
          refine (resolutionQuery_iff Place.containsAddress).trans ?_
          refine (ipToken_address_iff address).trans ?_
          simp

/-! ## The query for addresses -/

theorem buildAssetIdPdqlForIps_eq_template (rt : Runtime) (ips : List String) :
    buildAssetIdPdqlForIps (withIpAddress rt) ips =
      idTemplate (ips.filterMap fun ip => ipText (strip ip)) := by
  unfold buildAssetIdPdqlForIps idTemplate
  dsimp only [withIpAddress]

theorem idTemplate_inj {tokens literals : List String} (htokens : tokens ≠ [])
    (hliterals : literals ≠ []) (h : idTemplate tokens = idTemplate literals) :
    String.intercalate ", " tokens = String.intercalate ", " literals := by
  unfold idTemplate at h
  rw [if_neg htokens, if_neg hliterals] at h
  have hopen := (String.append_left_inj _).1 ((String.append_left_inj _).1 h)
  exact (String.append_right_inj _).1 hopen

theorem percent_not_mem_intercalate {literals : List String}
    (h : ∀ literal ∈ literals, IpToken literal) :
    '%' ∉ (String.intercalate ", " literals).toList := by
  intro hmem
  rw [String.toList_intercalate] at hmem
  rcases mem_intercalate hmem with hsep | ⟨part, hpart, hmark⟩
  · exact absurd hsep (by decide)
  · obtain ⟨literal, hliteral, rfl⟩ := List.mem_map.1 hpart
    exact absurd ((h literal hliteral).plain '%' hmark) (by decide)

/-- The query for ids has one literal for each address exactly when no value has a zone. -/
theorem buildAssetIdPdqlForIps_iff (rt : Runtime) (ips : List String) :
    IdQuery ips (buildAssetIdPdqlForIps (withIpAddress rt) ips) ↔
      ∀ ip ∈ ips, AddressWithoutZone ip := by
  rw [buildAssetIdPdqlForIps_eq_template]
  generalize htokens : (ips.filterMap fun ip => ipText (strip ip)) = tokens
  have hlength : tokens.length = (ips.filter fun ip => (ipText (strip ip)).isSome).length := by
    rw [← htokens, List.length_filterMap_eq_countP, List.countP_eq_length_filter]
  constructor
  · rintro ⟨literals, heq, hcount, hliterals⟩ ip hip address hread
    have hmem : String.ofList address.text ∈ tokens := by
      rw [← htokens]
      refine List.mem_filterMap.2 ⟨ip, hip, ?_⟩
      unfold ipText
      rw [hread]
      rfl
    have hne : tokens ≠ [] := List.ne_nil_of_mem hmem
    have hfound : literals ≠ [] := by
      rw [← List.length_pos_iff] at hne ⊢
      omega
    by_contra hzone
    apply percent_not_mem_intercalate hliterals
    rw [← idTemplate_inj hne hfound heq, String.toList_intercalate]
    apply mem_intercalate_of_mem (List.mem_map_of_mem hmem)
    rw [String.toList_ofList]
    exact percent_mem_text hzone
  · intro h
    refine ⟨tokens, rfl, hlength, ?_⟩
    intro literal hliteral
    rw [← htokens] at hliteral
    obtain ⟨ip, hip, htext⟩ := List.mem_filterMap.1 hliteral
    obtain ⟨address, hread, rfl⟩ := Option.map_eq_some_iff.1 htext
    exact (ipToken_address_iff address).2 (h ip hip address hread)

/-- The queries hold one literal for each value exactly when no value keeps a zone. -/
theorem queries_hold_literals (target : String) (rt : Runtime) (ips : List String) :
    ((∀ pdql, buildAssetResolutionPdql target = .ok pdql →
      ResolutionQuery (strip target) pdql) ↔ TargetWithoutZone (strip target)) ∧
    (IdQuery ips (buildAssetIdPdqlForIps (withIpAddress rt) ips) ↔
      ∀ ip ∈ ips, AddressWithoutZone ip) :=
  ⟨buildAssetResolutionPdql_iff target, buildAssetIdPdqlForIps_iff rt ips⟩

/-- An address with a zone closes the filter and selects other columns. -/
theorem zone_ends_the_filter :
    ¬ ∀ pdql, buildAssetResolutionPdql "::1%) | select(@Host" = .ok pdql →
      ResolutionQuery "::1%) | select(@Host" pdql := by
  intro h
  have hquery : buildAssetResolutionPdql "::1%) | select(@Host" =
      .ok (resolutionPdql (Place.containsAddress.front ++ "::1%) | select(@Host")) := by
    decide +kernel
  have htoken : IpToken "::1%) | select(@Host" :=
    (resolutionQuery_iff Place.containsAddress).1 (h _ hquery)
  exact absurd (htoken.plain '%' (by decide)) (by decide)

end Scanner
end MpvmApp
