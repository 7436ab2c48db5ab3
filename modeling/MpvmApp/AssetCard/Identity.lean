import Mathlib.Data.Prod.Lex
import Mathlib.Order.OrderDual
import MpvmApp.Lib.Runs
import MpvmApp.Lib.Selection
import MpvmApp.Lib.Table
import MpvmApp.Remediation.Case
import MpvmApp.Sql.Text

/-!
# The identity of an asset card

A save looks for a card that the host already has under another id: a card with the same
domain name, or, when the payload has none, with the same address or host name.  The card
of the payload's own id is never looked at.  The advisory lock of the transaction lets the
saves take place one after the other.

Main definitions:

- `canonicalAssetCardId`: the id under which a payload is stored.
- `upsertAssetCard`: the save of a card.

Main results:

- Theorem `cards_per_fqdn`: there is one card for a domain name after every run.
- Theorem `saves_keep_hosts_iff`: which runs overwrite no card of another host.
-/

namespace MpvmApp
namespace AssetCard
namespace Identity

open Sql Remediation

variable {C : Type*}

/-! ## Cards -/

/--
A row of `asset_cards`; `content` stands for its other columns and the rows of the
tables that a save replaces with it.
-/
structure CardRow (C : Type*) where
  id : Nat
  assetId : String
  fqdn : Option String
  hostname : Option String
  ipAddress : Option String
  firstSeen : Instant
  lastSeen : Instant
  content : C
deriving DecidableEq

/-- The card table. -/
abbrev Cards (C : Type*) := Table (CardRow C) CardRow.assetId CardRow.assetId

/-- The cards, and the next value of the sequence of their ids. -/
structure Store (C : Type*) where
  cards : Cards C
  nextId : Nat

/-- What a save reads of a built card and of its root. -/
structure Payload (C : Type*) where
  assetId : Option String
  objectId : Option String := none
  fqdn : Option String
  hostname : Option String
  ipAddress : Option String
  content : C

/-- `first_non_empty` of two texts. -/
def firstNonEmpty (x y : Option String) : Option String :=
  coalesce (nullIfEmpty x) (nullIfEmpty y)

/-- `remote_asset_id`. -/
def Payload.remoteAssetId (p : Payload C) : Option String :=
  cleanText (firstNonEmpty p.assetId p.objectId)

/-! ## The id of a save -/

/-- `ORDER BY last_seen DESC, id DESC`. -/
def CardRow.rank (row : CardRow C) : Lex (Instantᵒᵈ × Natᵒᵈ) :=
  toLex (OrderDual.toDual row.lastSeen, OrderDual.toDual row.id)

/-- `LOWER(NULLIF(TRIM(fqdn), ''))`. -/
def CardRow.foldedFqdn (loc : Sql.Locale) (row : CardRow C) : Option String :=
  (nullIfBlank row.fqdn).map loc.lower

/-- The condition of the query; a comparison with a null is not true. -/
def sameHost (loc : Sql.Locale) (remoteAssetId : String) (fqdn hostname ipAddress : Option String)
    (row : CardRow C) : Bool :=
  decide (row.assetId ≠ remoteAssetId) &&
    (fqdn.any (fun name => decide (row.foldedFqdn loc = some (loc.lower name))) ||
      (fqdn.isNone && ipAddress.any fun ip => decide (nullIfBlank row.ipAddress = some ip)) ||
      (fqdn.isNone && ipAddress.isNone && hostname.any fun name =>
        decide ((nullIfBlank row.hostname).map loc.lower = some (loc.lower name))))

/-- The row that the query of `canonical_asset_card_id` selects. -/
def canonicalRow (loc : Sql.Locale) (cards : Cards C) (remoteAssetId : String)
    (fqdn hostname ipAddress : Option String) : Option (CardRow C) :=
  best CardRow.rank (cards.rows.filter (sameHost loc remoteAssetId fqdn hostname ipAddress))

/-- `canonical_asset_card_id`. -/
def canonicalAssetCardId (loc : Sql.Locale) (cards : Cards C) (remoteAssetId : String)
    (fqdn hostname ipAddress : Option String) : String :=
  ((canonicalRow loc cards remoteAssetId fqdn hostname ipAddress).map CardRow.assetId).getD
    remoteAssetId

/-- The row of a save, given the row that is there. -/
def savedRow (s : Store C) (p : Payload C) (now : Instant) (assetId : String)
    (old : Option (CardRow C)) : CardRow C where
  id := (old.map CardRow.id).getD s.nextId
  assetId := assetId
  fqdn := cleanText p.fqdn
  hostname := cleanText p.hostname
  ipAddress := cleanText p.ipAddress
  firstSeen := (old.map CardRow.firstSeen).getD now
  lastSeen := now
  content := p.content

@[simp]
theorem savedRow_assetId (s : Store C) (p : Payload C) (now : Instant) (assetId : String)
    (old : Option (CardRow C)) :
    (savedRow s p now assetId old).assetId = assetId :=
  rfl

/-- The id under which the payload of a remote id is stored. -/
def Payload.target (loc : Sql.Locale) (cards : Cards C) (p : Payload C) (remoteAssetId : String) :
    String :=
  canonicalAssetCardId loc cards remoteAssetId (cleanText p.fqdn) (cleanText p.hostname)
    (cleanText p.ipAddress)

/-- `upsert_asset_card`; every insert takes a value of the sequence. -/
def upsertAssetCard (loc : Sql.Locale) (s : Store C) (p : Payload C) (now : Instant) : Store C :=
  match p.remoteAssetId with
  | none => s
  | some remoteAssetId =>
      let assetId := p.target loc s.cards remoteAssetId
      { cards := s.cards.upsert assetId (savedRow s p now assetId) (savedRow_assetId s p now assetId)
        nextId := s.nextId + 1 }

theorem mem_upsertAssetCard {loc : Sql.Locale} {s : Store C} {p : Payload C} {now : Instant}
    {remoteAssetId : String} (h : p.remoteAssetId = some remoteAssetId) {row : CardRow C} :
    row ∈ (upsertAssetCard loc s p now).cards ↔
      row = savedRow s p now (p.target loc s.cards remoteAssetId)
          (s.cards.find? (p.target loc s.cards remoteAssetId)) ∨
        row ∈ s.cards ∧ row.assetId ≠ p.target loc s.cards remoteAssetId := by
  simp only [upsertAssetCard, h]
  exact Table.mem_upsert

/-- `delete_asset_card`. -/
def deleteAssetCard (s : Store C) (assetId : String) : Store C :=
  { s with cards := s.cards.filterRows fun row => row.assetId ≠ assetId }

/-- A save or a removal of a card. -/
inductive Event (C : Type*) where
  | save (payload : Payload C) (now : Instant)
  | delete (assetId : String)

/-- One step of the card table. -/
def step (loc : Sql.Locale) (s : Store C) : Event C → Store C
  | .save p now => upsertAssetCard loc s p now
  | .delete assetId => deleteAssetCard s assetId

/-- A database without cards. -/
def initial : Store C where
  cards := Table.empty
  nextId := 1

/-! ## One card for a domain name -/

/-- At most one card has a domain name, in whatever case it is written. -/
def OneCardPerFqdn (loc : Sql.Locale) (cards : Cards C) : Prop :=
  ∀ row ∈ cards, ∀ row' ∈ cards, ∀ name, row.foldedFqdn loc = some name →
    row'.foldedFqdn loc = some name → row = row'

theorem foldedFqdn_savedRow (loc : Sql.Locale) (s : Store C) (p : Payload C) (now : Instant)
    (assetId : String) (old : Option (CardRow C)) :
    (savedRow s p now assetId old).foldedFqdn loc = (cleanText p.fqdn).map loc.lower := by
  simp [savedRow, CardRow.foldedFqdn, nullIfBlank_cleanText]

theorem sameHost_of_canonicalRow {loc : Sql.Locale} {cards : Cards C} {remoteAssetId : String}
    {fqdn hostname ipAddress : Option String} {row : CardRow C}
    (h : canonicalRow loc cards remoteAssetId fqdn hostname ipAddress = some row) :
    row ∈ cards ∧ sameHost loc remoteAssetId fqdn hostname ipAddress row = true := by
  have hmem := mem_of_best h
  rw [List.mem_filter] at hmem
  exact hmem

/-- A card with the domain name of the payload is the one that the save writes. -/
theorem assetId_eq_target {loc : Sql.Locale} {cards : Cards C} (h : OneCardPerFqdn loc cards)
    {p : Payload C} {remoteAssetId name : String} (hname : cleanText p.fqdn = some name)
    {row : CardRow C} (hrow : row ∈ cards) (hfqdn : row.foldedFqdn loc = some (loc.lower name)) :
    row.assetId = p.target loc cards remoteAssetId := by
  by_cases hown : row.assetId = remoteAssetId
  · -- no other card has the domain name, so the query selects none
    have hnone : canonicalRow loc cards remoteAssetId (cleanText p.fqdn) (cleanText p.hostname)
        (cleanText p.ipAddress) = none := by
      cases hselected : canonicalRow loc cards remoteAssetId (cleanText p.fqdn)
          (cleanText p.hostname) (cleanText p.ipAddress) with
      | none => rfl
      | some other =>
          obtain ⟨hother, hsame⟩ := sameHost_of_canonicalRow hselected
          simp only [sameHost, hname, Option.any_some, Option.isNone_some, Bool.false_and,
            Bool.or_false, Bool.and_eq_true, decide_eq_true_eq] at hsame
          have heq := h row hrow other hother _ hfqdn hsame.2
          exact absurd (heq ▸ hown) hsame.1
    simp [Payload.target, canonicalAssetCardId, hnone, hown]
  · have hcandidate : row ∈ cards.rows.filter (sameHost loc remoteAssetId (cleanText p.fqdn)
        (cleanText p.hostname) (cleanText p.ipAddress)) := by
      rw [List.mem_filter]
      exact ⟨hrow, by simp [sameHost, hown, hname, hfqdn]⟩
    obtain ⟨other, hselected⟩ := exists_best CardRow.rank hcandidate
    have hselected' : canonicalRow loc cards remoteAssetId (cleanText p.fqdn)
        (cleanText p.hostname) (cleanText p.ipAddress) = some other := hselected
    obtain ⟨hother, hsame⟩ := sameHost_of_canonicalRow hselected'
    simp only [sameHost, hname, Option.any_some, Option.isNone_some, Bool.false_and,
      Bool.or_false, Bool.and_eq_true, decide_eq_true_eq] at hsame
    have heq := h row hrow other hother _ hfqdn hsame.2
    rw [Payload.target, canonicalAssetCardId, hselected', heq]
    rfl

theorem oneCardPerFqdn_initial (loc : Sql.Locale) :
    OneCardPerFqdn loc (initial : Store C).cards := by
  intro row hrow
  cases hrow

/-- Every step keeps one card for a domain name. -/
theorem oneCardPerFqdn_step (loc : Sql.Locale) (s : Store C) (e : Event C)
    (h : OneCardPerFqdn loc s.cards) :
    OneCardPerFqdn loc (step loc s e).cards := by
  cases e with
  | delete assetId =>
      intro row hrow row' hrow' name hname hname'
      exact h row (List.mem_filter.1 hrow).1 row' (List.mem_filter.1 hrow').1 name hname hname'
  | save p now =>
      cases hremote : p.remoteAssetId with
      | none =>
          have hsame : upsertAssetCard loc s p now = s := by simp [upsertAssetCard, hremote]
          rw [step, hsame]
          exact h
      | some remoteAssetId =>
          intro row hrow row' hrow' name hname hname'
          rcases (mem_upsertAssetCard hremote).1 hrow with rfl | ⟨hold, hne⟩
          · rcases (mem_upsertAssetCard hremote).1 hrow' with rfl | ⟨hold', hne'⟩
            · rfl
            · rw [foldedFqdn_savedRow, Option.map_eq_some_iff] at hname
              obtain ⟨fqdn, hfqdn, rfl⟩ := hname
              exact absurd (assetId_eq_target h hfqdn hold' hname') hne'
          · rcases (mem_upsertAssetCard hremote).1 hrow' with rfl | ⟨hold', -⟩
            · rw [foldedFqdn_savedRow, Option.map_eq_some_iff] at hname'
              obtain ⟨fqdn, hfqdn, rfl⟩ := hname'
              exact absurd (assetId_eq_target h hfqdn hold hname) hne
            · exact h row hold row' hold' name hname hname'

/-- There is one card for a domain name after every run. -/
theorem cards_per_fqdn (loc : Sql.Locale) (es : List (Event C)) :
    OneCardPerFqdn loc (Runs.run (step loc) initial es).cards :=
  (Runs.along_of_forall (fun _ _ => trivial) initial es).invariant
    (fun s e h _ => oneCardPerFqdn_step loc s e h) (oneCardPerFqdn_initial loc)

/-! ## Cards of other hosts -/

/-- The save replaces a card that is stored under another id. -/
def Overwrites (loc : Sql.Locale) (s : Store C) (p : Payload C) (row : CardRow C) : Prop :=
  ∃ remoteAssetId, p.remoteAssetId = some remoteAssetId ∧ row ∈ s.cards ∧
    row.assetId = p.target loc s.cards remoteAssetId ∧ row.assetId ≠ remoteAssetId

/-- The remote id of the payload has a card of its own. -/
def HasOwnCard (s : Store C) (p : Payload C) : Prop :=
  ∃ remoteAssetId, p.remoteAssetId = some remoteAssetId ∧
    (s.cards.find? remoteAssetId).isSome = true

/-- The payload and the card have one domain name, in whatever case it is written. -/
def SameFqdn (loc : Sql.Locale) (p : Payload C) (row : CardRow C) : Prop :=
  ∃ name, cleanText p.fqdn = some name ∧ row.foldedFqdn loc = some (loc.lower name)

/--
A save replaces a card of another remote id only if it has the domain name of the payload,
or if neither has a domain name and the remote id of the payload has no card of its own.
-/
def KeepsHosts (loc : Sql.Locale) (s : Store C) : Event C → Prop
  | .save p _ => ∀ row, Overwrites loc s p row → SameFqdn loc p row ∨
      (cleanText p.fqdn = none ∧ row.foldedFqdn loc = none ∧ ¬ HasOwnCard s p)
  | .delete _ => True

/-- The card has the address, or the host name if there is no address. -/
def sameAddress (loc : Sql.Locale) (ipAddress hostname : Option String) (row : CardRow C) : Bool :=
  match ipAddress with
  | some ip => nullIfBlank row.ipAddress = some ip
  | none => hostname.any fun name =>
      decide ((nullIfBlank row.hostname).map loc.lower = some (loc.lower name))

/-- The cards of other ids with the address of a payload, or with its host name if it has none. -/
def addressCards (loc : Sql.Locale) (cards : Cards C) (p : Payload C) (remoteAssetId : String) :
    List (CardRow C) :=
  cards.rows.filter fun row => row.assetId ≠ remoteAssetId ∧
    sameAddress loc (cleanText p.ipAddress) (cleanText p.hostname) row

/--
The payload has a domain name; or the last seen one of the other cards with its address or
host name, if there is one, has no domain name, and its remote id has no card.
-/
def AddressOk (loc : Sql.Locale) (s : Store C) : Event C → Prop
  | .save p _ => cleanText p.fqdn = none → ∀ remoteAssetId, p.remoteAssetId = some remoteAssetId →
      ∀ row, best CardRow.rank (addressCards loc s.cards p remoteAssetId) = some row →
        row.foldedFqdn loc = none ∧ s.cards.find? remoteAssetId = none
  | .delete _ => True

theorem filter_sameHost (loc : Sql.Locale) (cards : Cards C) {p : Payload C}
    (hfqdn : cleanText p.fqdn = none) (remoteAssetId : String) :
    cards.rows.filter (sameHost loc remoteAssetId (cleanText p.fqdn) (cleanText p.hostname)
      (cleanText p.ipAddress)) = addressCards loc cards p remoteAssetId := by
  refine List.filter_congr fun row _ => ?_
  cases hip : cleanText p.ipAddress <;> simp [sameHost, sameAddress, hfqdn]

/-- A save replaces a card of another id exactly when the query selects it. -/
theorem overwrites_iff {loc : Sql.Locale} {s : Store C} {p : Payload C} {row : CardRow C} :
    Overwrites loc s p row ↔ ∃ remoteAssetId, p.remoteAssetId = some remoteAssetId ∧
      canonicalRow loc s.cards remoteAssetId (cleanText p.fqdn) (cleanText p.hostname)
        (cleanText p.ipAddress) = some row := by
  unfold Overwrites
  refine exists_congr fun remoteAssetId => and_congr_right fun _ => ?_
  constructor
  · rintro ⟨hrow, htarget, hne⟩
    unfold Payload.target canonicalAssetCardId at htarget
    cases hselected : canonicalRow loc s.cards remoteAssetId (cleanText p.fqdn)
        (cleanText p.hostname) (cleanText p.ipAddress) with
    | none =>
        rw [hselected] at htarget
        exact absurd htarget hne
    | some other =>
        rw [hselected] at htarget
        have hother := (sameHost_of_canonicalRow hselected).1
        rw [Table.eq_of_pk_eq hrow hother htarget]
  · intro hselected
    obtain ⟨hrow, hsame⟩ := sameHost_of_canonicalRow hselected
    refine ⟨hrow, ?_, ?_⟩
    · rw [Payload.target, canonicalAssetCardId, hselected]
      rfl
    · simp only [sameHost, Bool.and_eq_true, decide_eq_true_eq] at hsame
      exact hsame.1

/-- Which saves keep the cards of other hosts. -/
theorem keepsHosts_iff (loc : Sql.Locale) (s : Store C) (e : Event C) :
    KeepsHosts loc s e ↔ AddressOk loc s e := by
  cases e with
  | delete assetId => exact Iff.rfl
  | save p now =>
      simp only [KeepsHosts, AddressOk]
      constructor
      · intro hkeeps hfqdn remoteAssetId hremote row hbest
        have hselected : canonicalRow loc s.cards remoteAssetId (cleanText p.fqdn)
            (cleanText p.hostname) (cleanText p.ipAddress) = some row := by
          rw [canonicalRow, filter_sameHost loc s.cards hfqdn, hbest]
        rcases hkeeps row (overwrites_iff.2 ⟨remoteAssetId, hremote, hselected⟩) with
          ⟨name, hname, -⟩ | ⟨-, hrow, hown⟩
        · rw [hfqdn] at hname
          cases hname
        · refine ⟨hrow, ?_⟩
          by_contra hfound
          exact hown ⟨remoteAssetId, hremote, Option.isSome_iff_ne_none.2 hfound⟩
      · intro hok row hoverwrites
        obtain ⟨remoteAssetId, hremote, hselected⟩ := overwrites_iff.1 hoverwrites
        cases hfqdn : cleanText p.fqdn with
        | some name =>
            obtain ⟨-, hsame⟩ := sameHost_of_canonicalRow hselected
            simp only [sameHost, hfqdn, Option.any_some, Option.isNone_some, Bool.false_and,
              Bool.or_false, Bool.and_eq_true, decide_eq_true_eq] at hsame
            exact Or.inl ⟨name, hfqdn, hsame.2⟩
        | none =>
            rw [canonicalRow, filter_sameHost loc s.cards hfqdn] at hselected
            obtain ⟨hrow, hown⟩ := hok hfqdn remoteAssetId hremote row hselected
            refine Or.inr ⟨rfl, hrow, ?_⟩
            rintro ⟨remoteAssetId', hremote', hfound⟩
            rw [hremote, Option.some.injEq] at hremote'
            subst hremote'
            rw [hown] at hfound
            cases hfound

/--
After every run there is one card for a domain name, and a run overwrites no card of
another host exactly when each of its saves without a domain name meets the condition.
-/
theorem saves_keep_hosts_iff (loc : Sql.Locale) (es : List (Event C)) :
    OneCardPerFqdn loc (Runs.run (step loc) initial es).cards ∧
      (Runs.Along (step loc) (KeepsHosts loc) initial es ↔
        Runs.Along (step loc) (AddressOk loc) initial es) :=
  ⟨cards_per_fqdn loc es,
    Runs.along_congr (fun _ _ (_ : True) _ => trivial) (fun s e _ => keepsHosts_iff loc s e)
      trivial es⟩

/--
A payload without a domain name replaces the card of a host with one that has had its
address, and a card without domain name although its remote id has a card.
-/
theorem saves_replace_other_hosts :
    ¬ Runs.Along (step plainLocale) (KeepsHosts plainLocale) (initial : Store String)
      [.save { assetId := some "a", fqdn := some "host-a.example", hostname := none,
               ipAddress := some "10.0.0.5", content := "findings of host-a" } 1,
        .save { assetId := some "b", fqdn := none, hostname := none,
                ipAddress := some "10.0.0.5", content := "findings of b" } 2] ∧
    ¬ Runs.Along (step plainLocale) (KeepsHosts plainLocale) (initial : Store String)
      [.save { assetId := some "b", fqdn := none, hostname := none,
               ipAddress := some "10.0.0.6", content := "findings of b" } 1,
        .save { assetId := some "c", fqdn := none, hostname := none,
                ipAddress := some "10.0.0.5", content := "findings of c" } 2,
        .save { assetId := some "b", fqdn := none, hostname := none,
                ipAddress := some "10.0.0.5", content := "new findings of b" } 3] := by
  constructor
  · rintro ⟨-, hsecond, -⟩
    rw [keepsHosts_iff] at hsecond
    have hother := hsecond (by decide +kernel) "b" (by decide +kernel)
      { id := 1, assetId := "a", fqdn := some "host-a.example", hostname := none,
        ipAddress := some "10.0.0.5", firstSeen := 1, lastSeen := 1,
        content := "findings of host-a" } (by decide +kernel)
    revert hother
    decide +kernel
  · rintro ⟨-, -, hthird, -⟩
    rw [keepsHosts_iff] at hthird
    have hother := hthird (by decide +kernel) "b" (by decide +kernel)
      { id := 2, assetId := "c", fqdn := none, hostname := none,
        ipAddress := some "10.0.0.5", firstSeen := 2, lastSeen := 2,
        content := "findings of c" } (by decide +kernel)
    revert hother
    decide +kernel

end Identity
end AssetCard
end MpvmApp
