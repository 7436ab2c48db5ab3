import MpvmApp.Sql.Json
import MpvmApp.Sql.Text

/-!
# Stored findings of asset cards

The rows of `asset_card_vulnerability_groups`,
`asset_card_vulnerabilities` and `asset_card_vulnerability_passports`,
and the two expressions that every reader of these tables repeats: the joined
rows and the normalised severity.

-/

namespace MpvmApp
namespace Findings

open Sql

/-- A row of `asset_card_vulnerability_groups`. -/
structure GroupRow where
  id : Nat
  assetId : String
  sourceType : String
  collectionType : String
  collectionId : String
  name : Option String
  severity : Option String
  vulnerabilityCount : Int
  cvssScore : Option Rat
  groupOrder : Int
  truncated : Bool
  groupJson : Json

/-- A row of `asset_card_vulnerabilities`. -/
structure FindingRow where
  id : Nat
  assetId : String
  groupId : Nat
  vulnerabilityInstanceId : Option String
  vulnerabilityId : Option String
  objectId : Option String
  cveName : Option String
  name : Option String
  severity : Option String
  cvssScore : Option Rat
  descriptionKey : Option String
  vulnerabilityJson : Json
  selector : Option String

/-- A row of `asset_card_vulnerability_passports`. -/
structure PassportLink where
  assetVulnerabilityId : Nat
  passportInternalId : String
deriving DecidableEq

/-- Severities of findings and cases. -/
inductive Severity where
  | critical
  | high
  | medium
  | low
  | unknown
deriving DecidableEq, Repr

/-- The stored name of a severity. -/
def Severity.name : Severity → String
  | .critical => "critical"
  | .high => "high"
  | .medium => "medium"
  | .low => "low"
  | .unknown => "unknown"

/--
The normalised severity of a finding: the lower-case trimmed text when it is
one of the four known names, and unknown otherwise.
-/
def severityOf (loc : Sql.Locale) (severity : Option String) : Severity :=
  let text := loc.lower (trim (severity.getD ""))
  if text = "critical" then .critical
  else if text = "high" then .high
  else if text = "medium" then .medium
  else if text = "low" then .low
  else .unknown

/-- The rank of a severity in the aggregates: critical is 1 and unknown is 5. -/
def Severity.rank : Severity → Nat
  | .critical => 1
  | .high => 2
  | .medium => 3
  | .low => 4
  | .unknown => 5

end Findings
end MpvmApp
