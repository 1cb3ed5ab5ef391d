/-
The evidence of the repository's security protections.

`validateEvidence` reads one canonical JSON document and checks every field of it.  All that
it is meant to raise is an `EvidenceFailure`, but the document is untrusted, and a check that
looks a value up in a set raises a `TypeError` for a list or an object.  Whether the one
check that does so is reached with such a value can depend on the order in which Python
goes through a set of two names, which is a parameter here.
-/
import DataEngLab.Lib.Checks
import DataEngLab.Lib.JsonDumps
import DataEngLab.Lib.JsonFloats
import DataEngLab.Lib.JsonScanned
import DataEngLab.Lib.Utc

namespace Security

open Lib

/-- What is raised: the one failure of the contract, or an error of the runtime. -/
inductive Raised where
  | evidenceFailure (code : String)
  | typeError
  | keyError
  | valueError
deriving DecidableEq

/-- `_fail` -/
def fail (code : String) : Raised := .evidenceFailure code

abbrev Members := List (Str × Json)

def maxEvidenceBytes : Nat := 65536

def maxJsonDepth : Nat := 16

def maxJsonNodes : Nat := 4096

def repositoryName : String := "thekaveh/data-eng-lab"

def settingsUrl : String := "https://github.com/thekaveh/data-eng-lab/settings/security_analysis"

def topLevelFields : List String :=
  ["schema_version", "repository", "captured_at", "commit_sha", "settings", "dependabot", "secret_scanning",
    "code_scanning", "limitations"]

def settingFields : List String :=
  ["dependabot_security_updates", "secret_scanning", "secret_scanning_non_provider_patterns",
    "secret_scanning_push_protection", "secret_scanning_validity_checks"]

def requiredSettings : List String :=
  ["dependabot_security_updates", "secret_scanning", "secret_scanning_push_protection"]

/-- `_OPTIONAL_SETTINGS`, a set, in one of the two orders that Python may go through it. -/
def optionalSettings (flipped : Bool) : List String :=
  if flipped then ["secret_scanning_validity_checks", "secret_scanning_non_provider_patterns"]
  else ["secret_scanning_non_provider_patterns", "secret_scanning_validity_checks"]

def limitationFields : List String := ["feature", "reason_code", "required_authority", "settings_url"]

def limitationReason : String := "github_secret_protection_required"

def limitationAuthority : String := "GitHub Team or Enterprise with Secret Protection"

/-! ### Decoding -/

/-- What `_validate_bounds` pushes for an item: the keys of an object, and the values in a container. -/
def inner : Json → List Json
  | .arr xs => xs
  | .obj kvs => kvs.map (fun kv => .str kv.1) ++ kvs.map Prod.snd
  | _ => []

/-- The loop of `_validate_bounds`: `room` is how many more nodes it takes, and the top of the stack comes
first. -/
def boundsLoop : Nat → List (Json × Nat) → Except Raised Unit
  | _, [] => .ok ()
  | 0, _ :: _ => .error (fail "json_nodes_exceeded")
  | room + 1, (item, depth) :: pending => do
      require (depth ≤ maxJsonDepth) (fail "json_depth_exceeded")
      boundsLoop room ((inner item).reverse.map (·, depth + 1) ++ pending)

/-- `_validate_bounds` -/
def validateBounds (value : Json) : Except Raised Unit := boundsLoop maxJsonNodes [(value, 1)]

/-- The document without one final newline. -/
def withoutNewline (body : Bytes) : Bytes := if body.getLast? = some 10 then body.dropLast else body

/-- What `_decode` makes of the errors of the reader. -/
def readFailure : LoadsError → Raised
  | .duplicateKey => fail "json_duplicate_key"
  | .constant => fail "json_number_invalid"
  | _ => fail "json_invalid"

section
variable (floatRepr : Str → Str)

/-- `json.dumps` of a value whose floats were read from texts; `floatRepr` is `repr` of the float of a text. -/
def canonicalText (value : Json) : Option Str := dumps (value.mapFloats floatRepr)

/-- `_decode` -/
def decode (body : Bytes) : Except Raised Members := do
  require (body.length ≤ maxEvidenceBytes) (fail "evidence_too_large")
  let value ← (loadsUtf8 ⟨true, true⟩ (withoutNewline body)).mapError readFailure
  validateBounds value
  match value with
  | .obj kvs => do
      let canonical ← orElse (canonicalText floatRepr value) .valueError
      require (withoutNewline body == asciiBytes canonical) (fail "evidence_not_canonical")
      return kvs
  | _ => .error (fail "evidence_shape_invalid")

end

/-! ### Fields -/

/-- `value[name]` -/
def field (value : Members) (name : String) : Except Raised Json := orElse (Json.get name value) .keyError

/-- `value == text` -/
def isText (text : String) : Json → Bool
  | .str s => s == lit text
  | _ => false

/-- `value == [texts]` -/
def isTexts (texts : List String) : Json → Bool
  | .arr xs => xs.length == texts.length && (texts.zip xs).all fun p => isText p.1 p.2
  | _ => false

/-- `type(value) is int` and a condition on it. -/
def isInt (accepts : Int → Bool) : Json → Bool
  | .int n => accepts n
  | _ => false

def isMatch (accepts : Str → Bool) : Json → Bool
  | .str s => accepts s
  | _ => false

/-- `[0-9a-f]{40}` -/
def isSha (s : Str) : Bool := (Pattern.times 40 isHex).fullmatch s

def timestampPattern : Pattern :=
  .times 4 isDigit ++ .text (lit "-") ++ .times 2 isDigit ++ .text (lit "-") ++ .times 2 isDigit ++ .text (lit "T") ++
    .times 2 isDigit ++ .text (lit ":") ++ .times 2 isDigit ++ .text (lit ":") ++ .times 2 isDigit ++ .text (lit "Z")

def probeRefPattern : Pattern :=
  .text (lit "refs/heads/codex/93-push-protection-probe-") ++ .times 8 isDigit ++ .text (lit "T") ++
    .times 4 isDigit ++ .text (lit "Z")

/-- An object with exactly these fields. -/
def objectWith (fields : List String) (code : String) : Json → Except Raised Members
  | .obj kvs => if Json.hasExactly fields kvs then .ok kvs else .error (fail code)
  | _ => .error (fail code)

/-- The first five checks, which give the commit. -/
def checkHeader (value : Members) : Except Raised Json := do
  require (Json.hasExactly topLevelFields value) (fail "evidence_shape_invalid")
  require (isInt (· == 1) (← field value "schema_version")) (fail "schema_version_invalid")
  require (isText repositoryName (← field value "repository")) (fail "repository_invalid")
  require (isMatch (fun s => timestampPattern.fullmatch s && (parseUtc s).isSome) (← field value "captured_at"))
    (fail "captured_at_invalid")
  let commitSha ← field value "commit_sha"
  require (isMatch isSha commitSha) (fail "commit_sha_invalid")
  return commitSha

/-- The settings, when they have their fields and the required ones are enabled. -/
def enabledSettings (value : Members) : Except Raised Members := do
  let settings ← objectWith settingFields "settings_shape_invalid" (← field value "settings")
  let _ ← checkAll (fun name => do
    require (isText "enabled" (← field settings name)) (fail "required_setting_disabled")) requiredSettings
  return settings

/-- `value in {"enabled", "unsupported"}`, which hashes the value. -/
def inSettings (value : Json) : Except Raised Bool :=
  if value.isContainer then .error .typeError else .ok (isText "enabled" value || isText "unsupported" value)

def checkOptional (flipped : Bool) (settings : Members) : Except Raised Unit := do
  let _ ← checkAll (fun name => do
    require (← inSettings (← field settings name)) (fail "settings_shape_invalid")) (optionalSettings flipped)
  return ()

/-! ### Dependabot -/

def intOf : Json → Int
  | .int n => n
  | _ => 0

def numbers : Json → List Int
  | .arr xs => xs.map intOf
  | _ => []

/-- `_valid_pr_numbers` -/
def validPrNumbers (value : Json) : Bool :=
  match value with
  | .arr xs => !xs.isEmpty && xs.all (isInt (0 < ·)) &&
      numbers value == (numbers value).dedup.insertionSort (· ≤ ·)
  | _ => false

def dependabotFields : List String :=
  ["alerts_endpoint", "automated_security_fixes", "security_update_pull_requests", "version_update_pull_requests",
    "vulnerability_alerts"]

def checkDependabot (value : Members) : Except Raised Unit := do
  let code := "dependabot_not_enabled"
  let dependabot ← objectWith dependabotFields code (← field value "dependabot")
  require (isText "readable" (← field dependabot "alerts_endpoint")) (fail code)
  require (isText "enabled" (← field dependabot "automated_security_fixes")) (fail code)
  require (isText "enabled" (← field dependabot "vulnerability_alerts")) (fail code)
  let security ← field dependabot "security_update_pull_requests"
  let version ← field dependabot "version_update_pull_requests"
  require (validPrNumbers security) (fail code)
  require (validPrNumbers version) (fail code)
  require (!(numbers security).any fun n => (numbers version).contains n) (fail code)

/-! ### Secret scanning -/

def probeFields : List String :=
  ["alerts_endpoint", "local_probe_branch", "local_probe_worktree", "probe_commit_sha", "probe_fixture", "probe_ref",
    "probe_remote_ref", "push_exit_code", "push_protection_probe", "rejection_markers", "secret_alert_count_after",
    "secret_alert_count_before"]

/-- The fields of the probe that have one text. -/
def probeTexts : List (String × String) :=
  [("alerts_endpoint", "readable"), ("local_probe_branch", "absent"), ("local_probe_worktree", "absent"),
    ("probe_fixture", "github_official_dummy"), ("probe_remote_ref", "absent"), ("push_protection_probe", "blocked")]

def rejectionMarkers : List String := ["GH013", "GITHUB PUSH PROTECTION", "Push cannot contain secrets"]

/-- The checks of the probe raise one failure only, so their order is that of the fields here. -/
def checkProbe (value : Members) (commitSha : Json) : Except Raised Unit := do
  let code := "push_probe_invalid"
  let probe ← objectWith probeFields code (← field value "secret_scanning")
  let sha ← field probe "probe_commit_sha"
  let ref ← field probe "probe_ref"
  let before ← field probe "secret_alert_count_before"
  let after ← field probe "secret_alert_count_after"
  let _ ← checkAll (fun f => do require (isText f.2 (← field probe f.1)) (fail code)) probeTexts
  require (isInt (· == 1) (← field probe "push_exit_code")) (fail code)
  require (isTexts rejectionMarkers (← field probe "rejection_markers")) (fail code)
  require (isInt (0 ≤ ·) before && isInt (0 ≤ ·) after && decide (intOf after ≤ intOf before)) (fail code)
  require (isMatch isSha sha && !isMatch (fun s => isMatch (· == s) commitSha) sha) (fail code)
  require (isMatch probeRefPattern.fullmatch ref) (fail code)

/-! ### Code scanning -/

def checkCodeScanning (value : Members) (commitSha : Json) : Except Raised Unit := do
  let code := "code_scanning_invalid"
  let scanning ← objectWith ["analysis_commit_sha", "analysis_ids", "categories"] code
    (← field value "code_scanning")
  let ids ← field scanning "analysis_ids"
  require (isMatch (fun s => isMatch (· == s) commitSha) (← field scanning "analysis_commit_sha")) (fail code)
  require (isTexts ["actions", "python"] (← field scanning "categories")) (fail code)
  let ids ← objectWith ["actions", "python"] code ids
  require (ids.all fun kv => isInt (1 ≤ ·) kv.2) (fail code)
  require ((ids.map fun kv => intOf kv.2).dedup.length == 2) (fail code)

/-! ### Limitations -/

/-- The feature of a limitation that is as it should be. -/
def limitationFeature (limitation : Json) : Except Raised Str := do
  let code := "limitations_invalid"
  let kvs ← objectWith limitationFields code limitation
  match Json.get "feature" kvs with
  | some (.str feature) => do
      require ((optionalSettings false).any fun name => feature == lit name) (fail code)
      require (isText limitationReason (← field kvs "reason_code") &&
        isText limitationAuthority (← field kvs "required_authority") &&
        isText settingsUrl (← field kvs "settings_url")) (fail code)
      return feature
  | _ => .error (fail code)

/-- The loop over the limitations, after those of `seen`. -/
def limitationLoop (seen : List Str) : List Json → Except Raised (List Str)
  | [] => .ok seen
  | limitation :: rest => do
      let feature ← limitationFeature limitation
      require (!seen.contains feature) (fail "limitations_invalid")
      limitationLoop (seen ++ [feature]) rest

/-- `settings[feature] == "unsupported"` -/
def isUnsupported (settings : Members) (feature : String) : Bool :=
  (Json.get feature settings).any (isText "unsupported")

/-- `_validate_limitations` -/
def validateLimitations (settings : Members) (limitations : Json) : Except Raised Unit := do
  match limitations with
  | .arr xs => do
      require (xs.length ≤ (optionalSettings false).length) (fail "limitations_invalid")
      let features ← limitationLoop [] xs
      let _ ← checkAll (fun name => field settings name) (optionalSettings false)
      require ((optionalSettings false).all fun name => features.contains (lit name) == isUnsupported settings name)
        (fail "limitations_invalid")
  | _ => .error (fail "limitations_invalid")

/-- `validate_evidence` -/
def validateEvidence (floatRepr : Str → Str) (flipped : Bool) (body : Bytes) : Except Raised Members := do
  let value ← decode floatRepr body
  let commitSha ← checkHeader value
  let settings ← enabledSettings value
  checkOptional flipped settings
  checkDependabot value
  checkProbe value commitSha
  checkCodeScanning value commitSha
  validateLimitations settings (← field value "limitations")
  return value

end Security
