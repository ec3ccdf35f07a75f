import OtelMagnify.Lib.GoString

/-! Remote-config error texts: the causes inferred from an agent's message and the fixed
summaries that are stored in its place. Go's string functions are spelled out on the
characters they are compared with here. -/
namespace OtelMagnify.Push

def isSpace (c : Char) : Bool := (Rune.char c).isSpace

def trimSpace (s : String) : String :=
  String.ofList ((s.toList.dropWhile isSpace).reverse.dropWhile isSpace).reverse

/-- `unicode.ToLower` on the characters whose lower case is ASCII: the capital letters,
the dotted capital I and the Kelvin sign. Every other character is kept, since the texts
compared with below are ASCII. -/
def lowerChar (c : Char) : Char :=
  if 0x41 ≤ c.toNat ∧ c.toNat ≤ 0x5a then Char.ofNat (c.toNat + 32)
  else if c.toNat = 0x130 then 'i'
  else if c.toNat = 0x212a then 'k'
  else c

def toLower (s : String) : String := String.ofList (s.toList.map lowerChar)

def contains (s sub : String) : Bool := decide (sub.toList <:+: s.toList)

def opAMPStatusTimeoutMessage : String := "No OpAMP status after 30s"

def redactedMessage : String := "Remote config error details redacted"

def normalizeRemoteConfigErrorCause (cause msg : String) : String :=
  let cause := trimSpace (toLower cause)
  if cause ≠ "" then cause
  else
    let m := toLower msg
    if contains m "unknown receiver" || contains m "unknown exporter" ||
        contains m "unknown processor" || contains m "invalid pipeline" ||
        contains m "invalid component" then "collector_validation"
    else if contains m "not connected" || contains m "connection lost" ||
        contains m "send" then "opamp_send_failed"
    else if contains m "timeout" || contains m "timed out" then "apply_timeout"
    else if contains m "capability" then "capability_mismatch"
    else if contains m "permission" || contains m "policy" || contains m "refus" then
      "permission_or_policy"
    else if contains m "rollback" && contains m "unavailable" then "rollback_unavailable"
    else "unknown"

def remoteConfigErrorTitle (cause : String) : String :=
  if cause = "collector_validation" then "Collector rejected the config"
  else if cause = "opamp_send_failed" then "OpAMP send failed"
  else if cause = "apply_timeout" then "Config apply timed out"
  else if cause = "capability_mismatch" then "Remote config capability mismatch"
  else if cause = "permission_or_policy" then "Agent policy rejected the config"
  else if cause = "rollback_unavailable" then "Rollback unavailable"
  else "Remote config error"

def remoteConfigErrorSeverity (cause : String) : String :=
  if cause = "rollback_unavailable" || cause = "unknown" then "medium" else "high"

def remoteConfigErrorRetryable (cause : String) : Bool :=
  cause ≠ "permission_or_policy" && cause ≠ "capability_mismatch" &&
    cause ≠ "rollback_unavailable"

def severityRank (sev : String) : ℕ := if sev = "high" then 0 else 1

def knownCauses : List String :=
  ["collector_validation", "opamp_send_failed", "apply_timeout", "capability_mismatch",
    "permission_or_policy", "rollback_unavailable", "unknown"]

/-- The text stored and served instead of what an agent sent. -/
def sanitizeRemoteConfigErrorMessage (msg : String) : String :=
  let msg := trimSpace msg
  if msg = "" then ""
  else if msg = redactedMessage then msg
  else if msg = opAMPStatusTimeoutMessage then msg
  else if knownCauses.any (fun cause => msg = remoteConfigErrorTitle cause) then msg
  else
    let cause := normalizeRemoteConfigErrorCause "" msg
    let summary := if cause = "unknown" then redactedMessage else remoteConfigErrorTitle cause
    if 96 < summary.length then String.ofList (summary.toList.take 96) else summary

end OtelMagnify.Push
