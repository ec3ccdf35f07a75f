import OtelMagnify.Lib.Regexp
import OtelMagnify.Push.Sanitize

/-! Redaction of report texts. Every text goes through the sanitiser of remote-config errors
first, which knows a handful of texts and replaces all others. -/
namespace OtelMagnify.Reports
open Push

/-- `\s` -/
def isBlank (c : Char) : Bool :=
  c = ' ' || c = '\t' || c = '\n' || c = '\r' || c.toNat = 0x0c

/-- Simple case folding of ASCII: the long s and the Kelvin sign are the only other characters
that fold to a letter. -/
def foldsTo (a c : Char) : Bool :=
  c.toLower = a.toLower || (a.toLower = 's' && c.toNat = 0x17f) ||
    (a.toLower = 'k' && c.toNat = 0x212a)

def isSeparator (c : Char) : Bool := c = ':' || c = '='

/-- `[^\s,;]` -/
def isSecretChar (c : Char) : Bool := !(isBlank c || c = ',' || c = ';')

/-- `[A-Z0-9_]`, whatever the case. -/
def isNameChar (c : Char) : Bool :=
  c.isAlphanum || c = '_' || c.toNat = 0x17f || c.toNat = 0x212a

/-- `https?://` -/
def httpScheme : Regexp :=
  .concat [.literal (· == ·) "http", .opt (.literal (· == ·) "s"), .literal (· == ·) "://"]

def redactionPatterns : List Regexp :=
  [.concat [.literal foldsTo "authorization", .many isBlank, .one isSeparator, .many isBlank,
      .literal foldsTo "bearer", .some isBlank, .some isSecretChar],
    .concat
      [.alt (.concat [.literal foldsTo "SECRET_", .many isNameChar])
        (.alt (.concat [.many isNameChar,
            .alt (.literal foldsTo "TOKEN") (.literal foldsTo "PASSWORD")])
          (.alt (.literal foldsTo "api_key") (.literal foldsTo "client_secret"))),
        .many isBlank, .one isSeparator, .many isBlank, .some isSecretChar],
    .concat [httpScheme, .some fun c => !(isBlank c || c = '/' || c = '@' || c = ':'),
      .literal (· == ·) ":", .some fun c => !(isBlank c || c = '/' || c = '@'),
      .literal (· == ·) "@", .some fun c => !isBlank c],
    .concat [httpScheme, .many fun c => !isBlank c,
      .alt (.literal (· == ·) "internal") (.literal (· == ·) "tenant"),
      .many fun c => !isBlank c]]

def redacted : String := "[REDACTED]"

def redactString (s : String) : String :=
  String.ofList (redactionPatterns.foldl (fun out re => re.replaceAll redacted.toList out)
    (sanitizeRemoteConfigErrorMessage s).toList)

def redactValue (s : String) : String :=
  if s = "" then "" else if contains s "@" then redacted else redactString s

inductive FactValue where
  | text (s : String)
  | labels (m : List (String × String))
  | flag (b : Bool)
  | number (n : ℤ)
  deriving DecidableEq, Repr

abbrev Facts := List (String × FactValue)

def isSecretFactKey (k : String) : Bool :=
  let lk := toLower k
  contains lk "secret" || contains lk "token" || contains lk "password" || contains lk "api_key" ||
    contains lk "client_secret"

def redactFact (k : String) (v : FactValue) : FactValue :=
  if isSecretFactKey k then .text redacted
  else
    match v with
    | .text s => .text (redactString s)
    | .labels m => .labels (m.map fun l => (l.1, redactString l.2))
    | v => v

theorem redactFact_text {k : String} (h : isSecretFactKey k = false) (v : String) :
    redactFact k (.text v) = .text (redactString v) := by
  unfold redactFact
  rw [h]
  rfl

def redactFacts (facts : Facts) : Facts := facts.map fun f => (f.1, redactFact f.1 f.2)

/-- A text matches none of the redaction patterns. -/
def isPlain (s : String) : Bool := redactionPatterns.all fun re => !re.isMatch s.toList

section Sanitize

theorem isPlain_of_mem_keptTexts {s : String} (h : s ∈ keptTexts) : isPlain s = true := by
  revert s
  decide +kernel

theorem foldl_replaceAll_of_plain {rs : List Regexp} {s : List Char}
    (h : rs.all (fun re => !re.isMatch s) = true) (repl : List Char) :
    rs.foldl (fun out re => re.replaceAll repl out) s = s := by
  induction rs with
  | nil => rfl
  | cons r rs ih =>
    rw [List.all_cons, Bool.and_eq_true, Bool.not_eq_true'] at h
    rw [List.foldl_cons, Regexp.replaceAll_of_not_isMatch h.1, ih h.2]

/-- The patterns have nothing left to do after the sanitiser. -/
theorem redactString_eq (s : String) : redactString s = sanitizeRemoteConfigErrorMessage s := by
  rw [redactString, foldl_replaceAll_of_plain (isPlain_of_mem_keptTexts (sanitize_mem_keptTexts s)),
    String.ofList_toList]

theorem redactString_eq_self_iff (s : String) : redactString s = s ↔ s ∈ keptTexts := by
  rw [redactString_eq]
  constructor
  · intro h
    exact h ▸ sanitize_mem_keptTexts s
  · exact sanitize_of_mem_keptTexts

end Sanitize

end OtelMagnify.Reports
