import OtelMagnify.Lib.GoText
import OtelMagnify.Push.ErrorText

/-! The version comparison of `internal/version`: semantic versions with an optional leading `v`,
whose build metadata is dropped. -/
namespace OtelMagnify.Version
open Push GoText

structure Semver where
  major : ℕ
  minor : ℕ
  patch : ℕ
  pre : List String
  deriving DecidableEq, Repr

/-- `parseNumber`: a text of digits that is no larger than an `int`. -/
def parseNumber (s : String) : Option ℕ :=
  if s ≠ "" ∧ s.toList.all Char.isDigit then
    (parseUint 0 s.toList).filter fun n => n < 2 ^ 63
  else none

def after? (sep : Char) (s : String) : Option String :=
  if sep ∈ s.toList then some (String.ofList ((s.toList.dropWhile (· ≠ sep)).drop 1)) else none

def parse (s : String) : Option Semver := do
  let s := trimSpace s
  guard (s ≠ "")
  let s := before '+' (trimPrefix "v" s)
  let pre := (after? '-' s).getD ""
  match split '.' (before '-' s) with
  | [major, minor, patch] =>
    let major ← parseNumber major
    let minor ← parseNumber minor
    let patch ← parseNumber patch
    let preParts := if pre = "" then [] else split '.' pre
    guard ("" ∉ preParts)
    return { major, minor, patch, pre := preParts }
  | _ => none

/-- One pass of the loop of `comparePrerelease`, `.eq` when it goes on. -/
def compareIdentifier (a b : String) : Ordering :=
  match parseNumber a, parseNumber b with
  | some m, some n => compare m n
  | some _, none => .lt
  | none, some _ => .gt
  | none, none => compareOfLessAndEq a b

/-- The loop of `comparePrerelease` and the comparison of the lengths behind it. -/
def compareIdentifiers : List String → List String → Ordering
  | [], [] => .eq
  | [], _ :: _ => .lt
  | _ :: _, [] => .gt
  | a :: as, b :: bs => (compareIdentifier a b).then (compareIdentifiers as bs)

def comparePrerelease (a b : List String) : Ordering :=
  if a = [] ∧ b = [] then .eq
  else if a = [] then .gt
  else if b = [] then .lt
  else compareIdentifiers a b

/-- `Compare`, none when one of the versions is not valid. -/
def compare? (a b : String) : Option Ordering := do
  let av ← parse a
  let bv ← parse b
  return (compare av.major bv.major).then ((compare av.minor bv.minor).then
    ((compare av.patch bv.patch).then (comparePrerelease av.pre bv.pre)))

end OtelMagnify.Version
