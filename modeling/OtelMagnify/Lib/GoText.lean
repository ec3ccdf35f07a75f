import Mathlib.Data.List.SplitOn
import Mathlib.Data.List.TakeWhile
import Mathlib.Data.Int.Order.Basic
import OtelMagnify.Lib.GoString

/-! Functions of Go's `strings` and `strconv` on texts. -/
namespace GoText

def trimPrefix (pre s : String) : String :=
  if pre.toList.isPrefixOf s.toList then String.ofList (s.toList.drop pre.toList.length) else s

def trimSuffix (suf s : String) : String :=
  if suf.toList.isSuffixOf s.toList then
    String.ofList (s.toList.take (s.toList.length - suf.toList.length))
  else s

/-- `strings.Split` at a single character. -/
def split (sep : Char) (s : String) : List String := (s.toList.splitOn sep).map String.ofList

def before (sep : Char) (s : String) : String := String.ofList (s.toList.takeWhile (· ≠ sep))

/-- The ASCII character that a character folds to, if there is one. -/
def foldChar (c : Char) : Char :=
  if c.toNat = 0x17f then 's' else if c.toNat = 0x212a then 'k' else c.toLower

/-- `strings.EqualFold` with an ASCII text. -/
def equalFold (s ascii : String) : Bool := s.toList.map foldChar = ascii.toList.map foldChar

/-- `ParseUint` in base 10 with its range error dropped. A number that grows too large ends the
reading there, whatever follows. -/
def parseUint (n : ℕ) : List Char → Option ℕ
  | [] => some n
  | c :: cs =>
    if c.isDigit then
      let n := 10 * n + (c.toNat - '0'.toNat)
      if 2 ^ 64 ≤ n then some (2 ^ 64 - 1) else parseUint n cs
    else none

/-- The first result of `Atoi`: zero for a malformed text, the nearest `int` for one out of
range. -/
def atoi (s : String) : ℤ :=
  match s.toList with
  | [] => 0
  | c :: cs =>
    let digits := if c = '+' ∨ c = '-' then cs else c :: cs
    match if digits = [] then none else parseUint 0 digits with
    | none => 0
    | some n => if c = '-' then -min n (2 ^ 63) else min n (2 ^ 63 - 1)

def takeSign : List Char → Bool × List Char
  | '-' :: s => (true, s)
  | '+' :: s => (false, s)
  | s => (false, s)

/-- `Sscanf` of one `%d`: spaces, a sign and digits, whatever follows. A number past the positive
end of an `int` is kept; as an index it is in no range either. -/
def sscanfInt (s : List Char) : Option ℤ :=
  let (neg, s) := takeSign (s.dropWhile fun c => (Rune.char c).isSpace && c ≠ '\n')
  let digits := s.takeWhile Char.isDigit
  let n := Nat.ofDigitChars 10 digits 0
  if digits = [] ∨ (neg = true ∧ 2 ^ 63 < n) then none else some (if neg then -n else n)

theorem digit_not_space {c : Char} (h : c.isDigit = true) : (Rune.char c).isSpace = false := by
  have hrange := Char.isDigit_iff_toNat.mp h
  have hlow : 48 ≤ c.toNat := hrange.1
  have hhigh : c.toNat ≤ 57 := hrange.2
  simp only [Rune.isSpace, Bool.or_eq_false_iff, Bool.and_eq_false_iff, decide_eq_false_iff_not]
  omega

theorem takeSign_digit {c : Char} (h : c.isDigit = true) (s : List Char) :
    takeSign (c :: s) = (false, c :: s) := by
  unfold takeSign
  split
  · next heq =>
    cases heq
    exact absurd h (by decide)
  · next heq =>
    cases heq
    exact absurd h (by decide)
  · rfl

theorem sscanfInt_toDigits (n : ℕ) : sscanfInt (Nat.toDigits 10 n) = some (n : ℤ) := by
  have hdigits : ∀ c ∈ Nat.toDigits 10 n, c.isDigit = true :=
    fun _ => Nat.isDigit_of_mem_toDigits (by decide) (by decide)
  have hvalue : Nat.ofDigitChars 10 (Nat.toDigits 10 n) 0 = n :=
    Nat.ofDigitChars_toDigits (by decide) (by decide)
  obtain ⟨c, s, hs⟩ := List.exists_cons_of_ne_nil (Nat.toDigits_ne_nil (n := n) (b := 10))
  rw [hs] at hdigits hvalue ⊢
  have hc := hdigits c List.mem_cons_self
  have htake : (c :: s).takeWhile Char.isDigit = c :: s :=
    List.takeWhile_eq_self_iff.mpr hdigits
  unfold sscanfInt
  rw [List.dropWhile_cons_of_neg (by simp [digit_not_space hc]), takeSign_digit hc]
  simp [htake, hvalue]

/-- `%0*x` -/
def paddedHex (width n : ℕ) : String :=
  let digits := Nat.toDigits 16 n
  String.ofList (List.replicate (width - digits.length) '0' ++ digits)

/-- One character of a quoted text; `isPrint` is the table `strconv.IsPrint`. -/
def quoteChar (isPrint : Char → Bool) (c : Char) : String :=
  if c = '"' ∨ c = '\\' then String.ofList ['\\', c]
  else if isPrint c then c.toString
  else if c.toNat = 0x07 then "\\a"
  else if c.toNat = 0x08 then "\\b"
  else if c.toNat = 0x0c then "\\f"
  else if c = '\n' then "\\n"
  else if c = '\r' then "\\r"
  else if c = '\t' then "\\t"
  else if c.toNat = 0x0b then "\\v"
  else if c < ' ' ∨ c.toNat = 0x7f then "\\x" ++ paddedHex 2 c.toNat
  else if c.toNat < 0x10000 then "\\u" ++ paddedHex 4 c.toNat
  else "\\U" ++ paddedHex 8 c.toNat

/-- `strconv.Quote`, which is `%q` -/
def quote (isPrint : Char → Bool) (s : String) : String :=
  "\"" ++ String.join (s.toList.map (quoteChar isPrint)) ++ "\""

/-- One step of `strconv.Quote` through a string that need not be UTF-8. -/
def quoteRune (isPrint : Char → Bool) : Rune → String
  | .char c => quoteChar isPrint c
  | .bad b => "\\x" ++ paddedHex 2 b.toNat

/-- `strconv.Quote` of any string. -/
def quoteRunes (isPrint : Char → Bool) (s : GoString) : String :=
  "\"" ++ String.join (s.map (quoteRune isPrint)) ++ "\""

end GoText
