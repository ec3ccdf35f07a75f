import Mathlib.Data.List.Infix
import Mathlib.Data.Nat.Notation

/-! Regular expressions as Go matches them: of the matches that start leftmost, the one that a
backtracking search prefers. Repetition is of single characters, as often as possible first. -/

inductive Regexp where
  | empty
  | one (p : Char → Bool)
  | many (p : Char → Bool)
  | seq (r s : Regexp)
  | alt (r s : Regexp)

namespace Regexp

def manyRests (p : Char → Bool) : List Char → List (List Char)
  | [] => [[]]
  | c :: cs => if p c then manyRests p cs ++ [c :: cs] else [c :: cs]

/-- What is left of a text after a match at its start, the preferred match first. -/
def rests : Regexp → List Char → List (List Char)
  | .empty, s => [s]
  | .one _, [] => []
  | .one p, c :: cs => if p c then [cs] else []
  | .many p, s => manyRests p s
  | .seq r t, s => (r.rests s).flatMap t.rests
  | .alt r t, s => r.rests s ++ t.rests s

/-- `x+` -/
def some (p : Char → Bool) : Regexp := .seq (.one p) (.many p)

/-- `x?` -/
def opt (r : Regexp) : Regexp := .alt r .empty

def concat (rs : List Regexp) : Regexp := rs.foldr .seq .empty

/-- A literal; `eq` compares its characters with those of the text. -/
def literal (eq : Char → Char → Bool) (s : String) : Regexp :=
  concat (s.toList.map fun c => .one (eq c))

/-- `MatchString` -/
def isMatch (r : Regexp) (s : List Char) : Bool := s.tails.any fun t => (r.rests t).head?.isSome

/-- `ReplaceAllString` for an expression that does not match the empty text, on at most so many
characters. -/
def replaceFirst (r : Regexp) (repl : List Char) : ℕ → List Char → List Char
  | 0, s => s
  | _ + 1, [] => []
  | n + 1, c :: cs =>
    match (r.rests (c :: cs)).head? with
    | Option.some rest => repl ++ replaceFirst r repl n rest
    | none => c :: replaceFirst r repl n cs

def replaceAll (r : Regexp) (repl : List Char) (s : List Char) : List Char :=
  replaceFirst r repl s.length s

/-- A text without a match is left as it is. -/
theorem replaceFirst_of_not_isMatch {r : Regexp} {s : List Char} (h : r.isMatch s = false)
    (repl : List Char) (n : ℕ) : replaceFirst r repl n s = s := by
  induction s generalizing n with
  | nil => cases n <;> rfl
  | cons c cs ih =>
    cases n with
    | zero => rfl
    | succ n =>
      simp only [isMatch, List.tails, List.any_cons, Bool.or_eq_false_iff] at h
      have hhead : (r.rests (c :: cs)).head? = none := by simpa using h.1
      simp only [replaceFirst, hhead]
      rw [ih h.2]

theorem replaceAll_of_not_isMatch {r : Regexp} {s : List Char} (h : r.isMatch s = false)
    (repl : List Char) : r.replaceAll repl s = s :=
  replaceFirst_of_not_isMatch h repl _

end Regexp
