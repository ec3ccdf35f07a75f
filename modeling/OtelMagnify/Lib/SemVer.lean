import Mathlib.Data.List.Lex
import Mathlib.Data.Nat.Digits.Lemmas
import Mathlib.Data.Prod.Lex
import Mathlib.Data.String.Basic
import Mathlib.Data.Sum.Order
import Mathlib.Order.Compare
import Mathlib.Order.WithBot

/-! Semantic Versioning 2.0.0: how versions are written, and their precedence. Precedence is a
linear order on what is left of a version without its build metadata. -/
namespace SemVer

/-- One of `[0-9A-Za-z-]`. -/
def isIdentifierChar (c : Char) : Bool := c.isAlphanum || c = '-'

/-- An identifier with a letter or a hyphen in it. -/
structure Alphanumeric where
  text : String
  chars : ∀ c ∈ text.toList, isIdentifierChar c = true
  nonDigit : ∃ c ∈ text.toList, c.isDigit = false

inductive Identifier where
  | numeric (n : ℕ)
  | alphanumeric (a : Alphanumeric)

structure BuildIdentifier where
  text : String
  chars : ∀ c ∈ text.toList, isIdentifierChar c = true
  ne_empty : text ≠ ""

structure Version where
  major : ℕ
  minor : ℕ
  patch : ℕ
  pre : List Identifier := []
  build : List BuildIdentifier := []

/-- A number is written without leading zeros. -/
def Identifier.text : Identifier → List Char
  | numeric n => Nat.toDigits 10 n
  | alphanumeric a => a.text.toList

def dotted (l : List (List Char)) : List Char := ['.'].intercalate l

namespace Version

def core (v : Version) : List Char := dotted ([v.major, v.minor, v.patch].map (Nat.toDigits 10))

def preText (v : Version) : List Char :=
  if v.pre.isEmpty then [] else '-' :: dotted (v.pre.map Identifier.text)

def buildText (v : Version) : List Char :=
  if v.build.isEmpty then [] else '+' :: dotted (v.build.map (·.text.toList))

def text (v : Version) : List Char := v.core ++ (v.preText ++ v.buildText)

end Version

/-- Numeric identifiers come before the others, which are in ASCII order. -/
def Identifier.rank : Identifier → ℕ ⊕ₗ String
  | numeric n => toLex (.inl n)
  | alphanumeric a => toLex (.inr a.text)

/-- The numbers first; a version without a prerelease comes after those with one, which are in the
order of their identifiers. -/
abbrev Precedence := ℕ ×ₗ ℕ ×ₗ ℕ ×ₗ WithTop (List (ℕ ⊕ₗ String))

def prePrecedence (pre : List (ℕ ⊕ₗ String)) : WithTop (List (ℕ ⊕ₗ String)) :=
  if pre = [] then ⊤ else pre

def precedenceOf (major minor patch : ℕ) (pre : List (ℕ ⊕ₗ String)) : Precedence :=
  toLex (major, toLex (minor, toLex (patch, prePrecedence pre)))

def Version.precedence (v : Version) : Precedence :=
  precedenceOf v.major v.minor v.patch (v.pre.map Identifier.rank)

section Text

variable {c : Char} {v : Version}

theorem isIdentifierChar_of_isDigit (h : c.isDigit = true) : isIdentifierChar c = true := by
  simp [isIdentifierChar, Char.isAlphanum, h]

theorem ne_of_isIdentifierChar {d : Char} (hc : isIdentifierChar c = true)
    (hd : isIdentifierChar d = false) : c ≠ d := by
  rintro rfl
  simp [hc] at hd

theorem isDigit_digits {n : ℕ} (h : c ∈ Nat.toDigits 10 n) : c.isDigit = true :=
  Nat.isDigit_of_mem_toDigits (by decide) (by decide) h

theorem Identifier.isIdentifierChar_text (i : Identifier) :
    ∀ c ∈ i.text, isIdentifierChar c = true := by
  cases i with
  | numeric n => exact fun c hc => isIdentifierChar_of_isDigit (isDigit_digits hc)
  | alphanumeric a => exact a.chars

theorem Identifier.text_ne_nil (i : Identifier) : i.text ≠ [] := by
  cases i with
  | numeric n => exact Nat.toDigits_ne_nil
  | alphanumeric a =>
    obtain ⟨c, hc, -⟩ := a.nonDigit
    exact List.ne_nil_of_mem hc

theorem mem_dotted {l : List (List Char)} (h : c ∈ dotted l) : c = '.' ∨ ∃ t ∈ l, c ∈ t := by
  induction l with
  | nil => simp [dotted] at h
  | cons t ts ih =>
    cases ts with
    | nil => exact .inr ⟨t, List.mem_cons_self, by simpa [dotted] using h⟩
    | cons u us =>
      rw [dotted, List.intercalate_cons_cons, List.mem_append, List.mem_append,
        List.mem_singleton] at h
      rcases h with (h | h) | h
      · exact .inr ⟨t, List.mem_cons_self, h⟩
      · exact .inl h
      · obtain h | ⟨s, hs, hc⟩ := ih h
        · exact .inl h
        · exact .inr ⟨s, List.mem_cons_of_mem _ hs, hc⟩

theorem mem_core (h : c ∈ v.core) : c = '.' ∨ c.isDigit = true := by
  refine (mem_dotted h).imp id ?_
  rintro ⟨t, ht, hc⟩
  obtain ⟨n, -, rfl⟩ := List.mem_map.mp ht
  exact isDigit_digits hc

theorem mem_preText (h : c ∈ v.preText) : c = '.' ∨ isIdentifierChar c = true := by
  unfold Version.preText at h
  split at h
  · cases h
  rcases List.mem_cons.mp h with rfl | h
  · exact .inr (by decide)
  refine (mem_dotted h).imp id ?_
  rintro ⟨t, ht, hc⟩
  obtain ⟨i, -, rfl⟩ := List.mem_map.mp ht
  exact i.isIdentifierChar_text c hc

theorem mem_buildText (h : c ∈ v.buildText) : c = '+' ∨ c = '.' ∨ isIdentifierChar c = true := by
  unfold Version.buildText at h
  split at h
  · cases h
  rcases List.mem_cons.mp h with rfl | h
  · exact .inl rfl
  refine .inr ((mem_dotted h).imp id ?_)
  rintro ⟨t, ht, hc⟩
  obtain ⟨b, -, rfl⟩ := List.mem_map.mp ht
  exact b.chars c hc

theorem mem_text (h : c ∈ v.text) : c = '+' ∨ c = '.' ∨ isIdentifierChar c = true := by
  rcases List.mem_append.mp h with h | h
  · exact .inr ((mem_core h).imp id isIdentifierChar_of_isDigit)
  rcases List.mem_append.mp h with h | h
  · exact .inr (mem_preText h)
  · exact mem_buildText h

theorem Version.core_eq (v : Version) :
    v.core =
      Nat.toDigits 10 v.major ++ '.' :: dotted ([v.minor, v.patch].map (Nat.toDigits 10)) := by
  simp [core, dotted, List.intercalate_cons_cons]

/-- A version begins with a digit. -/
theorem exists_text_cons (v : Version) : ∃ c l, v.text = c :: l ∧ c.isDigit = true := by
  obtain ⟨c, l, hl⟩ := List.exists_cons_of_ne_nil (Nat.toDigits_ne_nil (n := v.major) (b := 10))
  have hc : c ∈ Nat.toDigits 10 v.major := hl ▸ List.mem_cons_self
  have htext := congrArg (· ++ (v.preText ++ v.buildText)) v.core_eq
  rw [hl, List.cons_append, List.cons_append] at htext
  exact ⟨c, _, htext, isDigit_digits hc⟩

theorem splitOn_dotted {l : List (List Char)} (hl : l ≠ [])
    (h : ∀ t ∈ l, ∀ c ∈ t, isIdentifierChar c = true) : (dotted l).splitOn '.' = l :=
  List.splitOn_intercalate '.' (fun t ht hdot =>
    ne_of_isIdentifierChar (h t ht _ hdot) (by decide) rfl) hl

end Text

end SemVer

namespace Ordering

variable {α β : Type*} [LinearOrder α] [LinearOrder β] {o o' : Ordering}

theorem compares_compare (a b : α) : (compare a b).Compares a b :=
  cmp_eq_compare a b ▸ cmp_compares a b

variable {a b : α}

theorem Compares.then_toLex {c d : β} (h : o.Compares a b) (h' : o'.Compares c d) :
    (o.then o').Compares (toLex (a, c)) (toLex (b, d)) := by
  cases o with
  | lt | gt => exact Prod.Lex.toLex_lt_toLex.mpr (.inl h)
  | eq =>
    obtain rfl : a = b := h
    cases o' with
    | lt | gt => exact Prod.Lex.toLex_lt_toLex.mpr (.inr ⟨rfl, h'⟩)
    | eq => exact congrArg (fun x => toLex (a, x)) h'

theorem Compares.then_cons {l m : List α} (h : o.Compares a b)
    (h' : o'.Compares l m) : (o.then o').Compares (a :: l) (b :: m) := by
  cases o with
  | lt | gt => exact List.cons_lt_cons_iff.mpr (.inl h)
  | eq =>
    obtain rfl : a = b := h
    cases o' with
    | lt | gt => exact List.cons_lt_cons_iff.mpr (.inr ⟨rfl, h'⟩)
    | eq => exact congrArg (a :: ·) h'

theorem Compares.coe_withTop (h : o.Compares a b) : o.Compares (a : WithTop α) (b : WithTop α) := by
  cases o with
  | lt | gt => exact WithTop.coe_lt_coe.mpr h
  | eq => exact congrArg _ h

theorem Compares.inl_toLex (h : o.Compares a b) :
    o.Compares (toLex (.inl a : α ⊕ β)) (toLex (.inl b)) := by
  cases o with
  | lt | gt => exact Sum.Lex.inl_lt_inl_iff.mpr h
  | eq => exact congrArg (fun x => toLex (Sum.inl x)) h

theorem Compares.inr_toLex {a b : β} (h : o.Compares a b) :
    o.Compares (toLex (.inr a : α ⊕ β)) (toLex (.inr b)) := by
  cases o with
  | lt | gt => exact Sum.Lex.inr_lt_inr_iff.mpr h
  | eq => exact congrArg (fun x => toLex (Sum.inr x)) h

end Ordering
