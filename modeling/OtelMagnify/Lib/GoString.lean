import Mathlib.Algebra.Group.Int.Defs
import Mathlib.Algebra.Group.Nat.Defs
import Mathlib.Data.List.Dedup
import Mathlib.Data.List.Infix
import Mathlib.Data.List.Sort

/-! Go strings and the functions of `strings` and `sort` on them. A string, which is a sequence of
bytes, is given as a `range` loop goes through it: its characters, and the bytes that are part of
none. Searching, cutting and joining at ASCII texts are then what they are on lists. -/

inductive Rune where
  | char (c : Char)
  | bad (b : UInt8)
  deriving DecidableEq, Repr

abbrev GoString := List Rune

instance : LawfulBEq GoString := inferInstance

def Rune.bytes : Rune → List UInt8
  | .char c => String.utf8EncodeChar c
  | .bad b => [b]

def Rune.isSpace : Rune → Bool
  | .char c =>
    c.toNat = 0x20 || (0x09 ≤ c.toNat && c.toNat ≤ 0x0d) || c.toNat = 0x85 || c.toNat = 0xa0 ||
      c.toNat = 0x1680 || (0x2000 ≤ c.toNat && c.toNat ≤ 0x200a) || c.toNat = 0x2028 ||
      c.toNat = 0x2029 || c.toNat = 0x202f || c.toNat = 0x205f || c.toNat = 0x3000
  | .bad _ => false

structure CaseTable where
  lower : Char → Char
  ascii : ∀ c, c.toNat < 0x80 → lower c = c.toLower

def CaseTable.asciiOnly : CaseTable := ⟨Char.toLower, fun _ _ => rfl⟩

namespace GoString

def ofString (s : String) : GoString := s.toList.map .char

instance : Coe String GoString := ⟨ofString⟩

theorem ofString_injective : Function.Injective ofString := by
  intro s t h
  have hchar : Function.Injective Rune.char := fun _ _ => Rune.char.inj
  exact String.toList_inj.mp (hchar.list_map h)

def bytes (s : GoString) : List UInt8 := s.flatMap Rune.bytes

def isContinuation (b : UInt8) : Bool := 0x80 ≤ b && b ≤ 0xbf

/-- The bounds on the second byte after the first one, and the number of bytes of the character. -/
def leadByte (b : UInt8) : Option (UInt8 × UInt8 × ℕ) :=
  if b < 0xc2 then none
  else if b ≤ 0xdf then some (0x80, 0xbf, 2)
  else if b = 0xe0 then some (0xa0, 0xbf, 3)
  else if b = 0xed then some (0x80, 0x9f, 3)
  else if b ≤ 0xef then some (0x80, 0xbf, 3)
  else if b = 0xf0 then some (0x90, 0xbf, 4)
  else if b ≤ 0xf3 then some (0x80, 0xbf, 4)
  else if b = 0xf4 then some (0x80, 0x8f, 4)
  else none

/-- The payload of a character of `n` bytes. -/
def payload (n : ℕ) (bs : List UInt8) : ℕ :=
  bs.tail.foldl (fun v b => 64 * v + b.toNat % 64) ((bs.headD 0).toNat % 2 ^ (7 - n))

/-- `utf8.DecodeRune`: a character and the number of its bytes, none for a byte that begins no
character. -/
def decodeRune : List UInt8 → Option (Char × ℕ)
  | [] => none
  | b :: bs =>
    if b < 0x80 then some (Char.ofNat b.toNat, 1)
    else
      match leadByte b, bs with
      | some (lo, hi, n), b' :: _ =>
        if lo ≤ b' ∧ b' ≤ hi ∧ n - 1 ≤ bs.length ∧ (bs.take (n - 1)).all isContinuation then
          some (Char.ofNat (payload n (b :: bs.take (n - 1))), n)
        else none
      | _, _ => none

/-- The string of the bytes; `skip` of them belong to the character before. -/
def decodeFrom (skip : ℕ) : List UInt8 → GoString
  | [] => []
  | b :: bs =>
    match skip with
    | skip + 1 => decodeFrom skip bs
    | 0 =>
      match decodeRune (b :: bs) with
      | some (c, n) => .char c :: decodeFrom (n - 1) bs
      | none => .bad b :: decodeFrom 0 bs

def decode (bs : List UInt8) : GoString := decodeFrom 0 bs

example : decode (bytes ("a•é😀" : String)) = ofString "a•é😀" := by decide +kernel

def less (a b : GoString) : Bool := decide (a.bytes < b.bytes)

/-- `strings.ToLower`, with the replacement character for a byte that is part of none. -/
def toLower (table : CaseTable) (s : GoString) : GoString :=
  s.map fun
    | .char c => .char (table.lower c)
    | .bad _ => .char '�'

def contains (s sub : GoString) : Bool := decide (sub <:+: s)

def hasPrefix (s pre : GoString) : Bool := pre.isPrefixOf s

def hasSuffix (s suf : GoString) : Bool := suf.isSuffixOf s

def trimPrefix (s pre : GoString) : GoString := if s.hasPrefix pre then s.drop pre.length else s

def trimSuffix (s suf : GoString) : GoString :=
  if s.hasSuffix suf then s.take (s.length - suf.length) else s

/-- `strings.ReplaceAll` of one character by another. -/
def replace (old new : Char) (s : GoString) : GoString :=
  s.map fun r => if r = .char old then .char new else r

def cut (sep : Char) (s : GoString) : GoString × GoString :=
  (s.takeWhile (· ≠ .char sep), (s.dropWhile (· ≠ .char sep)).tail)

def cutLast (sep : Char) (s : GoString) : Option (GoString × GoString) :=
  if .char sep ∈ s then
    some ((s.reverse.dropWhile (· ≠ .char sep)).tail.reverse,
      (s.reverse.takeWhile (· ≠ .char sep)).reverse)
  else none

/-- `strings.Split` at a single character. -/
def split (sep : Char) (s : GoString) : List GoString := s.splitOn (.char sep)

def join (sep : GoString) (l : List GoString) : GoString := (l.intersperse sep).flatten

/-- `strings.FieldsFunc` for the characters in `seps`. -/
def fields (seps : List Char) (s : GoString) : List GoString :=
  (s.splitOnP fun r => seps.any fun c => r = .char c).filter (· ≠ [])

def trimSpace (s : GoString) : GoString :=
  ((s.dropWhile Rune.isSpace).reverse.dropWhile Rune.isSpace).reverse

/-- `strings.TrimRight` for one character. -/
def trimRight (c : Char) (s : GoString) : GoString := (s.reverse.dropWhile (· = .char c)).reverse

/-- `sort.Strings`. -/
def sortStrings (l : List GoString) : List GoString :=
  l.insertionSort fun a b => less b a = false

/-- The sorted keys of a `map[string]bool`, from the keys that were set. -/
def sortedSet (l : List GoString) : List GoString := sortStrings l.dedup

theorem mem_sortedSet {s : GoString} {l : List GoString} : s ∈ sortedSet l ↔ s ∈ l := by
  rw [sortedSet, sortStrings, List.mem_insertionSort, List.mem_dedup]

section Parts

variable {α : Type} {p : α → Bool}

theorem prefix_head_splitOnP {w : List α} (hw : ∀ r ∈ w, p r = false) (l : List α) :
    ∃ f fs, (w ++ l).splitOnP p = f :: fs ∧ w <+: f := by
  induction w with
  | nil =>
    obtain ⟨f, fs, h⟩ := List.exists_cons_of_ne_nil (List.splitOnP_ne_nil p l)
    exact ⟨f, fs, h, List.nil_prefix⟩
  | cons r w ih =>
    obtain ⟨f, fs, h, hf⟩ := ih fun x hx => hw x (List.mem_cons_of_mem r hx)
    refine ⟨r :: f, fs, ?_, List.cons_prefix_cons.mpr ⟨rfl, hf⟩⟩
    rw [List.cons_append, List.splitOnP_cons_eq_if_modifyHead, h]
    simp [hw r List.mem_cons_self]

/-- A text without separators lies within one of the parts. -/
theorem exists_mem_splitOnP_of_infix {w l : List α} (hw : ∀ r ∈ w, p r = false) (h : w <:+: l) :
    ∃ f ∈ l.splitOnP p, w <:+: f := by
  obtain ⟨before, after, rfl⟩ := h
  induction before with
  | nil =>
    obtain ⟨f, fs, hsplit, hf⟩ := prefix_head_splitOnP hw after
    exact ⟨f, by simp [hsplit], hf.isInfix⟩
  | cons r before ih =>
    obtain ⟨f, hf, hinfix⟩ := ih
    rw [List.cons_append, List.cons_append, List.splitOnP_cons_eq_if_modifyHead]
    split
    · exact ⟨f, List.mem_cons_of_mem _ hf, hinfix⟩
    · -- the part that `r` begins is longer, the other parts are the same
      generalize List.splitOnP p (before ++ w ++ after) = parts at hf
      cases parts with
      | nil => cases hf
      | cons g parts =>
        rw [List.modifyHead_cons]
        rcases List.mem_cons.mp hf with rfl | hf
        · exact ⟨r :: f, List.mem_cons_self, hinfix.trans (List.suffix_cons r f).isInfix⟩
        · exact ⟨f, List.mem_cons_of_mem _ hf, hinfix⟩

theorem infix_intercalate {sep k : List α} {ls : List (List α)} (h : k ∈ ls) :
    k <:+: sep.intercalate ls := by
  induction ls with
  | nil => cases h
  | cons x ls ih =>
    by_cases hne : ls = []
    · subst hne
      rw [List.mem_singleton.mp h, List.intercalate_singleton]
    rw [List.intercalate_cons_of_ne_nil hne]
    rcases List.mem_cons.mp h with rfl | h
    · rw [List.append_assoc]
      exact (List.prefix_append _ _).isInfix
    · exact (ih h).trans (List.suffix_append _ _).isInfix

theorem sep_infix_intercalate {sep : α} {k : List α} {ls : List (List α)} (h : k ∈ ls) :
    sep :: (k ++ [sep]) <:+: sep :: ([sep].intercalate ls ++ [sep]) := by
  induction ls with
  | nil => cases h
  | cons x ls ih =>
    by_cases hne : ls = []
    · subst hne
      rw [List.mem_singleton.mp h, List.intercalate_singleton]
    have htext : sep :: ([sep].intercalate (x :: ls) ++ [sep]) =
        sep :: x ++ sep :: ([sep].intercalate ls ++ [sep]) := by
      rw [List.intercalate_cons_of_ne_nil hne]
      simp
    rw [htext]
    rcases List.mem_cons.mp h with rfl | h
    · refine List.IsPrefix.isInfix ⟨[sep].intercalate ls ++ [sep], ?_⟩
      simp
    · exact (ih h).trans (List.suffix_append _ _).isInfix

theorem exists_mem_fields_of_infix (seps : List Char) {w s : GoString} (hne : w ≠ [])
    (hw : ∀ r ∈ w, ∀ c ∈ seps, r ≠ .char c) (h : w <:+: s) : ∃ f ∈ fields seps s, w <:+: f := by
  have hsep : ∀ r ∈ w, (seps.any fun c => r = .char c) = false := by
    intro r hr
    simpa using hw r hr
  obtain ⟨f, hf, hinfix⟩ := exists_mem_splitOnP_of_infix hsep h
  refine ⟨f, List.mem_filter.mpr ⟨hf, ?_⟩, hinfix⟩
  rw [decide_eq_true_eq]
  rintro rfl
  exact hne (List.infix_nil.mp hinfix)

theorem append_sep_inj {x y r s : List α} {sep : α} (hx : sep ∉ x) (hy : sep ∉ y)
    (h : x ++ sep :: r = y ++ sep :: s) : x = y ∧ r = s := by
  induction x generalizing y with
  | nil =>
    cases y with
    | nil => exact ⟨rfl, List.cons.inj h |>.2⟩
    | cons b y => exact absurd (List.cons.inj h).1 fun heq => hy (heq ▸ List.mem_cons_self)
  | cons a x ih =>
    cases y with
    | nil => exact absurd (List.cons.inj h).1 fun heq => hx (heq ▸ List.mem_cons_self)
    | cons b y =>
      rw [List.mem_cons, not_or] at hx hy
      obtain ⟨rfl, hrest⟩ := List.cons.inj h
      obtain ⟨rfl, rfl⟩ := ih hx.2 hy.2 hrest
      exact ⟨rfl, rfl⟩

theorem append_sep_cases {x y r s : List α} {sep : α} (h : x ++ sep :: r = y ++ sep :: s) :
    (x = y ∧ r = s) ∨ (∃ d, x = y ++ sep :: d ∧ s = d ++ sep :: r) ∨
      ∃ d, y = x ++ sep :: d ∧ r = d ++ sep :: s := by
  rcases List.append_eq_append_iff.mp h with ⟨d, rfl, hd⟩ | ⟨d, rfl, hd⟩
  · cases d with
    | nil => exact .inl ⟨(List.append_nil x).symm, (List.cons.inj hd).2⟩
    | cons b d =>
      obtain ⟨rfl, hrest⟩ := List.cons.inj hd
      exact .inr (.inr ⟨d, rfl, hrest⟩)
  · cases d with
    | nil => exact .inl ⟨List.append_nil y, (List.cons.inj hd).2.symm⟩
    | cons b d =>
      obtain ⟨rfl, hrest⟩ := List.cons.inj hd
      exact .inr (.inl ⟨d, rfl, hrest⟩)

end Parts

end GoString

/-- `sort.Slice`. The order of elements neither of which is less is left open. -/
structure SortSlice where
  sort {α : Type} (less : α → α → Bool) (l : List α) : List α
  perm {α : Type} (less : α → α → Bool) (l : List α) : (sort less l).Perm l
  sorted {α : Type} (less : α → α → Bool) (l : List α)
    (asymm : ∀ a b, less a b = true → less b a = false)
    (trans : ∀ a b c, less b a = false → less c b = false → less c a = false) :
    (sort less l).Pairwise fun a b => less b a = false

/-- A `sort.Slice` that keeps the order of such elements. -/
def SortSlice.stable : SortSlice where
  sort less l := l.insertionSort fun a b => less b a = false
  perm less l := List.perm_insertionSort _ l
  sorted {α} less l asymm trans := by
    have total : Std.Total fun a b : α => less b a = false := ⟨fun a b => by
      cases h : less b a with
      | false => exact .inl rfl
      | true => exact .inr (asymm b a h)⟩
    have transitive : IsTrans α fun a b => less b a = false := ⟨fun a b c => trans a b c⟩
    exact List.pairwise_insertionSort _ l
