import OtelMagnify.Lib.GoString

/-! JSON values and the texts `encoding/json` writes for them. A text determines the value, up to
the bytes of a string that are part of no character. -/
namespace Json

/-- A character a number is written with. -/
def isNumberChar (c : Char) : Bool := c.isDigit || c ∈ ['.', 'e', '-', '+']

structure NumberText where
  text : List Char
  ne_nil : text ≠ []
  chars : text.all isNumberChar = true
  deriving DecidableEq

mutual

/-- A string is a list of characters, with `none` for a byte that is part of none. -/
inductive Value where
  | null
  | bool (b : Bool)
  | num (n : NumberText)
  | str (s : List (Option Char))
  | arr (l : Elements)
  | obj (m : Members)

inductive Elements where
  | nil
  | cons (v : Value) (l : Elements)

inductive Members where
  | nil
  | cons (key : List (Option Char)) (v : Value) (m : Members)

end

def hexDigit (n : ℕ) : Char := "0123456789abcdef".toList.getD n '0'

/-- What a character is written as within a string. -/
def escapeChar (c : Char) : List Char :=
  if c = '"' ∨ c = '\\' then ['\\', c]
  else if c.toNat = 0x08 then ['\\', 'b']
  else if c.toNat = 0x0c then ['\\', 'f']
  else if c = '\n' then ['\\', 'n']
  else if c = '\r' then ['\\', 'r']
  else if c = '\t' then ['\\', 't']
  else if c.toNat < 0x20 ∨ c = '<' ∨ c = '>' ∨ c = '&' then
    ['\\', 'u', '0', '0', hexDigit (c.toNat / 16), hexDigit (c.toNat % 16)]
  else if c.toNat = 0x2028 then ['\\', 'u', '2', '0', '2', '8']
  else if c.toNat = 0x2029 then ['\\', 'u', '2', '0', '2', '9']
  else [c]

def escape : Option Char → List Char
  | none => ['\\', 'u', 'f', 'f', 'f', 'd']
  | some c => escapeChar c

def quote (s : List (Option Char)) : List Char := '"' :: (s.flatMap escape ++ ['"'])

mutual

/-- `json.Marshal` -/
def Value.text : Value → List Char
  | .null => "null".toList
  | .bool true => "true".toList
  | .bool false => "false".toList
  | .num n => n.text
  | .str s => quote s
  | .arr .nil => ['[', ']']
  | .arr (.cons v l) => '[' :: (v.text ++ l.tailText)
  | .obj .nil => ['\x7b', '\x7d']
  | .obj (.cons key v m) => '\x7b' :: (quote key ++ ':' :: (v.text ++ m.tailText))

def Elements.tailText : Elements → List Char
  | .nil => [']']
  | .cons v l => ',' :: (v.text ++ l.tailText)

def Members.tailText : Members → List Char
  | .nil => ['\x7d']
  | .cons key v m => ',' :: (quote key ++ ':' :: (v.text ++ m.tailText))

end

section Strings

def hexValue (c : Char) : ℕ := "0123456789abcdef".toList.idxOf c

/-- Reads the first character of a string, and what follows it. -/
def unescape : List Char → Option (Option Char × List Char)
  | '\\' :: 'u' :: 'f' :: 'f' :: 'f' :: 'd' :: r => some (none, r)
  | '\\' :: 'u' :: '0' :: '0' :: a :: b :: r =>
    some (some (Char.ofNat (16 * hexValue a + hexValue b)), r)
  | '\\' :: 'u' :: '2' :: '0' :: '2' :: b :: r => some (some (Char.ofNat (0x2020 + hexValue b)), r)
  | '\\' :: 'b' :: r => some (some (Char.ofNat 0x08), r)
  | '\\' :: 'f' :: r => some (some (Char.ofNat 0x0c), r)
  | '\\' :: 'n' :: r => some (some '\n', r)
  | '\\' :: 'r' :: r => some (some '\r', r)
  | '\\' :: 't' :: r => some (some '\t', r)
  | '\\' :: c :: r => some (some c, r)
  | c :: r => if c = '"' then none else some (some c, r)
  | [] => none

theorem hexValue_hexDigit {n : ℕ} (h : n < 16) : hexValue (hexDigit n) = n := by
  have hall : ∀ n < 16, hexValue (hexDigit n) = n := by decide
  exact hall n h

theorem eq_ofNat {c : Char} {n : ℕ} (h : c.toNat = n) : c = Char.ofNat n := by
  rw [← h, Char.ofNat_toNat]

theorem unescape_escapeChar (c : Char) (r : List Char) :
    unescape (escapeChar c ++ r) = some (some c, r) := by
  unfold escapeChar
  split
  · next h => rcases h with rfl | rfl <;> rfl
  split
  · next h => rw [eq_ofNat h]; rfl
  split
  · next h => rw [eq_ofNat h]; rfl
  split
  · next h => subst h; rfl
  split
  · next h => subst h; rfl
  split
  · next h => subst h; rfl
  split
  · next h =>
    have hlt : c.toNat < 256 := by
      rcases h with h | rfl | rfl | rfl
      · omega
      all_goals decide
    simp only [List.cons_append, List.nil_append, unescape,
      hexValue_hexDigit (show c.toNat / 16 < 16 by omega),
      hexValue_hexDigit (show c.toNat % 16 < 16 by omega), Nat.div_add_mod, Char.ofNat_toNat]
  split
  · next h => rw [eq_ofNat h]; rfl
  split
  · next h => rw [eq_ofNat h]; rfl
  · next hspecial _ _ _ _ _ _ _ _ =>
    obtain ⟨hquote, hslash⟩ := not_or.mp hspecial
    rw [List.singleton_append, unescape]
    · rw [if_neg hquote]
    all_goals simp [hslash]

theorem unescape_escape (c : Option Char) (r : List Char) :
    unescape (escape c ++ r) = some (c, r) := by
  cases c with
  | none => rfl
  | some c => exact unescape_escapeChar c r

/-- A quoted string ends where it does, whatever follows. -/
theorem quote_append_inj {s t : List (Option Char)} {r r' : List Char}
    (h : quote s ++ r = quote t ++ r') : s = t ∧ r = r' := by
  simp only [quote, List.cons_append, List.append_assoc, List.cons.injEq, true_and,
    List.nil_append] at h
  induction s generalizing t with
  | nil =>
    cases t with
    | nil => simpa using h
    | cons c t =>
      have hread := congrArg unescape h
      rw [List.flatMap_cons, List.append_assoc, unescape_escape] at hread
      cases hread
  | cons c s ih =>
    have hread := congrArg unescape h
    rw [List.flatMap_cons, List.append_assoc, unescape_escape] at hread
    cases t with
    | nil => cases hread
    | cons d t =>
      rw [List.flatMap_cons, List.append_assoc, unescape_escape] at hread
      simp only [Option.some.injEq, Prod.mk.injEq] at hread
      obtain ⟨rfl, hrest⟩ := hread
      obtain ⟨rfl, hr⟩ := ih hrest
      exact ⟨rfl, hr⟩

end Strings

/-- What the first character of a text says about the value: none for a number. -/
def Value.kind : Value → Option Char
  | .null => some 'n'
  | .bool true => some 't'
  | .bool false => some 'f'
  | .num _ => none
  | .str _ => some '"'
  | .arr _ => some '['
  | .obj _ => some '\x7b'

theorem Value.head_text (v : Value) :
    ∃ c r, v.text = c :: r ∧ v.kind = if isNumberChar c then none else some c := by
  cases v with
  | null => exact ⟨'n', _, rfl, rfl⟩
  | bool b =>
    cases b with
    | true => exact ⟨'t', _, rfl, rfl⟩
    | false => exact ⟨'f', _, rfl, rfl⟩
  | num n =>
    obtain ⟨c, r, hcons⟩ := List.exists_cons_of_ne_nil n.ne_nil
    have hchars := n.chars
    rw [hcons, List.all_cons, Bool.and_eq_true] at hchars
    exact ⟨c, r, hcons, by rw [if_pos hchars.1]; rfl⟩
  | str s => exact ⟨'"', _, rfl, rfl⟩
  | arr l =>
    cases l with
    | nil | cons v l => exact ⟨'[', _, rfl, rfl⟩
  | obj m =>
    cases m with
    | nil | cons key v m => exact ⟨'\x7b', _, rfl, rfl⟩

theorem Value.kind_eq_of_text {v w : Value} {r r' : List Char} (h : v.text ++ r = w.text ++ r') :
    v.kind = w.kind := by
  obtain ⟨c, _, hv, hkind⟩ := v.head_text
  obtain ⟨d, _, hw, hkind'⟩ := w.head_text
  rw [hv, hw] at h
  obtain ⟨rfl, -⟩ := List.cons.inj h
  rw [hkind, hkind']

/-- No text of a value begins like the end of a list. -/
theorem Value.text_ne_close (v : Value) (r r' : List Char) : ']' :: r ≠ v.text ++ r' := by
  intro h
  obtain ⟨c, _, hv, hkind⟩ := v.head_text
  rw [hv] at h
  obtain ⟨rfl, -⟩ := List.cons.inj h
  rw [if_neg (by decide)] at hkind
  revert hkind
  cases v with
  | bool b => cases b <;> decide
  | _ => simp [Value.kind]

/-- What follows does not go on with a number. -/
def Stops (r : List Char) : Prop := ∀ c ∈ r.head?, isNumberChar c = false

theorem stops_nil : Stops [] := by simp [Stops]

theorem stops_cons {c : Char} (h : isNumberChar c = false) (r : List Char) : Stops (c :: r) := by
  simpa [Stops] using h

theorem Elements.stops (l : Elements) (r : List Char) : Stops (l.tailText ++ r) := by
  cases l <;> exact stops_cons (by decide) _

theorem Members.stops (m : Members) (r : List Char) : Stops (m.tailText ++ r) := by
  cases m <;> exact stops_cons (by decide) _

theorem takeWhile_number {l r : List Char} (hl : l.all isNumberChar = true) (hr : Stops r) :
    (l ++ r).takeWhile isNumberChar = l := by
  rw [List.takeWhile_append_of_pos (List.all_eq_true.mp hl)]
  cases r with
  | nil => simp
  | cons c r => rw [List.takeWhile_cons_of_neg (by simp [hr c rfl]), List.append_nil]

theorem NumberText.append_inj {n m : NumberText} {r r' : List Char} (hr : Stops r)
    (hr' : Stops r') (h : n.text ++ r = m.text ++ r') : n = m ∧ r = r' := by
  have htext : n.text = m.text := by
    rw [← takeWhile_number n.chars hr, h, takeWhile_number m.chars hr']
  refine ⟨?_, List.append_cancel_left (htext ▸ h)⟩
  cases n
  cases m
  cases htext
  rfl

mutual

/-- A text followed by something that does not go on with a number determines the value. -/
theorem Value.text_append_inj (v w : Value) (r r' : List Char) (hr : Stops r) (hr' : Stops r')
    (h : v.text ++ r = w.text ++ r') : v = w ∧ r = r' := by
  have hkind := Value.kind_eq_of_text h
  match v, w with
  | .null, .null => exact ⟨rfl, List.append_cancel_left h⟩
  | .bool true, .bool true => exact ⟨rfl, List.append_cancel_left h⟩
  | .bool false, .bool false => exact ⟨rfl, List.append_cancel_left h⟩
  | .num n, .num m =>
    obtain ⟨rfl, hrest⟩ := NumberText.append_inj hr hr' h
    exact ⟨rfl, hrest⟩
  | .str s, .str t =>
    obtain ⟨rfl, hrest⟩ := quote_append_inj h
    exact ⟨rfl, hrest⟩
  | .arr .nil, .arr .nil => exact ⟨rfl, List.append_cancel_left h⟩
  | .arr .nil, .arr (.cons w m) =>
    simp only [Value.text, List.cons_append, List.append_assoc, List.cons.injEq, true_and] at h
    exact absurd h (w.text_ne_close _ _)
  | .arr (.cons v l), .arr .nil =>
    simp only [Value.text, List.cons_append, List.append_assoc, List.cons.injEq, true_and] at h
    exact absurd h.symm (v.text_ne_close _ _)
  | .arr (.cons v l), .arr (.cons w m) =>
    -- behind the bracket the text goes on as behind a comma
    have htail := congrArg (List.cons ',') (List.cons.inj h).2
    obtain ⟨hl, hrest⟩ := Elements.tailText_append_inj (.cons v l) (.cons w m) r r' htail
    exact ⟨congrArg Value.arr hl, hrest⟩
  | .obj .nil, .obj .nil => exact ⟨rfl, List.append_cancel_left h⟩
  | .obj .nil, .obj (.cons key w m) => simp [Value.text, quote] at h
  | .obj (.cons key v m), .obj .nil => simp [Value.text, quote] at h
  | .obj (.cons key v m), .obj (.cons key' v' m') =>
    have htail := congrArg (List.cons ',') (List.cons.inj h).2
    obtain ⟨hm, hrest⟩ :=
      Members.tailText_append_inj (.cons key v m) (.cons key' v' m') r r' htail
    exact ⟨congrArg Value.obj hm, hrest⟩

theorem Elements.tailText_append_inj (l m : Elements) (r r' : List Char)
    (h : l.tailText ++ r = m.tailText ++ r') : l = m ∧ r = r' := by
  match l, m with
  | .nil, .nil => exact ⟨rfl, List.append_cancel_left h⟩
  | .nil, .cons w m => simp [Elements.tailText] at h
  | .cons v l, .nil => simp [Elements.tailText] at h
  | .cons v l, .cons w m =>
    simp only [Elements.tailText, List.cons_append, List.append_assoc, List.cons.injEq,
      true_and] at h
    obtain ⟨rfl, htail⟩ := Value.text_append_inj v w _ _ (l.stops r) (m.stops r') h
    obtain ⟨rfl, hrest⟩ := Elements.tailText_append_inj l m r r' htail
    exact ⟨rfl, hrest⟩

theorem Members.tailText_append_inj (l m : Members) (r r' : List Char)
    (h : l.tailText ++ r = m.tailText ++ r') : l = m ∧ r = r' := by
  match l, m with
  | .nil, .nil => exact ⟨rfl, List.append_cancel_left h⟩
  | .nil, .cons key w m => simp [Members.tailText] at h
  | .cons key v m, .nil => simp [Members.tailText] at h
  | .cons key v m, .cons key' v' m' =>
    simp only [Members.tailText, List.cons_append, List.append_assoc, List.cons.injEq,
      true_and] at h
    obtain ⟨rfl, hvalue⟩ := quote_append_inj h
    obtain ⟨rfl, htail⟩ := Value.text_append_inj v v' _ _ (m.stops r) (m'.stops r')
      (List.cons.inj hvalue).2
    obtain ⟨rfl, hrest⟩ := Members.tailText_append_inj m m' r r' htail
    exact ⟨rfl, hrest⟩

end

theorem Value.text_inj {v w : Value} : v.text = w.text ↔ v = w := by
  refine ⟨fun h => ?_, fun h => h ▸ rfl⟩
  exact (Value.text_append_inj v w [] [] stops_nil stops_nil (by rw [h])).1

theorem Value.text_ne_nil (v : Value) : v.text ≠ [] := by
  obtain ⟨c, r, hv, -⟩ := v.head_text
  rw [hv]
  exact List.cons_ne_nil c r

end Json
