import OtelMagnify.Lib.GoString

/-! Go strings and their bytes: decoding and encoding are inverse to each other, so strings are told
apart by their bytes and ordered by them; and sorting by such a key leaves nothing open when the keys
are different. -/

namespace GoString

variable {n : ℕ} {bs : List UInt8} {b : UInt8} {c : Char}

theorem leadByte_cases {lo hi : UInt8} (h : leadByte b = some (lo, hi, n)) :
    0x80 ≤ lo.toNat ∧ hi.toNat ≤ 0xbf ∧
      ((n = 2 ∧ 0xc2 ≤ b.toNat ∧ b.toNat ≤ 0xdf) ∨
        (n = 3 ∧ 0xe0 ≤ b.toNat ∧ b.toNat ≤ 0xef ∧ (b.toNat = 0xe0 → lo.toNat = 0xa0) ∧
          (b.toNat = 0xed → hi.toNat = 0x9f)) ∨
        (n = 4 ∧ 0xf0 ≤ b.toNat ∧ b.toNat ≤ 0xf4 ∧ (b.toNat = 0xf0 → lo.toNat = 0x90) ∧
          (b.toNat = 0xf4 → hi.toNat = 0x8f))) := by
  unfold leadByte at h
  simp only [UInt8.lt_iff_toNat_lt, UInt8.le_iff_toNat_le, ← UInt8.toNat_inj, UInt8.reduceToNat] at h
  split_ifs at h <;> simp only [Option.some.injEq, Prod.mk.injEq] at h
  all_goals
    obtain ⟨hlo, hhi, hn⟩ := h
    have hlo := congrArg UInt8.toNat hlo
    have hhi := congrArg UInt8.toNat hhi
    simp only [UInt8.reduceToNat] at hlo hhi
    omega

def FitsLead (b b' : UInt8) (n : ℕ) : Prop :=
  ∃ lo hi, leadByte b = some (lo, hi, n) ∧ lo.toNat ≤ b'.toNat ∧ b'.toNat ≤ hi.toNat

section Fits

variable {b b' : UInt8} (hlo : 0x80 ≤ b'.toNat) (hhi : b'.toNat ≤ 0xbf)
include hlo hhi

theorem fitsLead_two (h : 0xc2 ≤ b.toNat) (h' : b.toNat ≤ 0xdf) : FitsLead b b' 2 := by
  refine ⟨0x80, 0xbf, ?_, hlo, hhi⟩
  unfold leadByte
  simp only [UInt8.lt_iff_toNat_lt, UInt8.le_iff_toNat_le, UInt8.reduceToNat]
  rw [if_neg (by omega), if_pos h']

theorem fitsLead_three (h : 0xe0 ≤ b.toNat) (h' : b.toNat ≤ 0xef)
    (hshort : b.toNat = 0xe0 → 0xa0 ≤ b'.toNat) (hsurrogate : b.toNat = 0xed → b'.toNat ≤ 0x9f) :
    FitsLead b b' 3 := by
  unfold FitsLead leadByte
  simp only [UInt8.lt_iff_toNat_lt, UInt8.le_iff_toNat_le, ← UInt8.toNat_inj, UInt8.reduceToNat]
  rw [if_neg (by omega), if_neg (by omega)]
  split_ifs with h₁ h₂
  · exact ⟨_, _, rfl, hshort h₁, hhi⟩
  · exact ⟨_, _, rfl, hlo, hsurrogate h₂⟩
  · exact ⟨_, _, rfl, hlo, hhi⟩

theorem fitsLead_four (h : 0xf0 ≤ b.toNat) (h' : b.toNat ≤ 0xf4)
    (hshort : b.toNat = 0xf0 → 0x90 ≤ b'.toNat) (hlast : b.toNat = 0xf4 → b'.toNat ≤ 0x8f) :
    FitsLead b b' 4 := by
  unfold FitsLead leadByte
  simp only [UInt8.lt_iff_toNat_lt, UInt8.le_iff_toNat_le, ← UInt8.toNat_inj, UInt8.reduceToNat]
  rw [if_neg (by omega), if_neg (by omega), if_neg (by omega), if_neg (by omega),
    if_neg (by omega)]
  split_ifs with h₁ h₂ h₃
  · exact ⟨_, _, rfl, hshort h₁, hhi⟩
  · exact ⟨_, _, rfl, hlo, hhi⟩
  · exact ⟨_, _, rfl, hlo, hlast h₃⟩
  · omega

end Fits

theorem toNat_ofNat (h : n.isValidChar) : (Char.ofNat n).toNat = n := by
  rw [Char.ofNat, dif_pos h]
  rfl

theorem payload_two (b b' : UInt8) :
    payload 2 [b, b'] = 64 * (b.toNat % 32) + b'.toNat % 64 := rfl

theorem payload_three (b b₁ b₂ : UInt8) :
    payload 3 [b, b₁, b₂] = 64 * (64 * (b.toNat % 16) + b₁.toNat % 64) + b₂.toNat % 64 := rfl

theorem payload_four (b b₁ b₂ b₃ : UInt8) :
    payload 4 [b, b₁, b₂, b₃] =
      64 * (64 * (64 * (b.toNat % 8) + b₁.toNat % 64) + b₂.toNat % 64) + b₃.toNat % 64 := rfl

theorem isContinuation_iff : isContinuation b = true ↔ 0x80 ≤ b.toNat ∧ b.toNat ≤ 0xbf := by
  simp [isContinuation, UInt8.le_iff_toNat_le]

theorem ofNat_toNat_byte (h : n = b.toNat) : UInt8.ofNat n = b := by
  rw [h, UInt8.ofNat_toNat]

section Encode

variable {c : Char}

theorem utf8EncodeChar_one (h : c.toNat < 0x80) :
    String.utf8EncodeChar c = [UInt8.ofNat c.toNat] :=
  if_pos (Nat.le_of_lt_succ h)

theorem utf8EncodeChar_two (hlo : 0x80 ≤ c.toNat) (hhi : c.toNat < 0x800) :
    String.utf8EncodeChar c =
      [UInt8.ofNat (c.toNat / 64 % 32 + 0xc0), UInt8.ofNat (c.toNat % 64 + 0x80)] :=
  (if_neg (Nat.not_le_of_lt hlo)).trans (if_pos (Nat.le_of_lt_succ hhi))

theorem utf8EncodeChar_three (hlo : 0x800 ≤ c.toNat) (hhi : c.toNat < 0x10000) :
    String.utf8EncodeChar c =
      [UInt8.ofNat (c.toNat / 4096 % 16 + 0xe0), UInt8.ofNat (c.toNat / 64 % 64 + 0x80),
        UInt8.ofNat (c.toNat % 64 + 0x80)] :=
  (if_neg (Nat.not_le_of_lt (Nat.lt_of_lt_of_le (by decide) hlo))).trans
    ((if_neg (Nat.not_le_of_lt hlo)).trans (if_pos (Nat.le_of_lt_succ hhi)))

theorem utf8EncodeChar_four (hlo : 0x10000 ≤ c.toNat) :
    String.utf8EncodeChar c =
      [UInt8.ofNat (c.toNat / 262144 % 8 + 0xf0), UInt8.ofNat (c.toNat / 4096 % 64 + 0x80),
        UInt8.ofNat (c.toNat / 64 % 64 + 0x80), UInt8.ofNat (c.toNat % 64 + 0x80)] :=
  (if_neg (Nat.not_le_of_lt (Nat.lt_of_lt_of_le (by decide) hlo))).trans
    ((if_neg (Nat.not_le_of_lt (Nat.lt_of_lt_of_le (by decide) hlo))).trans
      (if_neg (Nat.not_le_of_lt hlo)))

end Encode

theorem decodeRune_ascii (h : b.toNat < 0x80) (bs : List UInt8) :
    decodeRune (b :: bs) = some (Char.ofNat b.toNat, 1) :=
  if_pos (UInt8.lt_iff_toNat_lt.mpr h)

theorem decodeRune_eq_some (hb : 0x80 ≤ b.toNat) :
    decodeRune (b :: bs) = some (c, n) ↔
      ∃ b' rest, bs = b' :: rest ∧ FitsLead b b' n ∧ n - 1 ≤ bs.length ∧
        (bs.take (n - 1)).all isContinuation = true ∧
        c = Char.ofNat (payload n (b :: bs.take (n - 1))) := by
  have hnot : ¬b < 0x80 := fun hlt => absurd (UInt8.lt_iff_toNat_lt.mp hlt) (Nat.not_lt_of_le hb)
  simp only [decodeRune, if_neg hnot]
  constructor
  · intro h
    split at h
    · next lo hi m b' rest hlead =>
      split at h
      · next hcond =>
        obtain ⟨hlo, hhi, hlen, hcont⟩ := hcond
        obtain ⟨rfl, rfl⟩ := Prod.mk.inj (Option.some.inj h)
        exact ⟨b', rest, rfl, ⟨lo, hi, hlead, UInt8.le_iff_toNat_le.mp hlo,
          UInt8.le_iff_toNat_le.mp hhi⟩, hlen, hcont, rfl⟩
      · cases h
    · cases h
  · rintro ⟨b', rest, rfl, ⟨lo, hi, hlead, hlo, hhi⟩, hlen, hcont, rfl⟩
    rw [hlead]
    exact if_pos ⟨UInt8.le_iff_toNat_le.mpr hlo, UInt8.le_iff_toNat_le.mpr hhi, hlen, hcont⟩

theorem exists_continuation (hlen : n + 1 ≤ bs.length)
    (hcont : (bs.take (n + 1)).all isContinuation = true) :
    ∃ b rest, bs = b :: rest ∧ 0x80 ≤ b.toNat ∧ b.toNat ≤ 0xbf ∧ n ≤ rest.length ∧
      (rest.take n).all isContinuation = true := by
  cases bs with
  | nil => simp at hlen
  | cons b rest =>
    rw [List.take_succ_cons, List.all_cons, Bool.and_eq_true, isContinuation_iff] at hcont
    exact ⟨b, rest, rfl, hcont.1.1, hcont.1.2, by simpa using hlen, hcont.2⟩

/-- The character that is decoded is encoded by the bytes that were read. -/
theorem utf8EncodeChar_of_decodeRune (h : decodeRune (b :: bs) = some (c, n)) :
    String.utf8EncodeChar c ++ bs.drop (n - 1) = b :: bs := by
  by_cases hb : b.toNat < 0x80
  · rw [decodeRune_ascii hb] at h
    obtain ⟨rfl, rfl⟩ := Prod.mk.inj (Option.some.inj h)
    have hval : (Char.ofNat b.toNat).toNat = b.toNat := toNat_ofNat (.inl (by omega))
    rw [utf8EncodeChar_one (by omega), hval, UInt8.ofNat_toNat]
    rfl
  · obtain ⟨b₁, rest, rfl, ⟨lo, hi, hlead, hlo, hhi⟩, hlen, hcont, rfl⟩ :=
      (decodeRune_eq_some (Nat.le_of_not_lt hb)).mp h
    obtain ⟨hlo', hhi', hcases⟩ := leadByte_cases hlead
    rcases hcases with ⟨rfl, hlow, hhigh⟩ | ⟨rfl, hlow, hhigh, hshort, hsurrogate⟩ |
      ⟨rfl, hlow, hhigh, hshort, hlast⟩
    · have hval := toNat_ofNat (n := payload 2 [b, b₁]) (by rw [payload_two]; left; omega)
      rw [payload_two] at hval
      change String.utf8EncodeChar (Char.ofNat (payload 2 [b, b₁])) ++ rest = b :: b₁ :: rest
      rw [payload_two, utf8EncodeChar_two (by omega) (by omega), hval,
        ofNat_toNat_byte (b := b) (by omega), ofNat_toNat_byte (b := b₁) (by omega)]
      rfl
    · obtain ⟨_, _, heq, -, -, hlen₂, hcont₂⟩ := exists_continuation (n := 1) hlen hcont
      cases heq
      obtain ⟨b₂, rest, rfl, hlo₂, hhi₂, -, -⟩ := exists_continuation (n := 0) hlen₂ hcont₂
      have hval := toNat_ofNat (n := payload 3 [b, b₁, b₂])
        (by rw [payload_three, Nat.isValidChar]; omega)
      rw [payload_three] at hval
      change String.utf8EncodeChar (Char.ofNat (payload 3 [b, b₁, b₂])) ++ rest =
        b :: b₁ :: b₂ :: rest
      rw [payload_three, utf8EncodeChar_three (by omega) (by omega), hval,
        ofNat_toNat_byte (b := b) (by omega), ofNat_toNat_byte (b := b₁) (by omega),
        ofNat_toNat_byte (b := b₂) (by omega)]
      rfl
    · obtain ⟨_, _, heq, -, -, hlen₂, hcont₂⟩ := exists_continuation (n := 2) hlen hcont
      cases heq
      obtain ⟨b₂, rest, rfl, hlo₂, hhi₂, hlen₃, hcont₃⟩ :=
        exists_continuation (n := 1) hlen₂ hcont₂
      obtain ⟨b₃, rest, rfl, hlo₃, hhi₃, -, -⟩ := exists_continuation (n := 0) hlen₃ hcont₃
      have hval := toNat_ofNat (n := payload 4 [b, b₁, b₂, b₃])
        (by rw [payload_four, Nat.isValidChar]; omega)
      rw [payload_four] at hval
      change String.utf8EncodeChar (Char.ofNat (payload 4 [b, b₁, b₂, b₃])) ++ rest =
        b :: b₁ :: b₂ :: b₃ :: rest
      rw [payload_four, utf8EncodeChar_four (by omega), hval, ofNat_toNat_byte (b := b) (by omega),
        ofNat_toNat_byte (b := b₁) (by omega), ofNat_toNat_byte (b := b₂) (by omega),
        ofNat_toNat_byte (b := b₃) (by omega)]
      rfl

theorem toNat_ofNat_byte (h : n < 256) : (UInt8.ofNat n).toNat = n :=
  UInt8.toNat_ofNat_of_lt' h

theorem eq_ofNat (h : n = c.toNat) : c = Char.ofNat n := by
  rw [h, Char.ofNat_toNat]

/-- The bytes of a character are decoded to it. -/
theorem decodeRune_utf8EncodeChar (c : Char) (rest : List UInt8) :
    decodeRune (String.utf8EncodeChar c ++ rest) =
      some (c, (String.utf8EncodeChar c).length) := by
  have hvalid : c.toNat < 0xd800 ∨ 0xdfff < c.toNat ∧ c.toNat < 0x110000 := c.valid
  by_cases h₁ : c.toNat < 0x80
  · have hb := toNat_ofNat_byte (n := c.toNat) (by omega)
    rw [utf8EncodeChar_one h₁, List.singleton_append, decodeRune_ascii (by omega), hb,
      ← eq_ofNat rfl]
    rfl
  have hlast := toNat_ofNat_byte (n := c.toNat % 64 + 0x80) (by omega)
  by_cases h₂ : c.toNat < 0x800
  · have hb := toNat_ofNat_byte (n := c.toNat / 64 % 32 + 0xc0) (by omega)
    rw [utf8EncodeChar_two (by omega) h₂]
    refine (decodeRune_eq_some (by omega)).mpr ⟨_, rest, rfl,
      fitsLead_two (by omega) (by omega) (by omega) (by omega), by simp, ?_, ?_⟩
    · change [_].all isContinuation = true
      simp only [List.all_cons, List.all_nil, Bool.and_true, isContinuation_iff, hlast]
      omega
    · change c = Char.ofNat (payload 2 [_, _])
      rw [payload_two, hb, hlast]
      exact eq_ofNat (by omega)
  have hmid := toNat_ofNat_byte (n := c.toNat / 64 % 64 + 0x80) (by omega)
  by_cases h₃ : c.toNat < 0x10000
  · have hb := toNat_ofNat_byte (n := c.toNat / 4096 % 16 + 0xe0) (by omega)
    rw [utf8EncodeChar_three (by omega) h₃]
    refine (decodeRune_eq_some (by omega)).mpr ⟨_, _, rfl,
      fitsLead_three (by omega) (by omega) (by omega) (by omega) (by omega) (by omega), by simp,
      ?_, ?_⟩
    · change [_, _].all isContinuation = true
      simp only [List.all_cons, List.all_nil, Bool.and_true, Bool.and_eq_true, isContinuation_iff,
        hmid, hlast]
      omega
    · change c = Char.ofNat (payload 3 [_, _, _])
      rw [payload_three, hb, hmid, hlast]
      exact eq_ofNat (by omega)
  · have hb := toNat_ofNat_byte (n := c.toNat / 262144 % 8 + 0xf0) (by omega)
    have hsecond := toNat_ofNat_byte (n := c.toNat / 4096 % 64 + 0x80) (by omega)
    rw [utf8EncodeChar_four (by omega)]
    refine (decodeRune_eq_some (by omega)).mpr ⟨_, _, rfl,
      fitsLead_four (by omega) (by omega) (by omega) (by omega) (by omega) (by omega), by simp,
      ?_, ?_⟩
    · change [_, _, _].all isContinuation = true
      simp only [List.all_cons, List.all_nil, Bool.and_true, Bool.and_eq_true, isContinuation_iff,
        hsecond, hmid, hlast]
      omega
    · change c = Char.ofNat (payload 4 [_, _, _, _])
      rw [payload_four, hb, hsecond, hmid, hlast]
      exact eq_ofNat (by omega)

theorem bytes_decodeFrom (skip : ℕ) (bs : List UInt8) :
    bytes (decodeFrom skip bs) = bs.drop skip := by
  induction bs generalizing skip with
  | nil => simp [decodeFrom, bytes]
  | cons b bs ih =>
    cases skip with
    | succ skip => rw [decodeFrom, ih, List.drop_succ_cons]
    | zero =>
      rw [decodeFrom]
      split
      · next c n hrune =>
        have hih := ih (n - 1)
        rw [bytes] at hih
        rw [bytes, List.flatMap_cons, hih, Rune.bytes, utf8EncodeChar_of_decodeRune hrune]
        rfl
      · have hih := ih 0
        rw [bytes] at hih
        rw [bytes, List.flatMap_cons, hih]
        rfl

theorem bytes_decode (bs : List UInt8) : bytes (decode bs) = bs := by
  rw [decode, bytes_decodeFrom, List.drop_zero]

theorem decodeFrom_append {skip : ℕ} {l : List UInt8} (h : l.length = skip) (rest : List UInt8) :
    decodeFrom skip (l ++ rest) = decodeFrom 0 rest := by
  induction l generalizing skip with
  | nil =>
    cases h
    rfl
  | cons b l ih =>
    cases h
    rw [List.cons_append, List.length_cons, decodeFrom, ih rfl]

theorem decode_bytes_ofString (s : String) : decode (bytes (ofString s)) = ofString s := by
  rw [ofString]
  induction s.toList with
  | nil => rfl
  | cons c l ih =>
    obtain ⟨b, tail, hcons⟩ := List.exists_cons_of_ne_nil (String.utf8EncodeChar_ne_nil (c := c))
    have hrune := decodeRune_utf8EncodeChar c (bytes (l.map .char))
    rw [List.map_cons, bytes, List.flatMap_cons, ← bytes, Rune.bytes, hcons, List.cons_append,
      decode, decodeFrom]
    rw [hcons, List.cons_append] at hrune
    rw [hrune]
    change .char c :: decodeFrom tail.length (tail ++ bytes (l.map .char)) = _
    rw [decodeFrom_append rfl, ← decode, ih]

section Order

def IsString (s : GoString) : Prop := decode (bytes s) = s

theorem isString_ofString (s : String) : IsString (ofString s) := decode_bytes_ofString s

theorem isString_decode (bs : List UInt8) : IsString (decode bs) := by
  rw [IsString, bytes_decode]

theorem ofString_append (s t : String) : ofString (s ++ t) = ofString s ++ ofString t := by
  rw [ofString, String.toList_append, List.map_append]
  rfl

variable {t : GoString} {s : GoString}

theorem IsString.eq (hs : IsString s) (ht : IsString t) (h : bytes s = bytes t) : s = t :=
  hs.symm.trans ((congrArg decode h).trans ht)

theorem less_eq_false_iff : less s t = false ↔ ¬bytes s < bytes t :=
  decide_eq_false_iff_not

theorem less_asymm (h : less s t = true) : less t s = false :=
  less_eq_false_iff.mpr (List.lt_asymm (of_decide_eq_true h))

theorem less_eq_false_trans {u : GoString} (h : less t s = false) (h' : less u t = false) :
    less u s = false := by
  rw [less_eq_false_iff] at *
  exact List.le_trans h h'

theorem IsString.eq_of_less (hs : IsString s) (ht : IsString t)
    (h : less t s = false) (h' : less s t = false) : s = t := by
  rw [less_eq_false_iff] at *
  exact hs.eq ht (List.le_antisymm h h')

theorem pairwise_sortStrings (l : List GoString) :
    (sortStrings l).Pairwise fun s t => less t s = false := by
  have total : Std.Total fun s t : GoString => less t s = false := ⟨fun s t => by
    cases h : less t s with
    | false => exact .inl rfl
    | true => exact .inr (less_asymm h)⟩
  have transitive : IsTrans GoString fun s t => less t s = false :=
    ⟨fun _ _ _ => less_eq_false_trans⟩
  exact List.pairwise_insertionSort _ l

theorem nodup_sortedSet (l : List GoString) : (sortedSet l).Nodup :=
  (List.perm_insertionSort _ l.dedup).nodup_iff.mpr l.nodup_dedup

theorem sortedSet_congr {l l' : List GoString} (hl : ∀ s ∈ l, IsString s)
    (h : ∀ s, s ∈ l ↔ s ∈ l') : sortedSet l = sortedSet l' := by
  refine List.Perm.eq_of_pairwise (fun s t hs ht hle hge => ?_) (pairwise_sortStrings _)
    (pairwise_sortStrings _) ?_
  · exact (hl s (mem_sortedSet.mp hs)).eq_of_less (hl t ((h t).mpr (mem_sortedSet.mp ht))) hle hge
  · rw [List.perm_ext_iff_of_nodup (nodup_sortedSet l) (nodup_sortedSet l')]
    simpa only [mem_sortedSet] using h

end Order

end GoString

namespace SortSlice

open GoString

variable (s : SortSlice) {α : Type} {key : α → GoString} {l l' : List α}

theorem pairwise_sort_key (key : α → GoString) (l : List α) :
    (s.sort (fun a b => less (key a) (key b)) l).Pairwise fun a b => less (key b) (key a) = false :=
  s.sorted _ l (fun _ _ => less_asymm) fun _ _ _ => less_eq_false_trans

theorem map_sort_eq (hl : ∀ x ∈ l, IsString (key x)) (h : (l.map key).Perm (l'.map key)) :
    (s.sort (fun a b => less (key a) (key b)) l).map key =
      (s.sort (fun a b => less (key a) (key b)) l').map key := by
  have hkeys : ∀ k ∈ l.map key, IsString k := by
    intro k hk
    obtain ⟨x, hx, rfl⟩ := List.mem_map.mp hk
    exact hl x hx
  have hperm := ((s.perm (fun a b => less (key a) (key b)) l).map key).trans
    (h.trans ((s.perm (fun a b => less (key a) (key b)) l').map key).symm)
  have hmem := (s.perm (fun a b => less (key a) (key b)) l).map key
  have hsorted (l : List α) : ((s.sort (fun a b => less (key a) (key b)) l).map key).Pairwise
      fun k k' => less k' k = false :=
    List.pairwise_map.mpr (s.pairwise_sort_key key l)
  refine List.Perm.eq_of_pairwise (fun k k' hk hk' hle hge => ?_) (hsorted l) (hsorted l') hperm
  exact (hkeys k (hmem.mem_iff.mp hk)).eq_of_less
    (hkeys k' (hmem.mem_iff.mp (hperm.mem_iff.mpr hk'))) hle hge

theorem forall₂_of_map_eq {R : α → α → Prop} (hkeys : l.map key = l'.map key)
    (h : ∀ x ∈ l, ∀ y ∈ l', key x = key y → R x y) : List.Forall₂ R l l' := by
  induction l generalizing l' with
  | nil =>
    cases l' with
    | nil => exact .nil
    | cons y l' => cases hkeys
  | cons x l ih =>
    cases l' with
    | nil => cases hkeys
    | cons y l' =>
      obtain ⟨hkey, hrest⟩ := List.cons.inj hkeys
      exact .cons (h x List.mem_cons_self y List.mem_cons_self hkey)
        (ih hrest fun x hx y hy => h x (List.mem_cons_of_mem _ hx) y (List.mem_cons_of_mem _ hy))

theorem forall₂_sort {R : α → α → Prop} (hl : ∀ x ∈ l, IsString (key x))
    (hnodup : (l.map key).Nodup) (hnodup' : (l'.map key).Nodup)
    (hkey : ∀ x y, R x y → key x = key y) (h : ∀ x ∈ l, ∃ y ∈ l', R x y)
    (h' : ∀ y ∈ l', ∃ x ∈ l, R x y) :
    List.Forall₂ R (s.sort (fun a b => less (key a) (key b)) l)
      (s.sort (fun a b => less (key a) (key b)) l') := by
  have hperm : (l.map key).Perm (l'.map key) := by
    rw [List.perm_ext_iff_of_nodup hnodup hnodup']
    intro k
    simp only [List.mem_map]
    constructor
    · rintro ⟨x, hx, rfl⟩
      obtain ⟨y, hy, hR⟩ := h x hx
      exact ⟨y, hy, (hkey x y hR).symm⟩
    · rintro ⟨y, hy, rfl⟩
      obtain ⟨x, hx, hR⟩ := h' y hy
      exact ⟨x, hx, hkey x y hR⟩
  refine forall₂_of_map_eq (s.map_sort_eq hl hperm) fun x hx y hy heq => ?_
  obtain ⟨y', hy', hR⟩ := h x ((s.perm _ l).mem_iff.mp hx)
  have hsame : key y' = key y := (hkey x y' hR).symm.trans heq
  exact List.inj_on_of_nodup_map hnodup' hy' ((s.perm _ l').mem_iff.mp hy) hsame ▸ hR

end SortSlice
