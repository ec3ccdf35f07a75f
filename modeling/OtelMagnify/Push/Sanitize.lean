import Mathlib.Data.List.TakeWhile
import OtelMagnify.Push.ErrorText

/-! What the sanitiser of remote-config errors makes of a text: one of a few constants, from which
the cause of the error can be inferred again unless the collector rejected the config. -/
namespace OtelMagnify.Push

def keptTexts : List String :=
  ["", redactedMessage, opAMPStatusTimeoutMessage] ++ knownCauses.map remoteConfigErrorTitle

theorem cause_mem_knownCauses (msg : String) :
    normalizeRemoteConfigErrorCause "" msg ∈ knownCauses := by
  have hempty : trimSpace (toLower "") = "" := by decide
  simp only [normalizeRemoteConfigErrorCause, hempty, ne_eq, not_true_eq_false, if_false]
  split_ifs <;> decide

def causeText (cause : String) : String :=
  if cause = "unknown" then redactedMessage else remoteConfigErrorTitle cause

theorem causeText_mem_keptTexts {cause : String} (h : cause ∈ knownCauses) :
    causeText cause ∈ keptTexts ∧ (causeText cause).length ≤ 96 := by
  revert cause
  decide

/-- A text that the sanitiser knows is kept without the space around it, and any other text is
replaced by the text for its cause. -/
theorem sanitize_cases (s : String) :
    trimSpace s ∈ keptTexts ∧ sanitizeRemoteConfigErrorMessage s = trimSpace s ∨
      trimSpace s ∉ keptTexts ∧ sanitizeRemoteConfigErrorMessage s =
        causeText (normalizeRemoteConfigErrorCause "" (trimSpace s)) := by
  unfold sanitizeRemoteConfigErrorMessage
  generalize trimSpace s = msg
  obtain ⟨-, hlength⟩ := causeText_mem_keptTexts (cause_mem_knownCauses msg)
  dsimp only
  rw [← causeText, if_neg (Nat.not_lt.2 hlength)]
  by_cases hempty : msg = ""
  · rw [if_pos hempty, hempty]
    exact .inl ⟨List.mem_cons_self, rfl⟩
  rw [if_neg hempty]
  by_cases hredacted : msg = redactedMessage
  · rw [if_pos hredacted, hredacted]
    exact .inl (by decide)
  rw [if_neg hredacted]
  by_cases htimeout : msg = opAMPStatusTimeoutMessage
  · rw [if_pos htimeout, htimeout]
    exact .inl (by decide)
  rw [if_neg htimeout]
  have hkept : msg ∈ keptTexts ↔
      knownCauses.any (fun cause => msg = remoteConfigErrorTitle cause) = true := by
    rw [keptTexts, List.mem_append, List.mem_map, List.any_eq_true]
    simp only [List.mem_cons, hempty, hredacted, htimeout, List.not_mem_nil, or_self, false_or,
      decide_eq_true_eq]
    simp only [eq_comm]
  by_cases hknown : knownCauses.any (fun cause => msg = remoteConfigErrorTitle cause) = true
  · rw [if_pos hknown]
    exact .inl ⟨hkept.2 hknown, rfl⟩
  · rw [if_neg hknown]
    exact .inr ⟨fun h => hknown (hkept.1 h), rfl⟩

theorem sanitize_mem_keptTexts (s : String) : sanitizeRemoteConfigErrorMessage s ∈ keptTexts := by
  rcases sanitize_cases s with ⟨hkept, heq⟩ | ⟨-, heq⟩
  · rw [heq]
    exact hkept
  · rw [heq]
    exact (causeText_mem_keptTexts (cause_mem_knownCauses _)).1

theorem sanitize_of_mem_keptTexts {s : String} (h : s ∈ keptTexts) :
    sanitizeRemoteConfigErrorMessage s = s := by
  have htrim : ∀ t ∈ keptTexts, trimSpace t = t := by decide +kernel
  rcases sanitize_cases s with ⟨-, heq⟩ | ⟨hkept, -⟩
  · rw [heq, htrim s h]
  · rw [htrim s h] at hkept
    exact absurd h hkept

theorem sanitize_sanitize (s : String) :
    sanitizeRemoteConfigErrorMessage (sanitizeRemoteConfigErrorMessage s) =
      sanitizeRemoteConfigErrorMessage s :=
  sanitize_of_mem_keptTexts (sanitize_mem_keptTexts s)

section Trim

theorem infix_of_infix_append {α : Type} {p : α → Bool} {w pre l : List α} (hne : w ≠ [])
    (hw : p (w.head hne) = false) (hpre : ∀ c ∈ pre, p c = true) (h : w <:+: pre ++ l) :
    w <:+: l := by
  induction pre with
  | nil => exact h
  | cons c pre ih =>
    rcases List.infix_cons_iff.1 h with hprefix | hinfix
    · obtain ⟨rest, hrest⟩ := hprefix
      obtain ⟨a, w, rfl⟩ := List.exists_cons_of_ne_nil hne
      obtain ⟨rfl, -⟩ := List.cons.inj hrest
      rw [List.head_cons, hpre a List.mem_cons_self] at hw
      cases hw
    · exact ih (fun c hc => hpre c (List.mem_cons_of_mem _ hc)) hinfix

theorem infix_map_trim_iff {α : Type} {p : α → Bool} {f : α → α}
    (hf : ∀ c, p c = true → p (f c) = true) {w : List α} (hne : w ≠ [])
    (hfirst : p (w.head hne) = false) (hlast : p (w.getLast hne) = false) (l : List α) :
    w <:+: ((l.dropWhile p).reverse.dropWhile p).reverse.map f ↔ w <:+: l.map f := by
  have hdrop {u m : List α} (hu : u ≠ []) (h : p (u.head hu) = false) :
      u <:+: (m.dropWhile p).map f ↔ u <:+: m.map f := by
    constructor
    · intro hinfix
      exact hinfix.trans ((List.dropWhile_suffix p).map f).isInfix
    · intro hinfix
      rw [← List.takeWhile_append_dropWhile (p := p) (l := m), List.map_append] at hinfix
      refine infix_of_infix_append hu h (fun c hc => ?_) hinfix
      obtain ⟨d, hd, rfl⟩ := List.mem_map.1 hc
      exact hf d (List.mem_takeWhile_imp hd)
  have hrev : w.reverse ≠ [] := by simpa using hne
  rw [← List.reverse_infix, ← List.map_reverse, List.reverse_reverse,
    hdrop hrev (by rw [List.head_reverse]; exact hlast), List.map_reverse, List.reverse_infix,
    hdrop hne hfirst]

theorem lowerChar_of_isSpace {c : Char} (h : isSpace c = true) : lowerChar c = c := by
  have hne : ¬ (0x41 ≤ c.toNat ∧ c.toNat ≤ 0x5a) ∧ c.toNat ≠ 0x130 ∧ c.toNat ≠ 0x212a := by
    simp only [isSpace, Rune.isSpace, Bool.or_eq_true, Bool.and_eq_true, decide_eq_true_eq] at h
    omega
  rw [lowerChar, if_neg hne.1, if_neg hne.2.1, if_neg hne.2.2]

def causeWords : List String :=
  ["unknown receiver", "unknown exporter", "unknown processor", "invalid pipeline",
    "invalid component", "not connected", "connection lost", "send", "timeout", "timed out",
    "capability", "permission", "policy", "refus", "rollback", "unavailable"]

theorem contains_toLower_trimSpace {w : String} (hw : w ∈ causeWords) (s : String) :
    contains (toLower (trimSpace s)) w = contains (toLower s) w := by
  have hends : ∀ w ∈ causeWords, ∃ hne : w.toList ≠ [],
      isSpace (w.toList.head hne) = false ∧ isSpace (w.toList.getLast hne) = false := by decide
  obtain ⟨hne, hfirst, hlast⟩ := hends w hw
  simp only [contains, toLower, trimSpace, String.toList_ofList]
  rw [decide_eq_decide]
  refine infix_map_trim_iff (fun c hc => ?_) hne hfirst hlast s.toList
  rw [lowerChar_of_isSpace hc]
  exact hc

theorem cause_trimSpace (s : String) :
    normalizeRemoteConfigErrorCause "" (trimSpace s) = normalizeRemoteConfigErrorCause "" s := by
  unfold normalizeRemoteConfigErrorCause
  simp (disch := decide) only [contains_toLower_trimSpace]

end Trim

theorem cause_causeText {cause : String} (h : cause ∈ knownCauses) :
    normalizeRemoteConfigErrorCause "" (causeText cause) =
      if cause = "collector_validation" then "unknown" else cause := by
  revert cause
  decide +kernel

theorem cause_keptTexts {s : String} (h : s ∈ keptTexts) :
    normalizeRemoteConfigErrorCause "" s ≠ "collector_validation" := by
  have hother : ∀ t ∈ ["", redactedMessage, opAMPStatusTimeoutMessage] ++
      [remoteConfigErrorTitle "unknown"],
      normalizeRemoteConfigErrorCause "" t ≠ "collector_validation" := by decide +kernel
  have hcause {cause : String} (hknown : cause ∈ knownCauses) :
      normalizeRemoteConfigErrorCause "" (causeText cause) ≠ "collector_validation" := by
    rw [cause_causeText hknown]
    split_ifs with hcause
    · decide
    · exact hcause
  rcases List.mem_append.1 h with hfixed | htitle
  · exact hother s (List.mem_append_left _ hfixed)
  · obtain ⟨cause, hknown, rfl⟩ := List.mem_map.1 htitle
    by_cases hunknown : cause = "unknown"
    · rw [hunknown]
      exact hother _ (List.mem_append_right _ List.mem_cons_self)
    · have htext := hcause hknown
      rw [causeText, if_neg hunknown] at htext
      exact htext

theorem cause_sanitize_iff (s : String) :
    normalizeRemoteConfigErrorCause "" (sanitizeRemoteConfigErrorMessage s) =
        normalizeRemoteConfigErrorCause "" s ↔
      normalizeRemoteConfigErrorCause "" s ≠ "collector_validation" := by
  rcases sanitize_cases s with ⟨hkept, heq⟩ | ⟨-, heq⟩
  · rw [heq, cause_trimSpace]
    have hne := cause_keptTexts hkept
    rw [cause_trimSpace] at hne
    exact ⟨fun _ => hne, fun _ => rfl⟩
  · rw [heq, cause_trimSpace, cause_causeText (cause_mem_knownCauses s)]
    split_ifs with hcause
    · rw [hcause]
      decide
    · exact ⟨fun _ => hcause, fun _ => rfl⟩

theorem sanitize_eq_empty_iff (s : String) :
    sanitizeRemoteConfigErrorMessage s = "" ↔ trimSpace s = "" := by
  rcases sanitize_cases s with ⟨-, heq⟩ | ⟨hunknown, heq⟩
  · rw [heq]
  · have hcause : ∀ cause ∈ knownCauses, causeText cause ≠ "" := by decide
    have hempty : "" ∈ keptTexts := List.mem_cons_self
    constructor
    · intro h
      exact absurd (heq.symm.trans h) (hcause _ (cause_mem_knownCauses _))
    · intro h
      exact absurd (h ▸ hempty) hunknown

end OtelMagnify.Push
