import Mathlib.Data.List.Basic
import Mathlib.Data.Option.Basic
import Mathlib.Order.Nat

/-! Limiting failures by fixed windows. A window is opened by the first failure that is recorded
and counts the failures recorded while it runs. An attempt is checked and, when it has failed,
recorded later; the limit holds as long as the attempts that are under way find room in the
window next to the failures it has counted. -/
namespace FixedWindow

/-- A check has failed, while a window was running or not; or a window was opened. -/
inductive Happening where
  | failed (running : Bool)
  | opened
  deriving DecidableEq, Repr

def Happening.isFailure : Happening → Bool
  | .failed _ => true
  | .opened => false

/-- A failure outside of a window is the first of one, and so is the failure that opens one. -/
def Happening.starts : Happening → Bool
  | .failed running => !running
  | .opened => true

structure Window where
  count : ℕ
  first : ℕ
  deriving DecidableEq, Repr

structure State where
  now : ℕ
  entry : Option Window
  checking : ℕ
  unrecorded : ℕ
  log : List (ℕ × Happening)

section

variable (span max : ℕ)

/-- The failed checks up to the end of a window that starts at `start`. -/
def failuresUntil (start : ℕ) (log : List (ℕ × Happening)) : ℕ :=
  log.countP fun e => e.2.isFailure && e.1 ≤ start + span

/-- No window has more than `max` failed checks, the one that starts it included. -/
def Limited (log : List (ℕ × Happening)) : Prop :=
  ∀ newer e older, log = newer ++ e :: older → e.2.starts = true →
    1 + failuresUntil span e.1 newer ≤ max

def State.window? (s : State) : Option Window :=
  s.entry.filter fun w => s.now - w.first ≤ span

def State.count (s : State) : ℕ := ((s.window? span).map (·.count)).getD 0

def State.bumped (s : State) : Window :=
  match s.window? span with
  | none => { count := 1, first := s.now }
  | some w => { w with count := w.count + 1 }

inductive Step : State → State → Prop where
  | idle (s : State) : Step s s
  | tick (s : State) (d : ℕ) : Step s { s with now := s.now + d }
  | enter (s : State) (h : s.count span + (s.checking + s.unrecorded) < max) :
    Step s { s with entry := s.window? span, checking := s.checking + 1 }
  | leave (s : State) (n : ℕ) (h : s.checking = n + 1) : Step s { s with checking := n }
  | fail (s : State) (n : ℕ) (h : s.checking = n + 1) :
    Step s { s with
      checking := n
      unrecorded := s.unrecorded + 1
      log := (s.now, .failed (s.window? span).isSome) :: s.log }
  | record (s : State) (n : ℕ) (h : s.unrecorded = n + 1) :
    Step s { s with
      entry := some (s.bumped span)
      unrecorded := n
      log := if (s.window? span).isSome then s.log else (s.now, .opened) :: s.log }

end

variable {span max : ℕ}

/-- The failures since the start of a window: there are at most `max`, and as long as the window
lasts they are among those that are counted and those that are not recorded yet. -/
structure Since (span max : ℕ) (s : State) (start n : ℕ) : Prop where
  le_max : n ≤ max
  le_count : s.now ≤ start + span → n ≤ s.count span + s.unrecorded
  start_le : s.now ≤ start + span → ∀ w ∈ s.window? span, start ≤ w.first

/-- The attempts under way have room next to the failures counted, and so had those of every
window. -/
structure Inv (span max : ℕ) (s : State) : Prop where
  room : s.count span + (s.checking + s.unrecorded) ≤ max
  first_le : ∀ w ∈ s.entry, w.first ≤ s.now
  since : ∀ newer e older, s.log = newer ++ e :: older → e.2.starts = true →
    e.1 ≤ s.now ∧ Since span max s e.1 (1 + failuresUntil span e.1 newer)

variable {s : State} {n : ℕ}

theorem Inv.limited (h : Inv span max s) : Limited span max s.log :=
  fun newer e older hlog he => (h.since newer e older hlog he).2.le_max

theorem inv_initial (now : ℕ) : Inv span max ⟨now, none, 0, 0, []⟩ where
  room := Nat.zero_le _
  first_le := by simp
  since newer e older hlog := by simp at hlog

theorem State.count_of_window?_eq_none (h : s.window? span = none) : s.count span = 0 := by
  rw [count, h]
  rfl

theorem State.count_of_window?_eq_some {w : Window} (h : s.window? span = some w) :
    s.count span = w.count := by
  rw [count, h]
  rfl

/-- The window that is running later was running before. -/
theorem State.window?_tick {d : ℕ} {w : Window}
    (h : ({ s with now := s.now + d } : State).window? span = some w) :
    s.window? span = some w := by
  simp only [window?, Option.filter_eq_some_iff, decide_eq_true_eq] at h ⊢
  exact ⟨h.1, by omega⟩

theorem State.count_tick_le (s : State) (d : ℕ) :
    ({ s with now := s.now + d } : State).count span ≤ s.count span := by
  cases h : ({ s with now := s.now + d } : State).window? span with
  | none =>
    rw [count_of_window?_eq_none h]
    exact Nat.zero_le _
  | some w =>
    rw [count_of_window?_eq_some h, count_of_window?_eq_some (window?_tick h)]

theorem State.window?_tick_of_start_le {d start : ℕ}
    (hnow : s.now + d ≤ start + span) (h : ∀ w ∈ s.window? span, start ≤ w.first) :
    ({ s with now := s.now + d } : State).window? span = s.window? span := by
  cases hw : s.window? span with
  | none =>
    cases hw' : ({ s with now := s.now + d } : State).window? span with
    | none => rfl
    | some w => exact absurd (window?_tick hw') (by simp [hw])
  | some w =>
    have hstart := h w hw
    simp only [window?, Option.filter_eq_some_iff, decide_eq_true_eq] at hw ⊢
    exact ⟨hw.1, by omega⟩

theorem Inv.tick (h : Inv span max s) (d : ℕ) : Inv span max { s with now := s.now + d } where
  room := (Nat.add_le_add_right (s.count_tick_le d) _).trans h.room
  first_le w hw := (h.first_le w hw).trans (Nat.le_add_right _ _)
  since newer e older hlog he := by
    obtain ⟨hle, hs⟩ := h.since newer e older hlog he
    have hsame : s.now + d ≤ e.1 + span →
        ({ s with now := s.now + d } : State).window? span = s.window? span := fun hnow =>
      State.window?_tick_of_start_le hnow (hs.start_le (by omega))
    refine ⟨by simp only; omega, hs.le_max, fun hnow => ?_, fun hnow w hw => ?_⟩
    · have hcount := hs.le_count (by simp only at hnow; omega)
      rwa [State.count, hsame hnow]
    · rw [hsame hnow] at hw
      exact hs.start_le (by simp only at hnow; omega) w hw

theorem Inv.enter (h : Inv span max s) (hroom : s.count span + (s.checking + s.unrecorded) < max) :
    Inv span max { s with entry := s.window? span, checking := s.checking + 1 } := by
  set s' : State := { s with entry := s.window? span, checking := s.checking + 1 } with hs'
  have hwindow : s'.window? span = s.window? span := by
    simp [hs', State.window?, Option.filter_filter]
  have hcount : s'.count span = s.count span := by rw [State.count, hwindow, State.count]
  refine ⟨?_, fun w hw => ?_, fun newer e older hlog he => ?_⟩
  · rw [hcount]
    simp only [hs']
    omega
  · exact h.first_le w (Option.filter_eq_some_iff.1 hw).1
  · obtain ⟨hle, hs⟩ := h.since newer e older hlog he
    refine ⟨hle, hs.le_max, fun hnow => ?_, fun hnow w hw => ?_⟩
    · rw [hcount]
      exact hs.le_count hnow
    · rw [hwindow] at hw
      exact hs.start_le hnow w hw

theorem Inv.leave (h : Inv span max s) (hn : s.checking = n + 1) :
    Inv span max { s with checking := n } where
  room := by
    have hroom := h.room
    show s.count span + (n + s.unrecorded) ≤ max
    omega
  first_le := h.first_le
  since newer e older hlog he :=
    have ⟨hle, hs⟩ := h.since newer e older hlog he
    ⟨hle, hs.le_max, hs.le_count, hs.start_le⟩

theorem failuresUntil_failed (start now : ℕ) (running : Bool) (log : List (ℕ × Happening)) :
    failuresUntil span start ((now, .failed running) :: log) =
      failuresUntil span start log + if now ≤ start + span then 1 else 0 := by
  simp [failuresUntil, List.countP_cons, Happening.isFailure]

theorem failuresUntil_opened (start now : ℕ) (log : List (ℕ × Happening)) :
    failuresUntil span start ((now, .opened) :: log) = failuresUntil span start log := by
  simp [failuresUntil, Happening.isFailure]

theorem Inv.fail (h : Inv span max s) (hn : s.checking = n + 1) :
    Inv span max { s with
      checking := n
      unrecorded := s.unrecorded + 1
      log := (s.now, .failed (s.window? span).isSome) :: s.log } := by
  have hroom := h.room
  rw [hn] at hroom
  refine ⟨?_, h.first_le, fun newer e older hlog he => ?_⟩
  · show s.count span + (n + (s.unrecorded + 1)) ≤ max
    omega
  rcases List.cons_eq_append_iff.1 hlog with ⟨rfl, hfirst⟩ | ⟨newer', rfl, hlater⟩
  · -- the failure is the first one of a window
    cases hfirst
    have hnone : s.window? span = none := by simpa [Happening.starts] using he
    refine ⟨le_rfl, ?_, fun _ => ?_, fun _ w hw => ?_⟩
    · simp only [failuresUntil, List.countP_nil]
      omega
    · simp only [failuresUntil, List.countP_nil]
      omega
    · cases hnone.symm.trans hw
  · obtain ⟨hle, hs⟩ := h.since newer' e older hlater he
    rw [failuresUntil_failed]
    refine ⟨hle, ?_, fun hnow => ?_, hs.start_le⟩
    · split_ifs with hnow
      · have := hs.le_count hnow
        omega
      · exact hs.le_max
    · have hcount := hs.le_count hnow
      rw [if_pos hnow]
      show _ ≤ s.count span + (s.unrecorded + 1)
      omega

theorem Inv.record (h : Inv span max s) (hn : s.unrecorded = n + 1) :
    Inv span max { s with
      entry := some (s.bumped span)
      unrecorded := n
      log := if (s.window? span).isSome then s.log else (s.now, .opened) :: s.log } := by
  have hroom := h.room
  rw [hn] at hroom
  cases hw : s.window? span with
  | none =>
    -- the window starts here
    have hbumped : s.bumped span = ⟨1, s.now⟩ := by rw [State.bumped, hw]
    have hcount := State.count_of_window?_eq_none hw
    rw [hbumped]
    set s' : State := { s with
      entry := some ⟨1, s.now⟩
      unrecorded := n
      log := if (none : Option Window).isSome then s.log else (s.now, .opened) :: s.log } with hs'
    have hwindow : s'.window? span = some ⟨1, s.now⟩ := by simp [hs', State.window?]
    have hcount' : s'.count span = 1 := State.count_of_window?_eq_some hwindow
    refine ⟨?_, ?_, fun newer e older hlog he => ?_⟩
    · rw [hcount']
      simp only [hs']
      omega
    · simp [hs']
    rcases List.cons_eq_append_iff.1 hlog with ⟨rfl, hfirst⟩ | ⟨newer', rfl, hlater⟩
    · cases hfirst
      simp only [failuresUntil, List.countP_nil, Nat.add_zero]
      exact ⟨le_rfl, by omega, fun _ => by omega, by simp [hwindow]⟩
    · obtain ⟨hle, hs⟩ := h.since newer' e older hlater he
      rw [failuresUntil_opened]
      refine ⟨hle, hs.le_max, fun hnow => ?_, by simpa [hwindow] using fun _ => hle⟩
      have := hs.le_count hnow
      rw [hcount']
      simp only [hs']
      omega
  | some w =>
    have hbumped : s.bumped span = { w with count := w.count + 1 } := by rw [State.bumped, hw]
    have hcount := State.count_of_window?_eq_some hw
    obtain ⟨hentry, hrunning⟩ := Option.filter_eq_some_iff.1 hw
    rw [hbumped]
    set s' : State := { s with
      entry := some { w with count := w.count + 1 }
      unrecorded := n
      log := if (some w).isSome then s.log else (s.now, .opened) :: s.log } with hs'
    have hwindow : s'.window? span = some { w with count := w.count + 1 } := by
      simpa [hs', State.window?] using hrunning
    have hcount' : s'.count span = w.count + 1 := State.count_of_window?_eq_some hwindow
    refine ⟨?_, ?_, fun newer e older hlog he => ?_⟩
    · rw [hcount']
      simp only [hs']
      omega
    · simpa [hs'] using h.first_le w hentry
    obtain ⟨hle, hs⟩ := h.since newer e older hlog he
    refine ⟨hle, hs.le_max, fun hnow => ?_, fun hnow w' hw' => ?_⟩
    · have := hs.le_count hnow
      rw [hcount']
      simp only [hs']
      omega
    · cases hwindow.symm.trans hw'
      exact hs.start_le hnow w hw

theorem Step.inv {t : State} (hst : Step span max s t) (h : Inv span max s) : Inv span max t := by
  cases hst with
  | idle => exact h
  | tick d => exact h.tick d
  | enter hroom => exact h.enter hroom
  | leave n hn => exact h.leave hn
  | fail n hn => exact h.fail hn
  | record n hn => exact h.record hn

end FixedWindow
