import OtelMagnify.Token.Lifecycle

/-! What a disable or a stop has done so far. Both drain a set of sessions: they wait for the
leases, run the cleanup, complete the removals they own and wait for all removals. -/
namespace OtelMagnify.Token

def DrainTarget.Covers : DrainTarget → Session → Prop
  | .disable tokenID, s => s.tokenID = tokenID
  | .stop, _ => True

namespace Drain

def unwaited (d : Drain) : List Session :=
  match d.phase with
  | .waiting rest => rest
  | _ => []

def uncleaned (d : Drain) : List Session :=
  match d.phase with
  | .waiting _ => d.sessions
  | .disabling rest => rest
  | _ => []

def uncompleted (d : Drain) : List Session :=
  match d.phase with
  | .waiting _ => d.owned
  | .disabling _ => d.owned
  | .completing rest => rest
  | _ => []

def unjoined (d : Drain) : List Session :=
  match d.phase with
  | .joining rest => rest
  | .joined => []
  | _ => d.removals

/-- What a drain has done so far. -/
structure Sound (d : Drain) (m : Manager) (target : DrainTarget) : Prop where
  detached : ∀ s ∈ d.sessions, (m.view s).tracked = true ∧ (m.view s).active = false
  owned : ∀ s ∈ d.uncompleted, s ∈ d.sessions
  pending : ∀ s ∈ d.uncleaned, s ∈ d.sessions
  waiting : ∀ s ∈ d.unwaited, s ∈ d.sessions
  waited : ∀ s ∈ d.sessions, s ∈ d.unwaited ∨ (m.view s).leased = false
  cleaned : ∀ s ∈ d.sessions, s ∈ d.uncleaned ∨ (m.view s).cleaned = true
  covers : ∀ s, target.Covers s → (m.view s).isOpen = true → s ∈ d.removals
  joined : ∀ s ∈ d.removals, s ∈ d.unjoined ∨ (m.view s).isDone = true

variable {d d' : Drain} {m m' : Manager} {target : DrainTarget} {s : Session}

/-- What a drain has done stays done whatever the manager does next. -/
theorem Sound.step (hd : d.Sound m target) (hv : ∀ s, (m.view s).Valid)
    (hb : ∀ s, target.Covers s → s ∉ m.sessions)
    (hstep : ∀ s, SessionView.Step (m.view s) (m'.view s)) : d.Sound m' target where
  detached s hs := by
    obtain ⟨ht, ha⟩ := hd.detached s hs
    exact ⟨(hstep s).tracked_of_tracked ht, (hstep s).not_active ht ha⟩
  owned := hd.owned
  pending := hd.pending
  waiting := hd.waiting
  waited s hs := (hd.waited s hs).imp_right ((hstep s).not_leased (hd.detached s hs).2)
  cleaned s hs := (hd.cleaned s hs).imp_right (hstep s).cleaned_of_cleaned
  covers s hs ho :=
    hd.covers s hs ((hstep s).isOpen_of_isOpen (decide_eq_false (hb s hs)) ho)
  joined s hs := (hd.joined s hs).imp_right ((hstep s).isDone_of_isDone (hv s))

theorem Sound.congr (hd : d.Sound m target) (h : ∀ s, m'.view s = m.view s) :
    d.Sound m' target := by
  obtain ⟨hdet, howned, hpend, hwait, hwaited, hcleaned, hcovers, hjoined⟩ := hd
  exact ⟨by simpa only [h], howned, hpend, hwait, by simpa only [h], by simpa only [h],
    by simpa only [h], by simpa only [h]⟩

theorem mem_filter_ne_or {rest : List Session} {u : Session} {P : Session → Prop} (hs : P s)
    (h : u ∈ rest ∨ P u) : u ∈ rest.filter (· ≠ s) ∨ P u := by
  by_cases hu : u = s
  · exact .inr (hu ▸ hs)
  · exact h.imp_left fun hr => List.mem_filter.mpr ⟨hr, decide_eq_true hu⟩

/-- Handling one session moves the drain on. -/
theorem Sound.drainSession {p : Manager × Drain} (hd : d.Sound m target)
    (hv : ∀ s, (m.view s).Valid) (hb : ∀ s, target.Covers s → s ∉ m.sessions)
    (hstep : ∀ s, SessionView.Step (m.view s) (p.1.view s))
    (h : m.drainSession d s = some p) : p.2.Sound p.1 target := by
  have hlater := hd.step hv hb hstep
  obtain ⟨sessions, removals, owned, phase⟩ := d
  cases phase with
  | waiting rest =>
    obtain ⟨hs, heq⟩ := Option.ite_none_right_eq_some.mp h
    cases heq
    exact { hlater with
      waiting := fun u hu => hlater.waiting u (List.mem_filter.mp hu).1
      waited := fun u hu => mem_filter_ne_or (P := fun u => (m.view u).leased = false) hs.2
        (hlater.waited u hu) }
  | disabling rest =>
    obtain ⟨hs, heq⟩ := Option.ite_none_right_eq_some.mp h
    cases heq
    exact { hlater with
      pending := fun u hu => hlater.pending u (List.mem_filter.mp hu).1
      cleaned := fun u hu => mem_filter_ne_or
        (P := fun u => (({ m with cleaned := s :: m.cleaned } : Manager).view u).cleaned = true)
        (decide_eq_true List.mem_cons_self) (hlater.cleaned u hu) }
  | completing rest =>
    obtain ⟨hs, heq⟩ := Option.ite_none_right_eq_some.mp h
    cases heq
    exact { hlater with owned := fun u hu => hlater.owned u (List.mem_filter.mp hu).1 }
  | joining rest =>
    obtain ⟨hs, heq⟩ := Option.ite_none_right_eq_some.mp h
    cases heq
    exact { hlater with
      joined := fun u hu => mem_filter_ne_or (P := fun u => (m.view u).isDone = true) hs.2
        (hlater.joined u hu) }
  | joined => cases h

theorem Sound.next (hd : d.Sound m target) (h : d.next = some d') : d'.Sound m target := by
  obtain ⟨sessions, removals, owned, phase⟩ := d
  unfold Drain.next at h
  split at h
  · next hp =>
    subst hp
    cases h
    exact { hd with cleaned := fun s hs => .inl hs }
  · next hp =>
    subst hp
    cases h
    exact { hd with pending := fun _ h => (nomatch h) }
  · next hp =>
    subst hp
    cases h
    exact { hd with }
  · next hp =>
    subst hp
    cases h
    exact { hd with }
  · cases h

end Drain

end OtelMagnify.Token
