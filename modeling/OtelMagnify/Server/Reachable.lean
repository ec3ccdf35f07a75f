import OtelMagnify.Server.Closer
import OtelMagnify.Server.Frame

/-! Ownership holds in every reachable state of the server. -/
namespace OtelMagnify.Server
open Push Token StepSystem

variable {σ σ' : Shared} {t : Thread} {new : Option Thread} {s : Session}

/-- What an event has to give: the invariant, a change that concerns no goroutine, and a new
goroutine that holds nothing. -/
structure Arrives (σ σ' : Shared) (new : Option Thread) : Prop where
  inv : Inv σ'
  change : Change σ σ' .finished
  started : ∀ n ∈ new, Ok σ' n ∧ n.lease = none ∧ n.gate = none

/-- An event that leaves the sessions and the registry alone and starts no goroutine. -/
theorem Arrives.of_owners (inv : Inv σ) (hsame : σ'.owners = σ.owners)
    (hnew : ∀ n ∈ new, Ok σ' n ∧ n.lease = none ∧ n.gate = none) : Arrives σ σ' new :=
  ⟨inv.of_owners hsame, .of_owners hsame, hnew⟩

theorem idle_started (ht : (∃ s msg b, t = .arriving s msg b) ∨ (∃ uid, t = .lookingUp uid) ∨
    ∃ w, t = .graceCheck w) : Ok σ t ∧ t.lease = none ∧ t.gate = none := by
  rcases ht with ⟨s, msg, b, rfl⟩ | ⟨uid, rfl⟩ | ⟨w, rfl⟩ <;>
    exact ⟨.idle rfl rfl rfl rfl rfl rfl rfl, rfl, rfl⟩

/-- `OnConnected` brings a new session. -/
theorem arrives_connect (inv : Inv σ) (hs : s ∉ σ.connected) (now : Token.Time) :
    Arrives σ
      { σ with tokens := (σ.tokens.track s now).1, connected := s :: σ.connected } none := by
  obtain ⟨hleases, hnext, htracked, -⟩ := Manager.track_frame (m := σ.tokens) s now
  have hnew : s ∉ σ.tokens.tracked := fun h => hs (inv.tracked s h)
  have hstep : σ.tokens.step (.track s now) = some (σ.tokens.track s now).1 := by
    simp [Manager.step, hnew]
  have hback : ∀ x ∈ σ.connected,
      x ∈ (σ.tokens.track s now).1.sessions → x ∈ σ.tokens.sessions := by
    intro x hx hin
    by_contra hout
    have hmem : x ∈ (σ.tokens.track s now).1.tracked :=
      of_decide_eq_true (((inv.tokens.step hstep).valid x).active (decide_eq_true hin)).1
    rcases htracked x hmem with rfl | hold
    · exact hs hx
    · exact of_decide_eq_false ((inv.tokens.stepView hstep x).not_active (decide_eq_true hold)
        (decide_eq_false hout)) hin
  have hc : Change σ
      { σ with tokens := (σ.tokens.track s now).1, connected := s :: σ.connected } .finished :=
    { leases := fun l hl => .inr (hleases ▸ hl)
      http := fun x l hl => .inl hl
      gate := fun x hx => .inr hx
      uid := fun x => .inl rfl
      bound := fun x => .inl rfl
      connected := fun x hx => List.mem_cons_of_mem _ hx
      sessions := hback
      grants := fun l hl => .inl (hleases ▸ hl) }
  refine ⟨inv.keep (fun x hq => hq.change hc) (inv.tokens.step hstep) ?_ ?_ ?_ (fun x => rfl)
    (fun x hx => .inl hx) rfl rfl rfl rfl, hc, ?_⟩
  · simp only [hleases, hnext]
    exact inv.leaseIDs
  · intro x hx
    rcases htracked x hx with rfl | hold
    · exact List.mem_cons_self
    · exact List.mem_cons_of_mem _ (inv.tracked x hold)
  · intro x l hl
    simp only [hleases]
    exact ⟨hl, (inv.http x l hl).1⟩
  · rintro n ⟨⟩

theorem Inv.quiet_of_disables (inv : Inv σ) {target : DrainTarget}
    (h : disables σ.tokens target s = true) : σ.Quiet s := by
  unfold disables at h
  split at h
  · next rest hp =>
    obtain ⟨d, hd, hphase⟩ := Option.map_eq_some_iff.mp hp
    have hsound := inv.tokens.sound target d hd
    have hmem : s ∈ d.sessions := hsound.pending s (by simpa [Drain.uncleaned, hphase] using h)
    obtain ⟨ht, ha⟩ := hsound.detached s hmem
    have hl : (σ.tokens.view s).leased = false := by
      simpa [Drain.unwaited, hphase] using hsound.waited s hmem
    exact ⟨inv.tracked s (of_decide_eq_true ht), of_decide_eq_false ha, hl⟩
  · cases h

theorem internal_keeps {m : Manager} {a : Token.Action} (h : internal m a = true) :
    a.keepsLeases = true ∧ a.keepsTracked = true := by
  cases a <;> first | exact ⟨rfl, rfl⟩ | cases h

theorem arrives {e : Event} (inv : Inv σ) (hm : arrive σ e = some (σ', new)) :
    Arrives σ σ' new := by
  cases arrive_occurs hm with
  | connect hs => exact arrives_connect inv hs _
  | message =>
    refine .of_owners inv rfl ?_
    rintro n ⟨⟩
    exact idle_started (.inl ⟨_, _, _, rfl⟩)
  | close hs =>
    refine .of_owners inv rfl ?_
    rintro n ⟨⟩
    exact ⟨.closer hs rfl (fun h => (nomatch h)) fun h => (nomatch h), rfl, rfl⟩
  | send =>
    refine .of_owners inv rfl ?_
    rintro n ⟨⟩
    exact idle_started (.inr (.inl ⟨_, rfl⟩))
  | onDisabled hd =>
    have hq := inv.quiet_of_disables hd
    refine .of_owners inv rfl ?_
    rintro n ⟨⟩
    exact ⟨.closer hq.connected rfl (fun _ => hq.detached) fun _ => hq, rfl, rfl⟩
  | tokens hi hstep =>
    obtain ⟨hl, ht⟩ := internal_keeps hi
    have hframe := Manager.step_frame hl ht hstep
    exact ⟨inv.stepTokens hstep hframe, .of_tokens inv hstep hframe, fun n hn => nomatch hn⟩
  | fire =>
    refine .of_owners inv rfl ?_
    rintro n ⟨⟩
    exact idle_started (.inr (.inr ⟨_, rfl⟩))
  | stopTokens =>
    have hstep : σ.tokens.step .beginStop = some σ.tokens.beginStop := rfl
    have hframe := Manager.step_frame rfl rfl hstep
    exact ⟨inv.stepTokens hstep hframe, .of_tokens inv hstep hframe, fun n hn => nomatch hn⟩
  | _ => exact .of_owners inv rfl fun n hn => nomatch hn

theorem program_keeps : Pool.Keeps program Inv Ok Apart where
  symm _ _ h := h.symm
  resume _ _ _ _ _ _ inv hok hm := by
    have hg := good_resume inv hok hm
    exact ⟨hg.inv, hg.ok, fun n hn => ⟨(hg.started n hn).1, (hg.started n hn).2.1⟩⟩
  others _ _ _ _ _ _ _ inv hok hm hu ha := (good_resume inv hok hm).others inv hu ha
  arrive _ _ _ _ inv hm := ⟨(arrives inv hm).inv, fun n hn => ((arrives inv hm).started n hn).1⟩
  arriveOthers _ _ _ _ u inv hm hu := by
    have ha := arrives inv hm
    refine ⟨ha.change.self_ok inv hu, fun n hn => ?_⟩
    obtain ⟨-, hl, hg⟩ := ha.started n hn
    refine ⟨fun l h => ?_, fun s h => ?_⟩
    · rw [hl] at h
      cases h
    · rw [hg] at h
      cases h

theorem Inv.initial (retention : Push.Time) (rows : Workloads) : Inv (.initial retention rows) where
  tokens := .initial
  leaseIDs _ h := nomatch h
  tracked _ h := nomatch h
  http _ _ h := nomatch h
  conns x s := by
    refine iff_of_false (fun h => (nomatch h)) fun h => h.1 h.2.symm
  released _ h := nomatch h
  begun _ h := absurd rfl h
  binder _ _ h := nomatch h
  bound _ _ h := nomatch h

abbrev Owned : State → Prop := Pool.Holds Inv Ok Apart

theorem owned_initial (retention : Push.Time) (rows : Workloads) :
    Owned (initial retention rows) :=
  ⟨.initial retention rows, fun _ h => (nomatch h), .nil⟩

theorem owned_of_reachable {retention : Push.Time} {rows : Workloads} {p : State}
    (h : Reachable step (initial retention rows) p) : Owned p :=
  program_keeps.reachable h (owned_initial retention rows)

end OtelMagnify.Server
