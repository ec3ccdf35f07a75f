import OtelMagnify.Server.Drains
import OtelMagnify.Server.Isolation
import OtelMagnify.Token.Barrier

/-! What the server does with the sessions that the manager has tracked. Every step moves the
manager by one of its own steps; a session is marked as cleaned only after its release, and a uid
is owned by a session that was tracked. -/
namespace OtelMagnify.Server
open Push Token StepSystem

/-- The stages after the locked section of `releaseSessionOnce`. -/
def CloserStage.isReleased : CloserStage → Bool
  | .counting _ | .scheduling _ | .releaseDone | .disconnectDone | .completing | .cleaning
  | .returning => true
  | _ => false

def Thread.released : Thread → Option Session
  | .closer _ s stage => if stage.isReleased then some s else none
  | _ => none

/-- Whatever says that a session is done with says it of a released one. -/
structure DoneWith (σ : Shared) : Prop where
  release : ∀ s, (σ.info s).releaseOnce = .done → s ∈ σ.released
  disconnect : ∀ s, (σ.info s).disconnectOnce = .done → s ∈ σ.released
  cleaned : ∀ s ∈ σ.tokens.cleaned, s ∈ σ.released
  owner : ∀ u s, σ.conns u = some s → s ∈ σ.tokens.tracked

section Tokens

variable {σ σ' : Shared} {t t' : Thread} {c : Choice} {new : Option Thread} {e : Event}

theorem TokenMove.step {m : Manager} (h : TokenMove σ t m) :
    m = σ.tokens ∨ ∃ a, σ.tokens.step a = some m := by
  cases h with
  | stay => exact .inl rfl
  | release l => exact .inr ⟨.release l, rfl⟩
  | acquire s now => exact .inr ⟨.acquire s now, rfl⟩
  | fork s => exact .inr ⟨.fork s, rfl⟩
  | remove s now => exact .inr ⟨.remove s now, rfl⟩
  | settle a m _ _ hstep => exact .inr ⟨a, hstep⟩

theorem arrive_tokens (inv : Inv σ) (hm : arrive σ e = some (σ', new)) :
    σ'.tokens = σ.tokens ∨ ∃ a, σ.tokens.step a = some σ'.tokens := by
  cases arrive_occurs hm with
  | @connect s now hs =>
    have hnew : s ∉ σ.tokens.tracked := fun h => hs (inv.tracked s h)
    exact .inr ⟨.track s now, by simp [Manager.step, hnew]⟩
  | tokens hi hstep => exact .inr ⟨_, hstep⟩
  | stopTokens => exact .inr ⟨.beginStop, rfl⟩
  | _ => exact .inl rfl

/-- Every step of the server is a step of the manager, or leaves it as it is. -/
theorem step_tokens {p p' : State} {a : Action} (inv : Inv p.shared) (h : step p a = some p') :
    p'.shared.tokens = p.shared.tokens ∨
      ∃ b, p.shared.tokens.step b = some p'.shared.tokens := by
  cases a with
  | resume i c =>
    obtain ⟨t, σ', t', new, -, hm, rfl⟩ := Pool.Program.step_resume_eq_some.mp h
    exact (resume_tokens hm).step
  | arrive e =>
    obtain ⟨σ', new, hm, rfl⟩ := Pool.Program.step_arrive_eq_some.mp h
    exact arrive_tokens inv hm

theorem tracked_of_step {m : Manager} (inv : Inv σ)
    (h : m = σ.tokens ∨ ∃ a, σ.tokens.step a = some m) {s : Session}
    (hs : s ∈ σ.tokens.tracked) : s ∈ m.tracked := by
  rcases h with rfl | ⟨a, hstep⟩
  · exact hs
  · exact of_decide_eq_true
      ((inv.tokens.stepView hstep s).tracked_of_tracked (decide_eq_true hs))

theorem tracked_of_lease (inv : Inv σ) {l : Lease} (hl : l ∈ σ.tokens.leases) :
    l.session ∈ σ.tokens.tracked := by
  have hv := inv.tokens.valid l.session
  have hleased : (σ.tokens.view l.session).leased = true :=
    Manager.isLeased_iff.mpr ⟨l, hl, rfl⟩
  rcases hv.leased hleased with ha | ⟨b, hb⟩
  · exact of_decide_eq_true (hv.active ha).1
  · exact of_decide_eq_true (hv.removed (by simp [hb]))

theorem tracked_of_conns (inv : Inv σ) (hok : Ok σ t)
    (hm : resume σ t c = some (σ', t', new)) (hs : DoneWith σ) {u : String} {s : Session}
    (hu : σ'.conns u = some s) : s ∈ σ.tokens.tracked := by
  rcases resume_uid inv hok hm u with ⟨-, he⟩ | ⟨h, desc, rfl, -⟩ | ⟨h, rfl, rfl, -, hnone⟩ |
    ⟨kind, x, rfl, -, -, hnone⟩
  · exact hs.owner u s (he ▸ hu)
  · have hm : resumeHandler σ h .accepted c = some (σ', t', new) := hm
    rw [(resumeHandler_sessions hm).conns (by simp)] at hu
    exact hs.owner u s hu
  · cases hm
    have hset : (h.claim σ).1.conns h.uid = σ.conns h.uid ∨
        (h.claim σ).1.conns h.uid = some h.session := by
      dsimp only [Handler.claim]
      split_ifs <;> simp
    rcases hset with he | he
    · rw [he, hnone] at hu
      cases hu
    · cases he.symm.trans hu
      exact tracked_of_lease inv hok.handler_lease.1
  · rw [hnone] at hu
    cases hu

end Tokens

section Cleaned

variable {m m' : Manager} {s : Session} {a : Token.Action}

/-- The manager's own goroutines clean no session. -/
theorem cleaned_internal (hi : internal m a = true) (h : m.step a = some m') :
    m'.cleaned = m.cleaned := by
  rcases Manager.step_cleaned h with he | ⟨s, -, rfl | ⟨target, d, rest, rfl, hd, hphase⟩⟩
  · exact he
  · cases hi
  · simp [internal, hd, hphase] at hi

theorem cleaned_finish (ha : a = .closeCleanup s ∨ ∃ target, a = .drainSession target s)
    (h : m.step a = some m') {x : Session} (hx : x ∈ m'.cleaned) : x ∈ m.cleaned ∨ x = s := by
  rcases Manager.step_cleaned h with he | ⟨u, he, hu⟩
  · exact .inl (he ▸ hx)
  · have hus : u = s := by
      rcases ha with rfl | ⟨target, rfl⟩
      · simpa [eq_comm] using hu
      · obtain ⟨_, _, _, hd, -⟩ := hu.resolve_left (by simp)
        injection hd with _ hs
        exact hs.symm
    exact (List.mem_cons.mp (hus ▸ he ▸ hx)).symm

end Cleaned

/-- What a step of `t` may add to the sessions that count as done with. -/
structure DoneStep (σ σ' : Shared) (t : Thread) : Prop where
  released : ∀ s ∈ σ.released, s ∈ σ'.released
  release : ∀ s, (σ'.info s).releaseOnce = .done →
    (σ.info s).releaseOnce = .done ∨ t.released = some s
  disconnect : ∀ s, (σ'.info s).disconnectOnce = .done →
    (σ.info s).disconnectOnce = .done ∨ t.released = some s
  cleaned : ∀ s ∈ σ'.tokens.cleaned, s ∈ σ.tokens.cleaned ∨ t.released = some s

section DoneStep

variable {σ σ' : Shared} {t t' : Thread} {c : Choice} {new : Option Thread} {e : Event}

theorem DoneStep.of_once (hreleased : σ'.released = σ.released)
    (honce : ∀ s, (σ'.info s).releaseOnce = (σ.info s).releaseOnce ∧
      (σ'.info s).disconnectOnce = (σ.info s).disconnectOnce)
    (hcleaned : σ'.tokens.cleaned = σ.tokens.cleaned) : DoneStep σ σ' t where
  released _ hs := hreleased ▸ hs
  release s hs := .inl ((honce s).1.symm.trans hs)
  disconnect s hs := .inl ((honce s).2.symm.trans hs)
  cleaned _ hs := .inl (hcleaned ▸ hs)

theorem DoneStep.of_eq (hreleased : σ'.released = σ.released) (hinfo : σ'.info = σ.info)
    (hcleaned : σ'.tokens.cleaned = σ.tokens.cleaned) : DoneStep σ σ' t :=
  .of_once hreleased (fun s => by simp [hinfo]) hcleaned

/-- A change of one session. -/
theorem DoneStep.of_update {s : Session} {i : SessionInfo}
    (hinfo : σ'.info = Function.update σ.info s i) (hreleased : ∀ x ∈ σ.released, x ∈ σ'.released)
    (hcleaned : σ'.tokens.cleaned = σ.tokens.cleaned)
    (hrelease : i.releaseOnce = .done → (σ.info s).releaseOnce = .done ∨ t.released = some s)
    (hdisconnect : i.disconnectOnce = .done →
      (σ.info s).disconnectOnce = .done ∨ t.released = some s) : DoneStep σ σ' t where
  released := hreleased
  release x hx := by
    rw [hinfo] at hx
    by_cases h : x = s
    · subst h
      exact hrelease (by simpa using hx)
    · exact .inl (by simpa [h] using hx)
  disconnect x hx := by
    rw [hinfo] at hx
    by_cases h : x = s
    · subst h
      exact hdisconnect (by simpa using hx)
    · exact .inl (by simpa [h] using hx)
  cleaned _ hs := .inl (hcleaned ▸ hs)

theorem handler_doneStep {h : Handler} {stage : HandlerStage}
    (hm : resumeHandler σ h stage c = some (σ', t', new)) :
    DoneStep σ σ' (.handler h stage) := by
  have hf := resumeHandler_sessions hm
  refine .of_once hf.released hf.once ?_
  obtain ⟨-, he⟩ | ⟨w, -, he⟩ | ⟨d, -, he⟩ := hf.tokens <;> rw [he]
  · exact (Manager.step_cleaned (a := .fork h.session) rfl).resolve_right (by simp)
  · rfl

theorem unbind_doneStep (s : Session) (kind : Closing) :
    DoneStep σ (σ.unbind s).1 (.closer kind s .unbinding) := by
  dsimp only [Shared.unbind]
  split
  · exact ⟨fun x hx => List.mem_cons_of_mem _ hx, fun x hx => .inl hx, fun x hx => .inl hx,
      fun x hx => .inl hx⟩
  · exact .of_update rfl (fun _ h => List.mem_cons_of_mem _ h) rfl .inl .inl

theorem mem_released_unbind (s : Session) : s ∈ (σ.unbind s).1.released := by
  dsimp only [Shared.unbind]
  split <;> exact List.mem_cons_self

theorem closer_doneStep {kind : Closing} {s : Session} {stage : CloserStage}
    (hm : resumeCloser σ kind s stage c = some (σ', t', new)) :
    DoneStep σ σ' (.closer kind s stage) := by
  have hsame : DoneStep σ σ (.closer kind s stage) := .of_eq rfl rfl rfl
  cases stage with
  | removing =>
    cases hm
    exact .of_eq rfl rfl
      ((Manager.step_cleaned (a := .remove s c.now) rfl).resolve_right (by simp))
  | finishing =>
    simp only [resumeCloser] at hm
    split at hm <;> cases hm
    · exact hsame
    · exact .of_update rfl (fun _ h => h) rfl .inl .inl
  | awaiting =>
    simp only [resumeCloser] at hm
    split at hm <;> cases hm
    exact hsame
  | disconnecting =>
    simp only [resumeCloser] at hm
    split at hm <;> cases hm
    · exact .of_update rfl (fun _ h => h) rfl .inl fun h => by cases h
    · exact hsame
  | releasing =>
    simp only [resumeCloser] at hm
    split at hm <;> cases hm
    · exact .of_update rfl (fun _ h => h) rfl (fun h => by cases h) .inl
    · exact hsame
  | unbinding =>
    cases hm
    exact unbind_doneStep s kind
  | releaseDone =>
    cases hm
    exact .of_update rfl (fun _ h => h) rfl (fun _ => .inr rfl) .inl
  | disconnectDone =>
    cases hm
    exact .of_update rfl (fun _ h => h) rfl .inl fun _ => .inr rfl
  | completing =>
    obtain ⟨m, hstep, hm⟩ := Option.map_eq_some_iff.mp hm
    cases hm
    exact .of_eq rfl rfl ((Manager.step_cleaned hstep).resolve_right (by simp))
  | cleaning =>
    obtain ⟨m, hstep, hm⟩ := Option.map_eq_some_iff.mp hm
    cases hm
    exact { hsame with cleaned := fun x hx =>
      (cleaned_finish (.inl rfl) hstep hx).imp_right fun h => congrArg some h.symm }
  | returning =>
    simp only [resumeCloser] at hm
    split at hm
    · next target =>
      obtain ⟨m, hstep, hm⟩ := Option.map_eq_some_iff.mp hm
      cases hm
      exact { hsame with cleaned := fun x hx =>
        (cleaned_finish (.inr ⟨target, rfl⟩) hstep hx).imp_right fun h => congrArg some h.symm }
    · cases hm
  | _ =>
    cases hm
    exact .of_eq rfl rfl rfl

/-- A closer is past the release only when the session has been released. -/
theorem closer_released {kind : Closing} {s x : Session} {stage : CloserStage} (hs : DoneWith σ)
    (ht : ∀ x, (Thread.closer kind s stage).released = some x → x ∈ σ.released)
    (hm : resumeCloser σ kind s stage c = some (σ', t', new)) (hx : t'.released = some x) :
    x ∈ σ'.released := by
  cases stage with
  | removing =>
    cases hm
    split at hx <;> cases hx
  | finishing =>
    simp only [resumeCloser] at hm
    split at hm <;> cases hm <;> cases hx
  | draining =>
    cases hm
    split at hx
    · cases hx
    · cases kind <;> cases hx
  | awaiting =>
    simp only [resumeCloser] at hm
    split at hm <;> cases hm
    cases kind <;> cases hx
  | disconnecting =>
    simp only [resumeCloser] at hm
    split at hm <;> cases hm
    · cases hx
    · next hdone =>
      cases kind <;> cases hx <;> exact hs.disconnect s hdone
  | releasing =>
    simp only [resumeCloser] at hm
    split at hm <;> cases hm
    · cases hx
    · next hdone =>
      cases kind <;> cases hx <;> exact hs.release s hdone
  | unbinding =>
    cases hm
    have hxs : x = s := by
      simp only [Thread.released] at hx
      split at hx <;> cases hx
      rfl
    subst hxs
    exact mem_released_unbind x
  | responding l =>
    cases hm
    cases hx
  | counting w =>
    cases hm
    split at hx <;> cases hx <;> exact ht s rfl
  | scheduling w =>
    cases hm
    cases hx
    exact ht s rfl
  | releaseDone | disconnectDone =>
    cases hm
    cases kind <;> cases hx <;> exact ht s rfl
  | completing =>
    obtain ⟨m, -, hm⟩ := Option.map_eq_some_iff.mp hm
    cases hm
    split at hx <;> cases hx
    exact ht s rfl
  | cleaning =>
    obtain ⟨m, -, hm⟩ := Option.map_eq_some_iff.mp hm
    cases hm
    cases hx
  | returning =>
    simp only [resumeCloser] at hm
    split at hm
    · obtain ⟨m, -, hm⟩ := Option.map_eq_some_iff.mp hm
      cases hm
      cases hx
    · cases hm

theorem resume_doneStep (hm : resume σ t c = some (σ', t', new)) : DoneStep σ σ' t := by
  cases t with
  | handler h stage => exact handler_doneStep hm
  | closer kind s stage => exact closer_doneStep hm
  | arriving s | acquiring s =>
    cases hm
    exact .of_eq rfl rfl
      ((Manager.step_cleaned (a := .acquire s c.now) rfl).resolve_right (by simp))
  | graceMark w =>
    cases hm
    split <;> exact .of_eq rfl rfl rfl
  | finished => cases hm
  | _ =>
    cases hm
    exact .of_eq rfl rfl rfl

/-- A goroutine is past the release of a session only when that has been released. -/
theorem resume_released (hs : DoneWith σ) (ht : ∀ x, t.released = some x → x ∈ σ.released)
    (hm : resume σ t c = some (σ', t', new)) :
    (∀ x, t'.released = some x → x ∈ σ'.released) ∧ ∀ n ∈ new, n.released = none := by
  cases resume_flow hm with
  | close kind s stage stage' =>
    exact ⟨fun x => closer_released hs ht hm, fun n hn => (by cases hn)⟩
  | fork h w =>
    refine ⟨fun x hx => (by cases hx), fun n hn => ?_⟩
    obtain ⟨l, -, rfl⟩ := Option.map_eq_some_iff.mp hn
    rfl
  | _ => exact ⟨fun x hx => (by cases hx), fun n hn => (by cases hn)⟩

theorem arrive_doneStep (hm : arrive σ e = some (σ', new)) :
    DoneStep σ σ' .finished ∧ ∀ n ∈ new, n.released = none := by
  cases arrive_occurs hm with
  | connect => exact ⟨.of_eq rfl rfl (Manager.track_frame _ _).2.2.2, fun n hn => nomatch hn⟩
  | tokens hi hstep =>
    exact ⟨.of_eq rfl rfl (cleaned_internal hi hstep), fun n hn => nomatch hn⟩
  | stopTokens =>
    exact ⟨.of_eq rfl rfl ((Manager.step_cleaned (a := .beginStop) rfl).resolve_right (by simp)),
      fun n hn => nomatch hn⟩
  | message | close | send | onDisabled | fire =>
    refine ⟨.of_eq rfl rfl rfl, ?_⟩
    rintro n ⟨⟩
    rfl
  | _ => exact ⟨.of_eq rfl rfl rfl, fun n hn => nomatch hn⟩

theorem DoneStep.doneWith (h : DoneStep σ σ' t) (hs : DoneWith σ)
    (ht : ∀ x, t.released = some x → x ∈ σ.released)
    (howner : ∀ u s, σ'.conns u = some s → s ∈ σ'.tokens.tracked) : DoneWith σ' where
  release s hd := h.released s ((h.release s hd).elim (hs.release s) (ht s))
  disconnect s hd := h.released s ((h.disconnect s hd).elim (hs.disconnect s) (ht s))
  cleaned s hc := h.released s ((h.cleaned s hc).elim (hs.cleaned s) (ht s))
  owner := howner

end DoneStep

/-- The goroutines that are past the release of a session, and the state that they have left. -/
structure Accounted (p : State) : Prop where
  doneWith : DoneWith p.shared
  released : ∀ t ∈ p.threads, ∀ s, t.released = some s → s ∈ p.shared.released

theorem accounted_initial (retention : Push.Time) (rows : Workloads) :
    Accounted (initial retention rows) where
  doneWith := ⟨fun _ h => (by cases h), fun _ h => (by cases h), fun _ h => (by cases h),
    fun _ _ h => (by cases h)⟩
  released _ h := by cases h

theorem Accounted.step {p p' : State} {a : Action} (hp : Accounted p) (hown : Owned p)
    (h : step p a = some p') : Accounted p' := by
  have htokens := step_tokens hown.shared h
  cases a with
  | resume i c =>
    obtain ⟨t, σ', t', new, hi, hm, rfl⟩ := Pool.Program.step_resume_eq_some.mp h
    have hmem := List.mem_of_getElem? hi
    have hset := resume_doneStep hm
    obtain ⟨hself, hnew⟩ := resume_released hp.doneWith (hp.released t hmem) hm
    refine ⟨hset.doneWith hp.doneWith (hp.released t hmem) fun u s hu => ?_, fun u hu s hs => ?_⟩
    · exact tracked_of_step hown.shared htokens
        (tracked_of_conns hown.shared (hown.thread t hmem) hm hp.doneWith hu)
    · rcases Pool.mem_set_append hu with ⟨j, -, hj⟩ | rfl | hn
      · exact hset.released s (hp.released u (List.mem_of_getElem? hj) s hs)
      · exact hself s hs
      · rw [hnew u hn] at hs
        cases hs
  | arrive e =>
    obtain ⟨σ', new, hm, rfl⟩ := Pool.Program.step_arrive_eq_some.mp h
    obtain ⟨hset, hnew⟩ := arrive_doneStep hm
    refine ⟨hset.doneWith hp.doneWith (fun _ h => by cases h) fun u s hu => ?_, fun u hu s hs => ?_⟩
    · rw [(arrive_registry hm).1] at hu
      exact tracked_of_step hown.shared htokens (hp.doneWith.owner u s hu)
    · rcases List.mem_append.mp hu with hu | hu
      · exact hset.released s (hp.released u hu s hs)
      · rw [hnew u (Option.mem_toList.mp hu)] at hs
        cases hs

theorem accounted_of_reachable {retention : Push.Time} {rows : Workloads} {p : State}
    (h : Reachable step (initial retention rows) p) : Owned p ∧ Accounted p :=
  h.invariant (P := fun p => Owned p ∧ Accounted p)
    ⟨owned_initial retention rows, accounted_initial retention rows⟩
    fun _ _ _ hp hs => ⟨program_keeps.step hp.1 hs, hp.2.step hp.1 hs⟩

end OtelMagnify.Server
