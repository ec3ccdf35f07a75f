import OtelMagnify.Lib.Threads
import OtelMagnify.Login.Handler

/-! How many password checks fail for one client key. The limiter counts a failure only after the
password check and the audit event, so requests that are admitted before do not see each other. -/
namespace OtelMagnify.Login
open FixedWindow StepSystem

def Phase.isChecking : Phase → Bool
  | .lookup | .compare _ => true
  | _ => false

/-- The password check has failed and the limiter does not know it yet. -/
def Phase.isUnrecorded : Phase → Bool
  | .audit | .record => true
  | _ => false

def view (k : String) (p : Pool State Thread) : FixedWindow.State where
  now := p.shared.now
  entry := p.shared.failures k
  checking := p.threads.countP fun t => t.key = k && t.phase.isChecking
  unrecorded := p.threads.countP fun t => t.key = k && t.phase.isUnrecorded
  log := (p.shared.log.filter (·.key = k)).map fun e => (e.time, e.what)

/-- The requests of a key that have been admitted and whose failure may still have to be
recorded. -/
def underWay (k : String) (p : Pool State Thread) : ℕ :=
  (view k p).checking + (view k p).unrecorded

/-- At most five failed password checks in each window of the key. -/
def Throttled (k : String) (p : Pool State Thread) : Prop :=
  Limited loginRateLimitWindow loginRateLimitMaxFailures (view k p).log

/-- The step does not lose a failure of its request: the audit event of a failed check is emitted,
and the failures of the key are not cleared. -/
def keepsFailures (t : Thread) : Move → Bool
  | .emitFailure ok => t.phase ≠ .audit || ok
  | .reset => !(t.phase matches .reset _)
  | _ => true

/-- The steps of the requests of a key keep its failures, and a request is admitted only while
the failures counted and the requests under way leave room for one more. -/
def Reserved (k : String) (p : Pool State Thread) : Pool.Label Move Arrival → Prop
  | .resume i m => ∀ t ∈ p.threads[i]?, t.key = k → keepsFailures t m = true
  | .arrive (.request key (some r)) => key = k → ¬(r.email = "" ∨ r.password = "") →
      (allow p.shared.failures p.shared.now key).1 = true →
      p.shared.count k + underWay k p < loginRateLimitMaxFailures
  | .arrive (.request _ none) | .arrive (.tick _) => True

instance (k : String) (p : Pool State Thread) :
    (l : Pool.Label Move Arrival) → Decidable (Reserved k p l)
  | .resume i _ => inferInstanceAs (Decidable (∀ t ∈ p.threads[i]?, t.key = k → _))
  | .arrive (.request key (some _)) => inferInstanceAs (Decidable (key = k → _ → _ → _))
  | .arrive (.request _ none) | .arrive (.tick _) => isTrue trivial

variable {phase : Phase} {m : Move} {s' : State}

theorem not_unrecorded_of_checking (h : phase.isChecking = true) : phase.isUnrecorded = false := by
  cases phase <;> first | rfl | cases h

section Counting

variable {l : List Thread} {i : ℕ} {t t' : Thread} (c : Thread → Bool)

theorem countP_set_of_eq (h : l[i]? = some t) (hc : c t' = c t) :
    (l.set i t').countP c = l.countP c := by
  have := Threads.countP_set_add h t' c
  rw [hc] at this
  omega

theorem countP_set_leave (t' : Thread) (h : l[i]? = some t) (ht : c t = true) (ht' : c t' = false) :
    l.countP c = (l.set i t').countP c + 1 := by
  have := Threads.countP_set_add h t' c
  simp only [ht, ht', if_true, Bool.false_eq_true, if_false] at this
  omega

theorem countP_set_enter (h : l[i]? = some t) (ht : c t = false) (ht' : c t' = true) :
    (l.set i t').countP c = l.countP c + 1 := by
  have := Threads.countP_set_add h t' c
  simp only [ht, ht', if_true, Bool.false_eq_true, if_false] at this
  omega

end Counting

/-- What a step of a request does to the limiter, the log and the place of the request. -/
inductive Effect (s : State) (t : Thread) : Move → State → Phase → Prop where
  | moves {m : Move} {phase : Phase} (hc : phase.isChecking = t.phase.isChecking)
      (hu : phase.isUnrecorded = t.phase.isUnrecorded) : Effect s t m s phase
  | passes {m : Move} {phase : Phase} (ht : t.phase.isChecking) (hc : phase.isChecking = false)
      (hu : phase.isUnrecorded = false) : Effect s t m s phase
  | fails {m : Move} (ht : t.phase.isChecking) : Effect s t m (s.fail t.key) .audit
  | drops (ht : t.phase = .audit) :
    Effect s t (.emitFailure false) s (.responded .auditUnavailable)
  | records {m : Move} {phase : Phase} (ht : t.phase = .record) (hc : phase.isChecking = false)
      (hu : phase.isUnrecorded = false) : Effect s t m (s.recordFailure t.key) phase
  | clears {user : User} (ht : t.phase = .reset user) :
    Effect s t .reset { s with failures := reset s.failures t.key } (.issue user)

theorem effect_of_resume {bcrypt : String → String → Bool} {s : State} {t t' : Thread}
    {new : Option Thread} (h : resume bcrypt s t m = some (s', t', new)) :
    new = none ∧ ∃ phase, t' = { t with phase } ∧ Effect s t m s' phase := by
  unfold resume at h
  split at h
  · next ht =>
    cases h
    exact ⟨rfl, _, rfl, .moves (by rw [ht]; rfl) (by rw [ht]; rfl)⟩
  · next ht =>
    cases h
    exact ⟨rfl, _, rfl, .fails (by rw [ht]; rfl)⟩
  · next ht =>
    split_ifs at h
    · cases h
      exact ⟨rfl, _, rfl, .passes (by rw [ht]; rfl) rfl rfl⟩
    · cases h
      exact ⟨rfl, _, rfl, .fails (by rw [ht]; rfl)⟩
  · next ht =>
    cases h
    exact ⟨rfl, _, rfl, .moves (by rw [ht]; rfl) (by rw [ht]; rfl)⟩
  · next ht =>
    cases h
    exact ⟨rfl, _, rfl, .drops ht⟩
  · next ht =>
    cases h
    exact ⟨rfl, _, rfl, .records ht rfl rfl⟩
  · next ht =>
    cases h
    exact ⟨rfl, _, rfl, .clears ht⟩
  · next ht =>
    cases h
    exact ⟨rfl, _, rfl, .moves (by rw [ht]; rfl) (by rw [ht]; rfl)⟩
  · cases h

section Shared

variable {k key : String} {s : State}

theorem recordFailure_of_ne (hk : key ≠ k) : (s.recordFailure key).failures k = s.failures k := by
  simp only [State.recordFailure, recordFailure]
  split_ifs
  · rfl
  · cases s.failures key with
    | none => exact Function.update_of_ne hk.symm _ _
    | some w =>
      dsimp only
      split_ifs <;> exact Function.update_of_ne hk.symm _ _

theorem filter_log_recordFailure_of_ne (hk : key ≠ k) :
    (s.recordFailure key).log.filter (·.key = k) = s.log.filter (·.key = k) := by
  simp only [State.recordFailure]
  split_ifs
  · rfl
  · exact List.filter_cons_of_neg (by simpa using hk)

theorem reset_of_ne (hk : key ≠ k) (l : Failures) : reset l key k = l k := by
  unfold reset
  split_ifs
  · rfl
  · exact Function.update_of_ne hk.symm _ _

/-- `recordFailure` counts the failure in the window that is running, or opens one. -/
theorem recordFailure_self (hk : k ≠ "") : (s.recordFailure k).failures k =
    some (match s.window? k with
      | none => { count := 1, first := s.now }
      | some w => { w with count := w.count + 1 }) := by
  simp only [State.recordFailure, recordFailure, if_neg hk, State.window?]
  cases hw : s.failures k with
  | none => simp
  | some w =>
    simp only [Option.filter_some]
    by_cases hrun : loginRateLimitWindow < s.now - w.first
    · simp [if_pos hrun, Nat.not_le.2 hrun]
    · simp [if_neg hrun, Nat.not_lt.1 hrun]

theorem allow_self (hk : k ≠ "") (h : (allow s.failures s.now k).1 = true) :
    (allow s.failures s.now k).2 k = s.window? k := by
  revert h
  simp only [allow, if_neg hk, State.window?]
  cases hw : s.failures k with
  | none => simp [hw]
  | some w =>
    simp only [Option.filter_some]
    by_cases hrun : loginRateLimitWindow < s.now - w.first
    · simp [if_pos hrun, Nat.not_le.2 hrun]
    · simp [if_neg hrun, Nat.not_lt.1 hrun, hw]

theorem allow_of_ne (hk : key ≠ k) (l : Failures) (now : Time) :
    (allow l now key).2 k = l k := by
  unfold allow
  split_ifs
  · rfl
  · split
    · rfl
    · split_ifs
      · exact Function.update_of_ne hk.symm _ _
      · rfl

theorem allow_refused {l : Failures} {now : Time} (h : (allow l now key).1 = false) :
    (allow l now key).2 = l := by
  revert h
  unfold allow
  split_ifs
  · simp
  · split
    · simp
    · split_ifs <;> simp

end Shared

section Step

variable {bcrypt : String → String → Bool} {k : String} {p p' : Pool State Thread}

theorem view_set {i : ℕ} {t : Thread} (hi : p.threads[i]? = some t)
    (hk : t.key ≠ k) (hnow : s'.now = p.shared.now) (hf : s'.failures k = p.shared.failures k)
    (hlog : s'.log.filter (·.key = k) = p.shared.log.filter (·.key = k)) :
    view k ⟨s', p.threads.set i { t with phase }⟩ = view k p := by
  simp only [view, hnow, hf, hlog]
  rw [countP_set_of_eq _ hi (by simp [hk]), countP_set_of_eq _ hi (by simp [hk])]

theorem view_of_effect_ne {i : ℕ} {t : Thread}
    (hi : p.threads[i]? = some t) (hk : t.key ≠ k) (he : Effect p.shared t m s' phase) :
    view k ⟨s', p.threads.set i { t with phase }⟩ = view k p := by
  cases he with
  | moves | passes | drops => exact view_set hi hk rfl rfl rfl
  | fails => exact view_set hi hk rfl rfl (List.filter_cons_of_neg (by simpa using hk))
  | records =>
    exact view_set hi hk rfl (recordFailure_of_ne hk) (filter_log_recordFailure_of_ne hk)
  | clears => exact view_set hi hk rfl (reset_of_ne hk _) rfl

theorem log_recordFailure_self (hne : k ≠ "") (s : State) :
    (((s.recordFailure k).log.filter (·.key = k)).map fun e => (e.time, e.what)) =
      if (s.window? k).isSome then (s.log.filter (·.key = k)).map fun e => (e.time, e.what)
      else (s.now, .opened) :: (s.log.filter (·.key = k)).map fun e => (e.time, e.what) := by
  simp only [State.recordFailure, hne, false_or]
  split_ifs <;> simp

theorem step_view_of_effect {i : ℕ} {t : Thread}
    (hne : k ≠ "") (hi : p.threads[i]? = some t) (hk : t.key = k)
    (hkeeps : keepsFailures t m = true) (he : Effect p.shared t m s' phase) :
    Step loginRateLimitWindow loginRateLimitMaxFailures (view k p)
      (view k ⟨s', p.threads.set i { t with phase }⟩) := by
  cases he with
  | moves hc hu =>
    have hview : view k ⟨p.shared, p.threads.set i { t with phase }⟩ = view k p := by
      simp only [view]
      rw [countP_set_of_eq _ hi (by simp [hc]), countP_set_of_eq _ hi (by simp [hu])]
    rw [hview]
    exact .idle _
  | passes ht hc hu =>
    have hleave := countP_set_leave (fun t => t.key = k && t.phase.isChecking)
      { t with phase } hi (by simp [hk, ht]) (by simp [hc])
    have htu : t.phase.isUnrecorded = false := not_unrecorded_of_checking ht
    have hview : view k ⟨p.shared, p.threads.set i { t with phase }⟩ = { view k p with
        checking := (p.threads.set i { t with phase }).countP
          fun t => t.key = k && t.phase.isChecking } := by
      simp only [view]
      rw [countP_set_of_eq (fun t => t.key = k && t.phase.isUnrecorded) hi (by simp [hu, htu])]
    rw [hview]
    exact .leave _ _ hleave
  | fails ht =>
    have hleave := countP_set_leave (fun t => t.key = k && t.phase.isChecking)
      { t with phase := .audit } hi (by simp [hk, ht])
      (by simp [Phase.isChecking])
    have hview : view k ⟨p.shared.fail t.key, p.threads.set i { t with phase := .audit }⟩ =
        { view k p with
          checking := (p.threads.set i { t with phase := .audit }).countP
            fun t => t.key = k && t.phase.isChecking
          unrecorded := (view k p).unrecorded + 1
          log := ((view k p).now, .failed ((view k p).window? loginRateLimitWindow).isSome) ::
            (view k p).log } := by
      simp only [view, State.fail, hk, decide_true, List.filter_cons_of_pos, List.map_cons]
      rw [countP_set_enter (fun t => t.key = k && t.phase.isUnrecorded) hi
        (by simp [not_unrecorded_of_checking ht]) (by simp [Phase.isUnrecorded])]
      rfl
    rw [hview]
    exact .fail _ _ hleave
  | drops ht | clears ht => simp [keepsFailures, ht] at hkeeps
  | records ht hc hu =>
    have hleave := countP_set_leave (fun t => t.key = k && t.phase.isUnrecorded)
      { t with phase } hi (by simp [hk, ht, Phase.isUnrecorded]) (by simp [hu])
    have htc : t.phase.isChecking = false := by
      rw [ht]
      rfl
    have hview : view k ⟨p.shared.recordFailure t.key, p.threads.set i { t with phase }⟩ =
        { view k p with
          entry := some ((view k p).bumped loginRateLimitWindow)
          unrecorded := (p.threads.set i { t with phase }).countP
            fun t => t.key = k && t.phase.isUnrecorded
          log := if ((view k p).window? loginRateLimitWindow).isSome then (view k p).log
            else ((view k p).now, .opened) :: (view k p).log } := by
      simp only [view, hk, recordFailure_self hne, log_recordFailure_self hne]
      rw [countP_set_of_eq (fun t => t.key = k && t.phase.isChecking) hi
        (by simp [hc, htc])]
      rfl
    rw [hview]
    exact .record _ _ hleave

/-- The arrival of a request. -/
theorem step_view_request (hne : k ≠ "") {key : String} {request : LoginRequest}
    (hbody : ¬(request.email = "" ∨ request.password = ""))
    (hl : Reserved k p (.arrive (.request key (some request)))) :
    Step loginRateLimitWindow loginRateLimitMaxFailures (view k p)
      (view k ⟨{ p.shared with failures := (allow p.shared.failures p.shared.now key).2 },
        p.threads ++ [{ key, request, phase := if (allow p.shared.failures p.shared.now key).1
          then .lookup else .responded .tooManyRequests }]⟩) := by
  by_cases hk : key = k
  · subst hk
    cases ha : (allow p.shared.failures p.shared.now key).1 with
    | true =>
      have hroom := hl rfl hbody ha
      have hview : view key
          ⟨{ p.shared with failures := (allow p.shared.failures p.shared.now key).2 },
            p.threads ++ [{ key, request, phase := .lookup }]⟩ =
          { view key p with
            entry := (view key p).window? loginRateLimitWindow
            checking := (view key p).checking + 1 } := by
        simp [view, allow_self hne ha, Phase.isChecking, Phase.isUnrecorded, List.countP_append]
        rfl
      simp only [if_true]
      rw [hview]
      exact .enter _ hroom
    | false =>
      rw [allow_refused ha]
      have hview : view key ⟨p.shared, p.threads ++
          [{ key, request, phase := .responded .tooManyRequests }]⟩ = view key p := by
        simp [view, Phase.isChecking, Phase.isUnrecorded, List.countP_append]
      simp only [Bool.false_eq_true, if_false]
      rw [hview]
      exact .idle _
  · have hview : ∀ phase : Phase, view k
        ⟨{ p.shared with failures := (allow p.shared.failures p.shared.now key).2 },
          p.threads ++ [⟨key, request, phase⟩]⟩ = view k p := by
      intro phase
      simp [view, allow_of_ne hk, hk, List.countP_append]
    rw [hview]
    exact .idle _

theorem step_view (hne : k ≠ "") {l : Pool.Label Move Arrival} (hl : Reserved k p l)
    (h : (handleLogin bcrypt).step p l = some p') :
    Step loginRateLimitWindow loginRateLimitMaxFailures (view k p) (view k p') := by
  cases l with
  | resume i m =>
    obtain ⟨t, s', t', new, hi, hm, rfl⟩ := Pool.Program.step_resume_eq_some.1 h
    obtain ⟨rfl, phase, rfl, he⟩ := effect_of_resume hm
    simp only [Option.toList_none, List.append_nil]
    by_cases hk : t.key = k
    · exact step_view_of_effect hne hi hk (hl t hi hk) he
    · rw [view_of_effect_ne hi hk he]
      exact .idle _
  | arrive e =>
    obtain ⟨s', new, hm, rfl⟩ := Pool.Program.step_arrive_eq_some.1 h
    cases e with
    | tick d =>
      cases hm
      rw [Option.toList_none, List.append_nil]
      exact .tick (view k p) d
    | request key body =>
      cases body with
      | none =>
        cases hm
        rw [Option.toList_none, List.append_nil]
        exact .idle (view k p)
      | some request =>
        simp only [handleLogin, arrive] at hm
        by_cases hempty : request.email = "" ∨ request.password = ""
        · rw [if_pos hempty] at hm
          cases hm
          rw [Option.toList_none, List.append_nil]
          exact .idle (view k p)
        · rw [if_neg hempty] at hm
          cases hm
          exact step_view_request hne hempty hl

end Step

def initial (now : Time) : Pool State Thread := ⟨{ now }, []⟩

/-- In every run in which no failure of a key is lost and its requests are admitted only while
there is room for the failures they may still cause, at most five password checks fail for the
key in each of its windows. -/
theorem login_throttled {bcrypt : String → String → Bool} {k : String} (hk : k ≠ "") {now : Time}
    {ls : List (Pool.Label Move Arrival)} {p : Pool State Thread}
    (hls : Meets (handleLogin bcrypt).step (Reserved k) (initial now) ls)
    (h : run (handleLogin bcrypt).step (initial now) ls = some p) : Throttled k p := by
  have hinv : Inv loginRateLimitWindow loginRateLimitMaxFailures (view k p) :=
    run_invariant_of_meets (P := fun p => Inv _ _ (view k p))
      (fun _ _ _ hinv hl hstep => (step_view hk hl hstep).inv hinv) (inv_initial now) hls h
  exact hinv.limited

def guess : Arrival := .request "203.0.113.10" (some ⟨"ghost@example.com", "wrong-password"⟩)

/-- Five wrong guesses one after the other, and a sixth one that is not checked. -/
def guesses : List (Pool.Label Move Arrival) :=
  ((List.range 5).flatMap fun i => [.arrive guess, .resume i (.getUserByEmail none),
    .resume i (.emitFailure true), .resume i .recordFailure]) ++ [.arrive guess]

theorem login_throttled_guess : ∃ p,
    run (handleLogin fun _ _ => false).step (initial 0) guesses = some p ∧
      p.shared.count "203.0.113.10" = 5 ∧
      p.threads.getLast?.map (·.phase) = some (.responded .tooManyRequests) ∧
      Throttled "203.0.113.10" p := by
  obtain ⟨p, hp, hcount, hlast⟩ : ∃ p,
      run (handleLogin fun _ _ => false).step (initial 0) guesses = some p ∧
        p.shared.count "203.0.113.10" = 5 ∧
        p.threads.getLast?.map (·.phase) = some (.responded .tooManyRequests) := ⟨_, rfl, rfl, rfl⟩
  exact ⟨p, hp, hcount, hlast, login_throttled (by decide) (by decide) hp⟩

theorem not_limited_replicate {span max n t : ℕ} (h : max ≤ n) :
    ¬Limited span max (List.replicate (n + 1) (t, .failed false)) := by
  intro hlim
  have hcount := hlim (List.replicate n (t, .failed false)) (t, .failed false) []
    (by rw [← List.replicate_succ']) rfl
  simp only [failuresUntil, List.countP_replicate, Happening.isFailure, Nat.le_add_right,
    decide_true, Bool.and_self, if_true] at hcount
  omega

/-- Six requests that arrive together are all admitted, and six requests one after the other are
when the audit sink is down. -/
theorem login_not_throttled :
    (∃ p, run (handleLogin fun _ _ => false).step (initial 0)
      (List.replicate 6 (.arrive guess) ++
        (List.range 6).map fun i => .resume i (.getUserByEmail none)) = some p ∧
      ¬Throttled "203.0.113.10" p) ∧
    ∃ p, run (handleLogin fun _ _ => false).step (initial 0)
      ((List.range 6).flatMap fun i => [.arrive guess, .resume i (.getUserByEmail none),
        .resume i (.emitFailure false)]) = some p ∧
      ¬Throttled "203.0.113.10" p :=
  ⟨⟨_, rfl, not_limited_replicate (n := 5) le_rfl⟩,
    ⟨_, rfl, not_limited_replicate (n := 5) le_rfl⟩⟩

end OtelMagnify.Login
