import Mathlib.Data.List.Nodup
import OtelMagnify.Users.InitialAdmin

/-! The bootstrap of the first administrator, whatever calls run next to it and wherever they
fail. The table lock keeps every other insert out from the count of the users to the commit. -/
namespace OtelMagnify.Users
open StepSystem

def DistinctIDs (s : State) : Prop := ((s.pending.map (·.2) ++ s.users).map (·.id)).Nodup

/-- What a step of a transaction does to the rows: nothing, or it appends a new user with
memberships of that user, under a lock on the table. -/
inductive Appends (s s' : State) (tx : ℕ) : Prop where
  | nothing (users : s'.users = s.users) (userGroups : s'.userGroups = s.userGroups)
  | user (u : User) (memberships : List (String × String)) (m : Mode)
      (users : s'.users = s.users ++ [u]) (userGroups : s'.userGroups = s.userGroups ++ memberships)
      (own : ∀ x ∈ memberships, x.1 = u.id) (fresh : ∀ x ∈ s.users, x.id ≠ u.id)
      (held : s.lock.Holds tx m)

structure Frame (s s' : State) (tx : ℕ) : Prop where
  transactions : s'.transactions = s.transactions
  groups : s'.groups = s.groups
  lock : ∀ tx' m, tx' ≠ tx → s.lock.Holds tx' m → s'.lock.Holds tx' m
  pending : ∀ tx' u, tx' ≠ tx → (tx', u) ∈ s.pending → (tx', u) ∈ s'.pending
  rows : Appends s s' tx

theorem Frame.refl (s : State) (tx : ℕ) : Frame s s tx :=
  ⟨rfl, rfl, fun _ _ _ h => h, fun _ _ _ h => h, .nothing rfl rfl⟩

section Statements

variable {s s' : State} {tx : ℕ} {u : User}

theorem frame_acquire {m : Mode} {lock : LockTable Mode.conflicts}
    (h : s.lock.acquire tx m = some lock) : Frame s { s with lock } tx :=
  ⟨rfl, rfl, fun _ _ _ hl => hl.acquire h, fun _ _ _ hp => hp, .nothing rfl rfl⟩

theorem insert_eq_some (h : s.insert tx u = some s') :
    (∀ x ∈ s.pending.map (·.2) ++ s.users, x.id ≠ u.id) ∧
      s' = { s with pending := (tx, u) :: s.pending } := by
  unfold State.insert at h
  split_ifs at h with hany
  cases h
  refine ⟨fun x hx hid => hany (List.any_eq_true.2 ⟨x, hx, by simp [hid]⟩), rfl⟩

theorem frame_insert (h : s.insert tx u = some s') : Frame s s' tx := by
  obtain ⟨-, rfl⟩ := insert_eq_some h
  exact ⟨rfl, rfl, fun _ _ _ hl => hl, fun _ _ _ hp => List.mem_cons_of_mem _ hp, .nothing rfl rfl⟩

theorem distinctIDs_insert (hs : DistinctIDs s) (h : s.insert tx u = some s') :
    DistinctIDs s' := by
  obtain ⟨hfresh, rfl⟩ := insert_eq_some h
  refine List.nodup_cons.2 ⟨fun hu => ?_, hs⟩
  obtain ⟨x, hx, hid⟩ := List.mem_map.1 hu
  exact hfresh x hx hid

theorem frame_rollback (s : State) (tx : ℕ) : Frame s (s.rollback tx) tx where
  transactions := rfl
  groups := rfl
  lock _ _ hne hl := hl.release hne
  pending _ _ hne hp := List.mem_filter.2 ⟨hp, by simpa using hne⟩
  rows := .nothing rfl rfl

theorem distinctIDs_rollback (hs : DistinctIDs s) (tx : ℕ) : DistinctIDs (s.rollback tx) :=
  hs.sublist (((List.filter_sublist.map _).append (List.Sublist.refl _)).map _)

/-- A row that a transaction has inserted is not there yet. -/
theorem fresh_of_mem_pending (hs : DistinctIDs s) (hu : (tx, u) ∈ s.pending) :
    ∀ x ∈ s.users, x.id ≠ u.id := by
  intro x hx hid
  rw [DistinctIDs, List.map_append, List.nodup_append] at hs
  exact hs.2.2 u.id (List.mem_map_of_mem (List.mem_map.2 ⟨_, hu, rfl⟩)) x.id
    (List.mem_map_of_mem hx) hid.symm

theorem frame_commit {memberships : List (String × String)} {m : Mode} (hs : DistinctIDs s)
    (hu : (tx, u) ∈ s.pending) (hown : ∀ x ∈ memberships, x.1 = u.id) (hl : s.lock.Holds tx m) :
    Frame s (s.commit tx u memberships) tx where
  transactions := rfl
  groups := rfl
  lock := (frame_rollback s tx).lock
  pending := (frame_rollback s tx).pending
  rows := .user u memberships m rfl rfl hown (fresh_of_mem_pending hs hu) hl

theorem distinctIDs_commit {memberships : List (String × String)} (hs : DistinctIDs s)
    (hu : (tx, u) ∈ s.pending) : DistinctIDs (s.commit tx u memberships) := by
  have hfresh := fresh_of_mem_pending hs hu
  have hroll := distinctIDs_rollback hs tx
  have hpending : (s.pending.map fun x => x.2.id).Nodup := by
    rw [DistinctIDs, List.map_append, List.nodup_append, List.map_map] at hs
    exact hs.1
  have hlast : (((s.rollback tx).pending.map (·.2) ++ s.users).map (·.id) ++ [u.id]).Nodup := by
    refine List.nodup_append.2 ⟨hroll, List.nodup_singleton _, ?_⟩
    rintro _ ha _ hb rfl
    obtain ⟨x, hx, hid⟩ := List.mem_map.1 ha
    rw [List.mem_singleton] at hb
    rcases List.mem_append.1 hx with hx | hx
    · obtain ⟨y, hy, rfl⟩ := List.mem_map.1 hx
      obtain ⟨hy, hne⟩ := List.mem_filter.1 hy
      -- two rows inserted with one id are the same row
      have heq := List.inj_on_of_nodup_map hpending hy hu (hid.trans hb)
      simp [heq] at hne
    · exact hfresh x hx (hid.trans hb)
  rw [DistinctIDs, State.commit, ← List.append_assoc, List.map_append]
  exact hlast

end Statements

/-- The statements of `CreateInitialAdmin` that run under the lock. -/
def InitialAdminPhase.isLocked : InitialAdminPhase → Bool
  | .begin | .lockUsers | .returned _ _ => false
  | _ => true

/-- The statements behind the count of the users. -/
def InitialAdminPhase.isAlone : InitialAdminPhase → Bool
  | .loadGroup | .insertUser _ | .attachGroup _ | .commit _ => true
  | _ => false

def InitialAdminPhase.group? : InitialAdminPhase → Option String
  | .insertUser g | .attachGroup g | .commit g => some g
  | _ => none

def InitialAdminPhase.isInserted : InitialAdminPhase → Bool
  | .attachGroup _ | .commit _ => true
  | _ => false

def InitialAdminPhase.isCreated : InitialAdminPhase → Bool
  | .returned created _ => created
  | _ => false

def IsAdministratorGroup (s : State) (id : String) : Prop :=
  ∃ g ∈ s.groups, g.name = "administrator" ∧ g.id = id

/-- What `CreateInitialAdmin` relies on at each statement. -/
structure InitialAdminOk (s : State) (tx : ℕ) (u : User) (phase : InitialAdminPhase) : Prop where
  locked : phase.isLocked = true → s.lock.Holds tx .shareRowExclusive
  alone : phase.isAlone = true → s.users = []
  group : ∀ g ∈ phase.group?, IsAdministratorGroup s g
  inserted : phase.isInserted = true → (tx, u) ∈ s.pending
  created : phase.isCreated = true → s.users ≠ []

variable {s s' : State} {tx : ℕ} {u : User} {isPrint : Char → Bool} {o : Outcome} {t : Thread}

theorem initialAdminOk_giveUp {err : Option String}
    {phase : InitialAdminPhase} {P : Prop} (hs : DistinctIDs s)
    (h : giveUp s tx err = some (s', phase)) :
    (phase.isCreated = true → P) ∧ DistinctIDs s' ∧ InitialAdminOk s' tx u phase ∧
      Frame s s' tx := by
  cases h
  refine ⟨?_, distinctIDs_rollback hs tx, ⟨?_, ?_, ?_, ?_, ?_⟩, frame_rollback s tx⟩
  · rintro ⟨⟩
  · rintro ⟨⟩
  · rintro ⟨⟩
  · rintro _ ⟨⟩
  · rintro ⟨⟩
  · rintro ⟨⟩

theorem initialAdminOk_commit {g : String} {created : Bool}
    {err : Option String} (hs : DistinctIDs s) (hok : InitialAdminOk s tx u (.commit g)) :
    DistinctIDs (s.commit tx u [(u.id, g)]) ∧
      InitialAdminOk (s.commit tx u [(u.id, g)]) tx u (.returned created err) ∧
      Frame s (s.commit tx u [(u.id, g)]) tx := by
  refine ⟨distinctIDs_commit hs (hok.inserted rfl), ⟨?_, ?_, ?_, ?_, ?_⟩,
    frame_commit hs (hok.inserted rfl) (by simp) (hok.locked rfl)⟩
  · rintro ⟨⟩
  · rintro ⟨⟩
  · rintro _ ⟨⟩
  · rintro ⟨⟩
  · intro _
    simp [State.commit]

theorem createInitialAdmin_keeps {phase phase' : InitialAdminPhase} (hs : DistinctIDs s)
    (hok : InitialAdminOk s tx u phase)
    (h : createInitialAdmin isPrint s tx u phase o = some (s', phase')) :
    (phase'.isCreated = true → ∃ g, phase = .commit g ∧ phase' = .returned true none ∧
      s' = s.commit tx u [(u.id, g)]) ∧
    DistinctIDs s' ∧ InitialAdminOk s' tx u phase' ∧ Frame s s' tx := by
  cases o with
  | fails err =>
    cases phase with
    | returned => cases h
    | _ => exact initialAdminOk_giveUp hs h
  | unacknowledged err =>
    cases phase with
    | commit g =>
      cases h
      exact ⟨fun hc => (nomatch hc), initialAdminOk_commit hs hok⟩
    | _ => cases h
  | ok =>
    cases phase with
    | begin =>
      cases h
      exact ⟨fun hc => (nomatch hc), hs, ⟨by rintro ⟨⟩, by rintro ⟨⟩, by rintro _ ⟨⟩, by rintro ⟨⟩,
        by rintro ⟨⟩⟩, .refl s tx⟩
    | lockUsers =>
      obtain ⟨lock, hlock, h⟩ := Option.bind_eq_some_iff.1 h
      cases h
      refine ⟨fun hc => (nomatch hc), hs,
        ⟨fun _ => LockTable.holds_acquire_self hlock, ?_, ?_, ?_, ?_⟩, frame_acquire hlock⟩
      · rintro ⟨⟩
      · rintro _ ⟨⟩
      · rintro ⟨⟩
      · rintro ⟨⟩
    | findEmail =>
      have hlocked := hok.locked rfl
      simp only [createInitialAdmin] at h
      split at h <;> cases h
      all_goals
        exact ⟨fun hc => (nomatch hc), hs, ⟨fun _ => hlocked, by rintro ⟨⟩, by rintro _ ⟨⟩,
          by rintro ⟨⟩, by rintro ⟨⟩⟩, .refl s tx⟩
    | checkMembership existingID =>
      simp only [createInitialAdmin] at h
      split_ifs at h <;> exact initialAdminOk_giveUp hs h
    | countUsers =>
      simp only [createInitialAdmin] at h
      split_ifs at h with hcount
      · exact initialAdminOk_giveUp hs h
      · cases h
        have hempty : s.users = [] := by simpa using hcount
        exact ⟨fun hc => (nomatch hc), hs, ⟨fun _ => hok.locked rfl, fun _ => hempty,
          by rintro _ ⟨⟩, by rintro ⟨⟩, by rintro ⟨⟩⟩, .refl s tx⟩
    | loadGroup =>
      simp only [createInitialAdmin] at h
      split at h
      · exact initialAdminOk_giveUp hs h
      · next g hg =>
        cases h
        have hgroup : IsAdministratorGroup s g.id :=
          ⟨g, List.mem_of_find?_eq_some hg, by simpa using List.find?_some hg, rfl⟩
        refine ⟨fun hc => (nomatch hc), hs,
          ⟨fun _ => hok.locked rfl, fun _ => hok.alone rfl, ?_, ?_, ?_⟩, .refl s tx⟩
        · rintro _ ⟨⟩
          exact hgroup
        · rintro ⟨⟩
        · rintro ⟨⟩
    | insertUser g =>
      obtain ⟨s₁, hins, h⟩ := Option.map_eq_some_iff.1 h
      have hframe := frame_insert hins
      have hdistinct := distinctIDs_insert hs hins
      obtain ⟨-, rfl⟩ := insert_eq_some hins
      cases h
      refine ⟨fun hc => (nomatch hc), hdistinct,
        ⟨fun _ => hok.locked rfl, fun _ => hok.alone rfl, ?_,
        fun _ => List.mem_cons_self, ?_⟩, hframe⟩
      · rintro _ ⟨⟩
        exact hok.group g rfl
      · rintro ⟨⟩
    | attachGroup g =>
      simp only [createInitialAdmin] at h
      split_ifs at h
      cases h
      refine ⟨fun hc => (nomatch hc), hs, ⟨fun _ => hok.locked rfl, fun _ => hok.alone rfl, ?_,
        fun _ => hok.inserted rfl, ?_⟩, .refl s tx⟩
      · rintro _ ⟨⟩
        exact hok.group g rfl
      · rintro ⟨⟩
    | commit g =>
      cases h
      exact ⟨fun _ => ⟨g, rfl, rfl, rfl⟩, initialAdminOk_commit hs hok⟩
    | returned => cases h

/-- What `CreateUser` relies on when its statement ends. -/
def CreateUserOk (s : State) (tx : ℕ) (u : User) (phase : CreateUserPhase) : Prop :=
  phase = .commit → s.lock.Holds tx .rowExclusive ∧ (tx, u) ∈ s.pending

theorem createUser_keeps {phase phase' : CreateUserPhase}
    (hs : DistinctIDs s) (hok : CreateUserOk s tx u phase)
    (h : createUser s tx u phase o = some (s', phase')) :
    DistinctIDs s' ∧ CreateUserOk s' tx u phase' ∧ Frame s s' tx := by
  have hend : ∀ s₁ err, CreateUserOk s₁ tx u (.returned err) := by
    rintro _ _ ⟨⟩
  cases phase with
  | insert =>
    cases o with
    | ok =>
      obtain ⟨lock, hlock, h⟩ := Option.bind_eq_some_iff.1 h
      obtain ⟨s₁, hins, h⟩ := Option.bind_eq_some_iff.1 h
      have hdistinct : DistinctIDs s₁ := distinctIDs_insert (s := { s with lock }) hs hins
      obtain ⟨-, rfl⟩ := insert_eq_some hins
      cases h
      refine ⟨hdistinct, fun _ => ⟨LockTable.holds_acquire_self hlock, List.mem_cons_self⟩, ?_⟩
      exact ⟨rfl, rfl, fun _ _ _ hl => hl.acquire hlock, fun _ _ _ hp => List.mem_cons_of_mem _ hp,
        .nothing rfl rfl⟩
    | fails err =>
      cases h
      exact ⟨distinctIDs_rollback hs tx, hend _ _, frame_rollback s tx⟩
    | unacknowledged err => cases h
  | commit =>
    obtain ⟨hlock, hpending⟩ := hok rfl
    cases o with
    | fails err =>
      cases h
      exact ⟨distinctIDs_rollback hs tx, hend _ _, frame_rollback s tx⟩
    | ok | unacknowledged =>
      cases h
      exact ⟨distinctIDs_commit hs hpending, hend _ _, frame_commit hs hpending (by simp) hlock⟩
  | returned => cases o <;> cases h

def ThreadOk (s : State) : Thread → Prop
  | .createUser tx u phase => tx < s.transactions ∧ CreateUserOk s tx u phase
  | .createInitialAdmin tx u phase => tx < s.transactions ∧ InitialAdminOk s tx u phase

/-- The call is a `CreateInitialAdmin` that has returned `created = true`. -/
def Thread.isCreated : Thread → Bool
  | .createUser _ _ _ => false
  | .createInitialAdmin _ _ phase => phase.isCreated

/-- Two calls have different transactions, and at most one of them has created the
administrator. -/
def Apart (t t' : Thread) : Prop := t.tx ≠ t'.tx ∧ ¬(t.isCreated = true ∧ t'.isCreated = true)

theorem resume_keeps {t' : Thread} {new : Option Thread} (hs : DistinctIDs s) (ht : ThreadOk s t)
    (h : (calls isPrint).resume s t o = some (s', t', new)) :
    DistinctIDs s' ∧ ThreadOk s' t' ∧ new = none ∧ t'.tx = t.tx ∧ Frame s s' t.tx := by
  cases t with
  | createUser tx u phase =>
    obtain ⟨⟨s₁, phase'⟩, hstep, h⟩ := Option.map_eq_some_iff.1 h
    cases h
    obtain ⟨hs', hok, hframe⟩ := createUser_keeps hs ht.2 hstep
    exact ⟨hs', ⟨hframe.transactions ▸ ht.1, hok⟩, rfl, rfl, hframe⟩
  | createInitialAdmin tx u phase =>
    obtain ⟨⟨s₁, phase'⟩, hstep, h⟩ := Option.map_eq_some_iff.1 h
    cases h
    obtain ⟨-, hs', hok, hframe⟩ := createInitialAdmin_keeps hs ht.2 hstep
    exact ⟨hs', ⟨hframe.transactions ▸ ht.1, hok⟩, rfl, rfl, hframe⟩

/-- Nobody else appends a user while `CreateInitialAdmin` holds its lock. -/
theorem Frame.users_eq {tx' : ℕ} (h : Frame s s' tx) (hne : tx' ≠ tx)
    (hl : s.lock.Holds tx' .shareRowExclusive) : s'.users = s.users := by
  cases h.rows with
  | nothing users => exact users
  | user u memberships m _ _ _ _ held =>
    have hcompat := hl.compatible held hne
    cases m <;> cases hcompat

theorem Frame.threadOk (h : Frame s s' tx)
    (hne : t.tx ≠ tx) (ht : ThreadOk s t) : ThreadOk s' t := by
  cases t with
  | createUser tx' u phase =>
    refine ⟨h.transactions ▸ ht.1, fun hphase => ?_⟩
    obtain ⟨hl, hp⟩ := ht.2 hphase
    exact ⟨h.lock _ _ hne hl, h.pending _ _ hne hp⟩
  | createInitialAdmin tx' u phase =>
    obtain ⟨hlt, hok⟩ := ht
    refine ⟨h.transactions ▸ hlt, fun hp => h.lock _ _ hne (hok.locked hp), fun hp => ?_,
      fun g hg => ?_, fun hp => h.pending _ _ hne (hok.inserted hp), fun hp => ?_⟩
    · have hlocked : phase.isLocked = true := by cases phase <;> first | rfl | cases hp
      exact (h.users_eq hne (hok.locked hlocked)).trans (hok.alone hp)
    · obtain ⟨x, hx, hname⟩ := hok.group g hg
      exact ⟨x, h.groups ▸ hx, hname⟩
    · have husers := hok.created hp
      cases h.rows with
      | nothing users => rwa [users]
      | user _ _ _ users => simp [users]

/-- The only step that returns `created = true` is the commit of the first user. -/
theorem created_of_resume {t' : Thread}
    {new : Option Thread} (hs : DistinctIDs s) (ht : ThreadOk s t)
    (h : (calls isPrint).resume s t o = some (s', t', new)) (hc : t'.isCreated = true) :
    ∃ tx u g, t = .createInitialAdmin tx u (.commit g) ∧
      t' = .createInitialAdmin tx u (.returned true none) ∧ s.users = [] ∧ s'.users = [u] ∧
      (u.id, g) ∈ s'.userGroups ∧ IsAdministratorGroup s' g := by
  cases t with
  | createUser tx u phase =>
    obtain ⟨r, -, h⟩ := Option.map_eq_some_iff.1 h
    cases h
    cases hc
  | createInitialAdmin tx u phase =>
    obtain ⟨⟨s₁, phase'⟩, hstep, h⟩ := Option.map_eq_some_iff.1 h
    cases h
    obtain ⟨g, rfl, rfl, rfl⟩ := (createInitialAdmin_keeps hs ht.2 hstep).1 hc
    have hempty := ht.2.alone rfl
    exact ⟨tx, u, g, rfl, rfl, hempty, by simp [State.commit, hempty], by simp [State.commit],
      ht.2.group g rfl⟩

theorem calls_keep (isPrint : Char → Bool) :
    Pool.Keeps (calls isPrint) DistinctIDs ThreadOk Apart where
  symm t u h := ⟨h.1.symm, fun hc => h.2 hc.symm⟩
  resume s t o s' t' new hs ht hm := by
    obtain ⟨hs', hok, rfl, -, -⟩ := resume_keeps hs ht hm
    exact ⟨hs', hok, by simp⟩
  others s t o s' t' new u hs ht hm hu hap := by
    obtain ⟨-, -, rfl, htx, hframe⟩ := resume_keeps hs ht hm
    refine ⟨hframe.threadOk hap.1.symm hu, ⟨htx ▸ hap.1, fun hc => ?_⟩, by simp⟩
    obtain ⟨tx, v, g, rfl, -, hempty, -⟩ := created_of_resume hs ht hm hc.1
    cases u with
    | createUser => exact absurd hc.2 (by simp [Thread.isCreated])
    | createInitialAdmin => exact hu.2.created hc.2 hempty
  arrive s call s' new hs hm := by
    cases hm
    refine ⟨hs, ?_⟩
    rintro n ⟨⟩
    cases call with
    | createUser user => exact ⟨Nat.lt_succ_self _, by rintro ⟨⟩⟩
    | createInitialAdmin user =>
      exact ⟨Nat.lt_succ_self _, by rintro ⟨⟩, by rintro ⟨⟩, by rintro _ ⟨⟩, by rintro ⟨⟩,
        by rintro ⟨⟩⟩
  arriveOthers s call s' new u hs hm hu := by
    cases hm
    have hlt : u.tx < s.transactions := by cases u <;> exact hu.1
    refine ⟨?_, ?_⟩
    · cases u with
      | createUser => exact ⟨Nat.lt_succ_of_lt hu.1, hu.2⟩
      | createInitialAdmin => exact ⟨Nat.lt_succ_of_lt hu.1, ⟨hu.2.locked, hu.2.alone, hu.2.group,
          hu.2.inserted, hu.2.created⟩⟩
    · rintro n ⟨⟩
      refine ⟨?_, fun hc => ?_⟩
      · cases call <;> exact Nat.ne_of_gt hlt
      · cases call <;> cases hc.1

def initial (groups : List Group) : Pool State Thread := ⟨{ groups }, []⟩

theorem holds_initial (groups : List Group) :
    Pool.Holds DistinctIDs ThreadOk Apart (initial groups) :=
  ⟨List.nodup_nil, by simp [initial], List.Pairwise.nil⟩

/-- The rows of the users that were there, and what groups they are in, are as before. -/
def SparesExisting (s s' : State) : Prop :=
  ∀ x ∈ s.users, (∀ y, y ∈ s'.users ∧ y.id = x.id ↔ y = x) ∧
    ∀ g, (x.id, g) ∈ s'.userGroups ↔ (x.id, g) ∈ s.userGroups

theorem Frame.sparesExisting (h : Frame s s' tx) (hs : DistinctIDs s) : SparesExisting s s' := by
  have hnodup : (s.users.map (·.id)).Nodup := by
    rw [DistinctIDs, List.map_append, List.nodup_append] at hs
    exact hs.2.1
  intro x hx
  cases h.rows with
  | nothing users userGroups =>
    rw [users, userGroups]
    refine ⟨fun y => ⟨fun hy => List.inj_on_of_nodup_map hnodup hy.1 hx hy.2, ?_⟩, fun g => .rfl⟩
    rintro rfl
    exact ⟨hx, rfl⟩
  | user u memberships m users userGroups own fresh _ =>
    rw [users, userGroups]
    refine ⟨fun y => ⟨fun hy => ?_, ?_⟩, fun g => ?_⟩
    · rcases List.mem_append.1 hy.1 with hmem | hmem
      · exact List.inj_on_of_nodup_map hnodup hmem hx hy.2
      · rw [List.mem_singleton.1 hmem] at hy
        exact absurd hy.2.symm (fresh x hx)
    · rintro rfl
      exact ⟨List.mem_append_left _ hx, rfl⟩
    · rw [List.mem_append]
      exact or_iff_left fun hg => fresh x hx (own _ hg)

theorem countP_le_one_of_pairwise {τ : Type*} {c : τ → Bool} {l : List τ}
    (h : l.Pairwise fun x y => ¬(c x = true ∧ c y = true)) : l.countP c ≤ 1 := by
  induction l with
  | nil => simp
  | cons x l ih =>
    obtain ⟨hx, hl⟩ := List.pairwise_cons.1 h
    rw [List.countP_cons]
    by_cases hc : c x = true
    · have hnone : l.countP c = 0 := List.countP_eq_zero.2 fun y hy hcy => hx y hy ⟨hc, hcy⟩
      simp [hc, hnone]
    · simpa [hc] using ih hl

/-- The step in which `CreateInitialAdmin` returns `created = true`. -/
def Creates (p p' : Pool State Thread) (u : User) : Prop :=
  ∃ (i tx : ℕ) (err : Option String),
    p'.threads[i]? = some (.createInitialAdmin tx u (.returned true err)) ∧
      p.threads[i]? ≠ p'.threads[i]?

theorem step_creates {p p' : Pool State Thread}
    {l : Pool.Label Outcome Call} (hp : Pool.Holds DistinctIDs ThreadOk Apart p)
    (hstep : (calls isPrint).step p l = some p') (hc : Creates p p' u) :
    p'.shared.users = [u] ∧ p'.shared.isAdministrator u.id = true := by
  obtain ⟨i, tx, err, hi, hne⟩ := hc
  cases l with
  | arrive call =>
    obtain ⟨s', new, hm, rfl⟩ := Pool.Program.step_arrive_eq_some.1 hstep
    cases hm
    by_cases hlt : i < p.threads.length
    · exact absurd (List.getElem?_append_left hlt).symm hne
    · have hnew := hi
      simp only at hnew
      rw [List.getElem?_append_right (Nat.not_lt.1 hlt)] at hnew
      have hmem := List.mem_of_getElem? hnew
      cases call <;> simp [Call.start] at hmem
  | resume j o =>
    obtain ⟨t, s', t', new, ht, hm, rfl⟩ := Pool.Program.step_resume_eq_some.1 hstep
    have hok := hp.thread t (List.mem_of_getElem? ht)
    obtain ⟨-, -, rfl, -, -⟩ := resume_keeps hp.shared hok hm
    rw [Option.toList_none, List.append_nil] at hi hne
    by_cases hij : j = i
    · subst hij
      obtain ⟨hlt, -⟩ := List.getElem?_eq_some_iff.1 ht
      rw [List.getElem?_set_self hlt] at hi
      cases hi
      obtain ⟨tx', v, g, -, hret, -, husers, hmember, x, hx, hname, hid⟩ :=
        created_of_resume hp.shared hok hm rfl
      cases hret
      exact ⟨husers, List.any_eq_true.2 ⟨x, hx, by simp [hname, hid, hmember]⟩⟩
    · exact absurd (List.getElem?_set_ne hij).symm hne

theorem step_sparesExisting {p p' : Pool State Thread}
    {l : Pool.Label Outcome Call} (hp : Pool.Holds DistinctIDs ThreadOk Apart p)
    (hstep : (calls isPrint).step p l = some p') : SparesExisting p.shared p'.shared := by
  cases l with
  | arrive call =>
    obtain ⟨s', new, hm, rfl⟩ := Pool.Program.step_arrive_eq_some.1 hstep
    cases hm
    exact (Frame.refl p.shared 0).sparesExisting hp.shared
  | resume j o =>
    obtain ⟨t, s', t', new, ht, hm, rfl⟩ := Pool.Program.step_resume_eq_some.1 hstep
    obtain ⟨-, -, -, -, hframe⟩ :=
      resume_keeps hp.shared (hp.thread t (List.mem_of_getElem? ht)) hm
    exact hframe.sparesExisting hp.shared

/-- From an empty table, whatever calls run and wherever they fail: at most one
`CreateInitialAdmin` returns `created = true`; at the commit for which it does, its user is the only
one and an administrator; and no step changes a user that was there or its groups. -/
theorem initial_admin_bootstrap (isPrint : Char → Bool) (groups : List Group)
    {p : Pool State Thread} (h : Reachable (calls isPrint).step (initial groups) p) :
    p.threads.countP Thread.isCreated ≤ 1 ∧
      ∀ l p', (calls isPrint).step p l = some p' →
        (∀ u, Creates p p' u → p'.shared.users = [u] ∧ p'.shared.isAdministrator u.id = true) ∧
        SparesExisting p.shared p'.shared := by
  have hp := (calls_keep isPrint).reachable h (holds_initial groups)
  refine ⟨countP_le_one_of_pairwise (hp.apart.imp fun hap => hap.2), fun l p' hstep => ?_⟩
  exact ⟨fun u hc => step_creates hp hstep hc, step_sparesExisting hp hstep⟩

/-- The first replica, with the commit still to come. -/
def firstReplica : List (Pool.Label Outcome Call) :=
  .arrive (.createInitialAdmin ⟨"u1", "admin@example.com", "$2a$12$", none⟩) ::
    List.replicate 7 (.resume 0 .ok)

theorem initial_admin_bootstrap_first : ∃ p p',
    Reachable (calls fun _ => true).step
        (initial [⟨"grp_system_administrator", "administrator"⟩]) p ∧
      (calls fun _ => true).step p (.resume 0 .ok) = some p' ∧
      p'.shared.users = [⟨"u1", "admin@example.com", "$2a$12$", none⟩] ∧
      p'.shared.isAdministrator "u1" = true := by
  obtain ⟨p, hp⟩ : ∃ p, run (calls fun _ => true).step
      (initial [⟨"grp_system_administrator", "administrator"⟩]) firstReplica = some p := ⟨_, rfl⟩
  obtain ⟨p', hp'⟩ : ∃ p', (calls fun _ => true).step p (.resume 0 .ok) = some p' := by
    cases hp
    exact ⟨_, rfl⟩
  have hcreates : Creates p p' ⟨"u1", "admin@example.com", "$2a$12$", none⟩ := by
    cases hp
    cases hp'
    exact ⟨0, 0, none, rfl, by decide⟩
  have hreach : Reachable (calls fun _ => true).step
      (initial [⟨"grp_system_administrator", "administrator"⟩]) p := ⟨firstReplica, hp⟩
  exact ⟨p, p', hreach, hp', ((initial_admin_bootstrap _ _ hreach).2 _ p' hp').1 _ hcreates⟩

end OtelMagnify.Users
