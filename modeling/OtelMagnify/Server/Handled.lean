import OtelMagnify.Server.Columns

/-! One accepted message, handled alone: what it leaves of the columns of the rows. -/
namespace OtelMagnify.Server
open Push
open Token hiding Time

/-- Whether `handleAcceptedMessageWithLease` has returned. -/
def HandlerStage.returns : HandlerStage → Bool
  | unlocking _ => true
  | _ => false

/-- The goroutine of a message from `stage` on, alone, until it returns from
`handleAcceptedMessageWithLease`. Each call finds the environment as `cs` says. -/
def Handler.drive (h : Handler) (cs : HandlerStage → Choice) :
    ℕ → Shared → HandlerStage → Option Shared
  | 0, _, _ => none
  | n + 1, σ, stage =>
    if stage.returns then some σ
    else
      match resumeHandler σ h stage (cs stage) with
      | some (σ', .handler _ stage', _) => h.drive cs n σ' stage'
      | _ => none

def Handler.handleAccepted (h : Handler) (cs : HandlerStage → Choice) (σ : Shared) :
    Option Shared :=
  h.drive cs 15 σ .accepted

variable {σ σ' : Shared} {h : Handler} {cs : HandlerStage → Choice} {stage stage' : HandlerStage}
  {w : String} {row : Workload} {n m : ℕ}

open Handler

theorem drive_of_resume {new : Option Thread} (hs : stage.returns = false)
    (hm : resumeHandler σ h stage (cs stage) = some (σ', .handler h stage', new)) (n : ℕ) :
    h.drive cs (n + 1) σ stage = h.drive cs n σ' stage' := by
  rw [drive, hs, hm]
  rfl

/-- More fuel does not change the outcome. -/
theorem drive_mono (hn : h.drive cs n σ stage = some σ') (hle : n ≤ m) :
    h.drive cs m σ stage = some σ' := by
  induction n generalizing m σ stage with
  | zero => cases hn
  | succ n ih =>
    obtain ⟨m, rfl⟩ : ∃ k, m = k + 1 := ⟨m - 1, by omega⟩
    rw [drive] at hn ⊢
    split
    · next hr => rwa [if_pos hr] at hn
    · next hr =>
      rw [if_neg hr] at hn
      split at hn
      · exact ih hn (by omega)
      · cases hn

theorem columns_of_getWorkload {ok : Bool} (h : σ.getWorkload ok w = some row) :
    σ.rows.columns w = some row.columns := by
  unfold Shared.getWorkload at h
  split at h
  · rw [Workloads.columns, h, Option.map_some]
  · cases h

variable {row' : Workload} {c : Choice} {snap : RemoteConfigStatus}

theorem upsertWorkload_columns {ok : Bool} (hg : σ.getWorkload ok w = some row)
    (hrow : row'.columns = row.columns) (ok' : Bool) :
    (σ.upsertWorkload ok' w row').rows.columns = σ.rows.columns := by
  unfold Shared.upsertWorkload
  split
  · refine Workloads.columns_upsertWorkload_self ?_
    rw [columns_of_getWorkload hg, hrow]
  · rfl

theorem resume_reportReading (hg : σ.getWorkload c.ok w = some row) :
    resumeHandler σ h (.reportReading w snap) c =
      some (σ, .handler h (.reportUpserting w { row with remoteConfigStatus := some snap }),
        none) := by
  simp only [resumeHandler, hg]

theorem resume_reportReading_none (hg : σ.getWorkload c.ok w = none) :
    resumeHandler σ h (.reportReading w snap) c =
      some (σ, .handler h (.unlocking false), none) := by
  simp only [resumeHandler, hg]

theorem resume_refreshing (hg : σ.getWorkload c.ok w = some row) :
    resumeHandler σ h (.refreshing w) c =
      some (σ, .handler h (.refreshAggregating w row), none) := by
  simp only [resumeHandler, hg]

theorem resume_refreshing_none (hg : σ.getWorkload c.ok w = none) :
    resumeHandler σ h (.refreshing w) c = some (σ, .handler h (.reporting w), none) := by
  simp only [resumeHandler, hg]

theorem resume_launching (row : Workload) (c : Choice) :
    ∃ stage', (stage' = .forking w ∨ stage' = .reporting w) ∧
      resumeHandler σ h (.launching w row) c = some (σ, .handler h stage', none) := by
  simp only [resumeHandler]
  split
  · exact ⟨_, .inl rfl, rfl⟩
  · exact ⟨_, .inr rfl, rfl⟩

theorem resume_forking (c : Choice) :
    ∃ σ' new, resumeHandler σ h (.forking w) c = some (σ', .handler h (.reporting w), new) ∧
      σ'.rows = σ.rows :=
  ⟨_, _, rfl, rfl⟩

section Drive

variable (h : Handler) (cs : HandlerStage → Choice) (w : String) (σ : Shared)

theorem drive_reportReading (snap : RemoteConfigStatus) :
    ∃ σ', h.drive cs 3 σ (.reportReading w snap) = some σ' ∧
      σ'.rows.columns = σ.rows.columns := by
  cases hg : σ.getWorkload (cs (.reportReading w snap)).ok w with
  | none =>
    rw [drive_of_resume rfl (resume_reportReading_none hg)]
    exact ⟨σ, rfl, rfl⟩
  | some row =>
    rw [drive_of_resume rfl (resume_reportReading hg), drive_of_resume rfl rfl]
    refine ⟨_, rfl, upsertWorkload_columns hg ?_ _⟩
    rfl

theorem drive_reporting :
    ∃ σ', h.drive cs 4 σ (.reporting w) = some σ' ∧ σ'.rows.columns = σ.rows.columns := by
  rw [drive_of_resume rfl rfl]
  unfold report
  split
  · exact ⟨σ, rfl, rfl⟩
  split
  · exact ⟨σ, rfl, rfl⟩
  · exact drive_reportReading h cs w _ _

theorem drive_launching (row : Workload) :
    ∃ σ', h.drive cs 6 σ (.launching w row) = some σ' ∧ σ'.rows.columns = σ.rows.columns := by
  obtain ⟨stage', hstage, hl⟩ := resume_launching (σ := σ) (h := h) (w := w) row (cs (.launching w row))
  rw [drive_of_resume rfl hl]
  rcases hstage with rfl | rfl
  · obtain ⟨σ₁, new, hf, hrows⟩ := resume_forking (σ := σ) (h := h) (cs (.forking w))
    obtain ⟨σ', hd, hcol⟩ := drive_reporting h cs w σ₁
    rw [drive_of_resume rfl hf]
    exact ⟨σ', hd, by rw [hcol, hrows]⟩
  · obtain ⟨σ', hd, hcol⟩ := drive_reporting h cs w σ
    exact ⟨σ', drive_mono hd (by omega), hcol⟩

theorem drive_refreshing :
    ∃ σ', h.drive cs 9 σ (.refreshing w) = some σ' ∧ σ'.rows.columns = σ.rows.columns := by
  cases hg : σ.getWorkload (cs (.refreshing w)).ok w with
  | none =>
    obtain ⟨σ', hd, hcol⟩ := drive_reporting h cs w σ
    rw [drive_of_resume rfl (resume_refreshing_none hg)]
    exact ⟨σ', drive_mono hd (by omega), hcol⟩
  | some row =>
    rw [drive_of_resume rfl (resume_refreshing hg), drive_of_resume rfl rfl,
      drive_of_resume rfl rfl]
    obtain ⟨σ', hd, hcol⟩ := drive_launching h cs w _ _
    refine ⟨σ', hd, hcol.trans (upsertWorkload_columns hg ?_ _)⟩
    rfl

end Drive

def Handler.draft (h : Handler) (cs : HandlerStage → Choice) (σ : Shared) : Workload :=
  let w := (fingerprint h.attrs h.uid).id
  let prev := σ.getWorkload (cs (.describing w)).ok w
  let c := cs (.aggregating w prev)
  .described prev (fingerprint h.attrs h.uid) h.attrs h.msg
    ((h.accept σ).1.registry.aggregatedStatus w) c.now c.stored

/-- Whether the `GetWorkload` of `upsertWorkloadFromDescription` succeeds. -/
def Handler.reads (h : Handler) (cs : HandlerStage → Choice) : Bool :=
  (cs (.describing (fingerprint h.attrs h.uid).id)).ok

/-- Whether its `UpsertWorkload` succeeds. -/
def Handler.writes (h : Handler) (cs : HandlerStage → Choice) (σ : Shared) : Bool :=
  (cs (.upserting (fingerprint h.attrs h.uid).id (h.draft cs σ))).ok

/-- From the upsert on, only the upsert changes a column. -/
theorem drive_upserting (hret : row.retentionUntil = none) (cs : HandlerStage → Choice)
    (σ : Shared) :
    ∃ σ', h.drive cs 11 σ (.upserting w row) = some σ' ∧ σ'.rows.columns =
      if (cs (.upserting w row)).ok then Function.update σ.rows.columns w (some row.columns)
      else σ.rows.columns := by
  rw [drive_of_resume rfl rfl]
  by_cases hok : (cs (.upserting w row)).ok = true
  · simp only [Shared.upsertWorkload, hok, if_true]
    rw [drive_of_resume rfl rfl]
    obtain ⟨σ', hd, hcol⟩ := drive_refreshing h cs w
      (if (cs (.clearing w)).ok then
        { σ with rows := Workloads.clearWorkloadRetention (σ.rows.upsertWorkload w row) w }
      else { σ with rows := σ.rows.upsertWorkload w row })
    refine ⟨σ', hd, hcol.trans ?_⟩
    split
    · rw [Workloads.columns_clearWorkloadRetention, Workloads.columns_upsertWorkload,
        Function.update_self, Function.update_idem, Option.map_some]
      congr 2
      simp [Columns.clearRetention, Workload.columns, hret]
    · exact Workloads.columns_upsertWorkload σ.rows w row
  · simp only [Shared.upsertWorkload, hok]
    obtain ⟨σ', hd, hcol⟩ := drive_refreshing h cs w σ
    exact ⟨σ', drive_mono hd (by omega), hcol⟩

theorem handleAccepted_columns {desc : AgentDescription}
    (hdesc : h.msg.agentDescription = some desc) (cs : HandlerStage → Choice) (σ : Shared) :
    ∃ σ', h.handleAccepted cs σ = some σ' ∧ σ'.rows.columns =
      if h.writes cs σ then
        Function.update σ.rows.columns (fingerprint h.attrs h.uid).id
          (some (h.draft cs σ).columns)
      else σ.rows.columns := by
  have hattrs : h.attrs = desc.attrs := by simp [attrs, hdesc]
  have haccept : (h.accept σ).2 = .cancelling (fingerprint h.attrs h.uid).id ∧
      (h.accept σ).1.rows = σ.rows := by
    unfold accept
    rw [hdesc, hattrs]
    exact ⟨rfl, rfl⟩
  unfold handleAccepted writes draft
  generalize hσ₁ : (h.accept σ).1 = σ₁ at haccept ⊢
  have hprev : ∀ ok, σ.getWorkload ok (fingerprint h.attrs h.uid).id =
      σ₁.getWorkload ok (fingerprint h.attrs h.uid).id := by
    intro ok
    rw [Shared.getWorkload, Shared.getWorkload, haccept.2]
  rw [drive_of_resume rfl rfl, haccept.1, hσ₁, drive_of_resume rfl rfl, drive_of_resume rfl rfl,
    drive_of_resume rfl rfl, ← haccept.2]
  simp only [hprev]
  exact drive_upserting rfl cs _

theorem columns_draft (h : Handler) (cs : HandlerStage → Choice) (σ : Shared) :
    ∃ stored, (h.draft cs σ).columns = .describe h.attrs h.msg.acceptsRemoteConfig
      (persistEffectiveConfig h.msg.effectiveConfig stored)
      ((σ.getWorkload (cs (.describing (fingerprint h.attrs h.uid).id)).ok
        (fingerprint h.attrs h.uid).id).map Workload.columns) :=
  ⟨_, columns_described _ _ _ _ _ _ _⟩

/-- What a description leaves of a stored row. -/
theorem handleAccepted_row (cs : HandlerStage → Choice) {desc : AgentDescription}
    (hdesc : h.msg.agentDescription = some desc)
    (hrow : σ.rows (fingerprint desc.attrs h.uid).id = some row) :
    ∃ σ' row' stored, h.handleAccepted cs σ = some σ' ∧
      σ'.rows (fingerprint desc.attrs h.uid).id = some row' ∧
      row'.columns =
        if h.writes cs σ then
          .describe desc.attrs h.msg.acceptsRemoteConfig
            (persistEffectiveConfig h.msg.effectiveConfig stored)
            (if h.reads cs then some row.columns else none)
        else row.columns := by
  have hattrs : h.attrs = desc.attrs := by simp [attrs, hdesc]
  obtain ⟨σ', hσ', hcol⟩ := handleAccepted_columns hdesc cs σ
  obtain ⟨stored, hdraft⟩ := columns_draft h cs σ
  have hread : (σ.getWorkload (cs (.describing (fingerprint h.attrs h.uid).id)).ok
      (fingerprint h.attrs h.uid).id).map Workload.columns =
        if h.reads cs then some row.columns else none := by
    rw [reads, Shared.getWorkload]
    split
    · rw [hattrs, hrow, Option.map_some]
    · rfl
  rw [hread, hattrs] at hdraft
  have hw := congrFun hcol (fingerprint desc.attrs h.uid).id
  by_cases hok : h.writes cs σ = true
  · rw [if_pos hok, hattrs, Function.update_self, hdraft] at hw
    obtain ⟨row', hrow', hc⟩ := Option.map_eq_some_iff.mp hw
    exact ⟨σ', row', stored, hσ', hrow', by rw [hc, if_pos hok]⟩
  · rw [if_neg hok, Workloads.columns, Workloads.columns, hrow, Option.map_some] at hw
    obtain ⟨row', hrow', hc⟩ := Option.map_eq_some_iff.mp hw
    exact ⟨σ', row', stored, hσ', hrow', by rw [hc, if_neg hok]⟩

def Workloads.isListed (rows : Workloads) (w : String) : Bool :=
  (rows w).any (·.archivedAt = none)

/-- A description brings a row back to the listings exactly when the row was not archived: the
archive time is written back as it was read. -/
theorem description_resurrects {desc : AgentDescription}
    (hdesc : h.msg.agentDescription = some desc) (hok : ∀ stage, (cs stage).ok = true)
    (hrow : σ.rows (fingerprint desc.attrs h.uid).id = some row) :
    (∃ σ' row', h.handleAccepted cs σ = some σ' ∧
      σ'.rows (fingerprint desc.attrs h.uid).id = some row' ∧
      row'.archivedAt = none ∧ row'.retentionUntil = none ∧
      σ'.rows.isListed (fingerprint desc.attrs h.uid).id = true) ↔ row.archivedAt = none := by
  obtain ⟨σ', row', stored, hσ', hrow', hc⟩ := handleAccepted_row cs hdesc hrow
  rw [writes, reads, if_pos (hok _), if_pos (hok _)] at hc
  have harch : row'.archivedAt = row.archivedAt := congrArg Columns.archivedAt hc
  constructor
  · rintro ⟨σ₁, row₁, hσ₁, hrow₁, hnone, -⟩
    cases hσ'.symm.trans hσ₁
    cases hrow'.symm.trans hrow₁
    rw [← harch, hnone]
  · intro hopen
    rw [hopen] at harch
    refine ⟨σ', row', hσ', hrow', harch, congrArg Columns.retentionUntil hc, ?_⟩
    simp [Workloads.isListed, hrow', harch]

/-- The message of an instance on the host `n1`, handled for the first lease. -/
def hostHandler : Handler where
  lease := ⟨0, ⟨0, "t", none⟩⟩
  msg :=
    { instanceUid := List.replicate 16 7
      agentDescription := some ⟨[("host.name", "n1")], []⟩
      capabilities := 2 }
  sameConn := true

/-- A store that works, at time `10`. -/
def working : HandlerStage → Choice := fun _ => ⟨10, true, true, .delivered⟩

/-- A row of a workload that went away and has a deadline, at which it may be archived. -/
def departedRow (archivedAt : Option Time) : Workload :=
  { Workload.zero with
    labels := [("otel.magnify/selector.env", "prod")]
    activeConfigID := some "c1"
    activeConfigHash := "c1"
    retentionUntil := some 5
    archivedAt := archivedAt }

theorem description_resurrects_departed :
    ∃ σ' row', hostHandler.handleAccepted working (.initial 0 fun _ => some (departedRow none)) =
        some σ' ∧
      σ'.rows (fingerprint [("host.name", "n1")] hostHandler.uid).id = some row' ∧
      row'.archivedAt = none ∧ row'.retentionUntil = none ∧
      σ'.rows.isListed (fingerprint [("host.name", "n1")] hostHandler.uid).id = true :=
  have hdesc : hostHandler.msg.agentDescription = some ⟨[("host.name", "n1")], []⟩ := rfl
  (description_resurrects hdesc (fun _ => rfl) rfl).mpr rfl

/-- The upsert writes the archive time that was read, and no other call clears it. -/
theorem description_leaves_archived :
    (∀ stage, (working stage).ok = true) ∧
    ∃ σ' row', hostHandler.handleAccepted working
        (.initial 0 fun _ => some (departedRow (some 6))) = some σ' ∧
      σ'.rows (hash24 "host||n1") = some row' ∧ row'.archivedAt = some 6 ∧
      σ'.rows.isListed (hash24 "host||n1") = false := by
  refine ⟨fun _ => rfl, ?_⟩
  simp only [exists_and_left]
  decide +kernel

theorem persistEffectiveConfig_of_empty {effective : List (String × List UInt8)}
    (h : ∀ kv ∈ effective, kv.2 = []) (stored : Bool) :
    persistEffectiveConfig effective stored = none := by
  have hbuf : ((effective.insertionSort fun a b => a.1 ≤ b.1).map Prod.snd).flatten = [] := by
    rw [List.flatten_eq_nil_iff]
    intro body hbody
    obtain ⟨kv, hkv, rfl⟩ := List.mem_map.mp hbody
    exact h kv ((List.mem_insertionSort _).mp hkv)
  simp [persistEffectiveConfig, hbuf]

/-- The columns that a description must leave alone. -/
def Workload.KeepsOperator (row row' : Workload) (msg : AgentMessage) : Prop :=
  trustedLabels row'.labels = trustedLabels row.labels ∧
    row'.activeConfigHash = row.activeConfigHash ∧
    ((∀ kv ∈ msg.effectiveConfig, kv.2 = []) → row'.activeConfigID = row.activeConfigID)

theorem keepsOperator_of_columns (hc : row'.columns = row.columns)
    (msg : AgentMessage) : row.KeepsOperator row' msg := by
  have hlabels : row'.labels = row.labels := congrArg Columns.labels hc
  refine ⟨by rw [hlabels], congrArg Columns.activeConfigHash hc, fun _ => ?_⟩
  exact congrArg Columns.activeConfigID hc

/-- What a description leaves of the operator's columns: those of the row it starts from. -/
theorem keepsOperator_describe {row₀ : Workload} {attrs : Attrs} {accepts stored : Bool}
    {msg : AgentMessage}
    (hc : row'.columns = .describe attrs accepts
      (persistEffectiveConfig msg.effectiveConfig stored) (some row₀.columns)) :
    row₀.KeepsOperator row' msg := by
  have hlabels : row'.labels = describedLabels row₀.labels attrs := congrArg Columns.labels hc
  refine ⟨?_, congrArg Columns.activeConfigHash hc, fun heff => ?_⟩
  · rw [hlabels, trustedLabels_describedLabels]
  · have hid := congrArg Columns.activeConfigID hc
    rw [persistEffectiveConfig_of_empty heff] at hid
    exact hid

/-- A description keeps the operator's columns exactly when it can read the row, or cannot write
it, or the row has nothing to lose. -/
theorem description_keeps_operator_columns {desc : AgentDescription}
    (hdesc : h.msg.agentDescription = some desc)
    (hrow : σ.rows (fingerprint desc.attrs h.uid).id = some row) :
    (∃ σ' row', h.handleAccepted cs σ = some σ' ∧
      σ'.rows (fingerprint desc.attrs h.uid).id = some row' ∧
      row.KeepsOperator row' h.msg) ↔
    h.reads cs = true ∨ h.writes cs σ = false ∨
      trustedLabels row.labels = [] ∧ row.activeConfigHash = "" ∧
        ((∀ kv ∈ h.msg.effectiveConfig, kv.2 = []) → row.activeConfigID = none) := by
  obtain ⟨σ', row', stored, hσ', hrow', hc⟩ := handleAccepted_row cs hdesc hrow
  simp only [hσ', Option.some.injEq, exists_and_left, exists_eq_left', hrow']
  by_cases hwrite : h.writes cs σ = true
  · rw [if_pos hwrite] at hc
    by_cases hread : h.reads cs = true
    · rw [if_pos hread] at hc
      exact ⟨fun _ => .inl hread, fun _ => keepsOperator_describe hc⟩
    · -- the row that is written starts from a zero row
      have hzero : row'.columns = .describe desc.attrs h.msg.acceptsRemoteConfig
          (persistEffectiveConfig h.msg.effectiveConfig stored) (some Workload.zero.columns) := by
        rw [hc, if_neg hread]
        rfl
      obtain ⟨hlabels, hhash, hid⟩ := keepsOperator_describe hzero
      have hlabels' : trustedLabels row'.labels = [] := hlabels
      constructor
      · rintro ⟨hl, hh, hi⟩
        refine .inr (.inr ⟨hl ▸ hlabels', hh ▸ hhash, fun heff => ?_⟩)
        exact (hi heff).symm.trans (hid heff)
      · rintro (hr | hw | ⟨hl, hh, hi⟩)
        · exact absurd hr hread
        · exact absurd hwrite (by simp [hw])
        · exact ⟨hlabels'.trans hl.symm, hhash.trans hh.symm,
            fun heff => (hid heff).trans (hi heff).symm⟩
  · rw [if_neg hwrite] at hc
    exact ⟨fun _ => .inr (.inl (Bool.eq_false_iff.mpr hwrite)),
      fun _ => keepsOperator_of_columns hc h.msg⟩

/-- A store on which the first read of a description fails. -/
def failingRead : HandlerStage → Choice
  | .describing _ => ⟨10, false, true, .delivered⟩
  | _ => ⟨10, true, true, .delivered⟩

/-- A store that fails on every call but the first read of a description. -/
def failingElsewhere : HandlerStage → Choice
  | .describing _ => ⟨10, true, true, .delivered⟩
  | _ => ⟨10, false, true, .delivered⟩

theorem description_keeps_operator_columns_failing :
    ∃ σ' row', hostHandler.handleAccepted failingElsewhere
        (.initial 0 fun _ => some (departedRow none)) = some σ' ∧
      σ'.rows (fingerprint [("host.name", "n1")] hostHandler.uid).id = some row' ∧
      (departedRow none).KeepsOperator row' hostHandler.msg :=
  have hdesc : hostHandler.msg.agentDescription = some ⟨[("host.name", "n1")], []⟩ := rfl
  (description_keeps_operator_columns hdesc rfl).mpr (.inl rfl)

/-- Any error of the read counts as a missing row, and the upsert then writes a new one. -/
theorem failed_read_erases_operator_columns :
    (∀ kv ∈ hostHandler.msg.effectiveConfig, kv.2 = []) ∧
    ∃ σ' row', hostHandler.handleAccepted failingRead
        (.initial 0 fun _ => some (departedRow none)) = some σ' ∧
      σ'.rows (hash24 "host||n1") = some row' ∧ trustedLabels row'.labels = [] ∧
      trustedLabels (departedRow none).labels = [("otel.magnify/selector.env", "prod")] ∧
      row'.activeConfigHash = "" ∧ row'.activeConfigID = none := by
  simp only [exists_and_left]
  decide +kernel

end OtelMagnify.Server
