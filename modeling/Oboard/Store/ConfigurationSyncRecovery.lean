import Oboard.Store.ConfigurationSyncRuns

namespace Oboard.Store

open GoText Runs ConfigurationSyncState SyncStore List

/-- A version that was queued for the row's wanted revision has failed. -/
def FailedForWanted (σ : SyncStore) (log : List SyncEvent) (s : Int)
    (row : ConfigurationSyncState) : Prop :=
  ∃version,.queued s row.wantedRevision version∈log ∧
    (.taskFailed s version∈log ∨ σ.hasTask s version [.failed]=true)

/-- Nothing was queued for the row's wanted revision. -/
def NeverQueued (log : List SyncEvent) (s : Int) (row : ConfigurationSyncState) : Prop :=
  ∀version,.queued s row.wantedRevision version∉log

/-- A restart blames a row only for its own task, and takes unfinished preparations up again. -/
structure RecoversWell (σ : SyncStore) (log : List SyncEvent) : Prop where
  failed : ∀s row',σ.recoverConfigurationSyncStates.states.lookup s=some row' →
    row'.state=.failed → FailedForWanted σ log s row'
  selectable : ∀s row,σ.states.lookup s=some row → row.state=.preparing → NeverQueued log s row →
    ∃row',σ.recoverConfigurationSyncStates.states.lookup s=some row' ∧ ∀now,row'.selectable now=true

/-- Failed rows failed by a task of their revision or on a locked database, and the last version of
a row under preparation has no task that is open or failed. -/
structure NothingStale (σ : SyncStore) (log : List SyncEvent) : Prop where
  failed : ∀s row,σ.states.lookup s=some row → row.state=.failed →
    FailedForWanted σ log s row ∨ (row.lastConfigVersion=0 ∧ row.busyError=true)
  preparing : ∀s row,σ.states.lookup s=some row → row.state=.preparing → NeverQueued log s row →
    σ.hasTask s row.lastConfigVersion [.pending,.running,.failed]=false

def SyncStore.recovered (σ : SyncStore) (s : Int) (row : ConfigurationSyncState) :
    ConfigurationSyncState :=
  recoverBusy (σ.recoverPending s (σ.recoverFailed s row))

section rows

variable {σ : SyncStore} {s : Int} {row : ConfigurationSyncState}

theorem lookup_recovered : σ.recoverConfigurationSyncStates.states.lookup s=
    (σ.states.lookup s).map (σ.recovered s) := by
  rw [recover_states,Table.lookup_mapRows]
  rfl

theorem hasTask_mono (hsub : a⊆b)
    (h : σ.hasTask s version a=true) : σ.hasTask s version b=true := by
  obtain ⟨r,hr,hp⟩ := any_eq_true.mp h
  simp only [Bool.and_eq_true,contains_iff_mem] at hp
  refine any_eq_true.mpr ⟨r,hr,?_⟩
  simp only [Bool.and_eq_true,contains_iff_mem]
  exact ⟨hp.1,hsub hp.2⟩

def Blamed (σ : SyncStore) (s : Int) (row : ConfigurationSyncState) : Prop :=
  0<row.lastConfigVersion ∧ σ.hasTask s row.lastConfigVersion [.failed]=true ∧
    σ.hasTask s row.lastConfigVersion [.pending,.running]=false

theorem recoverFailed_blamed (hu : unfinished row=true) (hb : Blamed σ s row) :
    σ.recoverFailed s row={row with state := .failed,nextRetryAt := none} := by
  obtain ⟨hv,hf,ho⟩ := hb
  simp [recoverFailed,hu,hv,hf,ho]

theorem recoverFailed_unblamed (hb : ¬Blamed σ s row) : σ.recoverFailed s row=row := by
  unfold recoverFailed
  rw [if_neg]
  intro h
  simp only [Bool.and_eq_true,decide_eq_true_eq,Bool.not_eq_true'] at h
  exact hb ⟨h.1.1.2,h.1.2,h.2⟩

theorem recovered_failed (hf : row.state=.failed)
    (hb : ¬(row.lastConfigVersion=0 ∧ row.busyError=true)) : σ.recovered s row=row := by
  have hu : unfinished row=false := by simp [unfinished,hf]
  simp only [not_and,Bool.not_eq_true] at hb
  by_cases hv : row.lastConfigVersion=0
  · simp [recovered,recoverFailed,recoverPending,recoverBusy,hu,hb hv]
  · simp [recovered,recoverFailed,recoverPending,recoverBusy,hu,hv]

theorem recovered_busy (hf : row.state=.failed) (hv : row.lastConfigVersion=0)
    (hb : row.busyError=true) : (σ.recovered s row).state=.pending := by
  have hu : unfinished row=false := by simp [unfinished,hf]
  simp [recovered,recoverFailed,recoverPending,recoverBusy,hu,hf,hv,hb,ConfigurationSyncState.settle]

theorem recovered_idle (hu : unfinished row=true)
    (ht : σ.hasTask s row.lastConfigVersion [.pending,.running,.failed]=false) :
    σ.recovered s row=row.settle .pending := by
  have hf : σ.hasTask s row.lastConfigVersion [.failed]=false := by
    by_contra hne
    rw [hasTask_mono (by simp) (Bool.not_eq_false _ ▸ hne)] at ht
    cases ht
  simp [recovered,recoverFailed,recoverPending,recoverBusy,hu,hf,ht,ConfigurationSyncState.settle]

theorem recovered_blamed (hu : unfinished row=true) (hb : Blamed σ s row) :
    σ.recovered s row={row with state := .failed,nextRetryAt := none} := by
  rw [recovered,recoverFailed_blamed hu hb]
  simp [recoverPending,recoverBusy,unfinished,hb.1.ne']

theorem recovered_waiting (hu : unfinished row=true)
    (ht : σ.hasTask s row.lastConfigVersion [.pending,.running,.failed]=true)
    (hb : ¬Blamed σ s row) : σ.recovered s row=row := by
  have hf : row.state≠.failed := by
    intro hf
    simp [unfinished,hf] at hu
  rw [recovered,recoverFailed_unblamed hb]
  simp [recoverPending,recoverBusy,ht,hf]

theorem unfinished_iff : unfinished row=true ↔ row.state=.preparing ∨ row.state=.queued := by
  simp [unfinished]

end rows

section restart

theorem lastQueued_mem (h : lastQueued s log=some (r,v)) : .queued s r v∈log := by
  obtain ⟨e,he,heq⟩ := exists_of_findSome?_eq_some h
  cases e with
  | queued serverID revision version =>
    simp only [SyncEvent.queuedFor] at heq
    split_ifs at heq with hid
    cases heq
    subst hid
    exact mem_reverse.mp he
  | _ => cases heq

theorem RowInv.queued_last (h : RowInv log s row) (hq : ¬NeverQueued log s row) :
    .queued s row.wantedRevision row.lastConfigVersion∈log := by
  obtain ⟨v,hv⟩ : ∃v,.queued s row.wantedRevision v∈log := by
    simpa [NeverQueued] using hq
  obtain ⟨q,hlast,hle,hge⟩ := h.latest _ v hv
  exact le_antisymm hge hle ▸ lastQueued_mem hlast

theorem RecoversWell.nothingStale (h : RecoversWell σ log) : NothingStale σ log := by
  refine ⟨fun s row hrow hf => ?_,fun s row hrow hp hnever => ?_⟩
  · by_cases hb : row.lastConfigVersion=0 ∧ row.busyError=true
    · exact .inr hb
    · refine .inl (h.failed s row ?_ hf)
      rw [lookup_recovered,hrow,Option.map_some,recovered_failed hf hb]
  by_contra ht
  have hu : unfinished row=true := unfinished_iff.mpr (.inl hp)
  obtain ⟨row',hrow',hsel⟩ := h.selectable s row hrow hp hnever
  rw [lookup_recovered,hrow,Option.map_some,Option.some.injEq] at hrow'
  subst hrow'
  specialize hsel 0
  by_cases hb : Blamed σ s row
  · rw [recovered_blamed hu hb] at hsel
    simp [ConfigurationSyncState.selectable,hb.1.ne'] at hsel
  · rw [recovered_waiting hu (by simpa using ht) hb] at hsel
    simp [ConfigurationSyncState.selectable,hp] at hsel

theorem NothingStale.recoversWell (h : NothingStale σ log) (hinv : SyncInv σ log) :
    RecoversWell σ log := by
  refine ⟨fun s row' hrow' hf => ?_,fun s row hrow hp hnever => ?_⟩
  · rw [lookup_recovered] at hrow'
    obtain ⟨row,hrow,rfl⟩ := Option.map_eq_some_iff.mp hrow'
    by_cases hu : unfinished row=true
    · by_cases ht : σ.hasTask s row.lastConfigVersion [.pending,.running,.failed]=true
      · by_cases hb : Blamed σ s row
        · -- the version that failed was queued for the wanted revision
          have hq : .queued s row.wantedRevision row.lastConfigVersion∈log := by
            rcases unfinished_iff.mp hu with hp | hq
            · refine (hinv.rows s row hrow).queued_last fun hnever => ?_
              rw [h.preparing s row hrow hp hnever] at ht
              cases ht
            · exact lastQueued_mem ((hinv.rows s row hrow).inFlight (by simp [inFlight,hq]))
          rw [recovered_blamed hu hb]
          exact ⟨row.lastConfigVersion,hq,.inr hb.2.1⟩
        · rw [recovered_waiting hu ht hb] at hf
          simp [unfinished,hf] at hu
      · rw [recovered_idle hu (by simpa using ht)] at hf
        cases hf
    · by_cases hf0 : row.state=.failed
      · by_cases hb : row.lastConfigVersion=0 ∧ row.busyError=true
        · rw [recovered_busy hf0 hb.1 hb.2] at hf
          cases hf
        · rw [recovered_failed hf0 hb]
          exact (h.failed s row hrow hf0).resolve_right hb
      · simp [recovered,recoverFailed,recoverPending,recoverBusy,hu,hf0] at hf
  · have hu : unfinished row=true := unfinished_iff.mpr (.inl hp)
    refine ⟨row.settle .pending,?_,fun now => ?_⟩
    · rw [lookup_recovered,hrow,Option.map_some,
        recovered_idle hu (h.preparing s row hrow hp hnever)]
    · simp [selectable,ConfigurationSyncState.settle]

end restart

/-- In every reachable state a restart recovers well exactly when nothing stale is there. -/
theorem restart_strands_nothing_iff (tasks : Table Int AgentTask) (flags : Table Int DeliveryFlags)
    (enrolled : List Int) (calls : List SyncCall) :
    RecoversWell (run syncStep (unmarked tasks flags enrolled) calls).1
      (run syncStep (unmarked tasks flags enrolled) calls).2 ↔
    NothingStale (run syncStep (unmarked tasks flags enrolled) calls).1
      (run syncStep (unmarked tasks flags enrolled) calls).2 :=
  ⟨fun h => h.nothingStale,fun h => h.recoversWell (syncInv_run tasks flags enrolled calls)⟩

def firstTask (status : TaskStatus) : Table Int AgentTask :=
  (∅ : Table Int AgentTask).insert 7 ⟨1,.applyDeployment,5,status,false⟩

def preparedAfter (status : TaskStatus) : List SyncCall :=
  [.markPending 1 [1],.claim 1 1,.queued 1 1 5 7 "d" true 0,.otherTables (firstTask status) ∅ [],
    .markPending 2 [1],.claim 1 2]

theorem restart_strands_preparation :
    ¬RecoversWell (run syncStep (unmarked ∅ ∅ []) (preparedAfter .failed)).1
      (run syncStep (unmarked ∅ ∅ []) (preparedAfter .failed)).2 ∧
    ¬RecoversWell (run syncStep (unmarked ∅ ∅ []) (preparedAfter .running)).1
      (run syncStep (unmarked ∅ ∅ []) (preparedAfter .running)).2 := by
  have hlog (status : TaskStatus) (hs : (run syncStep (unmarked ∅ ∅ []) (preparedAfter status)).2=
      [.queued 1 1 5]) : NeverQueued (run syncStep (unmarked ∅ ∅ []) (preparedAfter status)).2 1
        ⟨2,"routing:2",.preparing,5,7,0,none,"",[],some .revision,none⟩ := by
    intro version
    rw [hs]
    simp
  refine ⟨fun h => ?_,fun h => ?_⟩
  · have hstale := h.nothingStale.preparing 1 _ (by decide +kernel) rfl
      (hlog .failed (by decide +kernel))
    exact absurd hstale (by decide +kernel)
  have hstale := h.nothingStale.preparing 1 _ (by decide +kernel) rfl
    (hlog .running (by decide +kernel))
  exact absurd hstale (by decide +kernel)

end Oboard.Store
