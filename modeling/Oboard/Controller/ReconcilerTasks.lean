import Oboard.Controller.ConfigurationReconciler

namespace Oboard.Controller

open Store GoText List Table SyncStore Prod AgentTask

/-- If the server's row is queued, a task of its last version is still to finish. -/
def BackedAt (σ : SyncStore) (s : Int) : Prop := ∀row,σ.states.lookup s=some row →
  row.state=.queued → σ.hasTask s row.lastConfigVersion [.pending,.running]=true

def Backed (σ : SyncStore) : Prop := ∀s,BackedAt σ s

/-- A pass changes the rows of the servers it has claimed and only adds tasks of new versions. -/
structure Serves (claimed : List Int) (σ σ' : SyncStore) : Prop where
  rows : ∀s∉claimed,σ'.states.lookup s=σ.states.lookup s
  kept : ∀id task,σ.tasks.lookup id=some task → σ'.tasks.lookup id=some task
  fresh : ∀id task,σ'.tasks.lookup id=some task → σ.tasks.lookup id=some task ∨
    ∀id' task',σ.tasks.lookup id'=some task' →
      task'.configures task.serverID task.configVersion=false
  backed : ∀s∈claimed,BackedAt σ s → BackedAt σ' s

variable {task : AgentTask}

section serves

variable {σ σ' σ'' : SyncStore}

theorem hasOpenTask_iff : σ.hasTask s version [.pending,.running]=true ↔
    ∃id task,σ.tasks.lookup id=some task ∧ task.configures s version=true ∧
      task.status.isOpen=true := by
  have hopen status : [TaskStatus.pending,.running].contains status=status.isOpen := by
    cases status <;> rfl
  simp only [hasTask,any_eq_true,Prod.exists,mem_rows,hopen,Bool.and_eq_true]

theorem backed_iff_rows : Backed σ ↔ ∀r∈σ.states.rows,r.2.state=.queued →
    σ.hasTask r.1 r.2.lastConfigVersion [.pending,.running]=true := by
  simp only [Prod.forall,mem_rows]
  rfl

instance : Decidable (Backed σ) := decidable_of_iff _ backed_iff_rows.symm

theorem hasOpenTask_mono (hkept : ∀id task,σ.tasks.lookup id=some task →
    σ'.tasks.lookup id=some task) (h : σ.hasTask s version [.pending,.running]=true) :
    σ'.hasTask s version [.pending,.running]=true := by
  obtain ⟨id,task,ht,hc⟩ := hasOpenTask_iff.mp h
  exact hasOpenTask_iff.mpr ⟨id,task,hkept id task ht,hc⟩

theorem BackedAt.keep (h : BackedAt σ s) (hrow : σ'.states.lookup s=σ.states.lookup s)
    (hkept : ∀id task,σ.tasks.lookup id=some task →
    σ'.tasks.lookup id=some task) :
    BackedAt σ' s := by
  intro row hr hq
  exact hasOpenTask_mono hkept (h row (hrow ▸ hr) hq)

namespace Serves

theorem refl (claimed) (σ) : Serves claimed σ σ where
  rows := fun _ _ => rfl
  kept := fun _ _ h => h
  fresh := fun _ _ h => .inl h
  backed := fun _ _ h => h

section

variable (h : Serves claimed σ σ')
include h

theorem trans (h' : Serves claimed σ' σ'') : Serves claimed σ σ'' where
  rows := fun s hs => (h'.rows s hs).trans (h.rows s hs)
  kept := fun id task ht => h'.kept id task (h.kept id task ht)
  fresh := by
    intro id task ht
    rcases h'.fresh id task ht with ht|hnew
    · exact h.fresh id task ht
    · exact .inr fun id' task' ht' => hnew id' task' (h.kept id' task' ht')
  backed := fun s hs hb => h'.backed s hs (h.backed s hs hb)

theorem mono (hsub : claimed⊆more) : Serves more σ σ' where
  rows := fun s hs => h.rows s (fun hm => hs (hsub hm))
  kept := h.kept
  fresh := h.fresh
  backed := by
    intro s _ hb
    by_cases hs : s∈claimed
    · exact h.backed s hs hb
    · exact hb.keep (h.rows s hs) h.kept

theorem backedAt (hb : BackedAt σ s) : BackedAt σ' s := by
  by_cases hs : s∈claimed
  · exact h.backed s hs hb
  · exact hb.keep (h.rows s hs) h.kept

theorem old {id : Int} (ht : σ'.tasks.lookup id=some task) (hc : task.configures s version=true)
    (hknown : ∃id task,σ.tasks.lookup id=some task ∧ task.configures s version=true) :
    σ.tasks.lookup id=some task := by
  rcases h.fresh id task ht with ht|hnew
  · exact ht
  obtain ⟨id',task',ht',hc'⟩ := hknown
  simp only [configures,Bool.and_eq_true,decide_eq_true_eq] at hc
  have := hnew id' task' ht'
  rw [hc.1.1,hc.2,hc'] at this
  cases this

end

theorem of_rows (htasks : σ'.tasks=σ.tasks) (hrows : ∀s∉claimed,σ'.states.lookup s=σ.states.lookup s)
    (hb : ∀s∈claimed,BackedAt σ s → BackedAt σ' s) : Serves claimed σ σ' where
  rows := hrows
  kept := fun _ _ h => htasks ▸ h
  fresh := fun _ _ h => .inl (htasks ▸ h)
  backed := hb

theorem foldl (view : τ → SyncStore) (P : τ → Prop) (step : τ → α → τ) (l : List α)
    (hstep : ∀x a,a∈l → P x → Serves claimed (view x) (view (step x a)) ∧ P (step x a))
    (hx : P x) : Serves claimed (view x) (view (l.foldl step x)) ∧ P (l.foldl step x) := by
  induction l generalizing x with
  | nil => exact ⟨refl _ _,hx⟩
  | cons a l ih =>
    obtain ⟨hs,hp⟩ := hstep x a mem_cons_self hx
    obtain ⟨hrest,hend⟩ := ih (fun x a ha => hstep x a (mem_cons_of_mem _ ha)) hp
    exact ⟨hs.trans hrest,hend⟩

end Serves

end serves

variable {version : Int} {env : PassEnv}

section marks

theorem serves_updateRow (hs : s∈claimed)
    (hf : ∀row,p row=true → (f row).state≠.queued) : Serves claimed σ (σ.updateRow s p f) := by
  refine .of_rows rfl (fun s' hs' => ?_) (fun s' _ hb row hrow hq => ?_)
  · have hne : s'≠s := fun he => hs' (he ▸ hs)
    rw [updateRow,lookup_modify,if_neg hne]
  rw [updateRow,lookup_modify] at hrow
  split_ifs at hrow with he
  · subst he
    obtain ⟨old,hold,rfl⟩ := Option.map_eq_some_iff.mp hrow
    split_ifs at hq ⊢ with hp
    · exact absurd hq (hf old hp)
    · exact hb old hold hq
  · exact hb row hrow hq

theorem serves_queued (hs : s∈claimed) (hopen : σ.hasTask s version [.pending,.running]=true) :
    Serves claimed σ (σ.markConfigurationSyncQueued s revision version taskID digest prepared
      previous) := by
  have hstates : (σ.markConfigurationSyncQueued s revision version taskID digest prepared
      previous).tasks=σ.tasks := by
    unfold markConfigurationSyncQueued
    split_ifs <;> rfl
  have hlookup s' : (σ.markConfigurationSyncQueued s revision version taskID digest prepared
      previous).states.lookup s'=if s'=s then (σ.states.lookup s).map (fun row =>
        if queueable revision prepared previous row then {row.settle .queued with
          syncStrategy := some .task
          wantedDigest := trimSpace digest
          lastConfigVersion := version
          lastTaskID := taskID} else row) else σ.states.lookup s' := by
    rw [← lookup_modify]
    unfold markConfigurationSyncQueued
    split_ifs <;> rfl
  refine .of_rows hstates (fun s' hs' => ?_) (fun s' _ hb row hrow hq => ?_)
  · have hne : s'≠s := fun he => hs' (he ▸ hs)
    rw [hlookup,if_neg hne]
  rw [hlookup] at hrow
  refine hasOpenTask_mono (fun _ _ h => hstates ▸ h) ?_
  split_ifs at hrow with he
  · subst he
    obtain ⟨old,hold,rfl⟩ := Option.map_eq_some_iff.mp hrow
    split_ifs at hq ⊢ with hp
    · exact hopen
    · exact hb old hold hq
  · exact hb row hrow hq

theorem serves_logged (h : ∀σ',r=.ok σ' → Serves claimed σ σ') : Serves claimed σ (logged σ r) := by
  cases r with
  | error e => exact .refl _ _
  | ok σ' => exact h σ' rfl

theorem serves_waiting (hs : s∈claimed) :
    Serves claimed σ (logged σ (σ.markConfigurationSyncWaiting s revision retryAt reason
      problems)) := by
  refine serves_logged fun σ' h => ?_
  unfold markConfigurationSyncWaiting at h
  split at h
  · cases h
  · cases h
    exact serves_updateRow hs fun _ _ => nofun

theorem serves_preparationFailure (hs : s∈claimed) :
    Serves claimed σ (logged σ (σ.markConfigurationSyncPreparationFailure s revision text problems
      now)) := by
  refine serves_logged fun σ' h => ?_
  unfold markConfigurationSyncPreparationFailure at h
  split at h
  · cases h
  · cases h
  · cases h
    exact serves_updateRow hs fun _ _ => nofun

theorem serves_noop (hs : state.1∈claimed) : Serves claimed σ (markNoop env σ state) := by
  refine serves_logged fun σ' h => ?_
  unfold markConfigurationSyncNoop at h
  split_ifs at h
  cases h
  exact serves_updateRow hs fun _ _ => nofun

theorem serves_prepareError (hs : state.1∈claimed) :
    Serves claimed σ (recordConfigurationPrepareError now σ state e) := by
  unfold recordConfigurationPrepareError
  split_ifs
  · exact serves_waiting hs
  · exact serves_preparationFailure hs

end marks

section tasks

variable {σ σ' : SyncStore} {s version taskID : Int}

theorem le_max_getD {l : List Int} (h : v∈l) : v≤l.max?.getD 0 := by
  obtain ⟨m,hm⟩ := Option.isSome_iff_exists.mp (isSome_max?_of_mem h)
  rw [hm]
  exact (max?_eq_some_iff.mp hm).2 v h

theorem lookup_nextTaskID (σ : SyncStore) : σ.tasks.lookup (nextTaskID σ)=none := by
  by_contra hne
  obtain ⟨task,ht⟩ := Option.ne_none_iff_exists'.mp hne
  have hmem := mem_map_of_mem (f := fst) (mem_rows.mpr ht)
  have := le_max_getD hmem
  unfold nextTaskID at this
  omega

theorem unused_of_next (h : nextConfigVersion setting σ candidate=.ok version) {id : Int}
    (ht : σ.tasks.lookup id=some task) : task.configures s version=false := by
  by_contra hc
  simp only [configures,Bool.not_eq_false,Bool.and_eq_true,decide_eq_true_eq] at hc
  obtain ⟨⟨-,htype⟩,hversion⟩ := hc
  unfold nextConfigVersion at h
  dsimp only at h
  split_ifs at h with hpos
  have hv := Except.ok.inj h
  have hmem : version∈guardedVersions σ (fun task => 0 < task.configVersion) := by
    refine mem_map.mpr ⟨(id,task),mem_filter.mpr ⟨mem_rows.mpr ht,?_⟩,hversion⟩
    simp [versionGuardedTaskType,htype]
    omega
  obtain ⟨m,hm⟩ := Option.isSome_iff_exists.mp (isSome_max?_of_mem hmem)
  have hle := (max?_eq_some_iff.mp hm).2 version hmem
  rw [hm] at hv
  cases setting <;> simp at hv <;> omega

/-- Tasks of one version are added and nothing else happens. -/
structure Adds (version : Int) (σ σ' : SyncStore) : Prop where
  states : σ'.states=σ.states
  kept : ∀id task,σ.tasks.lookup id=some task → σ'.tasks.lookup id=some task
  added : ∀id task,σ'.tasks.lookup id=some task →
    σ.tasks.lookup id=some task ∨ task.configVersion=version

theorem Adds.trans (h : Adds version σ σ') (h' : Adds version σ' σ'') : Adds version σ σ'' where
  states := h'.states.trans h.states
  kept := fun id task ht => h'.kept id task (h.kept id task ht)
  added := fun id task ht => (h'.added id task ht).elim (h.added id task) .inr

theorem Adds.serves (h : Adds version σ σ')
    (hunused : ∀id task,σ.tasks.lookup id=some task → ∀s,task.configures s version=false) :
    Serves claimed σ σ' where
  rows := fun s _ => by rw [h.states]
  kept := h.kept
  fresh := by
    intro id task ht
    rcases h.added id task ht with ht|rfl
    · exact .inl ht
    · exact .inr fun id' task' ht' => hunused id' task' ht' task.serverID
  backed := fun _ _ hb => hb.keep (by rw [h.states]) h.kept

theorem createAgentTask_adds (h : createAgentTask σ deleting s version force=.ok (σ',taskID)) :
    Adds version σ σ' ∧ σ'.hasTask s version [.pending,.running]=true := by
  unfold createAgentTask at h
  split_ifs at h
  obtain ⟨rfl,rfl⟩ := mk.inj (Except.ok.inj h)
  refine ⟨⟨rfl,fun id task ht => ?_,fun id task ht => ?_⟩,?_⟩
  · rw [lookup_insert_eq,if_neg]
    · exact ht
    rintro rfl
    rw [lookup_nextTaskID] at ht
    cases ht
  · rw [lookup_insert_eq] at ht
    split_ifs at ht
    · cases ht
      exact .inr rfl
    · exact .inl ht
  · refine hasOpenTask_iff.mpr ⟨_,_,AList.lookup_insert _,?_,rfl⟩
    simp [configures]

theorem queueAll_adds (d) (version) (ids) (σ) : Adds version σ (queueAll d version σ ids).1 ∧
    ∀tasks,(queueAll d version σ ids).2=.ok tasks → ∀e∈tasks,
      (queueAll d version σ ids).1.hasTask e.1 version [.pending,.running]=true := by
  induction ids generalizing σ with
  | nil =>
    refine ⟨⟨rfl,fun _ _ h => h,fun _ _ h => .inl h⟩,fun tasks h => ?_⟩
    cases h
    simp
  | cons id ids ih =>
    rw [queueAll]
    split
    · exact ⟨⟨rfl,fun _ _ h => h,fun _ _ h => .inl h⟩,nofun⟩
    next σ' taskID hcreate =>
    obtain ⟨hadds,hopen⟩ := createAgentTask_adds hcreate
    obtain ⟨hrest,htasks⟩ := ih σ'
    refine ⟨hadds.trans hrest,fun tasks h e he => ?_⟩
    cases hr : (queueAll d version σ' ids).2 with
    | error e => simp [hr,Except.map] at h
    | ok rest =>
      simp only [hr,Except.map,Except.ok.injEq] at h
      subst h
      rcases mem_cons.mp he with rfl|he
      · exact hasOpenTask_mono hrest.kept hopen
      · exact htasks rest hr e he

end tasks

variable {changed : List Int}

section pass

theorem deployConfigurationScoped_serves (d) (σ)
    (scope) : Serves claimed σ.sync (deployConfigurationScoped d σ scope).store.sync ∧
      ∀version tasks,(deployConfigurationScoped d σ scope).result=.ok (version,tasks) →
        ∀e∈tasks,(deployConfigurationScoped d σ scope).store.sync.hasTask e.1 version
          [.pending,.running]=true := by
  unfold deployConfigurationScoped
  split
  · exact ⟨.refl _ _,nofun⟩
  dsimp only
  split
  · exact ⟨.refl _ _,nofun⟩
  split
  · exact ⟨.refl _ _,nofun⟩
  next version hversion =>
  split
  · exact ⟨.refl _ _,nofun⟩
  next prepared _ =>
  obtain ⟨hadds,htasks⟩ := queueAll_adds d version prepared σ.sync
  refine ⟨hadds.serves fun _ _ ht s => unused_of_next hversion ht,fun v tasks h => ?_⟩
  cases hr : (queueAll d version σ.sync prepared).2 with
  | error e => simp [hr,Except.map] at h
  | ok rest =>
    simp only [hr,Except.map,Except.ok.injEq,Prod.mk.injEq] at h
    obtain ⟨rfl,rfl⟩ := h
    exact htasks rest hr

theorem markDeployed_serves {tasks : List (Int×Int)} (hs : state.1∈claimed)
    (htasks : ∀e∈tasks,σ.hasTask e.1 version [.pending,.running]=true) :
    Serves claimed σ (markDeployed env prepared version tasks σ state) := by
  unfold markDeployed
  split
  · exact serves_waiting hs
  next taskID htask => exact serves_queued hs (htasks (state.1,taskID) (mem_of_lookup htask))

variable {states : List ClaimedState}

section

variable (hstates : states.map fst⊆claimed)
include hstates

theorem settleDeployment_serves (htasks : ∀version tasks,d.result=.ok (version,tasks) →
      ∀e∈tasks,d.store.sync.hasTask e.1 version [.pending,.running]=true) :
    Serves claimed d.store.sync (settleDeployment env prepared states d).sync := by
  have hmem state
      (h : state∈states.filter (fun state => d.scope.contains state.1)) : state.1∈claimed :=
    hstates (mem_map_of_mem (mem_filter.mp h).1)
  unfold settleDeployment
  cases hr : d.result with
  | error e =>
    exact (Serves.foldl id (fun _ => True) _ _
      (fun _ a ha _ => ⟨serves_prepareError (hmem a ha),trivial⟩) trivial).1
  | ok r =>
    obtain ⟨version,tasks⟩ := r
    have hstep σ a
        ha
        h :
        Serves claimed σ (markDeployed env prepared version tasks σ a) :=
      markDeployed_serves (hmem a ha) h
    exact (Serves.foldl id (fun σ => ∀e∈tasks,σ.hasTask e.1 version [.pending,.running]=true) _ _
      (fun σ a ha h => ⟨hstep σ a ha h,fun e he => hasOpenTask_mono (hstep σ a ha h).kept (h e he)⟩)
      (htasks version tasks hr)).1

theorem around_serves {σ : ConfigurationStore} : Serves claimed σ.sync
      (reconcileConfigurationAroundDuplicateDirectPaths env dup σ states).sync := by
  have hmarks step
      (hstep : ∀σ a,a.1∈claimed → Serves claimed σ (step σ a)) l
      (hl : l⊆states) σ : Serves claimed σ (l.foldl step σ) :=
    (Serves.foldl id (fun _ => True) _ _ (fun σ a ha _ =>
      ⟨hstep σ a (hstates (mem_map_of_mem (hl ha))),trivial⟩) trivial).1
  unfold reconcileConfigurationAroundDuplicateDirectPaths
  simp only [partition_eq_filter_filter]
  generalize haffected : states.filter (fun state => dup.affected.contains state.1)=affected
  generalize hothers : states.filter (not∘fun state => dup.affected.contains state.1)=others
  generalize hblocked : others.filter (fun state => dup.blocks state.1)=blocked
  have hfailed : Serves claimed σ.sync
      (blocked.foldl (failBlocked env) (affected.foldl (failAffected env dup) σ.sync)) := by
    refine (hmarks _ (fun σ a ha => serves_preparationFailure ha) _ ?_ _).trans
      (hmarks _ (fun σ a ha => serves_preparationFailure ha) _ ?_ _)
    · exact haffected ▸ filter_subset_self _
    · subst hblocked hothers
      exact fun a ha => (mem_filter.mp (mem_filter.mp ha).1).1
  split_ifs
  · exact hfailed
  · obtain ⟨hdeploy,htasks⟩ := deployConfigurationScoped_serves dup.deployment _ _
    exact (hfailed.trans hdeploy).trans (settleDeployment_serves hstates htasks)

theorem deployChanged_serves {σ : ConfigurationStore} :
    Serves claimed (supersedeStale changed σ.sync) (deployChanged env changed states σ).sync := by
  obtain ⟨hdeploy,htasks⟩ := deployConfigurationScoped_serves env.deployment
    {σ with sync := supersedeStale changed σ.sync} changed
  unfold deployChanged
  dsimp only
  split
  · exact hdeploy.trans (around_serves hstates)
  · exact hdeploy.trans (settleDeployment_serves hstates htasks)

end

theorem latest_open {id : Int} (h : latestTaskByServerType σ s .applyDeployment=some (id,task))
    (hopen : task.status.isOpen=true) :
    σ.hasTask s task.configVersion [.pending,.running]=true := by
  obtain ⟨ht,hp⟩ := mem_filter.mp (newest_mem h)
  simp only [Bool.and_eq_true,decide_eq_true_eq] at hp
  exact hasOpenTask_iff.mpr ⟨id,task,mem_rows.mp ht,by simp [configures,hp],hopen⟩

theorem verdict_inFlight {compare : Int → Projection} (h : verdict compare σ state=.inFlight) :
    ∃id task,latestTaskByServerType σ state.1 .applyDeployment=some (id,task) ∧
      task.status.isOpen=true := by
  unfold verdict at h
  dsimp only at h
  split at h
  · cases h
  split at h
  · cases h
  next id task hlatest =>
  refine ⟨id,task,hlatest,?_⟩
  split at h
  · cases h
  split at h
  · next hstatus => rw [hstatus]; rfl
  · next hstatus => rw [hstatus]; rfl
  · cases h
  all_goals split_ifs at h

theorem inFlight_serves (hs : state.1∈claimed)
    (h : ∃id task,latestTaskByServerType σ state.1 .applyDeployment=some (id,task) ∧
      task.status.isOpen=true) :
    Serves claimed σ (markConfigurationSyncInFlight env σ state) := by
  obtain ⟨id,task,hlatest,hopen⟩ := h
  unfold markConfigurationSyncInFlight
  rw [hlatest]
  exact serves_queued hs (latest_open hlatest hopen)

theorem requeue_serves {σ : ConfigurationStore} (hs : state.1∈claimed) :
    Serves claimed σ.sync (requeueUnchangedDeployment env σ state).1.sync := by
  unfold requeueUnchangedDeployment attach
  split
  · exact .refl _ _
  next lastID last hlatest =>
  split_ifs with hopen
  · dsimp only
    exact serves_queued hs (latest_open hlatest hopen)
  split
  · exact .refl _ _
  next version hversion =>
  dsimp only
  split
  · exact .refl _ _
  next sync taskID hcreate =>
  obtain ⟨hadds,hnew⟩ := createAgentTask_adds hcreate
  have hserves : Serves claimed σ.sync sync :=
    hadds.serves fun _ _ ht s => unused_of_next hversion ht
  split_ifs
  · exact hserves
  · dsimp only
    exact hserves.trans (serves_queued hs hnew)

theorem retry_serves {σ : ConfigurationStore} (hs : state.1∈claimed) :
    Serves claimed σ.sync (retryUnchanged env σ state).sync := by
  have h : Serves claimed σ.sync (requeueUnchangedDeployment env σ state).1.sync :=
    requeue_serves hs
  unfold retryUnchanged
  split
  · next hr =>
    rw [hr] at h
    exact h
  next hr =>
  rw [hr] at h
  exact h.trans (serves_prepareError hs)

theorem tasks_inFlight : (markConfigurationSyncInFlight env σ state).tasks=σ.tasks := by
  unfold markConfigurationSyncInFlight attach markConfigurationSyncQueued
  split
  · rfl
  · split_ifs <;> rfl

theorem tasks_noop : (markNoop env σ state).tasks=σ.tasks := by
  unfold markNoop markConfigurationSyncNoop
  split_ifs <;> rfl

theorem settleUnchanged_serves {σ : ConfigurationStore}
    (hnoop : plan.noop.map fst⊆claimed) (hkeep : plan.keepFailed.map fst⊆claimed)
    (hflight : plan.inFlight.map fst⊆claimed) (hretry : plan.retrySame.map fst⊆claimed)
    (hopen : ∀state∈plan.inFlight,∃id task,
      latestTaskByServerType σ.sync state.1 .applyDeployment=some (id,task) ∧
        task.status.isOpen=true) :
    Serves claimed σ.sync (settleUnchanged env plan σ).sync := by
  have hmem {l : List ClaimedState} (hl : l.map fst⊆claimed) {a : ClaimedState} ha :
      a.1∈claimed := hl (mem_map_of_mem ha)
  obtain ⟨h1,t1⟩ := Serves.foldl id (·.tasks=σ.sync.tasks) (markNoop env) _
    (fun x a ha ht => ⟨serves_noop (hmem hnoop ha),tasks_noop.trans ht⟩) rfl
  obtain ⟨h2,t2⟩ := Serves.foldl id (·.tasks=σ.sync.tasks) (keepFailure env) _
    (fun x a ha ht => ⟨serves_updateRow (hmem hkeep ha) fun _ _ => nofun,ht⟩) t1
  obtain ⟨h3,-⟩ := Serves.foldl id (·.tasks=σ.sync.tasks)
    (markConfigurationSyncInFlight env) _ (fun x a ha ht => ⟨inFlight_serves (hmem hflight ha) (by
      unfold latestTaskByServerType at hopen ⊢
      rw [id,ht]
      exact hopen a ha),tasks_inFlight.trans ht⟩) t2
  have h4 x : Serves claimed x.sync (plan.retrySame.foldl (retryUnchanged env) x).sync :=
    (Serves.foldl (fun x : ConfigurationStore => x.sync) (fun _ => True) (retryUnchanged env) _
      (fun x a ha _ => ⟨retry_serves (hmem hretry ha),trivial⟩) trivial).1
  exact ((h1.trans h2).trans h3).trans (h4 {σ with sync := _})

end pass

section claims

variable {σ : SyncStore}

theorem lookup_claim (σ : SyncStore) (serverID) (revision) (s) :
    (σ.claimConfigurationSync serverID revision).1.states.lookup s=
      if s=serverID then (σ.states.lookup serverID).map (fun row =>
        if claimable revision row then {row with state := .preparing} else row)
      else σ.states.lookup s :=
  lookup_modify _ _ _ _

theorem claim_row {serverID : Int}
    (h : (σ.claimConfigurationSync serverID revision).1.states.lookup s=some row) :
    σ.states.lookup s=some row ∨ row.state=.preparing := by
  rw [lookup_claim] at h
  split_ifs at h with he
  · obtain ⟨old,hold,rfl⟩ := Option.map_eq_some_iff.mp h
    split_ifs
    · exact .inr rfl
    · exact .inl (he ▸ hold)
  · exact .inl h

variable {states : List ClaimedState}

theorem claimAll_row (h : (claimAll σ states).1.states.lookup s=some row) :
    σ.states.lookup s=some row ∨ row.state=.preparing := by
  induction states generalizing σ with
  | nil => exact .inl h
  | cons state rest ih => exact (ih h).elim claim_row .inr

theorem claimAll_claimed (hs : s∈(claimAll σ states).2.map fst)
    (h : (claimAll σ states).1.states.lookup s=some row) : row.state=.preparing := by
  induction states generalizing σ with
  | nil => cases hs
  | cons state rest ih =>
    simp only [claimAll] at hs h
    split_ifs at hs with hok
    · rcases mem_cons.mp hs with rfl|hs
      · refine (claimAll_row h).elim (fun hrow => ?_) id
        rw [lookup_claim,if_pos rfl] at hrow
        obtain ⟨old,hold,rfl⟩ := Option.map_eq_some_iff.mp hrow
        have hclaim : claimable state.2.wantedRevision old=true := by
          simpa [claimConfigurationSync,reaches,hold] using hok
        rw [if_pos hclaim]
      · exact ih hs h
    · exact ih hs h

theorem claim_serves (σ : SyncStore) (serverID) (revision)
    (h : (σ.claimConfigurationSync serverID revision).2=true → serverID∈claimed) :
    Serves claimed σ (σ.claimConfigurationSync serverID revision).1 := by
  refine .of_rows rfl (fun s hs => ?_) (fun s _ hb row hrow hq => ?_)
  · rw [lookup_claim]
    split_ifs with he
    · subst he
      cases hrow : σ.states.lookup s with
      | none => rfl
      | some row =>
        rw [Option.map_some,if_neg]
        exact fun hc => hs (h (by simp [claimConfigurationSync,reaches,hrow,hc]))
    · rfl
  · rcases claim_row hrow with hrow|hp
    · exact hb row hrow hq
    · rw [hp] at hq
      cases hq

theorem claimAll_serves (states) :
    Serves ((claimAll σ states).2.map fst) σ (claimAll σ states).1 := by
  induction states generalizing σ with
  | nil => exact .refl _ _
  | cons state rest ih =>
    simp only [claimAll]
    refine (claim_serves σ _ _ fun hok => ?_).trans (ih.mono fun s hs => ?_)
    · rw [if_pos hok]
      exact mem_cons_self
    split_ifs
    · exact mem_cons_of_mem _ hs
    · exact hs

end claims

section drain

theorem pending_backedAt (h : BackedAt σ s) (serverID) (revision) :
    BackedAt (σ.markConfigurationSyncPendingTx serverID revision) s := by
  unfold markConfigurationSyncPendingTx insertOrReopen
  split
  · intro row hrow hq
    rcases lookup_insert_cases hrow with ⟨-,rfl⟩|hrow
    · cases hq
    · exact h row hrow hq
  have hserves : Serves [serverID] σ (σ.updateRow serverID (·.wantedRevision<revision)
      (fun row => {row.reopen revision with syncStrategy := none})) :=
    serves_updateRow mem_cons_self fun _ _ => nofun
  exact hserves.backedAt h

theorem drainIntents_backedAt (stamp) (intents) (σ) (remaining) (h : BackedAt σ.sync s) :
    BackedAt (IntentStore.drainIntents stamp σ remaining intents).1.sync s := by
  induction intents generalizing σ remaining with
  | nil => exact h
  | cons intent rest ih =>
    obtain ⟨key,row⟩ := intent
    rw [IntentStore.drainIntents]
    split_ifs
    · exact h
    refine ih _ _ ?_
    change BackedAt ((σ.page remaining key row).ids.foldl _ σ.sync) s
    generalize (σ.page remaining key row).ids=ids
    generalize σ.sync=sync at h
    induction ids generalizing sync with
    | nil => exact h
    | cons id ids ih => exact ih _ (pending_backedAt h id _)

end drain

section supersede

variable {σ : SyncStore}

/-- What the loop over the changed servers makes of a task. -/
def superseded (changed : List Int) (task : AgentTask) : AgentTask :=
  if changed.contains task.serverID && task.taskType=.applyDeployment && task.status=.pending then
    {task with status := .failed} else task

theorem supersedeStale_states (changed) (σ) : (supersedeStale changed σ).states=σ.states := by
  induction changed generalizing σ with
  | nil => rfl
  | cons id changed ih => exact ih _

theorem lookup_supersedeStale (changed) (σ) (id) :
    (supersedeStale changed σ).tasks.lookup id=(σ.tasks.lookup id).map (superseded changed) := by
  induction changed generalizing σ with
  | nil =>
    change σ.tasks.lookup id=_
    cases h : σ.tasks.lookup id <;> simp [superseded]
  | cons s changed ih =>
    rw [supersedeStale,foldl_cons,← supersedeStale,ih,supersedePendingTasksByServerType,
      lookup_mapRows,Option.map_map]
    congr 1
    funext task
    simp only [superseded,Function.comp]
    grind

/-- A task of the version that the loop leaves to finish. -/
def Survives (σ : SyncStore) (s version : Int) : Prop :=
  ∃id task,σ.tasks.lookup id=some task ∧ task.configures s version=true ∧
    (task.status=.running ∨ (task.status=.pending ∧ task.taskType=.applyCoreConfig))

theorem superseded_configures :
    (superseded changed task).configures s version=task.configures s version := by
  unfold superseded
  split_ifs <;> rfl

theorem superseded_open
    (hc : task.configures s version=true) : (superseded changed task).status.isOpen=true ↔
      if s∈changed then task.status=.running ∨ (task.status=.pending ∧ task.taskType=.applyCoreConfig)
      else task.status.isOpen=true := by
  simp only [configures,Bool.and_eq_true,decide_eq_true_eq] at hc
  obtain ⟨⟨rfl,htype⟩,-⟩ := hc
  unfold superseded
  by_cases hs : task.serverID∈changed
  · cases hstatus : task.status <;> cases ht : task.taskType <;>
      simp_all [TaskStatus.isOpen]
  · simp [hs]

theorem hasOpenTask_supersedeStale :
    (supersedeStale changed σ).hasTask s version [.pending,.running]=true ↔
      if s∈changed then Survives σ s version
      else σ.hasTask s version [.pending,.running]=true := by
  have hleft : (supersedeStale changed σ).hasTask s version [.pending,.running]=true ↔
      ∃id task,σ.tasks.lookup id=some task ∧ task.configures s version=true ∧
        (superseded changed task).status.isOpen=true := by
    simp only [hasOpenTask_iff,lookup_supersedeStale,Option.map_eq_some_iff]
    constructor
    · rintro ⟨id,_,⟨task,ht,rfl⟩,hc,ho⟩
      exact ⟨id,task,ht,superseded_configures ▸ hc,ho⟩
    · rintro ⟨id,task,ht,hc,ho⟩
      exact ⟨id,_,⟨task,ht,rfl⟩,superseded_configures.trans hc,ho⟩
  rw [hleft,hasOpenTask_iff]
  split_ifs with hs
  · refine exists_congr fun id => exists_congr fun task => and_congr_right fun _ =>
      and_congr_right fun hc => ?_
    rw [superseded_open hc,if_pos hs]
  refine exists_congr fun id => exists_congr fun task => and_congr_right fun _ =>
    and_congr_right fun hc => ?_
  rw [superseded_open hc,if_neg hs]

end supersede

section main

variable {σ σ' : SyncStore} {s version : Int}

theorem Serves.open_iff (h : Serves claimed σ σ')
    (hknown : ∃id task,σ.tasks.lookup id=some task ∧ task.configures s version=true) :
    σ'.hasTask s version [.pending,.running]=true ↔
      σ.hasTask s version [.pending,.running]=true := by
  refine ⟨fun hopen => ?_,hasOpenTask_mono h.kept⟩
  obtain ⟨id,task,ht,hc,ho⟩ := hasOpenTask_iff.mp hopen
  exact hasOpenTask_iff.mpr ⟨id,task,h.old ht hc hknown,hc,ho⟩

theorem mem_others {claimed : List ClaimedState} :
    (filterSyncStatesNotIn (claimed.filter p) changed).map fst⊆
      (claimed.map fst).filter (fun id => !changed.contains id) := by
  intro id hid
  obtain ⟨state,hstate,rfl⟩ := mem_map.mp hid
  obtain ⟨hmem,hchanged⟩ := mem_filter.mp hstate
  exact mem_filter.mpr ⟨mem_map_of_mem (mem_filter.mp hmem).1,hchanged⟩

theorem settle_plan_serves :
    Serves ((c.claimed.map fst).filter (fun id => !(planOf env c).changed.contains id))
      c.store.sync (settleUnchanged env (planOf env c) c.store).sync := by
  refine settleUnchanged_serves mem_others mem_others mem_others mem_others fun state hstate => ?_
  have hverdict := (mem_filter.mp (mem_filter.mp hstate).1).2
  exact verdict_inFlight (by simpa using hverdict)

/-- The group brings no queued server into the deployment whose task is only waiting. -/
def GroupKeepsTasks (env : PassEnv) (σ : ConfigurationStore) : Prop :=
  let c := claims env σ
  ∀s∈(planOf env c).changed,s∉c.claimed.map fst → ∀row,
    c.store.sync.states.lookup s=some row → row.state=.queued →
      Survives c.store.sync s row.lastConfigVersion

theorem Serves.survives_iff (h : Serves claimed σ σ')
    (hknown : ∃id task,σ.tasks.lookup id=some task ∧ task.configures s version=true) :
    Survives σ' s version ↔ Survives σ s version := by
  constructor
  · rintro ⟨id,task,ht,hc,hstatus⟩
    exact ⟨id,task,h.old ht hc hknown,hc,hstatus⟩
  · rintro ⟨id,task,ht,hc,hstatus⟩
    exact ⟨id,task,h.kept id task ht,hc,hstatus⟩

theorem known_of_queued (h : BackedAt σ s)
    (hrow : σ.states.lookup s=some row) (hq : row.state=.queued) :
    ∃id task,σ.tasks.lookup id=some task ∧ task.configures s row.lastConfigVersion=true := by
  obtain ⟨id,task,ht,hc,-⟩ := hasOpenTask_iff.mp (h row hrow hq)
  exact ⟨id,task,ht,hc⟩

theorem deployChanged_backed_iff {c : Claims} {σ : ConfigurationStore} (hc : Backed c.store.sync)
    (hclaimed : ∀s∈c.claimed.map fst,∀row,c.store.sync.states.lookup s=some row → row.state≠.queued)
    (hsettle : Serves ((c.claimed.map fst).filter (fun id => !changed.contains id))
      c.store.sync σ.sync) :
    Backed (deployChanged env changed c.claimed σ).sync ↔
      ∀s∈changed,s∉c.claimed.map fst → ∀row,c.store.sync.states.lookup s=some row →
        row.state=.queued → Survives c.store.sync s row.lastConfigVersion := by
  have hdeploy : Serves (c.claimed.map fst) (supersedeStale changed σ.sync)
      (deployChanged env changed c.claimed σ).sync := deployChanged_serves (List.Subset.refl _)
  have hrow s (hs : s∈changed) :
      (supersedeStale changed σ.sync).states.lookup s=c.store.sync.states.lookup s := by
    rw [supersedeStale_states]
    exact hsettle.rows s fun hmem => by simp [hs] at hmem
  constructor
  · intro hb s hs hunclaimed row hr hq
    have hknown := known_of_queued (hc s) hr hq
    have hstale : ∃id task,(supersedeStale changed σ.sync).tasks.lookup id=some task ∧
        task.configures s row.lastConfigVersion=true := by
      obtain ⟨id,task,ht,hconf⟩ := hknown
      exact ⟨id,_,by rw [lookup_supersedeStale,hsettle.kept id task ht]; rfl,
        superseded_configures.trans hconf⟩
    have hopen := hb s row (by rw [hdeploy.rows s hunclaimed,hrow s hs,hr]) hq
    rw [hdeploy.open_iff hstale,hasOpenTask_supersedeStale,if_pos hs] at hopen
    exact (hsettle.survives_iff hknown).mp hopen
  · intro hkeeps s
    refine hdeploy.backedAt fun row hr hq => hasOpenTask_supersedeStale.mpr ?_
    split_ifs with hs
    · rw [hrow s hs] at hr
      have hunclaimed : s∉c.claimed.map fst := fun hmem => hclaimed s hmem row hr hq
      exact (hsettle.survives_iff (known_of_queued (hc s) hr hq)).mpr
        (hkeeps s hs hunclaimed row hr hq)
    · exact hsettle.backedAt (hc s) row (supersedeStale_states changed σ.sync ▸ hr) hq

/-- A pass keeps a task behind every queued row exactly where the group brings in no queued server
with pending tasks only. -/
theorem queued_rows_keep_tasks_iff (env : PassEnv) (σ : ConfigurationStore)
    (h : Backed σ.sync) : Backed (reconcileConfiguration env σ).sync ↔ GroupKeepsTasks env σ := by
  have hc : Backed (claims env σ).store.sync :=
    fun s => (claimAll_serves _).backedAt (drainIntents_backedAt env.stamp _ _ _ (h s))
  unfold reconcileConfiguration GroupKeepsTasks
  dsimp only
  split_ifs with hnone hunchanged
  · refine ⟨fun _ s hs => ?_,fun _ => hc⟩
    simp [planOf,automaticProjectionChanges,expandGroup,hnone] at hs
  · refine ⟨fun _ s hs => ?_,fun _ s => settle_plan_serves.backedAt (hc s)⟩
    rw [hunchanged] at hs
    cases hs
  · refine deployChanged_backed_iff hc (fun s hs row hr => ?_) settle_plan_serves
    rw [claimAll_claimed hs hr]
    exact nofun

end main

def groupStore (status : TaskStatus) : ConfigurationStore where
  sync := {
    states := (AList.singleton 1 {wantedRevision := 3,wantedDigest := ""}).insert 2
      {wantedRevision := 2,wantedDigest := "",state := .queued,lastConfigVersion := 5,lastTaskID := 1}
    tasks := AList.singleton 1 ⟨2,.applyDeployment,5,status,false⟩
    enrolled := [1,2]}

def groupPass : PassEnv where
  stamp := ""
  now := 0
  compare := fun _ => ⟨true,true,false⟩
  grouped := [1,2]
  expectedDigest := fun _ => ""
  taskDigest := fun _ => ""
  failureMessage := fun _ => ""
  binds := fun _ => true
  retryCandidate := fun _ => 9
  deployment := {grouped := [1,2],servers := [1,2],generate := fun _ => .ready,candidate := 9}

/-- The agent already runs the task of the second server, which is left to finish. -/
theorem running_task_keeps_row : Backed (groupStore .running).sync ∧
    Backed (reconcileConfiguration groupPass (groupStore .running)).sync := by
  refine ⟨by decide,(queued_rows_keep_tasks_iff groupPass (groupStore .running) (by decide)).mpr ?_⟩
  intro s hs hunclaimed row hrow _
  have hchanged : (planOf groupPass (claims groupPass (groupStore .running))).changed=[1,1,2] := by
    decide +kernel
  have hclaimed : (claims groupPass (groupStore .running)).claimed.map fst=[1] := by
    decide +kernel
  obtain rfl : s=2 := by
    rw [hchanged] at hs
    rw [hclaimed] at hunclaimed
    simp at hs hunclaimed
    omega
  have hversion : ((claims groupPass (groupStore .running)).store.sync.states.lookup 2).map
      (·.lastConfigVersion)=some 5 := by decide +kernel
  rw [hrow] at hversion
  rw [show row.lastConfigVersion=5 from Option.some.inj hversion]
  exact ⟨1,⟨2,.applyDeployment,5,.running,false⟩,by decide +kernel,by decide,.inl rfl⟩

/-- The second server stays queued for a task that the pass has cancelled. -/
theorem cancelled_task_orphans_row : Backed (groupStore .pending).sync ∧
    ¬Backed (reconcileConfiguration groupPass (groupStore .pending)).sync := by
  decide +kernel

end Oboard.Controller
