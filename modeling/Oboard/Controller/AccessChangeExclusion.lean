import Oboard.Controller.AccessChangeWorker

namespace Oboard.Controller

open GoText Oboard.Core Store Runs AccessSystem List Table

/-- Nothing takes effect after its cancellation, nor for a user of a cancelled assignment, and
nothing is finalized before its activation or with a finalize task that has not succeeded. -/
def Allowed (log : List AccessEvent) : AccessEvent → Prop
  | .effect id users => ∀c us,.cancelled c us∈log → c≠id ∧ ∀u∈us,u∉users
  | .finalized id unfinished => .activated id∈log ∧ unfinished=[]
  | _ => True

def PastActivation (v : AccessChange) : Prop :=
  v.status=.finalizing ∨ v.status=.finalized ∨ v.activatedAt.isSome=true

/-- What the stored rows remember of the history. -/
structure ChangesInv (changes : Table Int AccessChange) (nextID : Int) (log : List AccessEvent) :
    Prop where
  fresh : ∀id v,changes.lookup id=some v → id<nextID
  cancelled : ∀id us,.cancelled id us∈log → id<nextID ∧
    (∀v,changes.lookup id=some v → v.status=.cancelled) ∧
    (us≠[] → ∃v,changes.lookup id=some v ∧ v.boundUsers=us)
  activated : ∀id v,changes.lookup id=some v → PastActivation v → .activated id∈log
  -- so that no deleted plan takes a cancelled assignment with it
  unplanned : ∀id v,changes.lookup id=some v → v.boundUsers≠[] → v.sourcePlanID=0
  apart : ∀id v,changes.lookup id=some v → v.status≠.cancelled → v.status≠.finalized →
    ∀c us,.cancelled c us∈log → ∀u∈us,u∉v.boundUsers

namespace ChangesInv

variable {nextID id : Int}

section

variable (h : ChangesInv changes nextID log)
include h

theorem fresh_insert (hv : changes.lookup id=some v) (id') (w)
    (hw : (changes.insert id v').lookup id'=some w) : id'<nextID :=
  forall_insert h.fresh (h.fresh id v hv) id' w hw

theorem insert (hv : changes.lookup id=some v) (hc : v.status≠.cancelled)
    (hf : v.status≠.finalized) (hplan : v'.sourcePlanID=v.sourcePlanID)
    (husers : v'.boundUsers=v.boundUsers) (ha : PastActivation v' → .activated id∈log) :
    ChangesInv (changes.insert id v') nextID log := by
  refine ⟨h.fresh_insert hv,fun id' us hid' => ?_,forall_insert h.activated ha,
    forall_insert h.unplanned fun hb => hplan.trans (h.unplanned id v hv (husers ▸ hb)),
    forall_insert h.apart fun _ _ => husers ▸ h.apart id v hv hc hf⟩
  obtain ⟨hlt,hrow,hstored⟩ := h.cancelled id' us hid'
  have hid : id'≠id := by
    rintro rfl
    exact hc (hrow v hv)
  rw [lookup_insert_eq,if_neg hid]
  exact ⟨hlt,hrow,hstored⟩

theorem shrink (hsub : ∀id v',changes'.lookup id=some v' → ∃v,changes.lookup id=some v ∧
      (v'=v ∨ v'={v with sourcePlanID := 0}))
    (hkeep : ∀id v,changes.lookup id=some v → v.sourcePlanID=0 → changes'.lookup id=some v) :
    ChangesInv changes' nextID log := by
  refine ⟨?_,?_,?_,?_,?_⟩
  · intro id v' hv'
    obtain ⟨v,hv,-⟩ := hsub id v' hv'
    exact h.fresh id v hv
  · intro id us hid
    obtain ⟨hlt,hrow,hstored⟩ := h.cancelled id us hid
    refine ⟨hlt,fun v' hv' => ?_,fun hus => ?_⟩
    · obtain ⟨v,hv,rfl | rfl⟩ := hsub id v' hv'
      · exact hrow v' hv
      · exact hrow v hv
    · obtain ⟨v,hv,hb⟩ := hstored hus
      exact ⟨v,hkeep id v hv (h.unplanned id v hv (hb ▸ hus)),hb⟩
  · intro id v' hv' hp
    obtain ⟨v,hv,rfl | rfl⟩ := hsub id v' hv' <;> exact h.activated id _ hv hp
  · intro id v' hv' hb
    obtain ⟨v,hv,rfl | rfl⟩ := hsub id v' hv'
    · exact h.unplanned id v' hv hb
    · rfl
  · intro id v' hv'
    obtain ⟨v,hv,rfl | rfl⟩ := hsub id v' hv'
    · exact h.apart id v' hv
    · exact h.apart id v hv

theorem create (hv : ¬PastActivation v) (hplan : v.boundUsers≠[] → v.sourcePlanID=0)
    (hapart : ∀c us,.cancelled c us∈log → ∀u∈us,u∉v.boundUsers) :
    ChangesInv (changes.insert nextID v) (nextID+1) log := by
  have hfresh : ∀id v,changes.lookup id=some v → id<nextID+1 :=
    fun id v hv => (h.fresh id v hv).trans (Int.lt_succ _)
  refine ⟨forall_insert hfresh (Int.lt_succ _),fun id us hid => ?_,
    forall_insert h.activated fun hp => absurd hp hv,forall_insert h.unplanned hplan,
    forall_insert h.apart fun _ _ => hapart⟩
  obtain ⟨hlt,hrow⟩ := h.cancelled id us hid
  rw [lookup_insert_eq,if_neg hlt.ne]
  exact ⟨hlt.trans (Int.lt_succ _),hrow⟩

theorem append (he : ∀id us,e≠.cancelled id us) : ChangesInv changes nextID (log++[e]) := by
  have hold {id} {us} (hmem : .cancelled id us∈log++[e]) : .cancelled id us∈log :=
    (mem_append.mp hmem).resolve_right fun hmem => he id us (mem_singleton.mp hmem).symm
  exact ⟨h.fresh,fun id us hmem => h.cancelled id us (hold hmem),
    fun id v hv hp => mem_append_left _ (h.activated id v hv hp),h.unplanned,
    fun id v hv hc hf c us hmem => h.apart id v hv hc hf c us (hold hmem)⟩

theorem cancel (hv : changes.lookup id=some v) (hc : v.cancellable=true)
    (hapart : ∀id' v',changes.lookup id'=some v' → id'≠id → v'.status≠.cancelled →
      v'.status≠.finalized → ∀u∈v.boundUsers,u∉v'.boundUsers) :
    ChangesInv (changes.insert id v.cancel) nextID (log++[.cancelled id v.boundUsers]) := by
  simp only [AccessChange.cancellable,Bool.and_eq_true,Option.isNone_iff_eq_none] at hc
  have hactivated : ∀id' w,changes.lookup id'=some w → PastActivation w →
      .activated id'∈log++[.cancelled id v.boundUsers] :=
    fun id' w hw hp => mem_append_left _ (h.activated id' w hw hp)
  refine ⟨h.fresh_insert hv,?_,forall_insert hactivated ?_,
    forall_insert h.unplanned (h.unplanned id v hv),?_⟩
  · intro id' us hid'
    rw [lookup_insert_eq]
    split_ifs with hid
    · subst hid
      refine ⟨h.fresh id' v hv,fun w hw => ?_,fun hus => ⟨_,rfl,?_⟩⟩
      · cases hw
        rfl
      rcases mem_append.mp hid' with hold | hnew
      · obtain ⟨w,hw,hb⟩ := (h.cancelled id' us hold).2.2 hus
        obtain rfl := Option.some.inj (hv.symm.trans hw)
        exact hb
      · simp at hnew
        exact hnew.symm
    · exact h.cancelled id' us (by simpa [hid] using hid')
  · simp [PastActivation,AccessChange.cancel,hc.2]
  · intro id' w hw hopen hf c us hmem
    rw [lookup_insert_eq] at hw
    split_ifs at hw with hid
    · cases hw
      exact absurd rfl hopen
    rcases mem_append.mp hmem with hmem | hmem
    · exact h.apart id' w hw hopen hf c us hmem
    · cases mem_singleton.mp hmem
      exact hapart id' w hw hid hopen hf

end

theorem moved (h : ChangesInv s.changes s.nextChangeID log)
    (hu : updateAccessChangeStatus s id source target errorText ts=.ok s')
    (hsource : .cancelled∉source ∧ .finalized∉source)
    (htarget : target=.finalizing ∨ target=.finalized → .activated id∈log) :
    ChangesInv s'.changes s'.nextChangeID log ∧ s'.targets=s.targets := by
  obtain ⟨v,hv,hmem,rfl⟩ := updateAccessChangeStatus_ok hu
  refine ⟨h.insert hv (fun hc => hsource.1 (hc ▸ hmem)) (fun hf => hsource.2 (hf ▸ hmem)) rfl rfl ?_,
    rfl⟩
  rintro (hp | hp | hp)
  · exact htarget (.inl hp)
  · exact htarget (.inr hp)
  · by_cases ht : target=.finalizing
    · exact htarget (.inl ht)
    · simp only [AccessChange.moved,if_neg ht] at hp
      exact h.activated id v hv (.inr (.inr hp))

end ChangesInv

/-- A task a queue stage is about to remember exists. -/
def QueueStage.Below (n : Int) : QueueStage → Prop
  | .record taskID _ => taskID<n
  | _ => True

variable {q : QueueStage}

theorem QueueStage.Below.mono (hn : n ≤ m) (h : q.Below n) : q.Below m := by
  cases q with
  | record taskID _ => exact lt_of_lt_of_le h hn
  | _ => trivial

/-- A request that repeats the finalize phase is about an activated change. -/
structure JobInv (n : Int) (log : List AccessEvent) (job : QueueJob) : Prop where
  activated : job.phase=.finalize ∨ job.stage=.resume → .activated job.id∈log
  below : ∀q,job.stage=.queue q → q.Below n

/-- The part of the invariant that does not look at the worker. -/
structure BaseInv (σ : AccessSystem) (log : List AccessEvent) : Prop where
  changes : ChangesInv σ.store.changes σ.store.nextChangeID log
  positive : 0<σ.nextTaskID
  targets : ∀k v,σ.store.targets.lookup k=some v → v.finalizeTaskID<σ.nextTaskID
  jobs : ∀j job,σ.jobs.lookup j=some job → JobInv σ.nextTaskID log job
  admissible : Admissible Allowed log

/-- The finalize tasks of a change that have not succeeded are among the given ones. -/
def DoneExcept (σ : AccessSystem) (id : Int) (tasks : List (Int×Int)) : Prop :=
  ∀serverID v,σ.store.targets.lookup (id,serverID)=some v →
    σ.unfinished v.finalizeTaskID=true → ∃task∈tasks,task.2=v.finalizeTaskID

/-- What the rows that a round read say about the history. -/
structure RoundInv (log : List AccessEvent) (w : WorkerRound) : Prop where
  kept : ∀r∈w.open_,∀c us,.cancelled c us∈log → c≠r.1 ∧ ∀u∈us,u∉r.2.boundUsers
  activated : ∀r∈w.open_,r.2.status=.finalizing → .activated r.1∈log

def StageInv (σ : AccessSystem) (log : List AccessEvent) (w : WorkerRound) : WorkerStage → Prop
  | .read .finalize tasks => w.change.status=.finalizing ∧ DoneExcept σ w.id tasks
  | .detach | .finalize => w.change.status=.finalizing ∧ DoneExcept σ w.id []
  | .queue q => .activated w.id∈log ∧ q.Below σ.nextTaskID
  | .advance => .activated w.id∈log
  | _ => True

structure AccessInv (σ : AccessSystem) (log : List AccessEvent) : Prop where
  base : BaseInv σ log
  worker : ∀w,σ.worker=some w → RoundInv log w ∧ StageInv σ log w w.stage

variable {id : Int} {job : QueueJob}

namespace BaseInv

section

variable (h : BaseInv σ log)
include h

theorem append (he : ∀id us,e≠.cancelled id us) (ha : Allowed log e) : BaseInv σ (log++[e]) := by
  refine ⟨h.changes.append he,h.positive,h.targets,fun j job hj => ?_,h.admissible.snoc ha⟩
  exact ⟨fun hp => mem_append_left _ ((h.jobs j job hj).activated hp),(h.jobs j job hj).below⟩

theorem setWorker (w) : BaseInv (σ.setWorker w) log :=
  ⟨h.changes,h.positive,h.targets,h.jobs,h.admissible⟩

theorem setStore (hc : ChangesInv s.changes s.nextChangeID log)
    (ht : ∀k v,s.targets.lookup k=some v → v.finalizeTaskID<σ.nextTaskID) :
    BaseInv (σ.setStore s) log :=
  ⟨hc,h.positive,ht,h.jobs,h.admissible⟩

theorem moved (hu : updateAccessChangeStatus σ.store id source target errorText ts=.ok s)
    (hsource : .cancelled∉source ∧ .finalized∉source)
    (htarget : target=.finalizing ∨ target=.finalized → .activated id∈log) :
    BaseInv (σ.setStore s) log := by
  obtain ⟨hc,ht⟩ := h.changes.moved hu hsource htarget
  exact h.setStore hc (ht ▸ h.targets)

theorem tryUpdate (hsource : .cancelled∉source ∧ .finalized∉source)
    (htarget : target=.finalizing ∨ target=.finalized → .activated id∈log) :
    BaseInv (σ.setStore (tryUpdate σ.store id source target errorText ts)) log := by
  unfold AccessSystem.tryUpdate keepOnError
  split
  · exact h
  · rename_i s hu
    exact h.moved hu hsource htarget

theorem setJob (hj : JobInv σ.nextTaskID log {job with stage := stage}) :
    BaseInv (σ.setJob jobID job stage) log := by
  refine ⟨h.changes,h.positive,h.targets,fun j job' hj' => ?_,h.admissible⟩
  simp only [AccessSystem.setJob,lookup_insert_eq] at hj'
  split_ifs at hj'
  · cases hj'
    exact hj
  · exact h.jobs j job' hj'

theorem endJob (jobID) : BaseInv (σ.endJob jobID) log := by
  refine ⟨h.changes,h.positive,h.targets,fun j job hj => ?_,h.admissible⟩
  by_cases hid : j=jobID
  · subst hid
    simp [AccessSystem.endJob] at hj
  · exact h.jobs j job (by simpa [AccessSystem.endJob,AList.lookup_erase_ne hid] using hj)

theorem deletePlan (planID changeID) :
    BaseInv (σ.setStore (deleteSubscriptionPlanTx σ.store planID changeID)) log := by
  refine h.setStore (h.changes.shrink (fun id v' hv' => ?_) fun id v hv hplan => ?_) fun k v hv => ?_
  · simp only [deleteSubscriptionPlanTx,remainingChanges,lookup_deleteRows] at hv'
    obtain ⟨hv',-⟩ := Option.filter_eq_some_iff.mp hv'
    split_ifs at hv'
    · rw [lookup_modify] at hv'
      split_ifs at hv' with hid
      · obtain ⟨v,hv,rfl⟩ := Option.map_eq_some_iff.mp hv'
        exact ⟨v,hid ▸ hv,.inr rfl⟩
      · exact ⟨v',hv',.inl rfl⟩
    · exact ⟨v',hv',.inl rfl⟩
  · have hdetached : ({v with sourcePlanID := 0} : AccessChange)=v := by
      cases v
      simp_all
    simp only [deleteSubscriptionPlanTx,remainingChanges,lookup_deleteRows,
      Option.filter_eq_some_iff,hplan]
    refine ⟨?_,by simp [eq_comm]⟩
    split_ifs
    · rw [lookup_modify]
      split_ifs with hid
      · exact Option.map_eq_some_iff.mpr ⟨v,hid ▸ hv,hdetached⟩
      · exact hv
    · exact hv
  · simp only [deleteSubscriptionPlanTx,lookup_deleteRows] at hv
    exact h.targets k v (Option.filter_eq_some_iff.mp hv).1

end

end BaseInv

variable {tasks : List (Int×Int)}

section queueing

variable {σ : AccessSystem} {id : Int} {phase : AccessChangePhase}
  {q : QueueStage}

def addTask (σ : AccessSystem) : AccessSystem :=
  {σ with tasks := σ.tasks.insert σ.nextTaskID .pending,nextTaskID := σ.nextTaskID+1}

/-- What one transaction of a phase can do: nothing, remember a task, or create one. -/
inductive QueueTurn (σ : AccessSystem) (id : Int) (phase : AccessChangePhase) (q : QueueStage) :
    AccessSystem×QueueResult → Prop where
  | idle (r : QueueResult) (hr : ∀n q',r=.more q' → q'.Below n) : QueueTurn σ id phase q (σ,r)
  | record (serverID taskID : Int) (status : AccessChangeTargetStatus) (q' : QueueStage)
      (htask : ∀n,0<n → q.Below n → taskID<n) (hq : ∀n,q'.Below n) : QueueTurn σ id phase q
        (σ.setStore (setAccessChangeTargetTask σ.store id serverID taskID phase status),.more q')
  | create (prepared : List Int) :
      QueueTurn σ id phase q (addTask σ,.more (.record σ.nextTaskID prepared))

theorem queueStep_turn (σ) (id) (phase) (finding) (q) :
    QueueTurn σ id phase q (σ.queueStep id phase finding q) := by
  fun_cases queueStep σ id phase finding q
  case case5 => exact .record _ _ _ _ (fun _ hn _ => hn) (fun _ => trivial)
  case case10 => exact .create _
  case case12 => exact .record _ _ _ _ (fun _ _ h => h) (fun _ => trivial)
  all_goals
    refine .idle _ fun n q' h => ?_
    cases h <;> trivial

theorem lookup_setTargetTask :
    (setAccessChangeTargetTask s id serverID taskID phase status).targets.lookup k=
      if k=(id,serverID) then (s.targets.lookup (id,serverID)).map (·.setTask taskID status phase)
      else s.targets.lookup k :=
  lookup_modify _ _ _ _

theorem setTask_finalizeTaskID (v : AccessChangeTarget) (status : AccessChangeTargetStatus)
    (phase : AccessChangePhase) : (v.setTask taskID status phase).finalizeTaskID=
      if phase=.finalize then taskID else v.finalizeTaskID := by
  cases phase <;> rfl

section

variable (ht : QueueTurn σ id phase q turn)
include ht

theorem QueueTurn.base (h : BaseInv σ log) (hq : q.Below σ.nextTaskID) : BaseInv turn.1 log := by
  cases ht with
  | idle r hr => exact h
  | record serverID taskID status q' htask hq' =>
    refine h.setStore h.changes fun k v hv => ?_
    rw [lookup_setTargetTask] at hv
    split_ifs at hv
    · obtain ⟨v0,hv0,rfl⟩ := Option.map_eq_some_iff.mp hv
      rw [setTask_finalizeTaskID]
      split_ifs
      · exact htask _ h.positive hq
      · exact h.targets _ v0 hv0
    · exact h.targets k v hv
  | create prepared =>
    refine ⟨h.changes,h.positive.trans (Int.lt_succ _),
      fun k v hv => (h.targets k v hv).trans (Int.lt_succ _),fun j job hj => ?_,h.admissible⟩
    obtain ⟨ha,hb⟩ := h.jobs j job hj
    exact ⟨ha,fun q' hq' => (hb q' hq').mono (Int.lt_succ _).le⟩

theorem QueueTurn.below (hr : turn.2=.more q') : q'.Below turn.1.nextTaskID := by
  cases ht with
  | idle r h => exact h _ _ hr
  | record serverID taskID status q'' htask hq' =>
    cases hr
    exact hq' _
  | create prepared =>
    cases hr
    exact Int.lt_succ _

theorem QueueTurn.nextTaskID_le : σ.nextTaskID≤turn.1.nextTaskID := by
  cases ht with
  | create prepared => exact (Int.lt_succ _).le
  | _ => exact le_rfl

theorem QueueTurn.worker : turn.1.worker=σ.worker := by
  cases ht <;> rfl

theorem QueueTurn.doneExcept (h : BaseInv σ log) (hid : phase=.finalize → id'≠id)
    (hd : DoneExcept σ id' tasks) : DoneExcept turn.1 id' tasks := by
  intro serverID v hv hu
  cases ht with
  | idle r hr => exact hd serverID v hv hu
  | record server taskID status q' htask hq' =>
    change (setAccessChangeTargetTask σ.store id server taskID phase status).targets.lookup _=_ at hv
    rw [lookup_setTargetTask] at hv
    split_ifs at hv with hk
    · obtain ⟨v0,hv0,rfl⟩ := Option.map_eq_some_iff.mp hv
      have hp : phase≠.finalize := fun hp => hid hp (Prod.ext_iff.mp hk).1
      rw [setTask_finalizeTaskID,if_neg hp] at hu ⊢
      exact hd serverID v0 (hk ▸ hv0) hu
    · exact hd serverID v hv hu
  | create prepared =>
    refine hd serverID v hv ?_
    have hne := (h.targets _ v hv).ne
    simpa [unfinished,addTask,hne] using hu

end

end queueing

namespace RoundInv

theorem append (h : RoundInv log w) (he : ∀id us,e≠.cancelled id us) : RoundInv (log++[e]) w := by
  refine ⟨fun r hr c us hc => ?_,fun r hr hs => mem_append_left _ (h.activated r hr hs)⟩
  rcases mem_append.mp hc with hc | hc
  · exact h.kept r hr c us hc
  · exact absurd (mem_singleton.mp hc).symm (he c us)

theorem next (h : RoundInv log w) (hw : w.next=some w') : RoundInv log w' ∧ w'.stage=.start := by
  unfold WorkerRound.next at hw
  split at hw
  · cases hw
  rename_i r rest hrest
  cases hw
  refine ⟨⟨fun x hx => h.kept x ?_,fun x hx => h.activated x ?_⟩,rfl⟩ <;>
  · rw [WorkerRound.open_,hrest]
    exact mem_cons_of_mem _ hx

end RoundInv

namespace AccessInv

section

variable (h : BaseInv σ log) (hw : RoundInv log w)
include h hw

theorem next : AccessInv (σ.setWorker w.next) log := by
  refine ⟨h.setWorker _,fun w' hw' => ?_⟩
  obtain ⟨hr,hs⟩ := hw.next hw'
  exact ⟨hr,hs ▸ trivial⟩

theorem goto (hs : StageInv σ log w stage) : AccessInv (σ.setWorker (w.goto stage)) log := by
  refine ⟨h.setWorker _,fun w' hw' => ?_⟩
  cases hw'
  exact ⟨⟨hw.kept,hw.activated⟩,by cases stage <;> exact hs⟩

theorem giveUp (label) (outcome) : AccessInv (σ.giveUp w label outcome) log := by
  cases outcome with
  | failed message => exact goto h hw trivial
  | _ => exact next h hw

end

end AccessInv

section worker

theorem startRound_inv (h : BaseInv σ log) : AccessInv (σ.setWorker σ.startRound) log := by
  refine ⟨h.setWorker _,fun w hw => ?_⟩
  have hw' : σ.startRound=some w := hw
  unfold startRound at hw'
  split at hw'
  · cases hw'
  rename_i r rest hlist
  cases hw'
  have hopen : ∀x∈r::rest,σ.store.changes.lookup x.1=some x.2 ∧
      x.2.status∈[AccessChangeStatus.preparing,.activating,.finalizing] := by
    intro x hx
    exact mem_listAccessChangesByStatus.mp (hlist ▸ hx)
  refine ⟨⟨fun x hx c us hc => ?_,fun x hx hs => ?_⟩,trivial⟩
  · obtain ⟨hrow,hst⟩ := hopen x hx
    refine ⟨?_,h.changes.apart x.1 x.2 hrow ?_ ?_ c us hc⟩
    · rintro rfl
      rw [(h.changes.cancelled _ us hc).2.1 _ hrow] at hst
      simp at hst
    · intro hs
      simp [hs] at hst
    · intro hs
      simp [hs] at hst
  · exact h.changes.activated _ _ (hopen x hx).1 (.inl hs)

theorem phaseTasks_doneExcept (σ) (id) : DoneExcept σ id (σ.phaseTasks id .finalize) := by
  intro serverID v hv hu
  refine ⟨(serverID,v.finalizeTaskID),?_,rfl⟩
  simp only [unfinished,Bool.and_eq_true,decide_eq_true_eq] at hu
  simp only [phaseTasks,mem_filter,mem_map,decide_eq_true_eq]
  exact ⟨⟨(serverID,v),mem_listAccessChangeTargets.mpr hv,rfl⟩,hu.1⟩

theorem unfinishedTasks_eq_nil (h : DoneExcept σ id []) : σ.unfinishedTasks id=[] := by
  rw [unfinishedTasks,filter_eq_nil_iff]
  intro taskID hmem hu
  obtain ⟨⟨serverID,v⟩,hv,rfl⟩ := mem_map.mp hmem
  obtain ⟨task,htask,-⟩ := h serverID v (mem_listAccessChangeTargets.mp hv) hu
  cases htask

section

variable (h : BaseInv σ log) (hw : RoundInv log w)
include h hw

theorem startChange_inv : AccessInv (σ.setWorker (σ.startChange w now)) log := by
  unfold startChange
  split
  · exact AccessInv.goto h hw trivial
  · split_ifs
    · exact AccessInv.next h hw
    · exact AccessInv.goto h hw trivial
  · rename_i hs
    exact AccessInv.goto h hw ⟨hs,phaseTasks_doneExcept σ w.id⟩
  · exact AccessInv.next h hw

theorem readTask_inv (hs : StageInv σ log w (.read phase (task::tasks))) :
    AccessInv (σ.setWorker (σ.readTask w phase task tasks)) log := by
  -- a task that is missing or has succeeded drops out of the list
  have hdrop (hdone : σ.unfinished task.2=false) : StageInv σ log w (.read phase tasks) := by
    cases phase with
    | prepare => trivial
    | finalize =>
      refine ⟨hs.1,fun serverID v hv hu => ?_⟩
      obtain ⟨t,ht,heq⟩ := hs.2 serverID v hv hu
      rcases mem_cons.mp ht with rfl | ht
      · rw [heq,hu] at hdone
        cases hdone
      · exact ⟨t,ht,heq⟩
  unfold readTask
  split
  · rename_i hl
    exact AccessInv.goto h hw (hdrop (by simp [unfinished,hl]))
  · rename_i hl
    exact AccessInv.goto h hw (hdrop (by simp [unfinished,hl]))
  · exact AccessInv.goto h hw trivial
  · exact AccessInv.next h hw

theorem phaseDone_inv (hs : StageInv σ log w (.read phase [])) :
    AccessInv (σ.phaseDone w phase now) log := by
  cases phase with
  | prepare =>
    unfold phaseDone
    dsimp only
    split_ifs
    · exact AccessInv.next (h.tryUpdate (by decide) (by simp)) hw
    · exact AccessInv.goto h hw trivial
  | finalize =>
    unfold phaseDone
    dsimp only
    split_ifs
    · exact AccessInv.goto h hw hs
    · exact AccessInv.goto h hw hs

theorem effect_inv (hs : ∃planBindings plans planRevisions exceptions,s={σ.store with
      planBindings := planBindings,plans := plans,planRevisions := planRevisions
      exceptions := exceptions}) (husers : ∀u∈users,u∈w.change.boundUsers)
    (hstage : ∀σ' log',StageInv σ' log' w stage) :
    AccessInv ((σ.setStore s).setWorker (w.goto stage)) (log++[.effect w.id users]) := by
  have he := h.append (e := .effect w.id users) (by simp) fun c us hc => by
    obtain ⟨hne,hu⟩ := hw.kept _ mem_cons_self c us hc
    exact ⟨hne,fun u hus hmem => hu u hus (husers u hmem)⟩
  obtain ⟨_,_,_,_,rfl⟩ := hs
  refine AccessInv.goto (he.setStore ?_ ?_) (hw.append (by simp)) (hstage _ _)
  · exact he.changes
  · exact he.targets

theorem activateStep_inv : AccessInv (σ.activateStep w now exceptionIDs).1
      (log++(σ.activateStep w now exceptionIDs).2) := by
  have ha := h.append (e := .activated w.id) (by simp) trivial
  have hwa := hw.append (e := .activated w.id) (by simp)
  have hquiet stage (hs : StageInv σ log w stage) :
      AccessInv (σ.setWorker (w.goto stage)) (log++[]) := by
    simpa using AccessInv.goto h hw hs
  fun_cases activateStep σ w now exceptionIDs
  -- the plan already offers the candidate, the stage writes nothing, or it takes effect
  all_goals
    first
    | exact hquiet _ trivial
    | exact AccessInv.goto ha hwa ⟨by simp,trivial⟩
    | exact effect_inv h hw ⟨_,_,_,_,rfl⟩ (by simp_all [AccessChange.boundUsers]) (fun _ _ => trivial)

theorem switchStep_inv : AccessInv (σ.switchStep w).1 (log++(σ.switchStep w).2) := by
  unfold switchStep
  split
  · rw [append_nil]
    exact AccessInv.goto h hw trivial
  rename_i s hs
  unfold activatePlanVersionGuarded at hs
  split at hs
  · cases hs
  split_ifs at hs
  cases hs
  exact effect_inv h hw ⟨_,_,_,_,rfl⟩ (by simp) (fun _ _ => trivial)

theorem queue_inv (hs : StageInv σ log w (.queue q)) :
    AccessInv ((σ.queueStep w.id .finalize finding q).1.setWorker
      (afterQueue w (σ.queueStep w.id .finalize finding q).2)) log := by
  have ht := queueStep_turn σ w.id .finalize finding q
  have hb := ht.base h hs.2
  cases hr : (σ.queueStep w.id .finalize finding q).2 with
  | more q' => exact AccessInv.goto hb hw ⟨hs.1,ht.below hr⟩
  | done => exact AccessInv.goto hb hw hs.1
  | failed message => exact AccessInv.goto hb hw trivial

theorem advanceStep_inv (hs : .activated w.id∈log) : AccessInv (σ.advanceStep w now) log := by
  unfold advanceStep
  split
  · exact AccessInv.goto h hw trivial
  · rename_i s hu
    exact AccessInv.next (h.moved hu (by decide) (fun _ => hs)) hw

theorem finalizeStep_inv (hs : StageInv σ log w .finalize) :
    AccessInv (σ.finalizeStep w now).1 (log++(σ.finalizeStep w now).2) := by
  have ha : .activated w.id∈log := hw.activated _ mem_cons_self hs.1
  unfold finalizeStep
  split
  · simpa using AccessInv.next h hw
  rename_i s hu
  have hb := (h.moved hu (by decide) (fun _ => ha)).append
    (e := .finalized w.id (σ.unfinishedTasks w.id)) (by simp) ⟨ha,unfinishedTasks_eq_nil hs.2⟩
  exact AccessInv.next hb (hw.append (by simp))

end

theorem detach_doneExcept (h : DoneExcept σ id []) :
    DoneExcept (σ.setStore (deleteSubscriptionPlanTx σ.store planID changeID)) id [] := by
  intro serverID v hv hu
  simp only [setStore,deleteSubscriptionPlanTx,lookup_deleteRows] at hv
  exact h serverID v (Option.filter_eq_some_iff.mp hv).1 hu

theorem changeStep_inv (h : BaseInv σ log) (hw : RoundInv log w) (hs : StageInv σ log w w.stage) : AccessInv (σ.changeStep w input).1 (log++(σ.changeStep w input).2) := by
  have hnil {σ'} (h' : AccessInv σ' log) : AccessInv σ' (log++[]) := by
    rwa [append_nil]
  unfold changeStep
  split <;> rename_i hstage
  all_goals rw [hstage] at hs
  · exact hnil (startChange_inv h hw)
  · exact hnil (phaseDone_inv h hw hs)
  · exact hnil (readTask_inv h hw hs)
  · split_ifs
    · exact activateStep_inv h hw
    · exact hnil (AccessInv.giveUp h hw _ _)
  · split_ifs
    · exact switchStep_inv h hw
    · exact hnil (AccessInv.giveUp h hw _ _)
  · split_ifs
    · exact AccessInv.goto (h.append (e := .activated w.id) (by simp) trivial)
        (hw.append (by simp)) ⟨by simp,trivial⟩
    · exact hnil (AccessInv.giveUp h hw _ _)
  · exact hnil (queue_inv h hw hs)
  · exact hnil (advanceStep_inv h hw hs)
  · split
    · exact hnil (AccessInv.goto (h.deletePlan _ _) hw ⟨hs.1,detach_doneExcept hs.2⟩)
    · exact hnil (AccessInv.goto h hw trivial)
    · exact hnil (AccessInv.goto h hw trivial)
  · exact finalizeStep_inv h hw hs
  · exact hnil (AccessInv.next (h.tryUpdate (by decide) (by simp)) hw)

end worker

variable {w : WorkerRound}

section requests

theorem StageInv.keep (h : StageInv σ log w stage) (hn : σ.nextTaskID≤σ'.nextTaskID)
    (hd : ∀tasks,DoneExcept σ w.id tasks → DoneExcept σ' w.id tasks) : StageInv σ' log w stage := by
  cases stage with
  | read phase tasks =>
    cases phase with
    | prepare => trivial
    | finalize => exact ⟨h.1,hd _ h.2⟩
  | queue q => exact ⟨h.1,h.2.mono hn⟩
  | detach | finalize => exact ⟨h.1,hd _ h.2⟩
  | advance => exact h
  | _ => trivial

theorem StageInv.append (h : StageInv σ log w stage) (e) : StageInv σ (log++[e]) w stage := by
  cases stage with
  | read phase tasks =>
    cases phase with
    | prepare => trivial
    | finalize => exact h
  | queue q => exact ⟨mem_append_left _ h.1,h.2⟩
  | detach | finalize => exact h
  | advance => exact mem_append_left _ h
  | _ => trivial

section

variable (h : AccessInv σ log)
include h

theorem AccessInv.keep (hb : BaseInv σ' log) (hw : σ'.worker=σ.worker)
    (hn : σ.nextTaskID≤σ'.nextTaskID)
    (hd : ∀w,σ.worker=some w → ∀tasks,DoneExcept σ w.id tasks → DoneExcept σ' w.id tasks) :
    AccessInv σ' log := by
  refine ⟨hb,fun w hw' => ?_⟩
  rw [hw] at hw'
  obtain ⟨hr,hs⟩ := h.worker w hw'
  exact ⟨hr,hs.keep hn (hd w hw')⟩

theorem deletePlan_inv :
    AccessInv (σ.setStore (deleteSubscriptionPlanTx σ.store planID 0)) log := by
  refine h.keep (h.base.deletePlan planID 0) rfl (le_rfl) fun w _ tasks hd serverID v hv hu => ?_
  simp only [setStore,deleteSubscriptionPlanTx,lookup_deleteRows] at hv
  exact hd serverID v (Option.filter_eq_some_iff.mp hv).1 hu

theorem report_inv : AccessInv (σ.reportTask taskID status) log := by
  refine h.keep ⟨h.base.changes,h.base.positive,h.base.targets,h.base.jobs,h.base.admissible⟩ rfl
    (le_rfl) fun w _ tasks hd serverID v hv hu => hd serverID v hv ?_
  -- a task that has succeeded is not open
  simp only [unfinished,reportTask,lookup_modify,Bool.and_eq_true] at hu ⊢
  refine ⟨hu.1,?_⟩
  have hu2 := hu.2
  split_ifs at hu2 with hid
  · rw [hid]
    cases hl : σ.tasks.lookup taskID with
    | none => simp [hl] at hu2
    | some old => cases old <;> simp_all [TaskStatus.isOpen]
  · exact hu2

theorem create_inv (hplan : v.boundUsers≠[] → v.sourcePlanID=0)
    (hapart : ∀id v',σ.store.changes.lookup id=some v' → v'.status=.cancelled →
      ∀u∈v'.boundUsers,u∉v.boundUsers) :
    AccessInv (σ.createAccessChange jobID v serverIDs bindings expected ts) log := by
  unfold createAccessChange
  dsimp only
  split
  · rename_i s id hcreate hjob
    obtain ⟨hchanges,hnext,htargets⟩ := createAccessChangeWithPendingBindings_ok hcreate
    have hold k tgt (hk : s.targets.lookup k=some tgt) :
        tgt.finalizeTaskID=0 ∨ σ.store.targets.lookup k=some tgt := by
      rw [htargets,lookup_putAll_map] at hk
      cases hf : serverIDs.reverse.find? (fun serverID => (σ.store.nextChangeID,serverID)=k) with
      | none => exact .inr (by simpa [hf] using hk)
      | some serverID =>
        simp only [hf,Option.map_some,Option.some_or,Option.some.injEq] at hk
        exact .inl (hk ▸ rfl)
    have hb : BaseInv (σ.setStore s) log := by
      refine h.base.setStore ?_ fun k tgt hk => ?_
      · rw [hchanges,hnext]
        refine h.base.changes.create (by simp [PastActivation]) hplan fun c us hc u hu => ?_
        obtain ⟨-,hrow,hstored⟩ := h.base.changes.cancelled c us hc
        obtain ⟨v',hv',rfl⟩ := hstored (ne_nil_of_mem hu)
        exact hapart c v' hv' (hrow v' hv') u hu
      rcases hold k tgt hk with h0 | hk
      · exact h0 ▸ h.base.positive
      · exact h.base.targets k tgt hk
    refine h.keep (hb.setJob ⟨by simp,fun q hq => ?_⟩) rfl (le_rfl)
      fun w _ tasks hd serverID tgt hk hu => ?_
    · cases hq
      trivial
    rcases hold _ tgt hk with h0 | hk
    · rw [h0] at hu
      simp [unfinished] at hu
    · exact hd serverID tgt hk hu
  · exact h

theorem retry_inv (jobID id) : AccessInv (σ.retryAccessChange jobID id) log := by
  unfold retryAccessChange
  split
  · rename_i v hv hjob
    split_ifs with hf ha
    · refine h.keep (h.base.setJob ⟨fun _ => ?_,nofun⟩) rfl (le_rfl) fun _ _ _ hd => hd
      exact h.base.changes.activated id v hv (.inr (.inr ha))
    · exact h.keep (h.base.setJob ⟨by simp,nofun⟩) rfl (le_rfl) fun _ _ _ hd => hd
    · exact h
  · exact h

end

theorem tryUpdate_targets (s) (id) (source) (target) (errorText) (ts) :
    (tryUpdate s id source target errorText ts).targets=s.targets := by
  unfold tryUpdate keepOnError
  split
  · rfl
  rename_i hu
  obtain ⟨v,-,-,rfl⟩ := updateAccessChangeStatus_ok hu
  rfl

theorem afterJobQueue_inv (ht : QueueTurn σ id phase q turn)
    (hb : BaseInv turn.1 log) (ha : job.phase=.finalize → .activated job.id∈log) :
    BaseInv (turn.1.afterJobQueue jobID job turn.2) log ∧
      (turn.1.afterJobQueue jobID job turn.2).store=turn.1.store ∧
      (turn.1.afterJobQueue jobID job turn.2).tasks=turn.1.tasks ∧
      (turn.1.afterJobQueue jobID job turn.2).nextTaskID=turn.1.nextTaskID ∧
      (turn.1.afterJobQueue jobID job turn.2).worker=turn.1.worker := by
  cases hr : turn.2 with
  | more q' =>
    refine ⟨hb.setJob ⟨by simpa using ha,fun q'' hq'' => ?_⟩,rfl,rfl,rfl,rfl⟩
    cases hq''
    exact ht.below hr
  | done => exact ⟨hb.endJob jobID,rfl,rfl,rfl,rfl⟩
  | failed message => exact ⟨hb.setJob ⟨by simpa using ha,nofun⟩,rfl,rfl,rfl,rfl⟩

theorem doneExcept_congr (ht : σ'.store.targets=σ.store.targets) (htasks : σ'.tasks=σ.tasks)
    (h : DoneExcept σ id tasks) : DoneExcept σ' id tasks := by
  intro serverID v hv hu
  rw [ht] at hv
  simp only [unfinished,htasks] at hu
  exact h serverID v hv hu

theorem jobStep_inv (h : AccessInv σ log) (hj : σ.jobs.lookup jobID=some job)
    (hsafe : job.phase=.finalize → ∀w,σ.worker=some w → w.id≠job.id)
    : AccessInv (σ.jobStep jobID job finding ts) log := by
  obtain ⟨ha,hbelow⟩ := h.base.jobs jobID job hj
  unfold jobStep
  split <;> rename_i hstage
  · split
    · exact h.keep (h.base.endJob jobID) rfl (le_rfl) fun _ _ _ hd => hd
    rename_i s hu
    have ht := (h.base.changes.moved hu (by decide) (by simp)).2
    refine h.keep ((h.base.moved hu (by decide) (by simp)).setJob ⟨fun hp => ha (.inl ?_),?_⟩) rfl
      (le_rfl) fun _ _ _ hd => doneExcept_congr ht rfl hd
    · by_cases hf : job.phase=.finalize
      · exact hf
      · simp [hf] at hp
    intro q hq
    split_ifs at hq
    cases hq
    trivial
  · refine h.keep ((h.base.tryUpdate (by decide) (fun _ => ha (.inr hstage))).setJob
      ⟨by simpa using fun hp => ha (.inl hp),fun q hq => ?_⟩) rfl (le_rfl)
      fun _ _ _ hd => doneExcept_congr (tryUpdate_targets _ _ _ _ _ _) rfl hd
    cases hq
    trivial
  · rename_i q
    have ht := queueStep_turn σ job.id job.phase finding q
    obtain ⟨hb,hstore,htasks,hnext,hworker⟩ := afterJobQueue_inv ht
      (ht.base h.base (hbelow q hstage)) (fun hp => ha (.inl hp))
    refine h.keep hb (hworker.trans ht.worker) (hnext ▸ ht.nextTaskID_le) fun w hw tasks hd => ?_
    exact doneExcept_congr (congrArg _ hstore) htasks
      (ht.doneExcept h.base (fun hp => hsafe hp w hw) hd)
  · split_ifs <;>
      exact h.keep ((h.base.tryUpdate (by decide) (by simp)).endJob jobID) rfl (le_rfl)
        fun _ _ _ hd => doneExcept_congr (tryUpdate_targets _ _ _ _ _ _) rfl hd

theorem cancel_inv (h : AccessInv σ log) (hc : markAccessChangeCancelled σ.store id=.ok s)
    (hsafe : ∀w,σ.worker=some w → ∀r∈w.open_,r.1≠id ∧ ∀u∈σ.boundUsers id,u∉r.2.boundUsers)
    (hapart : ∀id' v',σ.store.changes.lookup id'=some v' → id'≠id → v'.status≠.cancelled →
      v'.status≠.finalized → ∀u∈σ.boundUsers id,u∉v'.boundUsers) :
    AccessInv (σ.setStore s) (log++[.cancelled id (σ.boundUsers id)]) := by
  obtain ⟨v,hv,hcan,plans,rfl⟩ := markAccessChangeCancelled_ok hc
  have hb : σ.boundUsers id=v.boundUsers := by simp [AccessSystem.boundUsers,hv]
  simp only [hb] at hsafe hapart ⊢
  refine ⟨⟨h.base.changes.cancel hv hcan hapart,h.base.positive,h.base.targets,fun j job hj => ?_,
    h.base.admissible.snoc trivial⟩,fun w hw => ?_⟩
  · obtain ⟨ha,hb⟩ := h.base.jobs j job hj
    exact ⟨fun hp => mem_append_left _ (ha hp),hb⟩
  obtain ⟨hr,hs⟩ := h.worker w hw
  refine ⟨⟨fun r hr' c us hmem => ?_,fun r hr' hst => mem_append_left _ (hr.activated r hr' hst)⟩,
    hs.append _⟩
  rcases mem_append.mp hmem with hmem | hmem
  · exact hr.kept r hr' c us hmem
  · cases mem_singleton.mp hmem
    exact ⟨(hsafe w hw r hr').1.symm,(hsafe w hw r hr').2⟩

end requests

/-- The changes that the worker's round has read and not finished with, as it read them. -/
def AccessSystem.held (σ : AccessSystem) : List (Int×AccessChange) :=
  match σ.worker with
  | none => []
  | some w => w.open_

variable {σ : AccessSystem}

theorem mem_held (hw : σ.worker=some w) (hr : r∈w.open_) : r∈σ.held := by
  rwa [held,hw]

/-- Cancellations and repeated finalize phases stay out of the worker's turn on a change. The users
of a cancelled assignment are in no other unfinished assignment, and in none created later. -/
def RoundSafe (σ : AccessSystem) : AccessAction → Prop
  | .cancel id => (∀r∈σ.held,r.1≠id ∧ ∀u∈σ.boundUsers id,u∉r.2.boundUsers) ∧
    ∀r∈σ.store.changes.rows,r.1≠id → r.2.status≠.cancelled → r.2.status≠.finalized →
      ∀u∈σ.boundUsers id,u∉r.2.boundUsers
  | .create _ v .. => (v.boundUsers≠[] → v.sourcePlanID=0) ∧
    ∀r∈σ.store.changes.rows,r.2.status=.cancelled → ∀u∈r.2.boundUsers,u∉v.boundUsers
  | .job jobID _ _ => ∀job,σ.jobs.lookup jobID=some job → job.phase=.finalize →
    ∀r∈σ.held,r.1≠job.id
  | _ => True

theorem accessStep_inv (hsafe : RoundSafe σ action) (h : AccessInv σ log) :
    AccessInv (accessStep σ action).1 (log++(accessStep σ action).2) := by
  have hnil {σ'} (h' : AccessInv σ' log) : AccessInv σ' (log++[]) := by
    rwa [append_nil]
  cases action with
  | worker input =>
    simp only [accessStep,workerStep]
    split
    · exact hnil (startRound_inv h.base)
    rename_i w hw
    obtain ⟨hr,hs⟩ := h.worker w hw
    exact changeStep_inv h.base hr hs
  | create jobID v serverIDs bindings expected ts =>
    exact hnil (create_inv h hsafe.1 fun id v' hv' => hsafe.2 (id,v') (mem_rows.mpr hv'))
  | retry jobID id => exact hnil (retry_inv h jobID id)
  | job jobID finding ts =>
    simp only [accessStep]
    split
    · exact hnil h
    rename_i job hj
    exact hnil (jobStep_inv h hj fun hp w hw =>
      hsafe job hj hp (w.id,w.change) (mem_held hw mem_cons_self))
  | cancel id =>
    simp only [accessStep]
    split
    · exact hnil h
    · rename_i s hc
      exact cancel_inv h hc (fun w hw r hr => hsafe.1 r (mem_held hw hr))
        fun id' v' hv' => hsafe.2 (id',v') (mem_rows.mpr hv')
  | report taskID status => exact hnil (report_inv h)
  | deletePlan planID => exact hnil (deletePlan_inv h)
  | otherWriters planBindings plans planRevisions exceptions =>
    refine hnil (h.keep (h.base.setStore ?_ ?_) rfl (le_rfl) fun _ _ _ hd => hd)
    · exact h.base.changes
    · exact h.base.targets
  | restart =>
    refine hnil ⟨⟨h.base.changes,h.base.positive,h.base.targets,fun j job hj => ?_,
      h.base.admissible⟩,fun w hw => ?_⟩
    · simp [accessStep] at hj
    · cases hw

/-- A database without access changes and a controller that has just started. -/
structure Unused (σ : AccessSystem) : Prop where
  changes : σ.store.changes=∅
  targets : σ.store.targets=∅
  tasks : 0<σ.nextTaskID
  worker : σ.worker=none
  jobs : σ.jobs=∅

theorem Unused.inv (h : Unused σ) : AccessInv σ [] := by
  refine ⟨⟨⟨?_,nofun,?_,?_,?_⟩,h.tasks,?_,?_,admissible_nil _⟩,?_⟩
  · simp [h.changes]
  · simp [h.changes]
  · simp [h.changes]
  · simp [h.changes]
  · simp [h.targets]
  · simp [h.jobs]
  · simp [h.worker]

theorem cancelled_and_activated_exclude (σ : AccessSystem) (hσ : Unused σ)
    (actions : List AccessAction) (hg : RunGuarded accessStep RoundSafe σ actions) :
    Admissible Allowed (run accessStep σ actions).2 := by
  have h := run_invariant AccessInv RoundSafe (fun hs hi => accessStep_inv hs hi) hg hσ.inv
  simpa using h.base.admissible

instance (σ : AccessSystem) : (action : AccessAction) → Decidable (RoundSafe σ action)
  | .cancel _ | .create .. => inferInstanceAs (Decidable (_ ∧ _))
  | .job jobID _ _ => inferInstanceAs (Decidable (∀job,σ.jobs.lookup jobID=some job →
      job.phase=.finalize → ∀r∈σ.held,r.1≠job.id))
  | .worker _ | .retry .. | .report .. | .deletePlan _ | .otherWriters .. | .restart => .isTrue trivial

def unusedSystem : AccessSystem :=
  {store := {planBindings := ⟨∅,1,by simp,by simp [OneEnabled]⟩}}

private theorem unusedSystem_unused : Unused unusedSystem := ⟨rfl,rfl,by decide,rfl,rfl⟩

private def turn : AccessAction := .worker ⟨0,.unchanged,.ok⟩

/-- A request that assigns a plan to a user. -/
def assign (jobID user plan : Int) : AccessAction :=
  .create jobID {changeType := .userBindings,userIDs := [user]} []
    [⟨0,user,plan,true,none,none,none,false⟩] none 0

def cancelledBetweenRounds : List AccessAction :=
  assign 1 7 5:: List.replicate 13 turn++[assign 2 8 5,.cancel 2,turn]

theorem assignment_runs_to_finalized :
    Unused unusedSystem ∧ RunGuarded accessStep RoundSafe unusedSystem cancelledBetweenRounds ∧
    (run accessStep unusedSystem cancelledBetweenRounds).2=
      [.effect 1 [7],.activated 1,.finalized 1 [],.cancelled 2 [8]] ∧
    Admissible Allowed (run accessStep unusedSystem cancelledBetweenRounds).2 := by
  have hg : RunGuarded accessStep RoundSafe unusedSystem cancelledBetweenRounds := by
    decide +kernel
  exact ⟨unusedSystem_unused,hg,by decide +kernel,
    cancelled_and_activated_exclude _ unusedSystem_unused _ hg⟩

/-- A cancel request succeeds after the worker has read the change. -/
def cancelledInRound : List AccessAction := [assign 1 7 5,turn,turn,turn,.cancel 1,turn]

/-- The first of two assignments of a user is activated after the second was cancelled. -/
def cancelledBesideAnother : List AccessAction :=
  [assign 1 7 5,assign 2 7 6,.cancel 2,turn,turn,turn,turn]

/-- The worker has read the finalize tasks of a retried change before the retry queues a new one. -/
def retriedInRound : List AccessAction :=
  .create 1 {changeType := .planDelete,sourcePlanID := 5} [2] [] none 0:: List.replicate 13 turn++
    [.worker ⟨0,.unchanged,.failed "disk I/O error"⟩,turn,.retry 2 1,
      .job 2 .changed 0,.job 2 .changed 0,turn,turn,turn]++
    List.replicate 5 (.job 2 .changed 0)++[turn,turn]

/-- In the second run the binding of the cancelled assignment becomes active. -/
theorem cancelled_assignment_takes_effect : Unused unusedSystem ∧
    ¬Admissible Allowed (run accessStep unusedSystem cancelledInRound).2 ∧
    (¬Admissible Allowed (run accessStep unusedSystem cancelledBesideAnother).2 ∧
      ((run accessStep unusedSystem cancelledBesideAnother).1.store.planBindings.rows.lookup 2).map
        (fun row => (row.userID,row.planID,row.enabled,row.status))=some (7,6,true,.active)) ∧
    ¬Admissible Allowed (run accessStep unusedSystem retriedInRound).2 := by
  have hcancel : (run accessStep unusedSystem cancelledInRound).2=
      [.cancelled 1 [7],.effect 1 [7]] := by
    decide +kernel
  have hbeside : (run accessStep unusedSystem cancelledBesideAnother).2=
      [.cancelled 2 [7],.effect 1 [7]] := by
    decide +kernel
  have hretry : (run accessStep unusedSystem retriedInRound).2=
      [.effect 1 [],.activated 1,.finalized 1 [1]] := by
    decide +kernel
  refine ⟨unusedSystem_unused,fun h => ?_,⟨fun h => ?_,by decide +kernel⟩,fun h => ?_⟩
  · rw [hcancel] at h
    simpa [Allowed] using h [.cancelled 1 [7]] (.effect 1 [7]) [] rfl
  · rw [hbeside] at h
    simpa [Allowed] using h [.cancelled 2 [7]] (.effect 1 [7]) [] rfl
  · simpa [Allowed] using h [.effect 1 [],.activated 1] (.finalized 1 [1]) [] rfl

end Oboard.Controller
