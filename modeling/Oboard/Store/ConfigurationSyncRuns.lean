import Oboard.Store.ConfigurationSync
import Oboard.Framework.Runs

namespace Oboard.Store

open GoText Runs List Table SyncStore ConfigurationSyncState Option

/-- One store operation of the synchronisation. Agents and operators write the other tables. -/
inductive SyncCall where
  | markPending (revision : Nat) (serverIDs : List Int)
  | ensureRevision (serverID : Int) (revision : Nat)
  | drift (serverID : Int) (revision : Nat)
  | waiting (serverID : Int) (revision : Nat) (retryAt : Time) (reason : String)
      (problems : List ConfigurationSyncProblem)
  | noop (serverID : Int) (revision : Nat) (digest : String)
  | updateDigest (serverID : Int) (digest : String)
  | recover
  | claim (serverID : Int) (revision : Nat)
  | preparationFailure (serverID : Int) (revision : Nat) (resultError : String)
      (problems : List ConfigurationSyncProblem) (now : Time)
  | queued (serverID : Int) (revision : Nat) (configVersion taskID : Int) (payloadDigest : String)
      (prepared : Bool) (previousTaskID : Int)
  | unchangedFailure (serverID : Int) (revision : Nat) (resultError : String)
  | result (serverID configVersion : Int) (succeeded : Bool) (resultError : String) (now : Time)
  | superseded (serverID configVersion : Int)
  | retryFailed (serverIDs : List Int)
  | otherTables (tasks : Table Int AgentTask) (flags : Table Int DeliveryFlags)
      (enrolled : List Int)

/-- What the operations did: a version was queued for a revision, the failure of a version was
recorded, a recovery was opened. -/
inductive SyncEvent where
  | queued (serverID : Int) (revision : Nat) (configVersion : Int)
  | taskFailed (serverID configVersion : Int)
  | driftOpened (serverID : Int)
  deriving DecidableEq

open SyncStore in
def syncStep (σ : SyncStore) : SyncCall → SyncStore×List SyncEvent
  | .markPending revision serverIDs =>
    (keepOnError σ (σ.markConfigurationSyncPending revision serverIDs),[])
  | .ensureRevision serverID revision =>
    (keepOnError σ ((σ.ensureConfigurationSyncRevision serverID revision).map Prod.fst),[])
  | .drift serverID revision =>
    match σ.markConfigurationSyncDrift serverID revision with
    | .error _ => (σ,[])
    | .ok (σ',opened) => (σ',if opened then [.driftOpened serverID] else [])
  | .waiting serverID revision retryAt reason problems =>
    (keepOnError σ (σ.markConfigurationSyncWaiting serverID revision retryAt reason problems),[])
  | .noop serverID revision digest =>
    (keepOnError σ (σ.markConfigurationSyncNoop serverID revision digest),[])
  | .updateDigest serverID digest =>
    (keepOnError σ (σ.updateConfigurationSyncWantedDigest serverID digest),[])
  | .recover => (σ.recoverConfigurationSyncStates,[])
  | .claim serverID revision => ((σ.claimConfigurationSync serverID revision).1,[])
  | .preparationFailure serverID revision resultError problems now =>
    (keepOnError σ (σ.markConfigurationSyncPreparationFailure serverID revision resultError
      problems now),[])
  | .queued serverID revision configVersion taskID payloadDigest prepared previousTaskID =>
    (σ.markConfigurationSyncQueued serverID revision configVersion taskID payloadDigest prepared
      previousTaskID,
      if σ.reaches serverID (queueable revision prepared previousTaskID) then
        [.queued serverID revision configVersion] else [])
  | .unchangedFailure serverID revision resultError =>
    (σ.markConfigurationSyncUnchangedFailure serverID revision resultError,[])
  | .result serverID configVersion succeeded resultError now =>
    (σ.markConfigurationSyncResult serverID configVersion succeeded resultError now,
      if succeeded then [] else [.taskFailed serverID configVersion])
  | .superseded serverID configVersion =>
    (σ.markConfigurationSyncSuperseded serverID configVersion,[])
  | .retryFailed serverIDs => (σ.retryFailedConfigurationSync serverIDs,[])
  | .otherTables tasks flags enrolled =>
    ({σ with tasks := tasks,flags := flags,enrolled := enrolled},[])

/-- The operations of a recovery: no new revision is marked and no task reports back. -/
def SyncCall.recoversOnly : SyncCall → Bool
  | .drift .. | .claim .. | .waiting .. | .preparationFailure .. | .queued .. | .recover
  | .otherTables .. => true
  | _ => false

/-- A row moved without being queued: its revision may rise, but then it waits for nothing. -/
structure Still (row row' : ConfigurationSyncState) : Prop where
  wanted : row.wantedRevision≤row'.wantedRevision
  version : row'.lastConfigVersion=row.lastConfigVersion
  inFlight : row'.inFlight=true → row.inFlight=true ∧ row'.wantedRevision=row.wantedRevision

theorem Still.refl (row) : Still row row :=
  ⟨le_rfl,rfl,fun h => ⟨h,rfl⟩⟩

theorem Still.trans (h : Still a b) (h' : Still b c) : Still a c := by
  refine ⟨h.wanted.trans h'.wanted,h'.version.trans h.version,fun hc => ?_⟩
  obtain ⟨hb,hw⟩ := h'.inFlight hc
  obtain ⟨ha,hw'⟩ := h.inFlight hb
  exact ⟨ha,hw.trans hw'⟩

/-- A row is left alone or opened again for a higher revision. -/
def Reopened (row row' : ConfigurationSyncState) : Prop :=
  row'=row ∨ (row.wantedRevision<row'.wantedRevision ∧
    row'.lastConfigVersion=row.lastConfigVersion ∧ row'.state=.pending)

theorem Reopened.trans (h : Reopened a b) (h' : Reopened b c) : Reopened a c := by
  rcases h' with rfl | ⟨hw',hv',hs'⟩
  · exact h
  rcases h with rfl | ⟨hw,hv,-⟩
  · exact .inr ⟨hw',hv',hs'⟩
  · exact .inr ⟨hw.trans hw',hv'.trans hv,hs'⟩

variable {row' : ConfigurationSyncState}

theorem Reopened.still (h : Reopened row row') : Still row row' := by
  rcases h with rfl | ⟨hw,hv,hs⟩
  · exact Still.refl _
  · exact ⟨hw.le,hv,fun hf => by simp [inFlight,hs] at hf⟩

structure StatesMove (R : Int → ConfigurationSyncState → ConfigurationSyncState → Prop)
    (t t' : Table Int ConfigurationSyncState) : Prop where
  old : ∀s row,t.lookup s=some row → ∃row',t'.lookup s=some row' ∧ R s row row'
  new : ∀s row',t.lookup s=none → t'.lookup s=some row' → row'.state=.pending ∧
    row'.lastConfigVersion=0

section statements

variable (σ : SyncStore)

theorem SyncStore.reaches_iff :
    σ.reaches serverID p=true ↔ ∃row,σ.states.lookup serverID=some row ∧ p row=true := by
  unfold reaches
  cases σ.states.lookup serverID <;> simp

theorem SyncStore.lookup_updateRow (s) : (σ.updateRow serverID p f).states.lookup s=
    if s=serverID then (σ.states.lookup s).map (fun row => if p row then f row else row)
    else σ.states.lookup s := by
  rw [updateRow,lookup_modify]
  split_ifs with hs
  · rw [hs]
  · rfl

theorem SyncStore.lookup_unreached (h : ¬σ.reaches serverID p=true) (s) :
    (σ.updateRow serverID p f).states.lookup s=σ.states.lookup s := by
  rw [lookup_updateRow]
  split_ifs with hs
  · subst hs
    cases hrow : σ.states.lookup s with
    | none => rfl
    | some row =>
      have hp : ¬p row=true := fun hp => h (σ.reaches_iff.mpr ⟨row,hrow,hp⟩)
      rw [map_some,if_neg hp]
  · rfl

end statements

section tables

theorem StatesMove.refl (hR : ∀s row,R s row row) : StatesMove R t t :=
  ⟨fun s row h => ⟨row,h,hR s row⟩,fun s row' h h' => by rw [h] at h'; cases h'⟩

theorem statesMove_mapRows (hR : ∀s row,R s row (f s row)) : StatesMove R t (t.mapRows f) := by
  refine ⟨fun s row h => ⟨f s row,?_,hR s row⟩,fun s row' h h' => ?_⟩
  · rw [lookup_mapRows,h]
    rfl
  · rw [lookup_mapRows,h] at h'
    cases h'

theorem statesMove_updateRow {σ : SyncStore} (hrefl : ∀s row,R s row row)
    (hR : ∀row,p row=true → R serverID row (f row)) :
    StatesMove R σ.states (σ.updateRow serverID p f).states := by
  refine ⟨fun s row h => ?_,fun s row' h h' => ?_⟩
  · rw [lookup_updateRow,h]
    by_cases hs : s=serverID
    · subst hs
      refine ⟨_,if_pos rfl,?_⟩
      dsimp only
      split_ifs with hp
      · exact hR row hp
      · exact hrefl s row
    · exact ⟨row,if_neg hs,hrefl s row⟩
  · rw [lookup_updateRow,h] at h'
    split_ifs at h'
    all_goals cases h'

theorem StatesMove.mono (h : StatesMove R t t')
    (hR : ∀s row row',R s row row' → R' s row row') : StatesMove R' t t' := by
  refine ⟨fun s row hrow => ?_,h.new⟩
  obtain ⟨row',hrow',hm⟩ := h.old s row hrow
  exact ⟨row',hrow',hR s row row' hm⟩

theorem statesMove_insertOrReopen (σ : SyncStore) {revision : Nat}
    (hf : ∀row,(f row).wantedRevision=revision ∧
      (f row).lastConfigVersion=row.lastConfigVersion ∧ (f row).state=.pending) :
    StatesMove (fun _ => Reopened) σ.states (σ.insertOrReopen serverID revision f).states := by
  unfold insertOrReopen
  split
  · rename_i hnone
    refine ⟨fun s row h => ⟨row,?_,.inl rfl⟩,fun s row' h h' => ?_⟩
    · rw [lookup_insert_eq,if_neg (by rintro rfl; rw [hnone] at h; cases h)]
      exact h
    rw [lookup_insert_eq] at h'
    split_ifs at h'
    · cases h'
      exact ⟨rfl,rfl⟩
    · rw [h] at h'
      cases h'
  · refine statesMove_updateRow (fun _ _ => .inl rfl) fun row hp => .inr ?_
    obtain ⟨hw,hv,hs⟩ := hf row
    exact ⟨hw ▸ of_decide_eq_true hp,hv,hs⟩

theorem StatesMove.trans_reopened (h : StatesMove (fun _ => Reopened) t t')
    (h' : StatesMove (fun _ => Reopened) t' t'') : StatesMove (fun _ => Reopened) t t'' := by
  refine ⟨fun s row hrow => ?_,fun s row'' hnone hrow'' => ?_⟩
  · obtain ⟨row',hrow',hm⟩ := h.old s row hrow
    obtain ⟨row'',hrow'',hm'⟩ := h'.old s row' hrow'
    exact ⟨row'',hrow'',hm.trans hm'⟩
  cases hmid : t'.lookup s with
  | none => exact h'.new s row'' hmid hrow''
  | some row' =>
    obtain ⟨hs,hv⟩ := h.new s row' hnone hmid
    obtain ⟨row2,hrow2,hm⟩ := h'.old s row' hmid
    obtain rfl := some.inj (hrow2.symm.trans hrow'')
    rcases hm with rfl | ⟨-,hv2,hs2⟩
    · exact ⟨hs,hv⟩
    · exact ⟨hs2,hv2.trans hv⟩

theorem Reopened.refl (row) : Reopened row row := .inl rfl

theorem statesMove_foldl_pending (revision : Nat) (serverIDs : List Int) (σ : SyncStore) :
    StatesMove (fun _ => Reopened) σ.states (serverIDs.foldl (fun σ serverID =>
      if serverID≤0 then σ else σ.markConfigurationSyncPendingTx serverID revision) σ).states := by
  induction serverIDs generalizing σ with
  | nil => exact StatesMove.refl fun _ => Reopened.refl
  | cons id ids ih =>
    refine StatesMove.trans_reopened ?_ (ih _)
    dsimp only
    split_ifs
    · exact StatesMove.refl fun _ => Reopened.refl
    · exact statesMove_insertOrReopen σ (fun row => ⟨rfl,rfl,rfl⟩)

theorem statesMove_markPending (σ : SyncStore) (revision : Nat) (serverIDs : List Int) :
    StatesMove (fun _ => Reopened) σ.states
      (keepOnError σ (σ.markConfigurationSyncPending revision serverIDs)).states := by
  unfold markConfigurationSyncPending
  split_ifs
  · exact StatesMove.refl fun _ => Reopened.refl
  · exact statesMove_foldl_pending revision _ σ
  · exact statesMove_foldl_pending revision _ σ

theorem statesMove_ensureRevision (σ : SyncStore) :
    StatesMove (fun _ => Reopened) σ.states (keepOnError σ
      ((σ.ensureConfigurationSyncRevision serverID revision).map Prod.fst)).states := by
  unfold ensureConfigurationSyncRevision
  split_ifs
  · exact StatesMove.refl fun _ => Reopened.refl
  · exact statesMove_insertOrReopen σ (fun row => ⟨rfl,rfl,rfl⟩)

end tables

section moves

variable (σ : SyncStore)

open ConfigurationSyncState SyncStore

variable {row row' : ConfigurationSyncState} {call : SyncCall} {s : Int}

theorem Still.of_state (hw : row'.wantedRevision=row.wantedRevision)
    (hv : row'.lastConfigVersion=row.lastConfigVersion) (hs : row'.inFlight=false) :
    Still row row' :=
  ⟨hw.ge,hv,fun h => by rw [hs] at h; cases h⟩

theorem SyncStore.synced_of_recovered (s) (row)
    (h : (recoverBusy (σ.recoverPending s (σ.recoverFailed s row))).state=.synced) :
    row.state=.synced := by
  have h1 r (h : (recoverBusy r).state=.synced) : r.state=.synced := by
    unfold recoverBusy at h
    split_ifs at h
    · cases h
    · exact h
  have h2 r (h : (σ.recoverPending s r).state=.synced) : r.state=.synced := by
    unfold recoverPending at h
    split_ifs at h
    · cases h
    · exact h
  have h3 := h2 _ (h1 _ h)
  unfold recoverFailed at h3
  split_ifs at h3
  exact h3

theorem still_recover : Still row (recoverBusy (σ.recoverPending s (σ.recoverFailed s row))) := by
  have h1 : Still row (σ.recoverFailed s row) := by
    unfold recoverFailed
    split_ifs
    · exact Still.of_state rfl rfl rfl
    · exact Still.refl row
  have h2 r : Still r (σ.recoverPending s r) := by
    unfold recoverPending
    split_ifs
    · exact Still.of_state rfl rfl rfl
    · exact Still.refl r
  have h3 r : Still r (recoverBusy r) := by
    unfold recoverBusy
    split_ifs
    · exact Still.of_state rfl rfl rfl
    · exact Still.refl r
  exact h1.trans ((h2 _).trans (h3 _))

theorem recover_states : σ.recoverConfigurationSyncStates.states=σ.states.mapRows
    (fun s row => recoverBusy (σ.recoverPending s (σ.recoverFailed s row))) := by
  simp only [recoverConfigurationSyncStates,mapRows_mapRows]

/-- The reasons for which an operation makes a row synced: a no-op of the wanted revision, or a
success of the version it waits for. -/
def SyncedBy (call : SyncCall) (s : Int) (row : ConfigurationSyncState) : Prop :=
  (∃digest,call=.noop s row.wantedRevision digest) ∨
  ∃version resultError now,call=.result s version true resultError now ∧
    row.lastConfigVersion=version ∧ row.inFlight=true

def SyncsOnlyBy (call : SyncCall) (s : Int) (row row' : ConfigurationSyncState) : Prop :=
  row'.state=.synced → row.state=.synced ∨ SyncedBy call s row

theorem queued_states :
    (σ.markConfigurationSyncQueued serverID revision version taskID digest prepared
      previousTaskID).states=
      (σ.updateRow serverID (queueable revision prepared previousTaskID) (fun row =>
        {row.settle .queued with
          syncStrategy := some .task
          wantedDigest := trimSpace digest
          lastConfigVersion := version
          lastTaskID := taskID})).states := by
  simp only [markConfigurationSyncQueued]
  split_ifs <;> rfl

/-- Everything an operation can do to the row of a server. -/
inductive RowMove (s : Int) (row : ConfigurationSyncState) :
    SyncCall → ConfigurationSyncState → Prop where
  | kept {call : SyncCall} : RowMove s row call row
  | reopened {call : SyncCall} {row' : ConfigurationSyncState} (hcall : call.recoversOnly=false)
      (h : Reopened row row') : RowMove s row call row'
  | drifted (revision : Nat) : RowMove s row (.drift s revision) (row.drift revision)
  | digested (digest text : String) :
      RowMove s row (.updateDigest s digest) {row with wantedDigest := text}
  | recovered : RowMove s row .recover (recoverBusy (σ.recoverPending s (σ.recoverFailed s row)))
  | stopped {call : SyncCall} {row' : ConfigurationSyncState}
      (same : row'.wantedRevision=row.wantedRevision ∧ row'.lastConfigVersion=row.lastConfigVersion)
      (idle : row'.inFlight=false) (unsynced : row'.state≠.synced)
      (trigger : call.recoversOnly=true → row'.triggerReason=row.triggerReason) :
      RowMove s row call row'
  | synced {call : SyncCall} {row' : ConfigurationSyncState}
      (same : row'.wantedRevision=row.wantedRevision ∧
        row'.lastConfigVersion=row.lastConfigVersion) (idle : row'.inFlight=false)
      (hcall : call.recoversOnly=false) (cause : SyncedBy call s row) : RowMove s row call row'
  | queued {revision : Nat} {version taskID : Int} {digest : String} {prepared : Bool}
      {previousTaskID : Int} {row' : ConfigurationSyncState}
      (wanted : row'.wantedRevision=row.wantedRevision) (state : row'.state=.queued)
      (trigger : row'.triggerReason=row.triggerReason) :
      RowMove s row (.queued s revision version taskID digest prepared previousTaskID) row'

theorem statesMove_step (call : SyncCall) :
    StatesMove (fun s row => RowMove σ s row call) σ.states (syncStep σ call).1.states := by
  have hkeep : ∀s row,RowMove σ s row call row :=
    fun _ _ => .kept
  have hrefl : StatesMove (fun s row => RowMove σ s row call) σ.states σ.states :=
    StatesMove.refl hkeep
  cases call with
  | markPending revision serverIDs =>
    exact (statesMove_markPending σ revision serverIDs).mono fun _ _ _ h => .reopened rfl h
  | ensureRevision serverID revision =>
    exact (statesMove_ensureRevision σ).mono fun _ _ _ h => .reopened rfl h
  | drift serverID revision =>
    simp only [syncStep,markConfigurationSyncDrift]
    split_ifs
    · exact hrefl
    all_goals exact statesMove_updateRow hkeep fun row _ => .drifted revision
  | waiting serverID revision retryAt reason problems =>
    simp only [syncStep,markConfigurationSyncWaiting]
    split
    · exact hrefl
    · exact statesMove_updateRow hkeep fun row _ => .stopped ⟨rfl,rfl⟩ rfl nofun fun _ => rfl
  | noop serverID revision digest =>
    simp only [syncStep,markConfigurationSyncNoop]
    split_ifs
    · exact hrefl
    · refine statesMove_updateRow hkeep fun row hp => .synced ⟨rfl,rfl⟩ rfl rfl (.inl ⟨digest,?_⟩)
      rw [of_decide_eq_true hp]
  | updateDigest serverID digest =>
    simp only [syncStep,updateConfigurationSyncWantedDigest]
    split_ifs
    · exact hrefl
    · exact statesMove_updateRow hkeep fun row _ => .digested digest _
  | recover =>
    simp only [syncStep,recover_states]
    exact statesMove_mapRows fun s row => .recovered
  | claim serverID revision =>
    exact statesMove_updateRow hkeep fun row _ => .stopped ⟨rfl,rfl⟩ rfl nofun fun _ => rfl
  | preparationFailure serverID revision resultError problems now =>
    simp only [syncStep,markConfigurationSyncPreparationFailure]
    split
    · exact hrefl
    · exact hrefl
    · exact statesMove_updateRow hkeep fun row _ => .stopped ⟨rfl,rfl⟩ rfl nofun fun _ => rfl
  | queued serverID revision version taskID digest prepared previousTaskID =>
    simp only [syncStep,queued_states]
    exact statesMove_updateRow hkeep fun row _ => .queued rfl rfl rfl
  | unchangedFailure serverID revision resultError =>
    exact statesMove_updateRow hkeep fun row _ => .stopped ⟨rfl,rfl⟩ rfl nofun nofun
  | result serverID configVersion succeeded resultError now =>
    simp only [syncStep,markConfigurationSyncResult]
    split_ifs with hok
    · exact statesMove_updateRow hkeep fun row _ => .stopped ⟨rfl,rfl⟩ rfl nofun nofun
    · refine statesMove_updateRow hkeep fun row hp => .synced ⟨rfl,rfl⟩ rfl rfl (.inr ?_)
      subst hok
      simp only [awaits,Bool.and_eq_true,decide_eq_true_eq] at hp
      exact ⟨configVersion,resultError,now,rfl,hp.1,hp.2⟩
    · exact statesMove_updateRow hkeep fun row _ => .stopped ⟨rfl,rfl⟩ rfl nofun nofun
  | superseded serverID configVersion =>
    simp only [syncStep,markConfigurationSyncSuperseded]
    split_ifs
    · exact hrefl
    · exact statesMove_updateRow hkeep fun row _ => .stopped ⟨rfl,rfl⟩ rfl nofun nofun
  | retryFailed serverIDs =>
    simp only [syncStep,retryFailedConfigurationSync]
    refine statesMove_mapRows fun s row => ?_
    split_ifs
    · exact .stopped ⟨rfl,rfl⟩ rfl nofun nofun
    · exact .kept
  | otherTables tasks flags enrolled => exact hrefl

variable {σ}

section

variable (h : RowMove σ s row call row')
include h

theorem RowMove.wanted : row.wantedRevision≤row'.wantedRevision := by
  cases h with
  | kept => exact le_rfl
  | reopened _ h => exact h.still.wanted
  | drifted revision =>
    dsimp only [drift]
    split_ifs with hlt
    · exact hlt.le
    · exact le_rfl
  | digested digest text => exact le_rfl
  | recovered => exact (still_recover σ).wanted
  | stopped same => exact same.1.ge
  | synced same => exact same.1.ge
  | queued wanted => exact wanted.ge

theorem RowMove.still (hcall : ∀serverID revision version taskID digest prepared previousTaskID,
      call≠.queued serverID revision version taskID digest prepared previousTaskID)
    : Still row row' := by
  have hw := h.wanted
  cases h with
  | kept => exact Still.refl row
  | reopened _ h => exact h.still
  | drifted revision => exact ⟨hw,rfl,nofun⟩
  | digested digest text => exact ⟨hw,rfl,fun h => ⟨h,rfl⟩⟩
  | recovered => exact still_recover σ
  | stopped same idle => exact Still.of_state same.1 same.2 idle
  | synced same idle => exact Still.of_state same.1 same.2 idle
  | queued => exact absurd rfl (hcall _ _ _ _ _ _ _)

theorem RowMove.syncsOnlyBy : SyncsOnlyBy call s row row' := by
  intro hs
  cases h with
  | kept => exact .inl hs
  | reopened _ h =>
    rcases h with rfl | ⟨-,-,hp⟩
    · exact .inl hs
    · rw [hp] at hs
      cases hs
  | drifted revision => cases hs
  | digested digest text => exact .inl hs
  | recovered => exact .inl (σ.synced_of_recovered s row hs)
  | stopped _ _ unsynced => exact absurd hs unsynced
  | synced _ _ _ cause => exact .inr cause
  | queued _ state =>
    rw [state] at hs
    cases hs

end

end moves

def SyncEvent.queuedFor (s : Int) : SyncEvent → Option (Nat×Int)
  | .queued serverID revision version => if serverID=s then some (revision,version) else none
  | _ => none

def lastQueued (s : Int) (log : List SyncEvent) : Option (Nat×Int) :=
  log.reverse.findSome? (SyncEvent.queuedFor s)

def Unqueued (s : Int) (events : List SyncEvent) : Prop := ∀r v,.queued s r v∉events

section logs

variable {s : Int} {log events : List SyncEvent} {row row' : ConfigurationSyncState}

theorem lastQueued_append : lastQueued s (log++events)=(lastQueued s events).or (lastQueued s log) := by
  simp [lastQueued]

theorem lastQueued_eq_none (h : Unqueued s events) : lastQueued s events=none := by
  rw [lastQueued,findSome?_eq_none_iff]
  intro e he
  cases e with
  | queued serverID revision version =>
    refine if_neg ?_
    rintro rfl
    exact h revision version (mem_reverse.mp he)
  | _ => rfl

theorem lastQueued_unqueued (h : Unqueued s events) : lastQueued s (log++events)=lastQueued s log := by
  rw [lastQueued_append,lastQueued_eq_none h]
  rfl

/-- What a row knows of the queueings of its server. -/
structure RowInv (log : List SyncEvent) (s : Int) (row : ConfigurationSyncState) : Prop where
  inFlight : row.inFlight=true → lastQueued s log=some (row.wantedRevision,row.lastConfigVersion)
  latest : ∀r v,.queued s r v∈log → ∃q,lastQueued s log=some (q,row.lastConfigVersion) ∧ r≤q ∧
    q≤row.wantedRevision

theorem RowInv.still (h : RowInv log s row) (hm : Still row row') (he : Unqueued s events) :
    RowInv (log++events) s row' := by
  refine ⟨fun hf => ?_,fun r v hq => ?_⟩
  · obtain ⟨hf0,hw⟩ := hm.inFlight hf
    rw [lastQueued_unqueued he,hw,hm.version]
    exact h.inFlight hf0
  obtain ⟨q,hlast,hr,hle⟩ := h.latest r v ((mem_append.mp hq).resolve_right (he r v))
  rw [lastQueued_unqueued he,hm.version]
  exact ⟨q,hlast,hr,hle.trans hm.wanted⟩

theorem RowInv.queued (h : RowInv log s row) (hw : row'.wantedRevision=row.wantedRevision) :
    RowInv (log++[.queued s row.wantedRevision row'.lastConfigVersion]) s row' := by
  have hlast : lastQueued s (log++[.queued s row.wantedRevision row'.lastConfigVersion])=
      some (row.wantedRevision,row'.lastConfigVersion) := by
    simp [lastQueued,SyncEvent.queuedFor]
  refine ⟨fun _ => by rw [hlast,hw],fun r v hq => ⟨row.wantedRevision,hlast,?_,hw.ge⟩⟩
  rcases mem_append.mp hq with hq | hq
  · obtain ⟨q,-,hr,hle⟩ := h.latest r v hq
    exact hr.trans hle
  · cases mem_singleton.mp hq
    exact le_rfl

end logs

/-- Every row knows the queueings of its server, and only servers with a row have some. -/
structure SyncInv (σ : SyncStore) (log : List SyncEvent) : Prop where
  rows : ∀s row,σ.states.lookup s=some row → RowInv log s row
  absent : ∀s,σ.states.lookup s=none → Unqueued s log

section invariant

theorem SyncInv.still (h : SyncInv σ log) (hm : StatesMove (fun _ => Still) σ.states σ'.states)
    (he : ∀s,Unqueued s events) : SyncInv σ' (log++events) := by
  refine ⟨fun s row' hrow' => ?_,fun s hnone' => ?_⟩
  · cases hrow : σ.states.lookup s with
    | none =>
      obtain ⟨hs,-⟩ := hm.new s row' hrow hrow'
      refine ⟨fun hf => by simp [inFlight,hs] at hf,fun r v hq => ?_⟩
      rcases mem_append.mp hq with hq | hq
      · exact absurd hq (h.absent s hrow r v)
      · exact absurd hq (he s r v)
    | some row =>
      obtain ⟨row2,hrow2,hst⟩ := hm.old s row hrow
      obtain rfl := some.inj (hrow2.symm.trans hrow')
      exact (h.rows s row hrow).still hst (he s)
  · cases hrow : σ.states.lookup s with
    | none => exact fun r v hq => (mem_append.mp hq).elim (h.absent s hrow r v) (he s r v)
    | some row =>
      obtain ⟨row2,hrow2,-⟩ := hm.old s row hrow
      rw [hnone'] at hrow2
      cases hrow2

theorem unqueued_step (σ) (hcall : ∀serverID revision version taskID digest prepared previousTaskID,
      call≠.queued serverID revision version taskID digest prepared previousTaskID) (s) :
    Unqueued s (syncStep σ call).2 := by
  intro r v hq
  cases call with
  | queued serverID revision version taskID digest prepared previousTaskID =>
    exact absurd rfl (hcall serverID revision version taskID digest prepared previousTaskID)
  | drift serverID revision =>
    simp only [syncStep] at hq
    split at hq
    · cases hq
    · split_ifs at hq <;> simp at hq
  | result serverID configVersion succeeded resultError now =>
    simp only [syncStep] at hq
    split_ifs at hq <;> simp at hq
  | _ => cases hq

theorem SyncInv.queued (h : SyncInv σ log) (serverID) (revision)
    (version taskID) (digest) (prepared) (previousTaskID) :
    SyncInv (syncStep σ (.queued serverID revision version taskID digest prepared previousTaskID)).1
      (log++(syncStep σ
        (.queued serverID revision version taskID digest prepared previousTaskID)).2) := by
  simp only [syncStep]
  by_cases hreach : σ.reaches serverID (queueable revision prepared previousTaskID)=true
  · rw [if_pos hreach]
    obtain ⟨row,hrow,hp⟩ := σ.reaches_iff.mp hreach
    have hw : row.wantedRevision=revision := by
      simp only [queueable,Bool.and_eq_true,decide_eq_true_eq] at hp
      exact hp.1
    subst hw
    have hother s (hs : s≠serverID) : Unqueued s [.queued serverID row.wantedRevision version] := by
      intro r v hq
      cases mem_singleton.mp hq
      exact hs rfl
    refine ⟨fun s row' hrow' => ?_,fun s hnone => ?_⟩
    · rw [queued_states,lookup_updateRow] at hrow'
      split_ifs at hrow' with hs
      · subst hs
        simp only [hrow,map_some,if_pos hp,some.injEq] at hrow'
        have hv : row'.lastConfigVersion=version := by rw [← hrow']
        rw [← hv]
        exact (h.rows s row hrow).queued (by rw [← hrow']; rfl)
      · exact (h.rows s row' hrow').still (Still.refl row') (hother s hs)
    · rw [queued_states,lookup_updateRow] at hnone
      split_ifs at hnone with hs
      · subst hs
        rw [hrow] at hnone
        cases hnone
      · exact fun r v hq => (mem_append.mp hq).elim (h.absent s hnone r v) (hother s hs r v)
  · rw [if_neg hreach,append_nil]
    refine ⟨fun s row hrow => ?_,fun s hnone => ?_⟩
    · rw [queued_states,σ.lookup_unreached hreach] at hrow
      exact h.rows s row hrow
    · rw [queued_states,σ.lookup_unreached hreach] at hnone
      exact h.absent s hnone

theorem SyncInv.step (h : SyncInv σ log) (call) :
    SyncInv (syncStep σ call).1 (log++(syncStep σ call).2) := by
  cases call with
  | queued serverID revision version taskID digest prepared previousTaskID =>
    exact h.queued serverID revision version taskID digest prepared previousTaskID
  | _ =>
    exact h.still ((statesMove_step σ _).mono fun _ _ _ hm => hm.still (by simp))
      (unqueued_step σ (by simp))

end invariant

def unmarked (tasks : Table Int AgentTask) (flags : Table Int DeliveryFlags)
    (enrolled : List Int) : SyncStore :=
  {tasks := tasks,flags := flags,enrolled := enrolled}

section

variable (tasks : Table Int AgentTask) (flags : Table Int DeliveryFlags) (enrolled : List Int)

theorem syncInv_unmarked : SyncInv (unmarked tasks flags enrolled) [] :=
  ⟨fun s row h => by simp [unmarked] at h,fun s _ r v hq => by cases hq⟩

theorem syncInv_run (calls) : SyncInv (run syncStep (unmarked tasks flags enrolled) calls).1
      (run syncStep (unmarked tasks flags enrolled) calls).2 := by
  have hg : RunGuarded syncStep (fun _ _ => True) (unmarked tasks flags enrolled) calls :=
    runGuarded_of_forall syncStep (fun _ _ _ => trivial) _
  have h := run_invariant SyncInv (fun _ _ => True) (fun _ hi => hi.step _) hg
    (syncInv_unmarked tasks flags enrolled)
  simpa using h

/-- A row in flight carries the version last queued for it, and nothing was queued beyond the wanted
revision. -/
theorem flight_carries_last_queued (calls : List SyncCall) :
    let reached := run syncStep (unmarked tasks flags enrolled) calls
    (∀s row,reached.1.states.lookup s=some row → row.inFlight=true →
      lastQueued s reached.2=some (row.wantedRevision,row.lastConfigVersion)) ∧
    ∀s row r v,reached.1.states.lookup s=some row → .queued s r v∈reached.2 →
      r≤row.wantedRevision := by
  have h := (syncInv_run tasks flags enrolled calls).rows
  refine ⟨fun s row hrow => (h s row hrow).inFlight,fun s row r v hrow hq => ?_⟩
  obtain ⟨q,-,hr,hq⟩ := (h s row hrow).latest r v hq
  exact hr.trans hq

end

theorem wanted_run (σ) (calls) (s) (row)
    (hrow : σ.states.lookup s=some row) : ∃row',(run syncStep σ calls).1.states.lookup s=some row' ∧
      row.wantedRevision≤row'.wantedRevision := by
  induction calls generalizing σ row with
  | nil => exact ⟨row,hrow,le_rfl⟩
  | cons call calls ih =>
    obtain ⟨row1,hrow1,hle1⟩ := (statesMove_step σ call).old s row hrow
    obtain ⟨row2,hrow2,hle2⟩ := ih _ row1 hrow1
    exact ⟨row2,hrow2,hle1.wanted.trans hle2⟩

/-- A wanted revision never decreases, and a row becomes synced only by a no-op of it or by a success
of the version last queued for it. -/
theorem stale_results_never_sync (tasks : Table Int AgentTask) (flags : Table Int DeliveryFlags)
    (enrolled : List Int) (calls : List SyncCall) (s : Int) :
    (∀later row,(run syncStep (unmarked tasks flags enrolled) calls).1.states.lookup s=some row →
      ∃row',(run syncStep (unmarked tasks flags enrolled) (calls++later)).1.states.lookup s=
        some row' ∧ row.wantedRevision≤row'.wantedRevision) ∧
    (∀call row',(syncStep (run syncStep (unmarked tasks flags enrolled) calls).1
        call).1.states.lookup s=some row' → row'.state=.synced →
      ∃row,(run syncStep (unmarked tasks flags enrolled) calls).1.states.lookup s=some row ∧
        (row.state=.synced ∨ (∃digest,call=.noop s row.wantedRevision digest) ∨
          ∃version resultError now,call=.result s version true resultError now ∧
            lastQueued s (run syncStep (unmarked tasks flags enrolled) calls).2=
              some (row.wantedRevision,version))) := by
  have hinv := syncInv_run tasks flags enrolled calls
  refine ⟨fun later row hrow => ?_,fun call row' hrow' hs => ?_⟩
  · rw [run_append]
    exact wanted_run _ later s row hrow
  have hm := statesMove_step (run syncStep (unmarked tasks flags enrolled) calls).1 call
  cases hrow : (run syncStep (unmarked tasks flags enrolled) calls).1.states.lookup s with
  | none =>
    rw [(hm.new s row' hrow hrow').1] at hs
    cases hs
  | some row =>
    obtain ⟨row2,hrow2,hcause⟩ := hm.old s row hrow
    obtain rfl := some.inj (hrow2.symm.trans hrow')
    refine ⟨row,rfl,?_⟩
    rcases hcause.syncsOnlyBy hs with h0 | hnoop | ⟨version,resultError,now,hcall,rfl,hf⟩
    · exact .inl h0
    · exact .inr (.inl hnoop)
    · exact .inr (.inr ⟨_,resultError,now,hcall,(hinv.rows s row hrow).inFlight hf⟩)

/-- The row is on its way from a drift report to a task result. -/
def Recovering (row : ConfigurationSyncState) : Prop :=
  row.triggerReason=some .agentDrift ∧ row.state≠.synced ∧ row.state≠.running

section recovery

variable {σ : SyncStore} {s : Int}

open ConfigurationSyncState SyncStore

variable {row : ConfigurationSyncState}

theorem Recovering.not_opensDrift (h : Recovering row) : row.opensDrift=false := by
  obtain ⟨ht,hs,hr⟩ := h
  cases hst : row.state <;> simp_all [opensDrift]

theorem recovering_drift (row : ConfigurationSyncState) : Recovering (row.drift revision) :=
  ⟨rfl,nofun,nofun⟩

theorem Recovering.of_state (h : Recovering row) (ht : row'.triggerReason=row.triggerReason)
    (hs : row'.state≠.synced) (hr : row'.state≠.running) : Recovering row' :=
  ⟨ht.trans h.1,hs,hr⟩

theorem Recovering.recovered (h : Recovering row) (s) :
    Recovering (recoverBusy (σ.recoverPending s (σ.recoverFailed s row))) := by
  have h1 : Recovering (σ.recoverFailed s row) := by
    unfold recoverFailed
    split_ifs
    · exact h.of_state rfl nofun nofun
    · exact h
  have h2 : Recovering (σ.recoverPending s (σ.recoverFailed s row)) := by
    unfold recoverPending
    split_ifs
    · exact h1.of_state rfl nofun nofun
    · exact h1
  unfold recoverBusy
  split_ifs
  · exact h2.of_state rfl nofun nofun
  · exact h2

theorem Recovering.move (h : Recovering row)
    (hcall : call.recoversOnly=true) (hm : RowMove σ s row call row') : Recovering row' := by
  cases hm with
  | kept => exact h
  | reopened hc => exact absurd (hcall.symm.trans hc) nofun
  | drifted revision => exact recovering_drift row
  | digested digest text => cases hcall
  | recovered => exact h.recovered s
  | stopped _ idle unsynced trigger =>
    refine h.of_state (trigger hcall) unsynced fun hr => ?_
    simp [inFlight,hr] at idle
  | synced _ _ hc => exact absurd (hcall.symm.trans hc) nofun
  | queued _ state trigger => exact h.of_state trigger (by simp [state]) (by simp [state])

theorem driftOpened_step (h : .driftOpened s∈(syncStep σ call).2) :
    (syncStep σ call).2=[.driftOpened s] ∧
    (∃row,σ.states.lookup s=some row ∧ ¬Recovering row) ∧
    ∃row',(syncStep σ call).1.states.lookup s=some row' ∧ Recovering row' := by
  cases call with
  | drift serverID revision =>
    simp only [syncStep,markConfigurationSyncDrift] at h ⊢
    by_cases hid : serverID≤0 ∨ revision=0
    · simp [hid] at h
    by_cases hreach : σ.reaches serverID (·.opensDrift)=true
    · simp only [if_neg hid,if_pos hreach,mem_singleton,SyncEvent.driftOpened.injEq] at h ⊢
      subst h
      obtain ⟨row,hrow,hopen⟩ := σ.reaches_iff.mp hreach
      refine ⟨rfl,⟨row,hrow,fun hr => ?_⟩,row.drift revision,?_,recovering_drift row⟩
      · rw [hr.not_opensDrift] at hopen
        cases hopen
      · simp [updateRow,lookup_modify,hrow,hopen]
    · simp [hid,hreach] at h
  | queued serverID revision version taskID digest prepared previousTaskID =>
    simp only [syncStep] at h
    split_ifs at h <;> simp at h
  | result serverID configVersion succeeded resultError now =>
    simp only [syncStep] at h
    split_ifs at h <;> simp at h
  | _ => cases h

/-- At most one recovery was opened, and after it the row is recovering. -/
def OneRecovery (s : Int) (σ : SyncStore) (log : List SyncEvent) : Prop :=
  .driftOpened s∉log ∨ (log.count (.driftOpened s)=1 ∧
    ∃row,σ.states.lookup s=some row ∧ Recovering row)

theorem OneRecovery.step (hcall : call.recoversOnly=true)
    (h : OneRecovery s σ log) : OneRecovery s (syncStep σ call).1 (log++(syncStep σ call).2) := by
  by_cases hopen : .driftOpened s∈(syncStep σ call).2
  · obtain ⟨hev,⟨row,hrow,hnot⟩,hafter⟩ := driftOpened_step hopen
    rcases h with h | ⟨-,row0,hrow0,hr⟩
    · refine .inr ⟨?_,hafter⟩
      rw [hev,count_append,count_eq_zero_of_not_mem h]
      simp
    · obtain rfl := some.inj (hrow.symm.trans hrow0)
      exact absurd hr hnot
  · rcases h with h | ⟨hcount,row,hrow,hr⟩
    · exact .inl (fun hm => (mem_append.mp hm).elim h hopen)
    obtain ⟨row',hrow',hmove⟩ := (statesMove_step σ call).old s row hrow
    refine .inr ⟨?_,row',hrow',hr.move hcall hmove⟩
    rw [count_append,hcount,count_eq_zero_of_not_mem hopen]

end recovery

/-- Whatever the stored state, a drift report opens at most one recovery for a server as long as no
revision is marked and no task reports back. -/
theorem one_drift_one_recovery (σ : SyncStore) (calls : List SyncCall)
    (hcalls : ∀call∈calls,call.recoversOnly=true) (s : Int) :
    (run syncStep σ calls).2.count (.driftOpened s)≤1 := by
  have h := run_invariant (OneRecovery s) (fun _ (call : SyncCall) => call.recoversOnly=true)
    (fun hc hi => hi.step hc) (runGuarded_of_forall syncStep (fun call hc _ => hcalls call hc) σ)
    (.inl (by simp) : OneRecovery s σ [])
  rcases h with h | ⟨hcount,-⟩
  · rw [nil_append] at h
    rw [count_eq_zero_of_not_mem h]
    exact Nat.zero_le 1
  · exact hcount.le

def driftingServer : SyncStore :=
  {states := (∅ : Table Int ConfigurationSyncState).insert 1
    {wantedRevision := 3,wantedDigest := "routing:3",state := .synced,lastConfigVersion := 4}}

def driftReports : List SyncCall :=
  [.drift 1 3,.drift 1 3,.claim 1 3,.drift 1 3,.waiting 1 3 0 "certificate" [],.drift 1 3,
    .claim 1 3,.queued 1 3 5 9 "d" true 0,.drift 1 3,.recover,.drift 1 3]

theorem drifting_server_recovers_once : (∀call∈driftReports,call.recoversOnly=true) ∧
    (run syncStep driftingServer driftReports).2=[.driftOpened 1,.queued 1 3 5] ∧
    (run syncStep driftingServer driftReports).2.count (.driftOpened 1)≤1 := by
  have hcalls : ∀call∈driftReports,call.recoversOnly=true := by
    simp [driftReports,SyncCall.recoversOnly]
  exact ⟨hcalls,by decide +kernel,one_drift_one_recovery driftingServer driftReports hcalls 1⟩

end Oboard.Store
