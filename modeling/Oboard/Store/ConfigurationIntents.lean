import Oboard.Store.ConfigurationSync
import Oboard.Framework.Ascending
import Oboard.Framework.Runs

namespace Oboard.Store

open Ascending List Table SyncStore Runs Prod

inductive IntentScope where
  | explicitIDs
  | all
  | unresolved
  deriving DecidableEq

structure IntentKey where
  source : String
  scope : IntentScope
  serverID : Int
  deriving DecidableEq

/-- The check constraint on a key: only an explicit intent names a server. -/
def IntentKey.valid (key : IntentKey) : Bool :=
  match key.scope with
  | .explicitIDs => 0<key.serverID
  | _ => key.serverID=0

def IntentKey.covers (key : IntentKey) (serverID : Int) : Prop :=
  key.scope=.explicitIDs → serverID=key.serverID

structure ConfigurationSyncIntent where
  revision : Nat
  processingRevision : Nat := 0
  lastServerID : Int := 0
  firstChangedAt : String
  updatedAt : String

structure IntentTable where
  revision : Nat := 0
  intents : Table IntentKey ConfigurationSyncIntent := ∅

namespace IntentTable

/-- The row a write leaves. A repeated intent keeps its place and the page it stands at. -/
def intentRow (t : IntentTable) (key : IntentKey) (stamp : String) : ConfigurationSyncIntent :=
  match t.intents.lookup key with
  | none => {revision := t.revision,firstChangedAt := stamp,updatedAt := stamp}
  | some row => {row with revision := t.revision,updatedAt := stamp}

theorem intentRow_revision (t : IntentTable) (key : IntentKey) (stamp) :
    (t.intentRow key stamp).revision=t.revision := by
  unfold intentRow
  split <;> rfl

/-- The check constraints refuse an invalid key and the revision zero. -/
def writable (t : IntentTable) (key : IntentKey) : Bool := key.valid && 0<t.revision

def writeIntent (t : IntentTable) (key : IntentKey) (stamp : String) : IntentTable :=
  if t.writable key then {t with intents := t.intents.insert key (t.intentRow key stamp)} else t

end IntentTable

structure IntentStore extends IntentTable where
  sync : SyncStore := {}

def configurationSyncIntentBatchSize : Nat := 64

def configurationSyncTargetBatchSize : Nat := 128

def sweepKey : IntentKey := ⟨"sweep.periodic",.unresolved,0⟩

structure ProcessedIntent where
  key : IntentKey
  revision : Nat
  targetCount : Nat

structure IntentPage where
  ids : List Int
  revision : Nat
  finished : Bool

namespace IntentStore

section

variable (σ : IntentStore)

def queueConfigurationSyncSweep (stamp : String) : IntentStore :=
  {σ with toIntentTable := σ.writeIntent sweepKey stamp}

def oldestIntents : List (IntentKey×ConfigurationSyncIntent) :=
  (σ.intents.rows.insertionSort (fun a b => a.2.firstChangedAt<b.2.firstChangedAt ∨
    (a.2.firstChangedAt=b.2.firstChangedAt ∧ (a.1.source<b.1.source ∨
      (a.1.source=b.1.source ∧ a.1.serverID≤b.1.serverID))))).take configurationSyncIntentBatchSize

/-- Servers with an agent or a synchronisation row, by id. -/
def targets : List Int :=
  sortUnique (σ.sync.enrolled++σ.sync.states.rows.map fst)

def page (remaining : Nat) (key : IntentKey) (row : ConfigurationSyncIntent) : IntentPage :=
  match key.scope with
  | .explicitIDs => ⟨σ.targets.filter (fun id => id=key.serverID),row.revision,true⟩
  | _ =>
    let ids := (σ.targets.filter (fun id => row.lastServerID< id)).take remaining
    ⟨ids,if row.processingRevision≠0 then row.processingRevision else row.revision,
      ids.length<remaining⟩

end

/-- The row after its page: gone, started again for a newer revision, or moved on. -/
def closePage (intents : Table IntentKey ConfigurationSyncIntent) (key : IntentKey)
    (row : ConfigurationSyncIntent) (page : IntentPage) (stamp : String) :
    Table IntentKey ConfigurationSyncIntent :=
  if page.finished ∧ page.revision=row.revision then
    intents.deleteRows (fun k r => k=key && r.revision=row.revision)
  else if page.finished then intents.modify key (fun r =>
    {r with processingRevision := 0,lastServerID := 0,firstChangedAt := stamp})
  else intents.modify key (fun r =>
    {r with
      processingRevision := page.revision
      lastServerID := page.ids.getLast?.getD 0
      firstChangedAt := stamp})

def drainIntent (σ : IntentStore) (stamp : String) (key : IntentKey)
    (row : ConfigurationSyncIntent) (page : IntentPage) : IntentStore :=
  {σ with
    sync := page.ids.foldl (fun s id => s.markConfigurationSyncPendingTx id page.revision) σ.sync
    intents := closePage σ.intents key row page stamp}

/-- The intents read at the start share one budget of targets. -/
def drainIntents (stamp : String) :
    IntentStore → Nat → List (IntentKey×ConfigurationSyncIntent) → IntentStore×List ProcessedIntent
  | σ,_,[] => (σ,[])
  | σ,remaining,(key,row)::rest =>
    if remaining=0 then (σ,[])
    else
      let page := σ.page remaining key row
      let (σ,processed) :=
        drainIntents stamp (σ.drainIntent stamp key row page) (remaining-page.ids.length) rest
      (σ,⟨key,page.revision,page.ids.length⟩::processed)

def drainConfigurationSyncIntents (σ : IntentStore) (stamp : String) :
    IntentStore×List ProcessedIntent :=
  drainIntents stamp σ configurationSyncTargetBatchSize σ.oldestIntents

end IntentStore

/-- What a run of the intent table consists of. The revision only moves up. -/
inductive IntentCall where
  | advance (by_ : Nat)
  | write (key : IntentKey) (stamp : String)
  | sweep (stamp : String)
  | drain (stamp : String)

def intentStep (σ : IntentStore) : IntentCall → IntentStore×List (IntentKey×Nat)
  | .advance by_ => ({σ with revision := σ.revision+by_},[])
  | .write key stamp => ({σ with toIntentTable := σ.writeIntent key stamp},
      if σ.writable key then [(key,σ.revision)] else [])
  | .sweep stamp => (σ.queueConfigurationSyncSweep stamp,
      if σ.writable sweepKey then [(sweepKey,σ.revision)] else [])
  | .drain stamp => ((σ.drainConfigurationSyncIntents stamp).1,[])

def SyncStore.Wants (s : SyncStore) (serverID : Int) (revision : Nat) : Prop :=
  ∃row,s.states.lookup serverID=some row ∧ revision≤row.wantedRevision

section pending

variable {s : SyncStore} {serverID id : Int}

theorem wants_pending_self (s : SyncStore) :
    (s.markConfigurationSyncPendingTx serverID revision).Wants serverID revision := by
  unfold markConfigurationSyncPendingTx insertOrReopen
  cases hrow : s.states.lookup serverID with
  | none => exact ⟨_,AList.lookup_insert _,le_rfl⟩
  | some row =>
    refine ⟨_,by rw [updateRow,lookup_modify,if_pos rfl,hrow]; rfl,?_⟩
    dsimp only
    split_ifs with hlt
    · exact le_rfl
    · simpa using hlt

theorem SyncStore.Wants.pending (h : s.Wants id r) (serverID) (revision) :
    (s.markConfigurationSyncPendingTx serverID revision).Wants id r := by
  obtain ⟨row,hrow,hr⟩ := h
  unfold markConfigurationSyncPendingTx insertOrReopen
  cases hother : s.states.lookup serverID with
  | none =>
    have hne : id≠serverID := fun he => by rw [he,hother] at hrow; cases hrow
    exact ⟨row,by rw [lookup_insert_eq,if_neg hne,hrow],hr⟩
  | some other =>
    rw [updateRow]
    by_cases he : id=serverID
    · subst he
      refine ⟨_,by rw [lookup_modify,if_pos rfl,hrow]; rfl,?_⟩
      dsimp only
      split_ifs with hlt
      · have hlt : row.wantedRevision<revision := by simpa using hlt
        exact hr.trans hlt.le
      · exact hr
    · exact ⟨row,by rw [lookup_modify,if_neg he,hrow],hr⟩

theorem SyncStore.Wants.pendingAll (h : s.Wants id r) (ids : List Int) (revision : Nat) :
    (ids.foldl (fun s id => s.markConfigurationSyncPendingTx id revision) s).Wants id r := by
  induction ids generalizing s with
  | nil => exact h
  | cons i ids ih => exact ih (h.pending i revision)

theorem wants_pendingAll {ids : List Int} (hid : id∈ids) (s : SyncStore) (revision : Nat) :
    (ids.foldl (fun s id => s.markConfigurationSyncPendingTx id revision) s).Wants id revision := by
  induction ids generalizing s with
  | nil => simp at hid
  | cons i ids ih =>
    rcases mem_cons.mp hid with rfl|hid
    · exact (wants_pending_self s).pendingAll ids revision
    · exact ih hid _

theorem enrolled_pendingAll (s : SyncStore) (ids : List Int) (revision : Nat) :
    (ids.foldl (fun s id => s.markConfigurationSyncPendingTx id revision) s).enrolled=
      s.enrolled := by
  induction ids generalizing s with
  | nil => rfl
  | cons i ids ih =>
    rw [foldl_cons,ih]
    unfold markConfigurationSyncPendingTx insertOrReopen
    split <;> rfl

end pending

section pages

variable {σ : IntentStore} {key : IntentKey} {row : ConfigurationSyncIntent}
  {log : List (IntentKey×Nat)} {id : Int} {remaining : Nat}

theorem mem_targets_of_enrolled (h : id∈σ.sync.enrolled) : id∈σ.targets :=
  mem_sortUnique.mpr (mem_append_left _ h)

/-- The servers a row says it has reached are to reach the revision of the page. -/
structure PageReached (s : SyncStore) (row : ConfigurationSyncIntent) : Prop where
  unstarted : row.processingRevision=0 → row.lastServerID=0
  reached : ∀id∈s.enrolled,id ≤ row.lastServerID → s.Wants id row.processingRevision
  bounded : row.processingRevision≤row.revision

/-- The servers with an agent. Their ids are assigned by the database and positive. -/
structure Fleet where
  ids : List Int
  positive : ∀id∈ids,0 < id

/-- What the table and the log of everything written say about each other. -/
structure IntentsHold (fleet : Fleet) (σ : IntentStore) (log : List (IntentKey×Nat)) : Prop where
  enrolled : σ.sync.enrolled=fleet.ids
  written : ∀e∈log,e.2≤σ.revision
  rows : ∀key row,σ.intents.lookup key=some row →
    PageReached σ.sync row ∧ 0<row.revision ∧ row.revision≤σ.revision ∧
      ∀r,(key,r)∈log → r≤row.revision
  settled : ∀key,σ.intents.lookup key=none → ∀r,(key,r)∈log →
    ∀id∈σ.sync.enrolled,key.covers id → σ.sync.Wants id r

theorem page_explicit (h : key.scope=.explicitIDs) : σ.page remaining key row=
    ⟨σ.targets.filter (·=key.serverID),row.revision,true⟩ := by
  rw [IntentStore.page,h]

def fleetIDs (σ : IntentStore) (remaining : Nat) (row : ConfigurationSyncIntent) : List Int :=
  (σ.targets.filter (fun id => row.lastServerID< id)).take remaining

theorem page_fleet (h : key.scope≠.explicitIDs) : σ.page remaining key row=
    ⟨fleetIDs σ remaining row,
      if row.processingRevision≠0 then row.processingRevision else row.revision,
      (fleetIDs σ remaining row).length<remaining⟩ := by
  unfold IntentStore.page
  split
  · next he => exact absurd he h
  · rfl

theorem page_revision (hr : PageReached σ.sync row) (hpos : 0<row.revision) :
    (σ.page remaining key row).revision≤row.revision ∧ 0<(σ.page remaining key row).revision := by
  by_cases hs : key.scope=.explicitIDs
  · rw [page_explicit hs]
    exact ⟨le_rfl,hpos⟩
  rw [page_fleet hs]
  split_ifs with h
  · exact ⟨hr.bounded,Nat.pos_of_ne_zero h⟩
  · exact ⟨le_rfl,hpos⟩

theorem closePage_other (hne : other≠key) :
    (IntentStore.closePage σ.intents key row page stamp).lookup other=σ.intents.lookup other := by
  unfold IntentStore.closePage
  split_ifs
  · rw [lookup_deleteRows]
    cases σ.intents.lookup other <;> simp [hne]
  · rw [lookup_modify,if_neg hne]
  · rw [lookup_modify,if_neg hne]

theorem SyncStore.Wants.mono {s : SyncStore} (h : s.Wants id r) (hle : r'≤r) : s.Wants id r' := by
  obtain ⟨row,hrow,hr⟩ := h
  exact ⟨row,hrow,hle.trans hr⟩

section drain

theorem SyncStore.Wants.drainIntent (h : σ.sync.Wants id r) :
    (σ.drainIntent stamp key row page).sync.Wants id r :=
  h.pendingAll _ _

theorem enrolled_drainIntent : (σ.drainIntent stamp key row page).sync.enrolled=σ.sync.enrolled :=
  enrolled_pendingAll _ _ _

theorem PageReached.drainIntent (h : PageReached σ.sync other) :
    PageReached (σ.drainIntent stamp key row page).sync other := by
  refine ⟨h.unstarted,fun id hid hle => ?_,h.bounded⟩
  rw [enrolled_drainIntent] at hid
  exact (h.reached id hid hle).drainIntent

end drain

section reached

variable (hp : ∀id∈σ.sync.enrolled,0 < id) (hr : PageReached σ.sync row)

include hp hr

theorem fleet_drained (hs : key.scope≠.explicitIDs) (hid : id∈σ.sync.enrolled)
    (hin : row.lastServerID< id → id∈fleetIDs σ remaining row) :
    (σ.drainIntent stamp key row (σ.page remaining key row)).sync.Wants id
      (σ.page remaining key row).revision := by
  by_cases hle : id ≤ row.lastServerID
  · have hreached : σ.sync.Wants id (σ.page remaining key row).revision := by
      rw [page_fleet hs]
      split_ifs with h
      · exact hr.reached id hid hle
      have hzero := hr.unstarted (not_not.mp h)
      have hid := hp id hid
      omega
    exact hreached.pendingAll _ _
  · refine wants_pendingAll ?_ _ _
    rw [page_fleet hs]
    exact hin (not_le.mp hle)

theorem page_finished (hfinished : (σ.page remaining key row).finished=true)
    (hid : id∈σ.sync.enrolled) (hcovers : key.covers id) :
    (σ.drainIntent stamp key row (σ.page remaining key row)).sync.Wants id
      (σ.page remaining key row).revision := by
  by_cases hs : key.scope=.explicitIDs
  · refine wants_pendingAll ?_ _ _
    rw [page_explicit hs]
    exact mem_filter.mpr ⟨mem_targets_of_enrolled hid,by simpa using hcovers hs⟩
  refine fleet_drained hp hr hs hid (fun hlt => ?_)
  rw [page_fleet hs] at hfinished
  have hall : fleetIDs σ remaining row=σ.targets.filter (row.lastServerID< ·) := by
    refine take_of_length_le ?_
    simp only [fleetIDs,length_take,decide_eq_true_eq] at hfinished
    omega
  rw [hall]
  exact mem_filter.mpr ⟨mem_targets_of_enrolled hid,decide_eq_true hlt⟩

theorem page_open (hpos : 0<remaining) (hopen : (σ.page remaining key row).finished=false)
    (hid : id∈σ.sync.enrolled) (hle : id ≤ (σ.page remaining key row).ids.getLast?.getD 0) :
    (σ.drainIntent stamp key row (σ.page remaining key row)).sync.Wants id
      (σ.page remaining key row).revision := by
  by_cases hs : key.scope=.explicitIDs
  · rw [page_explicit hs] at hopen
    cases hopen
  refine fleet_drained hp hr hs hid (fun hlt => ?_)
  rw [page_fleet hs] at hopen hle
  have hne : fleetIDs σ remaining row≠[] := by
    intro hnil
    simp [hnil,hpos] at hopen
  have hascending : (σ.targets.filter (row.lastServerID< ·)).Pairwise (· < ·) :=
    (sortUnique_ascending _).sublist filter_sublist
  rw [getLast?_eq_some_getLast hne] at hle
  exact mem_take_of_le hascending (mem_filter.mpr ⟨mem_targets_of_enrolled hid,decide_eq_true hlt⟩)
    (getLast?_eq_some_getLast hne) hle

/-- The row of the drained intent is gone, starts again, or stands at a page it has reached. -/
theorem closePage_self (hpos : 0<row.revision) (hrow : σ.intents.lookup key=some row) (hremaining : 0<remaining)
    (h : (σ.drainIntent stamp key row (σ.page remaining key row)).intents.lookup key=some row') :
    PageReached (σ.drainIntent stamp key row (σ.page remaining key row)).sync row' ∧
      row'.revision=row.revision := by
  obtain ⟨hle,hpage⟩ := page_revision hr hpos
  have h : (IntentStore.closePage σ.intents key row (σ.page remaining key row) stamp).lookup key=
    some row' := h
  unfold IntentStore.closePage at h
  split_ifs at h with hdone hfinished
  · simp [lookup_deleteRows,hrow,Option.filter] at h
  · rw [lookup_modify,if_pos rfl,hrow] at h
    cases h
    refine ⟨⟨fun _ => rfl,fun id hid hid0 => ?_,Nat.zero_le _⟩,rfl⟩
    rw [enrolled_drainIntent] at hid
    exact absurd (hp id hid) (not_lt.mpr hid0)
  · rw [lookup_modify,if_pos rfl,hrow] at h
    cases h
    refine ⟨⟨fun hzero => absurd hzero hpage.ne',fun id hid hid' => ?_,hle⟩,rfl⟩
    rw [enrolled_drainIntent] at hid
    exact page_open hp hr hremaining (Bool.eq_false_of_not_eq_true hfinished) hid hid'

theorem closePage_gone (hrow : σ.intents.lookup key=some row) (hid : id∈σ.sync.enrolled) (hcovers : key.covers id)
    (h : (σ.drainIntent stamp key row (σ.page remaining key row)).intents.lookup key=none) :
    (σ.drainIntent stamp key row (σ.page remaining key row)).sync.Wants id row.revision := by
  have h : (IntentStore.closePage σ.intents key row (σ.page remaining key row) stamp).lookup key=
    none := h
  unfold IntentStore.closePage at h
  split_ifs at h with hdone
  · rw [← hdone.2]
    exact page_finished hp hr hdone.1 hid hcovers
  · simp [lookup_modify,hrow] at h
  · simp [lookup_modify,hrow] at h

end reached

namespace IntentsHold

variable (h : IntentsHold fleet σ log)
include h

theorem positive : ∀id∈σ.sync.enrolled,0 < id :=
  h.enrolled ▸ fleet.positive

theorem drainIntent (hrow : σ.intents.lookup key=some row) (hremaining : 0<remaining) :
    IntentsHold fleet (σ.drainIntent stamp key row (σ.page remaining key row)) log := by
  obtain ⟨hreached,hpos,hcurrent,hbound⟩ := h.rows key row hrow
  refine ⟨enrolled_drainIntent.trans h.enrolled,h.written,?_,?_⟩
  · intro other row' hother
    by_cases hne : other=key
    · subst hne
      obtain ⟨hr',hrevision⟩ := closePage_self h.positive hreached hpos hrow hremaining hother
      rw [hrevision]
      exact ⟨hr',hpos,hcurrent,hbound⟩
    have hother := (closePage_other hne).symm.trans hother
    obtain ⟨hr',hrest⟩ := h.rows other row' hother
    exact ⟨hr'.drainIntent,hrest⟩
  · intro other hother r hr id hid hcovers
    rw [enrolled_drainIntent] at hid
    by_cases hne : other=key
    · subst hne
      exact (closePage_gone h.positive hreached hrow hid hcovers hother).mono (hbound r hr)
    · have hother := (closePage_other hne).symm.trans hother
      exact (h.settled other hother r hr id hid hcovers).drainIntent

/-- The rows read at the start of a drain are still the stored ones when their turn comes, since
each intent is closed once. -/
theorem drainIntents {read : List (IntentKey×ConfigurationSyncIntent)}
    (hread : ∀e∈read,σ.intents.lookup e.1=some e.2) (hkeys : (read.map fst).Nodup) :
    IntentsHold fleet (IntentStore.drainIntents stamp σ remaining read).1 log := by
  induction read generalizing σ remaining with
  | nil => exact h
  | cons e rest ih =>
    obtain ⟨key,row⟩ := e
    rw [IntentStore.drainIntents]
    split_ifs with hzero
    · exact h
    obtain ⟨hfresh,hkeys⟩ := nodup_cons.mp hkeys
    refine ih (h.drainIntent (hread _ mem_cons_self) (Nat.pos_of_ne_zero hzero)) ?_ hkeys
    intro e he
    have hne : e.1≠key := fun heq => hfresh (mem_map.mpr ⟨e,he,heq⟩)
    exact (closePage_other hne).trans (hread e (mem_cons_of_mem _ he))

theorem drain : IntentsHold fleet (σ.drainConfigurationSyncIntents stamp).1 log := by
  refine h.drainIntents (fun e he => ?_) ?_
  · exact mem_rows.mp ((mem_insertionSort _).mp (mem_of_mem_take he))
  have hrows : (σ.intents.rows.map fst).Nodup := by
    have hkeys : σ.intents.rows.map fst=σ.intents.keys := by
      simp [Table.rows,AList.keys,List.keys]
    rw [hkeys]
    exact σ.intents.keys_nodup
  refine List.Nodup.sublist ((take_sublist _ _).map _) ?_
  exact ((perm_insertionSort _ σ.intents.rows).map fst).nodup_iff.mpr hrows

theorem intentRow_reached (key) (stamp) : PageReached σ.sync (σ.intentRow key stamp) := by
  unfold IntentTable.intentRow
  cases hrow : σ.intents.lookup key with
  | none =>
    exact ⟨fun _ => rfl,fun id hid hle => absurd (h.positive id hid) (not_lt.mpr hle),
      Nat.zero_le _⟩
  | some row =>
    obtain ⟨hr,-,hcurrent,-⟩ := h.rows key row hrow
    exact ⟨hr.unstarted,hr.reached,hr.bounded.trans hcurrent⟩

theorem write (key : IntentKey) (stamp) :
    IntentsHold fleet {σ with toIntentTable := σ.writeIntent key stamp}
      (log++if σ.writable key then [(key,σ.revision)] else []) := by
  unfold IntentTable.writeIntent
  split_ifs with hw
  · have hpos : 0<σ.revision := by simpa using (Bool.and_eq_true_iff.mp hw).2
    have hlog r (hr : (key,r)∈log++[(key,σ.revision)]) : r≤σ.revision := by
      rcases mem_append.mp hr with hr|hr
      · exact h.written _ hr
      · exact (mk.inj (mem_singleton.mp hr)).2.le
    have hother other (hne : other≠key) r
        (hr : (other,r)∈log++[(key,σ.revision)]) : (other,r)∈log := by
      rcases mem_append.mp hr with hr|hr
      · exact hr
      · exact absurd (mk.inj (mem_singleton.mp hr)).1 hne
    refine ⟨h.enrolled,fun e he => ?_,?_,?_⟩
    · rcases mem_append.mp he with he|he
      · exact h.written e he
      · rw [mem_singleton.mp he]
    · intro other row hrow
      rw [lookup_insert_eq] at hrow
      split_ifs at hrow with hne
      · cases hrow
        subst hne
        rw [IntentTable.intentRow_revision]
        exact ⟨h.intentRow_reached other stamp,hpos,le_rfl,hlog⟩
      · obtain ⟨hr,hrpos,hcurrent,hbound⟩ := h.rows other row hrow
        exact ⟨hr,hrpos,hcurrent,fun r hr => hbound r (hother other hne r hr)⟩
    · intro other hnone r hr
      rw [lookup_insert_eq] at hnone
      split_ifs at hnone with hne
      exact h.settled other hnone r (hother other hne r hr)
  · simpa using h

theorem step (call) : IntentsHold fleet (intentStep σ call).1 (log++(intentStep σ call).2) := by
  cases call with
  | advance by_ =>
    refine ⟨h.enrolled,fun e he => ?_,?_,?_⟩
    · exact (h.written e (by simpa [intentStep] using he)).trans (Nat.le_add_right _ _)
    · intro key row hrow
      obtain ⟨hr,hpos,hcurrent,hbound⟩ := h.rows key row hrow
      exact ⟨hr,hpos,hcurrent.trans (Nat.le_add_right _ _),by simpa [intentStep] using hbound⟩
    · simpa [intentStep] using h.settled
  | write key stamp => exact h.write key stamp
  | sweep stamp => exact h.write sweepKey stamp
  | drain stamp => simpa [intentStep] using h.drain

end IntentsHold

end pages

def startIntents (fleet : Fleet) (sync : SyncStore) (revision : Nat) : IntentStore where
  revision := revision
  sync := {sync with enrolled := fleet.ids}

/-- An intent is only gone once every server it is about wants all it ever asked for. -/
theorem no_intent_lost (fleet : Fleet) (sync : SyncStore) (revision : Nat)
    (calls : List IntentCall) (key : IntentKey)
    (hnone : (run intentStep (startIntents fleet sync revision) calls).1.intents.lookup key=
      none) (r : Nat)
    (hr : (key,r)∈(run intentStep (startIntents fleet sync revision) calls).2) (id : Int)
    (hid : id∈fleet.ids) (hcovers : key.covers id) :
    (run intentStep (startIntents fleet sync revision) calls).1.sync.Wants id r := by
  have hstart : IntentsHold fleet (startIntents fleet sync revision) [] :=
    ⟨rfl,by simp,by simp [startIntents],by simp⟩
  have hguard : Runs.RunGuarded intentStep (fun _ _ => True) (startIntents fleet sync revision)
      calls := runGuarded_of_forall _ (fun _ _ _ => trivial) _
  have hrun := run_invariant (IntentsHold fleet) _
    (fun {_ _ _} _ h => h.step _) hguard hstart
  exact hrun.settled key hnone r hr id (hrun.enrolled ▸ hid) hcovers

/-- A stored intent holds the newest revision written for it, and every server up to its cursor wants
what it processes. -/
theorem cursor_never_ahead (fleet : Fleet) (sync : SyncStore) (revision : Nat)
    (calls : List IntentCall) :
    let reached := run intentStep (startIntents fleet sync revision) calls
    (∀key row r,reached.1.intents.lookup key=some row → (key,r)∈reached.2 → r≤row.revision) ∧
    ∀key row id,reached.1.intents.lookup key=some row → id∈fleet.ids → id ≤ row.lastServerID →
      reached.1.sync.Wants id row.processingRevision := by
  have hstart : IntentsHold fleet (startIntents fleet sync revision) [] :=
    ⟨rfl,by simp,by simp [startIntents],by simp⟩
  have h := run_keeps intentStep (IntentsHold fleet) (·.step _) hstart calls
  exact ⟨fun key row r hrow => (h.rows key row hrow).2.2.2 r,fun key row id hrow hid =>
    (h.rows key row hrow).1.reached id (h.enrolled ▸ hid)⟩

def twoServers : Fleet := ⟨[1,2],by decide⟩

def sweptRun : List IntentCall :=
  [.advance 1,.write ⟨"inbounds.update",.explicitIDs,2⟩ "a",.advance 1,.sweep "b",.drain "c"]

theorem sweptRun_reaches_all :
    sweepKey.covers 1 ∧ (sweepKey,2)∈(run intentStep (startIntents twoServers {} 0) sweptRun).2 ∧
    (run intentStep (startIntents twoServers {} 0) sweptRun).1.sync.Wants 1 2 :=
  have hcovers : sweepKey.covers 1 := fun h => by cases h
  have hlog : (sweepKey,2)∈(run intentStep (startIntents twoServers {} 0) sweptRun).2 := by
    decide +kernel
  ⟨hcovers,hlog,no_intent_lost twoServers {} 0 sweptRun sweepKey (by decide +kernel) 2 hlog 1
    (by decide) hcovers⟩

end Oboard.Store
