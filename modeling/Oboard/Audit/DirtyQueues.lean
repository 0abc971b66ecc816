import Mathlib.Data.List.Dedup
import Oboard.Activity.Admission
import Oboard.Audit.EventCycles

namespace Oboard.Audit

open Runs Activity List Table Nat

structure AccountActivityDirty where
  accountID : Int
  revision : Nat

structure AccountAuditWork where
  userID : Int
  revision : Int

inductive QueueError where
  | invalidLimit

section calls

def listAccountActivityDirty (db : ActivityDB) (limit : Int) :
    Except QueueError (List AccountActivityDirty) :=
  if limit<1 ∨ 500<limit then .error .invalidLimit
  else
    let waiting := db.dirty.rows.filter (fun d => d.2.evaluated<d.2.revision)
    .ok (((waiting.insertionSort (fun d e => d.1≤e.1)).take limit.toNat).map
      (fun d => ⟨d.1,d.2.revision⟩))

/-- Only the revision that was seen is acknowledged. -/
def markAccountActivityPipelineEvaluated (db : ActivityDB) (userID : Int) (revision : Nat) :
    ActivityDB :=
  {db with dirty := db.dirty.modify userID (fun d =>
    if d.revision=revision then {d with evaluated := revision} else d)}

def listAccountAuditWork (db : AuditDB) (afterUserID limit : Int) :
    Except QueueError (List AccountAuditWork) :=
  if afterUserID<0 ∨ limit<1 ∨ 100<limit then .error .invalidLimit
  else
    let work := db.dirty.rows.filter (fun d => afterUserID<d.1)
    .ok (((work.insertionSort (fun d e => d.1≤e.1)).take limit.toNat).map (fun d => ⟨d.1,d.2⟩))

end calls

section system

/-- The queueing worker goes through the accounts it listed, and marks each before it acknowledges. -/
structure QueueWorker where
  items : List AccountActivityDirty := []
  marked : Bool := false

/-- The evaluation worker goes through the work it listed, and loads each before it saves. -/
structure EvaluationWorker where
  items : List AccountAuditWork := []
  loaded : Bool := false

structure Queues where
  activity : ActivityDB := {}
  audit : AuditDB := {}
  queue : QueueWorker := {}
  worker : EvaluationWorker := {}

inductive QueueMove where
  | pipeline (move : PipelineMove)
  | markOther (userID : Int)
  | cleanHistory (before limit : Int)
  | listDirty (limit : Int)
  /-- The mark or the acknowledgement of the next listed account, or its failure. -/
  | markListed (ok : Bool)
  | acknowledge (ok : Bool)
  | listWork (afterUserID limit : Int)
  | loadFeatures (ok : Bool)
  /-- The snapshot that the evaluation came to, if it did. -/
  | saveSnapshot (s : Option RiskSnapshot)
  | restartQueue
  | restartWorker

inductive QueueEvent where
  | evidence (account : Int)
  | loaded (account : Int)
  | saved (account : Int)
  deriving DecidableEq

/-- The accounts that a batch brings evidence of, by a snapshot or by an expected stream. -/
def evidenceAccounts (db : ActivityDB) (b : AccountActivityBatch) : List Int :=
  (b.items.filter (fun r => (db.counterOf b r).seq≤b.sequence)).map (·.accountID)++
    (db.expected.rows.filter (fun e => e.1.server=b.serverID && e.1.stream=b.streamType &&
      e.1.minute=b.minuteUnix)).map (·.1.account)

def evidenceEvents (db : ActivityDB) : PipelineEvent → List QueueEvent
  | .accepted _ => []
  | .applied b => (evidenceAccounts db b).map .evidence

variable (env : PipelineEnv) (size : RiskSnapshot → Nat) (q : Queues)

def queueStep : QueueMove → Queues×List QueueEvent
  | .pipeline move =>
    let next := pipelineStep env q.activity move
    ({q with activity := next.1},next.2.flatMap (evidenceEvents q.activity))
  | .markOther userID => ({q with audit := markAccountAuditDirty q.audit userID},[])
  | .cleanHistory before limit =>
    ({q with audit := keepOnError q.audit (cleanupAccountAuditHistory q.audit before limit)},[])
  | .listDirty limit =>
    if q.queue.items=[] then
      let items := keepOnError [] (listAccountActivityDirty q.activity limit)
      ({q with queue := {items := items}},[])
    else (q,[])
  | .markListed ok => match q.queue.items with
    | [] => (q,[])
    | item::rest =>
      if q.queue.marked then (q,[])
      else if ok then
        let audit := markAccountAuditDirty q.audit item.accountID
        ({q with audit := audit,queue := {q.queue with marked := true}},[])
      else ({q with queue := {items := rest}},[])
  | .acknowledge ok => match q.queue.items with
    | [] => (q,[])
    | item::rest =>
      if !q.queue.marked then (q,[])
      else
        let activity := if ok then
            markAccountActivityPipelineEvaluated q.activity item.accountID item.revision
          else q.activity
        ({q with activity := activity,queue := {items := rest}},[])
  | .listWork afterUserID limit =>
    if q.worker.items=[] then
      let items := keepOnError [] (listAccountAuditWork q.audit afterUserID limit)
      ({q with worker := {items := items}},[])
    else (q,[])
  | .loadFeatures ok => match q.worker.items with
    | [] => (q,[])
    | item::rest =>
      if q.worker.loaded then (q,[])
      else if ok then ({q with worker := {q.worker with loaded := true}},[.loaded item.userID])
      else ({q with worker := {items := rest}},[])
  | .saveSnapshot s => match q.worker.items with
    | [] => (q,[])
    | item::rest =>
      if !q.worker.loaded then (q,[])
      else
        let saved := s.bind (fun s =>
          (saveAccountAuditSnapshot q.audit {s with accountID := item.userID} size item.revision).toOption)
        match saved with
        | none => ({q with worker := {items := rest}},[])
        | some audit => ({q with audit := audit,worker := {items := rest}},[.saved item.userID])
  | .restartQueue => ({q with queue := {}},[])
  | .restartWorker => ({q with worker := {}},[])

end system

section evidence

/-- Whether there is evidence of an account since its last load, and since the load of its last saved
snapshot. -/
structure Evidence where
  sinceLoad : Bool := false
  sinceSaved : Bool := false

def Evidence.see (account : Int) (e : Evidence) : QueueEvent → Evidence
  | .evidence a => if a=account then ⟨true,true⟩ else e
  | .loaded a => if a=account then {e with sinceLoad := false} else e
  | .saved a => if a=account then {e with sinceSaved := e.sinceLoad} else e

def evidenceOf (log : List QueueEvent) (account : Int) : Evidence := log.foldl (Evidence.see account) {}

end evidence

section dirtyRows

/-- The account has activity that was not acknowledged. -/
def Waiting (t : Table Int DirtyRow) (account : Int) : Prop :=
  ∃row,t.lookup account=some row ∧ row.evaluated<row.revision

/-- Nothing is acknowledged that was not there. -/
def Behind (t : Table Int DirtyRow) : Prop :=
  ∀a row,t.lookup a=some row → row.evaluated≤row.revision

/-- What any call of the pipeline does to the rows. A waiting row stays and only moves on. -/
structure Advances (t t' : Table Int DirtyRow) : Prop where
  behind : Behind t → Behind t'
  stays : ∀a row,t.lookup a=some row → row.evaluated<row.revision →
    ∃row',t'.lookup a=some row' ∧ row'.evaluated<row'.revision ∧ row.revision≤row'.revision

/-- The account waits at a revision that nobody saw before. -/
def Raised (t t' : Table Int DirtyRow) (account : Int) : Prop :=
  ∃row',t'.lookup account=some row' ∧ row'.evaluated<row'.revision ∧
    ∀row,t.lookup account=some row → row.evaluated<row.revision → row.revision<row'.revision

theorem Advances.refl (t) : Advances t t :=
  ⟨id,fun _ row h hlt => ⟨row,h,hlt,le_rfl⟩⟩

theorem Advances.trans (h : Advances t u) (h' : Advances u v) : Advances t v where
  behind := fun hb => h'.behind (h.behind hb)
  stays := by
    intro a row hrow hlt
    obtain ⟨row',hrow',hlt',hle⟩ := h.stays a row hrow hlt
    obtain ⟨row'',hrow'',hlt'',hle'⟩ := h'.stays a row' hrow' hlt'
    exact ⟨row'',hrow'',hlt'',le_trans hle hle'⟩

theorem Raised.advances (h : Raised t u a) (h' : Advances u v) : Raised t v a := by
  obtain ⟨row,hrow,hlt,hnew⟩ := h
  obtain ⟨row',hrow',hlt',hle⟩ := h'.stays a row hrow hlt
  exact ⟨row',hrow',hlt',fun old hold hwait => lt_of_lt_of_le (hnew old hold hwait) hle⟩

theorem Advances.raised (h : Advances t u) (h' : Raised u v a) : Raised t v a := by
  obtain ⟨row,hrow,hlt,hnew⟩ := h'
  refine ⟨row,hrow,hlt,fun old hold hwait => ?_⟩
  obtain ⟨mid,hmid,hmlt,hle⟩ := h.stays a old hold hwait
  exact lt_of_le_of_lt hle (hnew mid hmid hmlt)

theorem touchAccount_advances (db) (account) :
    Advances db.dirty (touchAccount db account).dirty where
  behind := by
    intro hb
    refine forall_insert hb ?_
    cases hrow : db.dirty.lookup account with
    | none => exact zero_le _
    | some row => exact le_succ_of_le (hb account row hrow)
  stays := by
    intro a row hrow hlt
    unfold touchAccount
    rw [lookup_insert_eq]
    split_ifs with ha
    · subst ha
      rw [hrow]
      exact ⟨_,rfl,lt_succ_of_lt hlt,le_succ _⟩
    · exact ⟨row,hrow,hlt,le_rfl⟩

theorem touchAccount_raised (hb : Behind db.dirty) :
    Raised db.dirty (touchAccount db account).dirty account := by
  refine ⟨_,AList.lookup_insert _,?_⟩
  cases hrow : db.dirty.lookup account with
  | none => exact ⟨zero_lt_one,nofun⟩
  | some row =>
    refine ⟨lt_succ_of_le (hb account row hrow),fun old hold _ => ?_⟩
    cases hold
    exact lt_succ_self _

theorem touchAccounts_advances (accounts : List Int) (db : ActivityDB) :
    Advances db.dirty (accounts.foldl touchAccount db).dirty :=
  foldl_related (R := fun d d' : ActivityDB => Advances d.dirty d'.dirty) (fun _ => .refl _)
    (fun h h' => h.trans h') touchAccount_advances accounts db

theorem touchAccounts_raised {accounts : List Int} (ha : a∈accounts) (hb : Behind db.dirty) :
    Raised db.dirty (accounts.foldl touchAccount db).dirty a := by
  induction accounts generalizing db with
  | nil => exact absurd ha not_mem_nil
  | cons c accounts ih =>
    rcases mem_cons.mp ha with rfl | ha
    · exact (touchAccount_raised hb).advances (touchAccounts_advances accounts _)
    · exact (touchAccount_advances db c).raised (ih ha ((touchAccount_advances db c).behind hb))

theorem reclaimActivityDirty_advances (env) (clock) (hd : db.dirty=t) :
    Advances t (reclaimActivityDirty env db clock).dirty where
  behind := fun hb a row hrow => hb a row (hd ▸ lookup_of_deleteLimited hrow)
  stays := by
    intro a row hrow hlt
    refine ⟨row,?_,hlt,le_rfl⟩
    subst hd
    unfold reclaimActivityDirty
    dsimp only [deletePortion]
    rw [lookup_deleteLimited_of_not,hrow]
    intro row' hrow'
    rw [hrow] at hrow'
    cases hrow'
    simp [ne_of_gt hlt]

theorem reserveCounters_advances (db) (b) : Advances db.dirty (reserveCounters db b).dirty := by
  unfold reserveCounters
  dsimp only
  rw [foldl_map]
  refine foldl_related Advances.refl Advances.trans (fun t r => ?_) _ _
  unfold Table.putNew
  split_ifs with hsome
  · exact .refl t
  refine ⟨fun hb => forall_insert hb (le_rfl),fun a row hrow hlt => ?_⟩
  refine ⟨row,?_,hlt,le_rfl⟩
  rw [AList.lookup_insert_ne,hrow]
  rintro rfl
  simp [hrow] at hsome

theorem reserveActivityCapacity_advances
    (h : reserveActivityCapacity env db b clock=.ok db') : Advances db.dirty db'.dirty := by
  have hreserve := (reclaimActivityDirty_advances env clock (Eq.refl db.dirty)).trans
    (reserveCounters_advances (deleteCheckpoints env (reclaimActivityDirty env db clock) (clock-180)) b)
  unfold reserveActivityCapacity at h
  dsimp only at h
  split at h
  · exact nomatch h
  split at h
  · exact nomatch h
  obtain ⟨checkpoint,-,h⟩ := bind_ok h
  cases h
  exact hreserve

section

variable (h : applyItem b db r=.ok db')
include h

theorem applyItem_touch : (b.sequence<(db.counterOf b r).seq ∧ db'=db) ∨
      ∃mid : ActivityDB,mid.dirty=db.dirty ∧ mid.counter=(db.count b r).counter ∧
        db'=touchAccount mid r.accountID := by
  rcases applyItem_cases h with hskip | ⟨-,-,rfl⟩
  · exact .inl hskip
  refine .inr ⟨_,?_,?_,rfl⟩
  · split
    · rcases recordSource_cases (db.count b r) b r (r.bytesSince (db.counterOf b r).counts) with
        ⟨-,heq⟩ | ⟨-,-,heq⟩ <;> rw [heq] <;> rfl
    · rfl
  split
  · exact recordSource_counter _ _ _ _
  · rfl

theorem applyItem_advances : Advances db.dirty db'.dirty := by
  rcases applyItem_touch h with ⟨-,rfl⟩ | ⟨mid,hdirty,-,rfl⟩
  · exact .refl _
  · rw [← hdirty]
    exact touchAccount_advances mid _

theorem applyItem_counter
    (hle : (db.counterOf b r').seq≤b.sequence) : (db'.counterOf b r').seq≤b.sequence := by
  rcases applyItem_touch h with ⟨-,rfl⟩ | ⟨mid,-,hcounter,rfl⟩
  · exact hle
  change ((mid.counter.lookup (b.counterKey r')).getD {}).seq≤b.sequence
  rw [hcounter,ActivityDB.count,lookup_insert_eq]
  split_ifs
  · exact Int.le_rfl
  · exact hle

theorem applyItem_raised (hle : (db.counterOf b r).seq≤b.sequence)
    (hb : Behind db.dirty) : Raised db.dirty db'.dirty r.accountID := by
  rcases applyItem_touch h with ⟨hlt,-⟩ | ⟨mid,hdirty,-,rfl⟩
  · omega
  · rw [← hdirty] at hb ⊢
    exact touchAccount_raised hb

end

variable {items : List AccountActivityBatchItem}

theorem applyItems_advances
    (h : items.foldlM (applyItem b) db=.ok db') : Advances db.dirty db'.dirty :=
  foldlM_related (R := fun d d' : ActivityDB => Advances d.dirty d'.dirty) (fun _ => .refl _)
    (fun h h' => h.trans h') applyItem_advances h

theorem applyItems_raised (h : items.foldlM (applyItem b) db=.ok db') (hr : r∈items)
    (hle : (db.counterOf b r).seq≤b.sequence) (hb : Behind db.dirty) :
    Raised db.dirty db'.dirty r.accountID := by
  induction items generalizing db with
  | nil => exact absurd hr not_mem_nil
  | cons r' items ih =>
    obtain ⟨mid,hone,hrest⟩ := bind_ok h
    rcases mem_cons.mp hr with rfl | hr
    · exact (applyItem_raised hone hle hb).advances (applyItems_advances hrest)
    · have hadvances := applyItem_advances hone
      exact hadvances.raised (ih hrest hr (applyItem_counter hone hle) (hadvances.behind hb))

theorem finishBatch_advances :
    Advances ((db.coverBatch b gap).touchExpected b).dirty (finishBatch env db b gap now).dirty := by
  exact reclaimActivityDirty_advances env _ rfl

theorem touchExpected_advances (db : ActivityDB) (b : AccountActivityBatch) :
    Advances db.dirty (db.touchExpected b).dirty :=
  touchAccounts_advances _ db

theorem saveExpected_advances (h : saveExpected now db e=.ok db') :
    Advances db.dirty db'.dirty := by
  unfold saveExpected at h
  split at h
  · exact nomatch h
  · cases h
    exact touchAccount_advances _ _

theorem saveAccountActivityExpected_advances
    (h : saveAccountActivityExpected env db expected now=.ok db') : Advances db.dirty db'.dirty := by
  unfold saveAccountActivityExpected at h
  split at h
  · exact nomatch h
  obtain ⟨db1,hall,h⟩ := bind_ok h
  split at h
  · exact nomatch h
  cases h
  have hrows := foldlM_related (R := fun d d' : ActivityDB => Advances d.dirty d'.dirty)
    (fun _ => .refl _) (fun h h' => h.trans h') saveExpected_advances hall
  refine Advances.trans ?_ hrows
  exact reclaimActivityDirty_advances env _ rfl

theorem pipelineStep_advances (env : PipelineEnv) (db : ActivityDB) (move : PipelineMove) :
    Advances db.dirty (pipelineStep env db move).1.dirty := by
  have hturn := pipelineStep_turn env db move
  generalize pipelineStep env db move=result at hturn ⊢
  cases hturn with
  | failed | ticked => exact .refl _
  | stored hb hraw hs =>
    have hadvances := reserveActivityCapacity_advances hs.reserved
    obtain ⟨digest,gap,rfl⟩ := hs.result
    exact hadvances
  | @applied i b applied now hnext hb hitems =>
    have hexpected := touchExpected_advances (applied.coverBatch b i.2.gap) b
    exact ((applyItems_advances hitems).trans hexpected).trans
      finishBatch_advances
  | expected hsave => exact saveAccountActivityExpected_advances hsave
  | cleaned => exact reclaimActivityDirty_advances env _ rfl

theorem pipelineStep_raised {move : PipelineMove} (hb : Behind db.dirty)
    (ha : .evidence a∈(pipelineStep env db move).2.flatMap (evidenceEvents db)) :
    Raised db.dirty (pipelineStep env db move).1.dirty a := by
  obtain ⟨event,hevent,ha⟩ := mem_flatMap.mp ha
  have hturn := pipelineStep_turn env db move
  generalize pipelineStep env db move=result at hturn hevent ⊢
  -- only an applied batch brings evidence
  cases hturn with
  | failed | ticked | expected | cleaned => exact absurd hevent not_mem_nil
  | stored =>
    cases mem_singleton.mp hevent
    exact absurd ha not_mem_nil
  | @applied i b applied now hnext hpayload hitems =>
    cases mem_singleton.mp hevent
    obtain ⟨a',ha',heq⟩ := mem_map.mp ha
    cases heq
    have hadvances := applyItems_advances hitems
    have hexpected := touchExpected_advances (applied.coverBatch b i.2.gap) b
    rcases mem_append.mp ha' with ha' | ha'
    · obtain ⟨r,hr,rfl⟩ := mem_map.mp ha'
      obtain ⟨hr,hle⟩ := mem_filter.mp hr
      have hraised := applyItems_raised hitems hr (of_decide_eq_true hle) hb
      exact (hraised.advances hexpected).advances finishBatch_advances
    have hrows : applied.expected=db.expected := by
      rw [applyItems_only hitems]
      rfl
    rw [← hrows] at ha'
    have hraised : Raised (applied.coverBatch b i.2.gap).dirty
        ((applied.coverBatch b i.2.gap).touchExpected b).dirty a :=
      touchAccounts_raised (mem_dedup.mpr ha') (hadvances.behind hb)
    exact (hadvances.raised hraised).advances finishBatch_advances

end dirtyRows

variable {size : RiskSnapshot → Nat} {a : Int}

section marks

theorem notifyEvent_dirty (hok : notifyEvent db st risk s=.ok db') : db'.dirty=db.dirty := by
  unfold notifyEvent at hok
  split at hok
  · split at hok
    · exact nomatch hok
    unfold queueAccountAuditNotification at hok
    dsimp only at hok
    split at hok
    · exact nomatch hok
    split at hok
    · cases hok
      rfl
    split at hok
    · exact nomatch hok
    split at hok
    · exact nomatch hok
    · cases hok
      rfl
  · cases hok
    rfl

theorem saveRisk_dirty (hok : saveRisk db risk s=.ok db') : db'.dirty=db.dirty := by
  unfold saveRisk at hok
  dsimp only at hok
  split at hok
  · cases hok
    rfl
  obtain ⟨⟨db1,st1⟩,hopen,hok⟩ := bind_ok hok
  obtain ⟨db2,hnotify,hok⟩ := bind_ok hok
  cases hok
  have hopened : db1.dirty=db.dirty := by
    obtain ⟨-,⟨rfl,-⟩ | ⟨-,row,-,-,-,rfl⟩⟩ := openEvent_ok hopen <;> rfl
  have hadvanced : (advanceEvent db1 st1 risk s).1.dirty=db1.dirty := by
    unfold advanceEvent
    split_ifs <;> rfl
  have hcancelled : (cancelNotifications db2 (advanceEvent db1 st1 risk s).2 risk s).dirty=
      db2.dirty := by
    unfold cancelNotifications
    split_ifs <;> rfl
  exact hcancelled.trans ((notifyEvent_dirty hnotify).trans (hadvanced.trans hopened))

theorem saveAccountAuditSnapshot_dirty (hok : saveAccountAuditSnapshot db s size revision=.ok db')
    (a) : db'.dirty.lookup a=if a=s.accountID then (db.dirty.lookup a).filter (revision<·)
      else db.dirty.lookup a := by
  obtain ⟨-,-,db1,db2,hactivity,hexposure,rfl⟩ := saveAccountAuditSnapshot_ok hok
  have hdirty : db2.dirty=db.dirty := by
    rw [saveRisk_dirty hexposure,saveRisk_dirty hactivity]
    rfl
  change (db2.dirty.deleteRows _).lookup a=_
  rw [lookup_deleteRows,hdirty]
  by_cases ha : a=s.accountID
  · rw [if_pos ha]
    congr 1
    funext r
    by_cases hr : r≤revision
    · simp [ha,hr]
    · simp [Int.not_le.mp hr]
  · cases db.dirty.lookup a <;> simp [ha]

theorem cleanupAccountAuditHistory_dirty (db) (before limit) :
    (keepOnError db (cleanupAccountAuditHistory db before limit)).dirty=db.dirty := by
  unfold cleanupAccountAuditHistory
  split_ifs <;> rfl

theorem markAccountAuditDirty_self :
    ∃r',(markAccountAuditDirty db userID).dirty.lookup userID=some r' ∧
      ∀r,db.dirty.lookup userID=some r → r<r' := by
  refine ⟨_,AList.lookup_insert _,fun r hr => ?_⟩
  rw [hr]
  exact Int.lt_succ r

theorem markAccountAuditDirty_other (ha : a≠userID) :
    (markAccountAuditDirty db userID).dirty.lookup a=db.dirty.lookup a :=
  AList.lookup_insert_ne ha

end marks

section invariant

/-- The account is marked, above the revision of an evaluation that has already loaded it. -/
def Marked (q : Queues) (a : Int) : Prop :=
  ∃r,q.audit.dirty.lookup a=some r ∧
    ∀item rest,q.worker.items=item::rest → q.worker.loaded=true → item.userID=a → item.revision<r

/-- The marks of the audit alone account for all evidence. -/
structure Safe (q : Queues) (e : Evidence) (a : Int) : Prop where
  saved : e.sinceSaved=true → ∃r,q.audit.dirty.lookup a=some r
  load : e.sinceLoad=true → Marked q a

structure QueueInv (q : Queues) (log : List QueueEvent) : Prop where
  behind : Behind q.activity.dirty
  /-- What the queueing worker holds is still waiting. -/
  listed : ∀item∈q.queue.items,∃row,q.activity.dirty.lookup item.accountID=some row ∧
    row.evaluated<row.revision ∧ item.revision≤row.revision
  listedOnce : (q.queue.items.map (·.accountID)).Nodup
  /-- What the evaluation worker holds is still marked. -/
  work : ∀item∈q.worker.items,∃r,q.audit.dirty.lookup item.userID=some r ∧ item.revision≤r
  workOnce : (q.worker.items.map (·.userID)).Nodup
  covered : ∀a,Waiting q.activity.dirty a ∨ Safe q (evidenceOf log a) a
  /-- An acknowledgement that will match finds the account marked. -/
  marked : ∀item rest row,q.queue.items=item::rest → q.queue.marked=true →
    q.activity.dirty.lookup item.accountID=some row → row.revision=item.revision →
    Safe q (evidenceOf log item.accountID) item.accountID

variable {log : List QueueEvent}

theorem evidenceOf_append (log events) (a) :
    evidenceOf (log++events) a=events.foldl (Evidence.see a) (evidenceOf log a) := by
  rw [evidenceOf,foldl_append]
  rfl

def QueueEvent.account : QueueEvent → Int
  | .evidence a | .loaded a | .saved a => a

theorem foldl_see_other {events : List QueueEvent} (h : ∀event∈events,event.account≠a) : events.foldl (Evidence.see a) e=e := by
  induction events generalizing e with
  | nil => rfl
  | cons event events ih =>
    have hne := h event mem_cons_self
    have hone : e.see a event=e := by
      cases event <;> exact if_neg hne
    rw [foldl_cons,hone,ih fun event' h' => h event' (mem_cons_of_mem _ h')]

theorem Safe.mono (h : Safe q e a)
    (haudit : q'.audit.dirty.lookup a=q.audit.dirty.lookup a)
    (hworker : ∀item rest,q'.worker.items=item::rest → q'.worker.loaded=true → item.userID=a →
      q.worker.items=item::rest ∧ q.worker.loaded=true) : Safe q' e a where
  saved := by
    rw [haudit]
    exact h.saved
  load := by
    intro hload
    obtain ⟨r,hr,hheld⟩ := h.load hload
    refine ⟨r,by rw [haudit,hr],fun item rest hitems hloaded ha => ?_⟩
    obtain ⟨hitems,hloaded⟩ := hworker item rest hitems hloaded ha
    exact hheld item rest hitems hloaded ha

theorem Safe.congr (h : Safe q e a)
    (haudit : q'.audit.dirty=q.audit.dirty) (hworker : q'.worker=q.worker) : Safe q' e a :=
  h.mono (by rw [haudit]) fun _ _ hitems hloaded _ => hworker ▸ ⟨hitems,hloaded⟩

theorem Safe.idle (h : Safe q e a) (haudit : q'.audit.dirty.lookup a=q.audit.dirty.lookup a)
    (hidle : q'.worker.loaded=false) : Safe q' e a :=
  h.mono haudit fun _ _ _ hloaded _ => absurd (hidle.symm.trans hloaded) Bool.false_ne_true

section

variable (hi : QueueInv q log)
include hi

theorem QueueInv.pipeline (env) (move) :
    QueueInv {q with activity := (pipelineStep env q.activity move).1}
      (log++(pipelineStep env q.activity move).2.flatMap (evidenceEvents q.activity)) := by
  have hadvances := pipelineStep_advances env q.activity move
  -- only accounts whose revision was raised have seen something
  have hsame {a} (hno : ¬Raised q.activity.dirty (pipelineStep env q.activity move).1.dirty a) :
      evidenceOf (log++(pipelineStep env q.activity move).2.flatMap (evidenceEvents q.activity)) a=
        evidenceOf log a := by
    rw [evidenceOf_append]
    refine foldl_see_other (fun event hevent ha => hno (pipelineStep_raised hi.behind ?_))
    obtain ⟨applied,happlied,hin⟩ := mem_flatMap.mp hevent
    refine mem_flatMap.mpr ⟨applied,happlied,?_⟩
    cases applied with
    | accepted b => exact absurd hin not_mem_nil
    | applied b =>
      obtain ⟨c,-,rfl⟩ := mem_map.mp hin
      cases ha
      exact hin
  refine ⟨hadvances.behind hi.behind,?_,hi.listedOnce,hi.work,hi.workOnce,fun a => ?_,?_⟩
  · intro item hitem
    obtain ⟨row,hrow,hlt,hle⟩ := hi.listed item hitem
    obtain ⟨row',hrow',hlt',hle'⟩ := hadvances.stays _ row hrow hlt
    exact ⟨row',hrow',hlt',le_trans hle hle'⟩
  · by_cases hraised : Raised q.activity.dirty (pipelineStep env q.activity move).1.dirty a
    · obtain ⟨row,hrow,hlt,-⟩ := hraised
      exact .inl ⟨row,hrow,hlt⟩
    rw [hsame hraised]
    rcases hi.covered a with ⟨row,hrow,hlt⟩ | hsafe
    · obtain ⟨row',hrow',hlt',-⟩ := hadvances.stays a row hrow hlt
      exact .inl ⟨row',hrow',hlt'⟩
    · exact .inr (hsafe.congr rfl rfl)
  · intro item rest row' hitems hmarked hrow' hrev
    obtain ⟨row,hrow,hlt,hle⟩ := hi.listed item (by rw [hitems]; exact mem_cons_self)
    obtain ⟨row'',hrow'',-,hle'⟩ := hadvances.stays _ row hrow hlt
    have hone := Option.some.inj (hrow'.symm.trans hrow'')
    subst hone
    have hraised : ¬Raised q.activity.dirty (pipelineStep env q.activity move).1.dirty item.accountID := by
      rintro ⟨new,hnew,-,habove⟩
      have hone := Option.some.inj (hrow'.symm.trans hnew)
      subst hone
      have := habove row hrow hlt
      omega
    rw [hsame hraised]
    exact (hi.marked item rest row hitems hmarked hrow (by omega)).congr rfl rfl

theorem Safe.mark (h : a≠userID → Safe q e a)
    (haudit : q'.audit=markAccountAuditDirty q.audit userID) (hworker : q'.worker=q.worker) :
    Safe q' e a := by
  by_cases ha : a=userID
  · subst ha
    obtain ⟨r',hr',habove⟩ := markAccountAuditDirty_self
    rw [← haudit] at hr'
    refine ⟨fun _ => ⟨r',hr'⟩,fun _ => ⟨r',hr',fun item rest hitems _ hitem => ?_⟩⟩
    rw [hworker] at hitems
    obtain ⟨r,hr,hle⟩ := hi.work item (by rw [hitems]; exact mem_cons_self)
    rw [hitem] at hr
    have := habove r hr
    omega
  · refine (h ha).mono ?_ fun item rest hitems hloaded _ => ?_
    · rw [haudit]
      exact markAccountAuditDirty_other ha
    · rw [hworker] at hitems hloaded
      exact ⟨hitems,hloaded⟩

theorem QueueInv.work_mark (userID) :
    ∀item∈q.worker.items,∃r,(markAccountAuditDirty q.audit userID).dirty.lookup item.userID=some r ∧
      item.revision≤r := by
  intro item hitem
  obtain ⟨r,hr,hle⟩ := hi.work item hitem
  by_cases ha : item.userID=userID
  · obtain ⟨r',hr',habove⟩ := markAccountAuditDirty_self
    have := habove r (ha ▸ hr)
    exact ⟨r',by rw [ha]; exact hr',by omega⟩
  · exact ⟨r,by rw [markAccountAuditDirty_other ha,hr],hle⟩

theorem QueueInv.mark (userID)
    (hitems : queue.items=q.queue.items)
    (hmarked : queue.marked=true → q.queue.marked=true ∨
      ∃item rest,q.queue.items=item::rest ∧ item.accountID=userID) :
    QueueInv {q with audit := markAccountAuditDirty q.audit userID,queue := queue} log where
  behind := hi.behind
  listed := by
    rw [hitems]
    exact hi.listed
  listedOnce := by
    rw [hitems]
    exact hi.listedOnce
  work := hi.work_mark userID
  workOnce := hi.workOnce
  covered := by
    intro a
    rcases hi.covered a with hwaiting | hsafe
    · exact .inl hwaiting
    · exact .inr (Safe.mark hi (fun _ => hsafe) rfl rfl)
  marked := by
    intro item rest row hhead hm hrow hrev
    rw [hitems] at hhead
    refine Safe.mark hi (fun hne => ?_) rfl rfl
    rcases hmarked hm with hm | ⟨item',rest',hhead',haccount⟩
    · exact hi.marked item rest row hhead hm hrow hrev
    rw [hhead] at hhead'
    cases hhead'
    exact absurd haccount hne

/-- A move that leaves the activity and the queueing worker alone. -/
theorem QueueInv.evaluate
    (hsafe : ∀{a},Safe q (evidenceOf log a) a →
      Safe {q with audit := audit,worker := worker} (evidenceOf log' a) a)
    (hwork : ∀item∈worker.items,∃r,audit.dirty.lookup item.userID=some r ∧ item.revision≤r)
    (honce : (worker.items.map (·.userID)).Nodup) :
    QueueInv {q with audit := audit,worker := worker} log' where
  behind := hi.behind
  listed := hi.listed
  listedOnce := hi.listedOnce
  work := hwork
  workOnce := honce
  covered := fun a => (hi.covered a).imp_right hsafe
  marked := fun item rest row hitems hm hrow hrev =>
    hsafe (hi.marked item rest row hitems hm hrow hrev)

theorem QueueInv.audit {audit : AuditDB} (hdirty : audit.dirty=q.audit.dirty) :
    QueueInv {q with audit := audit} log :=
  hi.evaluate (·.congr hdirty rfl) (by rw [hdirty]; exact hi.work) hi.workOnce

end

theorem QueueInv.queue (hi : QueueInv q log)
    (hlisted : ∀item∈items,∃row,q.activity.dirty.lookup item.accountID=some row ∧
      row.evaluated<row.revision ∧ item.revision≤row.revision)
    (honce : (items.map (·.accountID)).Nodup) : QueueInv {q with queue := {items := items}} log where
  behind := hi.behind
  listed := hlisted
  listedOnce := honce
  work := hi.work
  workOnce := hi.workOnce
  covered := fun a => (hi.covered a).imp_right fun hsafe => hsafe.congr rfl rfl
  marked := fun _ _ _ _ hm => absurd hm Bool.false_ne_true

theorem QueueInv.dropQueue (hi : QueueInv q log)
    (hitems : items <:+ q.queue.items) : QueueInv {q with queue := {items := items}} log :=
  hi.queue (fun item hitem => hi.listed item (hitems.subset hitem))
    (hi.listedOnce.sublist (hitems.sublist.map _))

theorem QueueInv.worker (hi : QueueInv q log)
    (hwork : ∀item∈items,∃r,q.audit.dirty.lookup item.userID=some r ∧ item.revision≤r)
    (honce : (items.map (·.userID)).Nodup) : QueueInv {q with worker := {items := items}} log :=
  hi.evaluate (·.idle rfl rfl) hwork honce

theorem QueueInv.dropWork (hi : QueueInv q log)
    (hitems : items <:+ q.worker.items) : QueueInv {q with worker := {items := items}} log :=
  hi.worker (fun item hitem => hi.work item (hitems.subset hitem))
    (hi.workOnce.sublist (hitems.sublist.map _))

theorem listing_rows (t : Table Int ρ) (keep : Int×ρ → Bool) (limit) :
    (∀d∈((t.rows.filter keep).insertionSort (fun d e => d.1≤e.1)).take limit,
      t.lookup d.1=some d.2 ∧ keep d=true) ∧
    ((((t.rows.filter keep).insertionSort (fun d e => d.1≤e.1)).take limit).map (·.1)).Nodup := by
  constructor
  · intro d hd
    have hd := (mem_insertionSort _).mp (mem_of_mem_take hd)
    exact (mem_filter.mp hd).imp_left mem_rows.mp
  refine List.Nodup.sublist ((take_sublist _ _).map _) ?_
  refine ((perm_insertionSort _ _).map _).nodup_iff.mpr ?_
  exact t.nodup_keys.sublist (filter_sublist.map _)

theorem QueueInv.listDirty (hi : QueueInv q log) (limit) : QueueInv {q with
      queue := {items := keepOnError [] (listAccountActivityDirty q.activity limit)}} log := by
  unfold listAccountActivityDirty
  split_ifs
  · exact hi.dropQueue nil_suffix
  obtain ⟨hrows,honce⟩ := listing_rows q.activity.dirty (fun d => d.2.evaluated<d.2.revision)
    limit.toNat
  refine hi.queue (fun item hitem => ?_) ?_
  · obtain ⟨d,hd,rfl⟩ := mem_map.mp hitem
    exact ⟨d.2,(hrows d hd).1,of_decide_eq_true (hrows d hd).2,le_rfl⟩
  change (List.map _ (List.map _ _)).Nodup
  rw [map_map]
  exact honce

theorem QueueInv.listWork (hi : QueueInv q log) (afterUserID limit) : QueueInv {q with
      worker := {items := keepOnError [] (listAccountAuditWork q.audit afterUserID limit)}} log := by
  unfold listAccountAuditWork
  split_ifs
  · exact hi.dropWork nil_suffix
  obtain ⟨hrows,honce⟩ := listing_rows q.audit.dirty (fun d => afterUserID<d.1) limit.toNat
  refine hi.worker (fun item hitem => ?_) ?_
  · obtain ⟨d,hd,rfl⟩ := mem_map.mp hitem
    exact ⟨d.2,(hrows d hd).1,Int.le_rfl⟩
  change (List.map _ (List.map _ _)).Nodup
  rw [map_map]
  exact honce

theorem evaluated_lookup : (markAccountActivityPipelineEvaluated db userID revision).dirty.lookup a=
      if a=userID then (db.dirty.lookup userID).map (fun d =>
        if d.revision=revision then {d with evaluated := revision} else d)
      else db.dirty.lookup a :=
  lookup_modify ..

theorem QueueInv.acknowledge (hi : QueueInv q log) (hitems : q.queue.items=item::rest)
    (hmarked : q.queue.marked=true) : QueueInv {q with
      activity := markAccountActivityPipelineEvaluated q.activity item.accountID item.revision
      queue := {items := rest}} log := by
  have honce := hi.listedOnce
  rw [hitems,map_cons,nodup_cons] at honce
  have hother {a} (ha : a≠item.accountID) : (markAccountActivityPipelineEvaluated q.activity
      item.accountID item.revision).dirty.lookup a=q.activity.dirty.lookup a := by
    rw [evaluated_lookup,if_neg ha]
  refine ⟨?_,?_,honce.2,hi.work,hi.workOnce,fun a => ?_,nofun⟩
  · intro a row hrow
    rw [evaluated_lookup] at hrow
    split_ifs at hrow
    · obtain ⟨old,hold,rfl⟩ := Option.map_eq_some_iff.mp hrow
      split_ifs with hrev
      · exact le_of_eq hrev.symm
      · exact hi.behind _ old hold
    · exact hi.behind a row hrow
  · intro item' hitem'
    have hne : item'.accountID≠item.accountID := by
      intro heq
      exact honce.1 (heq ▸ mem_map_of_mem hitem')
    obtain ⟨row,hrow,hrest⟩ := hi.listed item' (by rw [hitems]; exact mem_cons_of_mem _ hitem')
    exact ⟨row,by rw [← hrow]; exact hother hne,hrest⟩
  · by_cases ha : a=item.accountID
    · subst ha
      obtain ⟨row,hrow,hlt,-⟩ := hi.listed item (by rw [hitems]; exact mem_cons_self)
      by_cases hrev : row.revision=item.revision
      · have hsafe := hi.marked item rest row hitems hmarked hrow hrev
        exact .inr (hsafe.congr rfl rfl)
      refine .inl ⟨row,?_,hlt⟩
      rw [evaluated_lookup,if_pos rfl,hrow,Option.map_some,if_neg hrev]
    · rcases hi.covered a with ⟨row,hrow,hlt⟩ | hsafe
      · exact .inl ⟨row,by rw [← hrow]; exact hother ha,hlt⟩
      · exact .inr (hsafe.congr rfl rfl)

/-- A load has seen all evidence so far. -/
theorem QueueInv.load (hi : QueueInv q log) (hitems : q.worker.items=item::rest) :
    QueueInv {q with worker := {q.worker with loaded := true}} (log++[.loaded item.userID]) := by
  refine hi.evaluate (fun {a} hsafe => ?_) hi.work hi.workOnce
  rw [evidenceOf_append]
  change Safe _ (if item.userID=a then _ else _) a
  split_ifs with ha
  · exact ⟨hsafe.saved,nofun⟩
  refine hsafe.mono rfl fun item' rest' hitems' _ ha' => ?_
  rw [hitems] at hitems'
  cases hitems'
  exact absurd ha' ha

theorem QueueInv.save (hi : QueueInv q log) {audit : AuditDB} (hitems : q.worker.items=item::rest)
    (hloaded : q.worker.loaded=true) (hs : s.accountID=item.userID)
    (hok : saveAccountAuditSnapshot q.audit s size item.revision=.ok audit) :
    QueueInv {q with audit := audit,worker := {items := rest}} (log++[.saved item.userID]) := by
  have hdirty := saveAccountAuditSnapshot_dirty hok
  rw [hs] at hdirty
  have honce := hi.workOnce
  rw [hitems,map_cons,nodup_cons] at honce
  refine hi.evaluate (fun {a} hsafe => ?_) (fun item' hitem' => ?_) honce.2
  · rw [evidenceOf_append]
    change Safe _ (if item.userID=a then _ else _) a
    split_ifs with ha
    · -- the mark that covers the evidence since the load is above the saved revision
      subst ha
      have hkept (hload : (evidenceOf log item.userID).sinceLoad=true) :
          ∃r,audit.dirty.lookup item.userID=some r := by
        obtain ⟨r,hr,habove⟩ := hsafe.load hload
        refine ⟨r,?_⟩
        rw [hdirty,if_pos rfl,hr]
        exact Option.filter_eq_some_iff.mpr ⟨rfl,by simpa using habove item rest hitems hloaded rfl⟩
      refine ⟨hkept,fun hload => ?_⟩
      obtain ⟨r,hr⟩ := hkept hload
      exact ⟨r,hr,fun _ _ _ h _ => nomatch h⟩
    · refine hsafe.idle ?_ rfl
      rw [hdirty,if_neg (Ne.symm ha)]
  · obtain ⟨r,hr,hle⟩ := hi.work item' (by rw [hitems]; exact mem_cons_of_mem _ hitem')
    have hne : item'.userID≠item.userID := by
      intro heq
      exact honce.1 (heq ▸ mem_map_of_mem hitem')
    exact ⟨r,by rw [hdirty,if_neg hne,hr],hle⟩

theorem QueueInv.step (hi : QueueInv q log) (env) (size) (move) :
    QueueInv (queueStep env size q move).1 (log++(queueStep env size q move).2) := by
  have hnil {q'} (h : QueueInv q' log) : QueueInv q' (log++[]) := by
    rwa [append_nil]
  cases move with
  | pipeline move => exact hi.pipeline env move
  | markOther userID =>
    exact hnil (hi.mark userID rfl fun h => .inl h)
  | cleanHistory before limit =>
    exact hnil (hi.audit (cleanupAccountAuditHistory_dirty q.audit before limit))
  | listDirty limit =>
    rw [queueStep]
    split_ifs
    · exact hnil (hi.listDirty limit)
    · exact hnil hi
  | markListed ok =>
    rw [queueStep]
    split
    · exact hnil hi
    rename_i item rest hitems
    split_ifs
    · exact hnil hi
    · exact hnil (hi.mark item.accountID rfl fun _ => .inr ⟨item,rest,hitems,rfl⟩)
    · exact hnil (hi.dropQueue (hitems ▸ suffix_cons item rest))
  | acknowledge ok =>
    rw [queueStep]
    split
    · exact hnil hi
    rename_i item rest hitems
    split_ifs with hmarked hok
    · exact hnil hi
    · exact hnil (hi.acknowledge hitems (by simpa using hmarked))
    · exact hnil (hi.dropQueue (hitems ▸ suffix_cons item rest))
  | listWork afterUserID limit =>
    rw [queueStep]
    split_ifs
    · exact hnil (hi.listWork afterUserID limit)
    · exact hnil hi
  | loadFeatures ok =>
    rw [queueStep]
    split
    · exact hnil hi
    rename_i item rest hitems
    split_ifs
    · exact hnil hi
    · exact hi.load hitems
    · exact hnil (hi.dropWork (hitems ▸ suffix_cons item rest))
  | saveSnapshot s =>
    rw [queueStep]
    split
    · exact hnil hi
    rename_i item rest hitems
    split_ifs with hloaded
    · exact hnil hi
    dsimp only
    split
    · exact hnil (hi.dropWork (hitems ▸ suffix_cons item rest))
    rename_i audit hsaved
    obtain ⟨snapshot,-,hsave⟩ := Option.bind_eq_some_iff.mp hsaved
    cases hok : saveAccountAuditSnapshot q.audit {snapshot with accountID := item.userID} size
        item.revision with
    | error e =>
      rw [hok] at hsave
      exact nomatch hsave
    | ok db =>
      rw [hok] at hsave
      cases hsave
      exact hi.save hitems (by simpa using hloaded) rfl hok
  | restartQueue =>
    exact hnil (hi.dropQueue nil_suffix)
  | restartWorker =>
    exact hnil (hi.dropWork nil_suffix)

theorem queueInv_empty : QueueInv {} [] where
  behind := nofun
  listed := nofun
  listedOnce := nodup_nil
  work := nofun
  workOnce := nodup_nil
  covered := fun _ => .inr ⟨nofun,nofun⟩
  marked := nofun

/-- Evidence that came after the load of the last saved snapshot is still queued. -/
theorem evidence_stays_queued (env : PipelineEnv) (size : RiskSnapshot → Nat) (moves : List QueueMove)
    (account : Int) (h : (evidenceOf (run (queueStep env size) {} moves).2 account).sinceSaved=true) :
    Waiting (run (queueStep env size) {} moves).1.activity.dirty account ∨
      ∃r,(run (queueStep env size) {} moves).1.audit.dirty.lookup account=some r := by
  have hguard : RunGuarded (queueStep env size) (fun _ _ => True) {} moves :=
    runGuarded_of_forall _ (fun _ _ _ => trivial) _
  have hi := run_invariant QueueInv _ (fun {_ _ move} _ hi => hi.step env size move) hguard
    queueInv_empty
  exact (hi.covered account).imp_right fun hsafe => hsafe.saved h

/-- What a worker holds is still in its table, so a restart loses nothing, and it is held once. -/
theorem workers_hold_stored_work (env : PipelineEnv) (size : RiskSnapshot → Nat)
    (moves : List QueueMove) :
    let q := (run (queueStep env size) {} moves).1
    (∀item∈q.queue.items,Waiting q.activity.dirty item.accountID) ∧
    (∀item∈q.worker.items,∃r,q.audit.dirty.lookup item.userID=some r ∧ item.revision≤r) ∧
    (q.queue.items.map (·.accountID)).Nodup ∧ (q.worker.items.map (·.userID)).Nodup := by
  have h := run_keeps (queueStep env size) QueueInv (·.step env size _) queueInv_empty moves
  exact ⟨fun item hi => (h.listed item hi).imp fun _ hr => ⟨hr.1,hr.2.1⟩,h.work,h.listedOnce,
    h.workOnce⟩

end invariant

section samples

def quietSnapshot : RiskSnapshot where
  accountID := 1
  quality := {}
  features := {accountID := 1,evidenceCutoff := at_ 6120}
  policy := defaultPolicy
  versions := ⟨"m","b","s"⟩
  asOf := at_ 6120
  windowStart := at_ 4320
  windowEnd := at_ 6120

def overtakenSave : List QueueMove :=
  [.pipeline (.receive (plainBatch 1 100) (at_ 6060)),.pipeline (.apply (at_ 6061)),
    .listDirty 64,.markListed true,.listWork 0 64,.loadFeatures true,
    .pipeline (.receive (plainBatch 2 200) (at_ 6062)),.pipeline (.apply (at_ 6063)),
    .acknowledge true,.saveSnapshot (some quietSnapshot)]

theorem overtaken_save_keeps_evidence :
    (evidenceOf (run (queueStep plainEnv (fun _ => 0)) {} overtakenSave).2 1).sinceSaved=true ∧
    (run (queueStep plainEnv (fun _ => 0)) {} overtakenSave).2.contains (.saved 1)=true ∧
    (Waiting (run (queueStep plainEnv (fun _ => 0)) {} overtakenSave).1.activity.dirty 1 ∨
      ∃r,(run (queueStep plainEnv (fun _ => 0)) {} overtakenSave).1.audit.dirty.lookup 1=some r) := by
  have h : (evidenceOf (run (queueStep plainEnv (fun _ => 0)) {} overtakenSave).2 1).sinceSaved=true := by
    decide +kernel
  exact ⟨h,by decide +kernel,evidence_stays_queued plainEnv (fun _ => 0) overtakenSave 1 h⟩

end samples

end Oboard.Audit
