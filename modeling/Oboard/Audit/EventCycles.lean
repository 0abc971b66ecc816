import Mathlib.Data.List.MinMax
import Oboard.Audit.AccountAudit

namespace Oboard.Audit

open Runs Activity List Table Function EventRow EventState Int WorkflowRow

theorem lookup_nextID (t : Table Int ρ) : t.lookup (nextID t)=none := by
  cases h : t.lookup (nextID t) with
  | none => rfl
  | some r =>
    have hmem : nextID t∈t.rows.map (·.1) :=
      mem_map.mpr ⟨(nextID t,r),mem_rows.mpr h,rfl⟩
    have hle := le_max_of_le' 0 hmem (le_rfl)
    unfold nextID at hle
    omega

def EventRow.key (e : EventRow) : Int×Risk := (e.userID,e.risk)

/-- What an event keeps when a minute is entered into it. -/
def EventRow.core (e : EventRow) : (Int×Risk)×Int×EventStatus := (e.key,e.cycle,e.status)

variable {e : EventRow}

theorem core_eq {f : EventRow} (h : e.core=f.core) :
    e.key=f.key ∧ e.cycle=f.cycle ∧ e.status=f.status := by
  simpa [core] using h

theorem ofCycle_iff {userID cycle : Int} {risk : Risk} :
    e.ofCycle userID risk cycle=true ↔ e.key=(userID,risk) ∧ e.cycle=cycle := by
  simp [ofCycle,key]

variable {id : Int}

theorem mem_eventIDs {risk : Risk} {userID cycle : Int} : id∈eventIDs db risk userID cycle ↔
      ∃e,db.events.lookup id=some e ∧ e.key=(userID,risk) ∧ e.cycle=cycle := by
  rw [eventIDs,mem_map]
  constructor
  · rintro ⟨⟨i,e⟩,he,rfl⟩
    obtain ⟨hrow,hcycle⟩ := mem_filter.mp he
    exact ⟨e,mem_rows.mp hrow,ofCycle_iff.mp hcycle⟩
  · rintro ⟨e,he,hcycle⟩
    exact ⟨(id,e),mem_filter.mpr ⟨mem_rows.mpr he,ofCycle_iff.mpr hcycle⟩,rfl⟩

/-- One event for each cycle, open exactly when its cycle runs, and messages wait for open events
only. -/
structure Consistent (S : Int×Risk → EventState) (db : AuditDB) : Prop where
  unique : ∀{i j e f},db.events.lookup i=some e → db.events.lookup j=some f → e.key=f.key →
    e.cycle=f.cycle → i=j
  carried : ∀{i e},db.events.lookup i=some e → e.status=.pending →
    (S e.key).active=true ∧ e.cycle=(S e.key).cycle
  running : ∀{k},(S k).active=true → ∃i e,db.events.lookup i=some e ∧ e.key=k ∧
    e.cycle=(S k).cycle ∧ e.status=.pending
  bounded : ∀{i e},db.events.lookup i=some e → e.cycle≤(S e.key).cycle
  quiet : ∀{i n},db.notifications.lookup i=some n → n.live=true →
    ∃e,db.events.lookup n.eventID=some e ∧ e.status=.pending
  numbered : ∀{i n},db.notifications.lookup i=some n →
    ∃w,db.workflow.lookup n.eventID=some w ∧ n.revision≤w.revision

/-- Workflow rows stay and their revisions do not fall. -/
def Grown (old new : Table Int WorkflowRow) : Prop :=
  ∀id w,old.lookup id=some w → ∃w',new.lookup id=some w' ∧ w.revision≤w'.revision

theorem Grown.refl (t) : Grown t t :=
  fun _ w h => ⟨w,h,le_rfl⟩

theorem Grown.trans (h : Grown t u) (h' : Grown u v) : Grown t v := by
  intro id w hw
  obtain ⟨w',hw',hle⟩ := h id w hw
  obtain ⟨w'',hw'',hle'⟩ := h' id w' hw'
  exact ⟨w'',hw'',by omega⟩

theorem Grown.insert
    (h : ∀w,t.lookup id=some w → w.revision≤w'.revision) : Grown t (t.insert id w') := by
  intro id' w hw
  rw [lookup_insert_eq]
  split_ifs with heq
  · subst heq
    exact ⟨w',rfl,h w hw⟩
  · exact ⟨w,hw,le_rfl⟩

theorem Grown.putNew (t) (row) : Grown t (t.putNew row) := by
  unfold Table.putNew
  split_ifs with hrow
  · exact Grown.refl t
  · exact Grown.insert fun w hw => absurd (by simp [hw]) hrow

theorem Grown.modify (id) (h : ∀w,w.revision≤(f w).revision) : Grown t (t.modify id f) := by
  intro id' w hw
  rw [lookup_modify]
  split_ifs with heq
  · subst heq
    exact ⟨f w,by rw [hw]; rfl,h w⟩
  · exact ⟨w,hw,le_rfl⟩

theorem Grown.mapRows (h : ∀id w,w.revision≤(f id w).revision) : Grown t (t.mapRows f) := by
  intro id w hw
  exact ⟨f id w,by rw [lookup_mapRows,hw]; rfl,h id w⟩

namespace Consistent

variable {db db' : AuditDB}

theorem numbered_grown {n n0 : NotificationRow} (h : Consistent S db)
    (hworkflow : Grown db.workflow db'.workflow) (hn0 : db.notifications.lookup i=some n0)
    (hid : n0.eventID=n.eventID) (hrev : n0.revision=n.revision) :
    ∃w,db'.workflow.lookup n.eventID=some w ∧ n.revision≤w.revision := by
  obtain ⟨w,hw,hle⟩ := h.numbered hn0
  obtain ⟨w',hw',hle'⟩ := hworkflow _ w hw
  exact ⟨w',by rw [← hid]; exact hw',by omega⟩

section

variable (h : Consistent S db)
include h

/-- Events keep their cycle, some end, and those of running cycles stay open. -/
theorem move
    (hcycle : ∀k,(S' k).cycle=(S k).cycle) (hactive : ∀k,(S' k).active=true → (S k).active=true)
    (hold : ∀{i e},db'.events.lookup i=some e → ∃e0,db.events.lookup i=some e0 ∧ e0.key=e.key ∧
      e0.cycle=e.cycle ∧ (e.status=.pending → e0.status=.pending ∧ (S' e.key).active=true))
    (hkept : ∀{i e},db.events.lookup i=some e → e.status=.pending → (S' e.key).active=true →
      ∃e1,db'.events.lookup i=some e1 ∧ e1.core=e.core)
    (hquiet : ∀{i n},db'.notifications.lookup i=some n → n.live=true →
      ∃e,db.events.lookup n.eventID=some e ∧ e.status=.pending ∧ (S' e.key).active=true)
    (hnumbered : ∀{i n},db'.notifications.lookup i=some n →
      ∃w,db'.workflow.lookup n.eventID=some w ∧ n.revision≤w.revision) : Consistent S' db' where
  unique := by
    intro i j e f he hf hk hc
    obtain ⟨e0,he0,hek,hec,-⟩ := hold he
    obtain ⟨f0,hf0,hfk,hfc,-⟩ := hold hf
    exact h.unique he0 hf0 (by rw [hek,hfk,hk]) (by rw [hec,hfc,hc])
  carried := by
    intro i e he hs
    obtain ⟨e0,he0,hek,hec,hpending⟩ := hold he
    obtain ⟨hs0,ha⟩ := hpending hs
    rw [hcycle,← hec,← hek]
    exact ⟨hek ▸ ha,(h.carried he0 hs0).2⟩
  running := by
    intro k hk
    obtain ⟨i,e,he,hek,hec,hes⟩ := h.running (hactive k hk)
    obtain ⟨e1,he1,hcore⟩ := hkept he hes (hek ▸ hk)
    obtain ⟨hk1,hc1,hs1⟩ := core_eq hcore
    exact ⟨i,e1,he1,hk1.trans hek,by rw [hcycle,hc1,hec],hs1.trans hes⟩
  bounded := by
    intro i e he
    obtain ⟨e0,he0,hek,hec,-⟩ := hold he
    rw [hcycle,← hek,← hec]
    exact h.bounded he0
  quiet := by
    intro i n hn hlive
    obtain ⟨e,he,hes,ha⟩ := hquiet hn hlive
    obtain ⟨e1,he1,hcore⟩ := hkept he hes ha
    exact ⟨e1,he1,(core_eq hcore).2.2.trans hes⟩
  numbered := hnumbered

theorem relabel (hcore : ∀i,(db'.events.lookup i).map core=(db.events.lookup i).map core)
    (hquiet : ∀{i n},db'.notifications.lookup i=some n → n.live=true →
      ∃e,db.events.lookup n.eventID=some e ∧ e.status=.pending)
    (hnumbered : ∀{i n},db'.notifications.lookup i=some n →
      ∃w,db'.workflow.lookup n.eventID=some w ∧ n.revision≤w.revision) : Consistent S db' := by
  refine h.move (fun _ => rfl) (fun _ => id) (fun {i e} he => ?_) (fun {i e} he _ _ => ?_)
    (fun hn hlive => ?_) hnumbered
  · have hi := hcore i
    rw [he] at hi
    obtain ⟨e0,he0,hce⟩ := Option.map_eq_some_iff.mp hi.symm
    obtain ⟨hek,hec,hes⟩ := core_eq hce
    exact ⟨e0,he0,hek,hec,fun hs => ⟨hes.trans hs,hek ▸ (h.carried he0 (hes.trans hs)).1⟩⟩
  · have hi := hcore i
    rw [he] at hi
    exact Option.map_eq_some_iff.mp hi
  · obtain ⟨e,he,hes⟩ := hquiet hn hlive
    exact ⟨e,he,hes,(h.carried he hes).1⟩

theorem deliver (hevents : db'.events=db.events) (hworkflow : Grown db.workflow db'.workflow)
    (hnotes : ∀{i n},db'.notifications.lookup i=some n → ∃n0,db.notifications.lookup i=some n0 ∧
      n0.eventID=n.eventID ∧ n0.revision=n.revision ∧ (n.live=true → n0.live=true)) :
    Consistent S db' := by
  refine h.relabel (fun i => by rw [hevents]) (fun hn hlive => ?_) (fun hn => ?_)
  · obtain ⟨n0,hn0,hid,-,hl⟩ := hnotes hn
    exact hid ▸ h.quiet hn0 (hl hlive)
  · obtain ⟨n0,hn0,hid,hrev,-⟩ := hnotes hn
    exact h.numbered_grown hworkflow hn0 hid hrev

theorem congr
    (hS : ∀k,(S' k).active=(S k).active ∧ (S' k).cycle=(S k).cycle) : Consistent S' db := by
  refine h.move (fun k => (hS k).2) (fun k hk => (hS k).1 ▸ hk) (fun {_ e} he => ?_)
    (fun {_ e} he _ _ => ⟨e,he,rfl⟩) (fun hn hlive => ?_) h.numbered
  · exact ⟨e,he,rfl,rfl,fun hs => ⟨hs,(hS _).1.trans (h.carried he hs).1⟩⟩
  · obtain ⟨e,he,hes⟩ := h.quiet hn hlive
    exact ⟨e,he,hes,(hS _).1.trans (h.carried he hes).1⟩

theorem insertEvent (hidle : (S row.key).active=false) (hcycle : row.cycle=(S row.key).cycle+1)
    (hstatus : row.status=.pending) (hactive : st.active=true) (hst : st.cycle=row.cycle) :
    Consistent (update S row.key st)
      {db with events := db.events.insert (nextID db.events) row} := by
  have hkept {i} {e} (he : db.events.lookup i=some e) :
      (db.events.insert (nextID db.events) row).lookup i=some e := by
    rw [AList.lookup_insert_ne]
    · exact he
    rintro rfl
    rw [lookup_nextID] at he
    exact nomatch he
  constructor
  case unique =>
    intro i j e f he hf hk hc
    rcases lookup_insert_cases he with ⟨rfl,rfl⟩ | heold
    · rcases lookup_insert_cases hf with ⟨rfl,rfl⟩ | hfold
      · rfl
      have := h.bounded hfold
      rw [← hk] at this
      omega
    · rcases lookup_insert_cases hf with ⟨rfl,rfl⟩ | hfold
      · have := h.bounded heold
        rw [hk] at this
        omega
      · exact h.unique heold hfold hk hc
  case carried =>
    intro i e he hs
    rcases lookup_insert_cases he with ⟨rfl,rfl⟩ | heold
    · rw [update_self]
      exact ⟨hactive,hst.symm⟩
    obtain ⟨ha,hc⟩ := h.carried heold hs
    by_cases hk : e.key=row.key
    · rw [hk,hidle] at ha
      exact nomatch ha
    · rw [update_of_ne hk]
      exact ⟨ha,hc⟩
  case running =>
    intro k hk
    by_cases hkey : k=row.key
    · subst hkey
      refine ⟨nextID db.events,row,AList.lookup_insert _,rfl,?_,hstatus⟩
      rw [update_self,hst]
    rw [update_of_ne hkey] at hk ⊢
    obtain ⟨i,e,he,hrest⟩ := h.running hk
    exact ⟨i,e,hkept he,hrest⟩
  case bounded =>
    intro i e he
    rcases lookup_insert_cases he with ⟨rfl,rfl⟩ | heold
    · rw [update_self,hst]
    have := h.bounded heold
    by_cases hk : e.key=row.key
    · rw [hk] at this ⊢
      rw [update_self,hst]
      omega
    · rwa [update_of_ne hk]
  case quiet =>
    intro i n hn hlive
    obtain ⟨e,he,hes⟩ := h.quiet hn hlive
    exact ⟨e,hkept he,hes⟩
  case numbered => exact h.numbered

theorem delete (hp : ∀i e,p i e=true → e.status=.recovered) : Consistent S (deleteEvents db p) := by
  have hsub {i} {e} (he : (deleteEvents db p).events.lookup i=some e) :
      db.events.lookup i=some e := by
    rw [deleteEvents,lookup_deleteRows] at he
    exact (Option.filter_eq_some_iff.mp he).1
  have hkept {i} {e} (he : db.events.lookup i=some e) (hs : e.status=.pending) :
      (deleteEvents db p).events.lookup i=some e ∧ (db.events.lookup i).any (p i)=false := by
    have hpf : p i e=false := by
      cases hpe : p i e with
      | false => rfl
      | true => exact absurd ((hp i e hpe).symm.trans hs) (by decide)
    constructor
    · rw [deleteEvents,lookup_deleteRows]
      exact Option.filter_eq_some_iff.mpr ⟨he,by simp [hpf]⟩
    · rw [he]
      exact hpf
  have hnote {i} {n}
      (hn : (deleteEvents db p).notifications.lookup i=some n) :
      db.notifications.lookup i=some n ∧ (db.events.lookup n.eventID).any (p n.eventID)=false := by
    rw [deleteEvents,lookup_deleteRows] at hn
    obtain ⟨hn,hgone⟩ := Option.filter_eq_some_iff.mp hn
    exact ⟨hn,by simpa using hgone⟩
  refine h.move (fun _ => rfl) (fun _ => id) (fun {i e} he => ?_)
    (fun {i e} he hes _ => ⟨e,(hkept he hes).1,rfl⟩) (fun hn hlive => ?_) (fun hn => ?_)
  · exact ⟨e,hsub he,rfl,rfl,fun hs => ⟨hs,(h.carried (hsub he) hs).1⟩⟩
  · obtain ⟨e,he,hes⟩ := h.quiet (hnote hn).1 hlive
    exact ⟨e,he,hes,(h.carried he hes).1⟩
  · obtain ⟨hn,hgone⟩ := hnote hn
    obtain ⟨w,hw,hle⟩ := h.numbered hn
    refine ⟨w,?_,hle⟩
    rw [deleteEvents,lookup_deleteRows]
    exact Option.filter_eq_some_iff.mpr ⟨hw,by simpa using hgone⟩

end

end Consistent

section saveRisk

def EventState.opened (st : EventState) : EventState :=
  if st.active=false ∧ 2≤ st.high then {st with cycle := st.cycle+1,active := true} else st

def EventState.ended (st : EventState) : EventState :=
  if st.active=true ∧ 10≤ st.low then {st with active := false,high := 0,low := 0} else st

def EventState.next (st : EventState) (risk : Risk) (s : RiskSnapshot) : EventState :=
  {(st.count risk s).opened.ended with lastMinute := minuteOf s,version := versionOf s}

@[simp] theorem count_active (st : EventState) (risk : Risk) (s : RiskSnapshot) :
    (st.count risk s).active=st.active := by
  unfold EventState.count
  dsimp only
  split_ifs <;> rfl

@[simp] theorem count_cycle (st : EventState) (risk : Risk) (s : RiskSnapshot) :
    (st.count risk s).cycle=st.cycle := by
  unfold EventState.count
  dsimp only
  split_ifs <;> rfl

def IsOpen (db : AuditDB) (k : Int×Risk) (i : Int) : Prop :=
  ∃e,db.events.lookup i=some e ∧ e.key=k ∧ e.status=.pending

theorem isOpen_congr (hcore : ∀i,(db'.events.lookup i).map core=(db.events.lookup i).map core)
    (k) (i) : IsOpen db' k i ↔ IsOpen db k i := by
  have half {a b} (h : ∀i,(b.events.lookup i).map core=
      (a.events.lookup i).map core) : IsOpen a k i → IsOpen b k i := by
    rintro ⟨e,he,hk,hs⟩
    have := h i
    rw [he] at this
    obtain ⟨e1,he1,hcore1⟩ := Option.map_eq_some_iff.mp this
    obtain ⟨hk1,-,hs1⟩ := core_eq hcore1
    exact ⟨e1,he1,hk1.trans hk,hs1.trans hs⟩
  exact ⟨half (fun i => (hcore i).symm),half hcore⟩

def AuditDB.state (db : AuditDB) (k : Int×Risk) : EventState := stateOf db k.1 k.2

variable {db db' : AuditDB} {st st' : EventState} {risk : Risk} {s : RiskSnapshot}
theorem openEvent_ok (h : openEvent db st risk s=.ok (db',st')) :
    st'=st.opened ∧ ((db'=db ∧ ¬(st.active=false ∧ 2≤ st.high)) ∨
      (st.active=false ∧ 2≤ st.high) ∧ ∃row : EventRow,row.key=(s.accountID,risk) ∧
        row.cycle=st.cycle+1 ∧ row.status=.pending ∧
        db'={db with events := db.events.insert (nextID db.events) row}) := by
  unfold openEvent at h
  unfold opened
  by_cases hopen : st.active=false ∧ 2≤ st.high
  · rw [if_pos hopen] at h ⊢
    dsimp only at h
    split at h
    · exact nomatch h
    split at h
    · exact nomatch h
    · cases h
      exact ⟨rfl,.inr ⟨hopen,_,rfl,rfl,rfl,rfl⟩⟩
  · rw [if_neg hopen] at h ⊢
    cases h
    exact ⟨rfl,.inl ⟨rfl,hopen⟩⟩

theorem advanceEvent_state : (advanceEvent db st risk s).2=st.ended := by
  unfold advanceEvent ended
  cases ha : st.active with
  | false => simp
  | true =>
    by_cases hl : 10≤ st.low <;> simp [hl]

theorem advanceEvent_grown : Grown db.workflow (advanceEvent db st risk s).1.workflow := by
  unfold advanceEvent
  split_ifs
  · refine Grown.trans ?_ (Grown.mapRows ?_)
    · exact foldl_related Grown.refl Grown.trans Grown.putNew _ _
    intro id w
    split_ifs
    · exact le_add_one (le_rfl)
    · exact le_rfl
  · exact Grown.refl _

theorem advanceEvent_events (i : Int) (ha : st.active=true) :
    (advanceEvent db st risk s).1.events.lookup i=(db.events.lookup i).map (fun e =>
      if e.ofCycle s.accountID risk st.cycle then
        e.seen risk s (if 10≤ st.low then .recovered else .pending) else e) := by
  unfold advanceEvent
  rw [if_pos ha]
  rw [lookup_mapRows]
  simp only [decide_eq_true_eq]

theorem advanceEvent_only : (advanceEvent db st risk s).1.notifications=db.notifications ∧
    (advanceEvent db st risk s).1.states=db.states := by
  unfold advanceEvent
  split_ifs <;> exact ⟨rfl,rfl⟩

theorem queueAccountAuditNotification_ok {score now : Int}
    (h : queueAccountAuditNotification db id score s now=.ok db') :
    db'.events=db.events ∧ db'.states=db.states ∧ Grown db.workflow db'.workflow ∧
      ∀{i n},db'.notifications.lookup i=some n → db.notifications.lookup i=some n ∨
        n.eventID=id ∧ ∃w,db'.workflow.lookup id=some w ∧ n.revision≤w.revision := by
  have hwake : Grown db.workflow ((db.workflow.putNew (id,{})).modify id (wake now)) := by
    refine Grown.trans (Grown.putNew _ _) (Grown.modify id fun w => ?_)
    unfold wake
    split_ifs
    · exact le_add_one (le_rfl)
    · exact le_rfl
  unfold queueAccountAuditNotification at h
  dsimp only at h
  split at h
  · exact nomatch h
  rename_i w hw
  split at h
  · cases h
    exact ⟨rfl,rfl,hwake,fun hn => .inl hn⟩
  split at h
  · exact nomatch h
  split at h
  · exact nomatch h
  cases h
  refine ⟨rfl,rfl,Grown.trans hwake (Grown.insert fun w' hw' => ?_),fun {i n} hn => ?_⟩
  · rw [hw] at hw'
    cases hw'
    exact le_add_one (le_rfl)
  rcases lookup_insert_cases hn with ⟨rfl,rfl⟩ | hold
  · exact .inr ⟨rfl,_,AList.lookup_insert _,le_rfl⟩
  · exact .inl hold

theorem Consistent.pending_of_cycle (h : Consistent S db)
    (hk : (S k).active=true) (he : db.events.lookup i=some e) (hek : e.key=k)
    (hec : e.cycle=(S k).cycle) : e.status=.pending := by
  obtain ⟨j,f,hf,hfk,hfc,hfs⟩ := h.running hk
  have hij := h.unique he hf (hek.trans hfk.symm) (hec.trans hfc.symm)
  subst hij
  rw [he] at hf
  cases hf
  exact hfs

/-- Which events of other risks are open, and which event of a risk that stays open. -/
def OpenFrame (k : Int×Risk) (stays : Prop) (db db' : AuditDB) : Prop :=
  ∀k' i,k'≠k ∨ stays → (IsOpen db' k' i ↔ IsOpen db k' i)

theorem openEvent_spec (h : Consistent S db) (hst : S (s.accountID,risk)=st)
    (hok : openEvent db st risk s=.ok (db',st')) :
    Consistent (update S (s.accountID,risk) st') db' ∧
      OpenFrame (s.accountID,risk) (st.active=true) db db' ∧ db'.states=db.states := by
  obtain ⟨rfl,⟨rfl,hnot⟩ | ⟨hopen,row,hkey,hcycle,hpending,rfl⟩⟩ := openEvent_ok hok
  · rw [opened,if_neg hnot,← hst,update_eq_self]
    exact ⟨h,fun _ _ _ => Iff.rfl,rfl⟩
  rw [opened,if_pos hopen,← hkey]
  rw [← hkey] at hst
  refine ⟨h.insertEvent (hst ▸ hopen.1) (by rw [hst,hcycle]) hpending rfl hcycle.symm,?_,rfl⟩
  rintro k' i hk'
  have hne : k'≠row.key := by
    rcases hk' with hk' | hactive
    · exact hk'
    · rw [hopen.1] at hactive
      exact nomatch hactive
  constructor
  · rintro ⟨e,he,hek,hes⟩
    rcases lookup_insert_cases he with ⟨rfl,rfl⟩ | hold
    · exact absurd hek.symm hne
    · exact ⟨e,hold,hek,hes⟩
  rintro ⟨e,he,hek,hes⟩
  refine ⟨e,?_,hek,hes⟩
  rw [AList.lookup_insert_ne]
  · exact he
  rintro rfl
  rw [lookup_nextID] at he
  exact nomatch he

theorem cancel_fields (n : NotificationRow) : n.cancel.eventID=n.eventID ∧
    n.cancel.revision=n.revision ∧ n.cancel.live=false := by
  unfold NotificationRow.cancel
  split_ifs with hlive
  · exact ⟨rfl,rfl,rfl⟩
  · exact ⟨rfl,rfl,by simpa using hlive⟩

theorem cancelNotifications_lookup (ha : st.active=false)
    (hn : (cancelNotifications db st risk s).notifications.lookup i=some n) :
    ∃n0,db.notifications.lookup i=some n0 ∧ n0.eventID=n.eventID ∧ n0.revision=n.revision ∧
      (n.live=true → n0.live=true ∧ n0.eventID∉eventIDs db risk s.accountID st.cycle) := by
  unfold cancelNotifications at hn
  rw [if_neg (by simp [ha])] at hn
  rw [lookup_mapRows] at hn
  obtain ⟨n0,hn0,rfl⟩ := Option.map_eq_some_iff.mp hn
  refine ⟨n0,hn0,?_⟩
  split_ifs with hmem
  · obtain ⟨hid,hrev,hlive⟩ := cancel_fields n0
    exact ⟨hid.symm,hrev.symm,fun hl => by rw [hlive] at hl; exact nomatch hl⟩
  · exact ⟨rfl,rfl,fun hl => ⟨hl,by simpa using hmem⟩⟩

theorem cancelNotifications_only : (cancelNotifications db st risk s).events=db.events ∧
    (cancelNotifications db st risk s).workflow=db.workflow ∧
    (cancelNotifications db st risk s).states=db.states := by
  unfold cancelNotifications
  split_ifs <;> exact ⟨rfl,rfl,rfl⟩

section

variable (h : Consistent S db) (hst : S (s.accountID,risk)=st)
include h hst

theorem notifyEvent_spec (hok : notifyEvent db st risk s=.ok db') :
    Consistent S db' ∧ db'.events=db.events ∧ db'.states=db.states := by
  unfold notifyEvent at hok
  split_ifs at hok with hnow
  · split at hok
    · exact nomatch hok
    rename_i id ids hids
    obtain ⟨hevents,hstates,hgrown,hnotes⟩ := queueAccountAuditNotification_ok hok
    have hmem : id∈eventIDs db risk s.accountID st.cycle := by
      rw [hids]
      exact mem_cons_self
    obtain ⟨e,he,hek,hec⟩ := mem_eventIDs.mp hmem
    have hpending := h.pending_of_cycle (by rw [hst]; exact hnow.1) he hek (by rw [hst]; exact hec)
    refine ⟨h.relabel (fun i => by rw [hevents]) (fun hn hlive => ?_) (fun hn => ?_),hevents,hstates⟩
    · rcases hnotes hn with hold | ⟨rfl,-⟩
      · exact h.quiet hold hlive
      · exact ⟨e,he,hpending⟩
    rcases hnotes hn with hold | ⟨rfl,hnew⟩
    · exact h.numbered_grown hgrown hold rfl rfl
    · exact hnew
  · cases hok
    exact ⟨h,rfl,rfl⟩

theorem advanceEvent_stays (hstays : st.ended.active=true) : st.ended=st ∧
      Consistent S (advanceEvent db st risk s).1 ∧
      ∀k i,IsOpen (advanceEvent db st risk s).1 k i ↔ IsOpen db k i := by
  have hended : st.active=true ∧ ¬10≤ st.low := by
    unfold ended at hstays
    split_ifs at hstays with hend
    exact ⟨hstays,fun hlow => hend ⟨hstays,hlow⟩⟩
  have hcore i : ((advanceEvent db st risk s).1.events.lookup i).map core=
      (db.events.lookup i).map core := by
    rw [advanceEvent_events i hended.1]
    cases he : db.events.lookup i with
    | none => rfl
    | some e =>
      simp only [hended.2,if_false,Option.map_some]
      split_ifs with hcycle
      · obtain ⟨hek,hec⟩ := ofCycle_iff.mp hcycle
        have hpending := h.pending_of_cycle (by rw [hst]; exact hended.1) he hek
          (by rw [hst]; exact hec)
        simp [core,seen,key,hpending]
      · rfl
  refine ⟨by simp [ended,hended.2],?_,isOpen_congr hcore⟩
  have hnotes := (@advanceEvent_only db st risk s).1
  exact h.relabel hcore (fun hn hlive => h.quiet (hnotes ▸ hn) hlive)
    (fun hn => h.numbered_grown advanceEvent_grown (hnotes ▸ hn) rfl rfl)

theorem advanceEvent_ends (hactive : st.active=true) (hlow : 10≤ st.low) :
    Consistent (update S (s.accountID,risk) st.ended)
        (cancelNotifications (advanceEvent db st risk s).1 st.ended risk s) ∧
      ∀k i,k≠(s.accountID,risk) →
        (IsOpen (cancelNotifications (advanceEvent db st risk s).1 st.ended risk s) k i ↔
          IsOpen db k i) := by
  obtain ⟨hcevents,hcworkflow,-⟩ :=
    @cancelNotifications_only (advanceEvent db st risk s).1 st.ended risk s
  have hended : st.ended.active=false ∧ st.ended.cycle=st.cycle := by
    simp [ended,hactive,hlow]
  have hlookup := fun i => @advanceEvent_events db st risk s i hactive
  simp only [hlow,if_true] at hlookup
  have hactive' k : (update S (s.accountID,risk) st.ended k).active=true ↔
      k≠(s.accountID,risk) ∧ (S k).active=true := by
    rw [update_apply]
    split_ifs with hk
    · simp [hended.1,hk]
    · simp [hk]
  have hother {i} {e} (he : db.events.lookup i=some e)
      (hk : e.key≠(s.accountID,risk)) :
      (cancelNotifications (advanceEvent db st risk s).1 st.ended risk s).events.lookup i=some e := by
    rw [hcevents,hlookup,he,Option.map_some,if_neg (fun hc => hk (ofCycle_iff.mp hc).1)]
  have hold {i} {e}
      (he : (cancelNotifications (advanceEvent db st risk s).1 st.ended risk s).events.lookup i=
        some e) : ∃e0,db.events.lookup i=some e0 ∧ e0.key=e.key ∧ e0.cycle=e.cycle ∧
      (e.status=.pending → e.key≠(s.accountID,risk) ∧ e=e0) := by
    rw [hcevents,hlookup] at he
    obtain ⟨e0,he0,rfl⟩ := Option.map_eq_some_iff.mp he
    refine ⟨e0,he0,?_⟩
    split_ifs with hc
    · exact ⟨rfl,rfl,nofun⟩
    · refine ⟨rfl,rfl,fun hs => ⟨fun hk => hc (ofCycle_iff.mpr ⟨hk,?_⟩),rfl⟩⟩
      rw [(h.carried he0 hs).2,hk,hst]
  refine ⟨h.move (fun k => ?_) (fun k hk => ((hactive' k).mp hk).2) (fun he => ?_)
    (fun {_ e} he _ ha => ⟨e,hother he ((hactive' _).mp ha).1,rfl⟩) (fun hn hlive => ?_)
    (fun hn => ?_),fun k i hne => ?_⟩
  · rw [update_apply]
    split_ifs with hk
    · rw [hended.2,hk,hst]
    · rfl
  · obtain ⟨e0,he0,hk,hc,hp⟩ := hold he
    refine ⟨e0,he0,hk,hc,fun hs => ?_⟩
    obtain ⟨hne,rfl⟩ := hp hs
    exact ⟨hs,(hactive' _).mpr ⟨hne,(h.carried he0 hs).1⟩⟩
  · obtain ⟨n0,hn0,hid,-,hl⟩ := cancelNotifications_lookup hended.1 hn
    obtain ⟨hl0,hnot⟩ := hl hlive
    obtain ⟨e,he,hes⟩ := h.quiet (advanceEvent_only.1 ▸ hn0) hl0
    obtain ⟨ha,hc⟩ := h.carried he hes
    refine ⟨e,hid ▸ he,hes,(hactive' _).mpr ⟨fun hk => hnot ?_,ha⟩⟩
    rw [hk,hst] at hc
    refine mem_eventIDs.mpr ⟨e.seen risk s .recovered,?_,hk,hc.trans hended.2.symm⟩
    rw [hlookup,he,Option.map_some,if_pos (ofCycle_iff.mpr ⟨hk,hc⟩)]
  · obtain ⟨n0,hn0,hid,hrev,-⟩ := cancelNotifications_lookup hended.1 hn
    exact h.numbered_grown (hcworkflow ▸ advanceEvent_grown) (advanceEvent_only.1 ▸ hn0) hid hrev
  · constructor
    · rintro ⟨e,he,hek,hes⟩
      obtain ⟨e0,he0,-,-,hp⟩ := hold he
      obtain ⟨-,rfl⟩ := hp hes
      exact ⟨e,he0,hek,hes⟩
    · rintro ⟨e,he,hek,hes⟩
      exact ⟨e,hother he (hek ▸ hne),hek,hes⟩

end

theorem notifyEvent_idle (ha : st.active=false) : notifyEvent db st risk s=.ok db := by
  unfold notifyEvent
  rw [if_neg (by simp [ha])]

theorem advanceEvent_spec (h : Consistent S db) (hst : S (s.accountID,risk)=st)
    (hok : notifyEvent (advanceEvent db st risk s).1 st.ended risk s=.ok db') :
    Consistent (update S (s.accountID,risk) st.ended) (cancelNotifications db' st.ended risk s) ∧
      OpenFrame (s.accountID,risk) (st.ended.active=true) db
        (cancelNotifications db' st.ended risk s) ∧ db'.states=db.states := by
  obtain ⟨-,hstates⟩ := @advanceEvent_only db st risk s
  obtain ⟨hcevents,hcworkflow,-⟩ := @cancelNotifications_only db' st.ended risk s
  cases hstays : st.ended.active with
  | true =>
    obtain ⟨hsame,h',hopen⟩ := advanceEvent_stays h hst hstays
    have hcancel : cancelNotifications db' st.ended risk s=db' := by
      simp [cancelNotifications,hstays]
    obtain ⟨h'',hevents,hstates'⟩ := notifyEvent_spec h' (hst.trans hsame.symm) hok
    rw [hcancel,hsame,← hst,update_eq_self]
    refine ⟨h'',fun k i _ => ?_,hstates'.trans (hst ▸ hstates)⟩
    rw [← hopen]
    unfold IsOpen
    rw [hevents]
  | false =>
    rw [notifyEvent_idle hstays] at hok
    cases hok
    by_cases hend : st.active=true ∧ 10≤ st.low
    · obtain ⟨h',hopen⟩ := advanceEvent_ends h hst hend.1 hend.2
      exact ⟨h',fun k i hk => hopen k i (hk.resolve_right (by simp)),hstates⟩
    have hsame : st.ended=st := by simp [ended,hend]
    rw [hsame] at hstays hcevents hcworkflow ⊢
    have hidle : (advanceEvent db st risk s).1=db := by simp [advanceEvent,hstays]
    rw [hidle] at hcevents hcworkflow ⊢
    refine ⟨?_,fun k i _ => ?_,rfl⟩
    · rw [← hst,update_eq_self,hst]
      refine h.deliver hcevents (by rw [hcworkflow]; exact Grown.refl _) fun hn => ?_
      obtain ⟨n0,hn0,hid,hrev,hlive⟩ := cancelNotifications_lookup hstays hn
      exact ⟨n0,hn0,hid,hrev,fun hl => (hlive hl).1⟩
    · unfold IsOpen
      rw [hcevents]

theorem Consistent.store {mid : AuditDB} {k : Int×Risk} (h : Consistent (update db.state k st) mid)
    (hstates : mid.states=db.states) (hactive : st'.active=st.active) (hcycle : st'.cycle=st.cycle) :
    Consistent (AuditDB.state {mid with states := mid.states.insert k st'})
        {mid with states := mid.states.insert k st'} ∧
      AuditDB.state {mid with states := mid.states.insert k st'}=update db.state k st' := by
  have hstate : AuditDB.state {mid with states := mid.states.insert k st'}=
      update db.state k st' := by
    funext k'
    unfold AuditDB.state stateOf
    rw [hstates,lookup_insert_eq,update_apply]
    split_ifs <;> rfl
  refine ⟨?_,hstate⟩
  rw [hstate]
  refine (h.congr fun k' => ?_).deliver rfl (Grown.refl _) fun hn => ⟨_,hn,rfl,rfl,id⟩
  rw [update_apply,update_apply]
  split_ifs
  · exact ⟨hactive,hcycle⟩
  · exact ⟨rfl,rfl⟩

theorem Consistent.count (h : Consistent db.state db) (risk : Risk) (s : RiskSnapshot) :
    Consistent (update db.state (s.accountID,risk)
      ((db.state (s.accountID,risk)).count risk s)) db := by
  refine h.congr fun k => ?_
  rw [update_apply]
  split_ifs with hk
  · subst hk
    exact ⟨count_active _ _ _,count_cycle _ _ _⟩
  · exact ⟨rfl,rfl⟩

theorem saveRisk_spec (h : Consistent db.state db) (hok : saveRisk db risk s=.ok db') :
    Consistent db'.state db' ∧
    OpenFrame (s.accountID,risk) ((db.state (s.accountID,risk)).active=true ∧
      (db'.state (s.accountID,risk)).active=true) db db' ∧
    db'.state=update db.state (s.accountID,risk)
      (if minuteOf s≤(db.state (s.accountID,risk)).lastMinute then db.state (s.accountID,risk)
        else (db.state (s.accountID,risk)).next risk s) := by
  unfold saveRisk at hok
  dsimp only at hok
  change (if minuteOf s≤(db.state (s.accountID,risk)).lastMinute then _ else _)=_ at hok
  split at hok
  · rename_i hminute
    cases hok
    rw [if_pos hminute,update_eq_self]
    exact ⟨h,fun _ _ _ => Iff.rfl,rfl⟩
  rename_i hminute
  rw [if_neg hminute]
  obtain ⟨⟨db1,st1⟩,hopen,hok⟩ := bind_ok hok
  obtain ⟨db2,hnotify,hok⟩ := bind_ok hok
  cases hok
  obtain ⟨rfl,-⟩ := openEvent_ok hopen
  rw [advanceEvent_state] at hnotify ⊢
  have hcounted := h.count risk s
  obtain ⟨hopened,hframe1,hstates1⟩ := openEvent_spec hcounted (update_self ..) hopen
  rw [update_idem] at hopened
  obtain ⟨hended,hframe2,hstates2⟩ := advanceEvent_spec hopened (update_self ..) hnotify
  rw [update_idem] at hended
  obtain ⟨-,-,hstates⟩ := @cancelNotifications_only db2
    ((db.state (s.accountID,risk)).count risk s).opened.ended risk s
  obtain ⟨hstored,hstate⟩ := @Consistent.store _ _
    ((db.state (s.accountID,risk)).next risk s) _ _ hended
    (hstates.trans (hstates2.trans hstates1)) rfl rfl
  refine ⟨hstored,fun k i hk => ?_,hstate⟩
  have hnext := congrArg active (congrFun hstate (s.accountID,risk))
  rw [update_self] at hnext
  rw [← hframe1 k i (hk.imp_right fun ha => by rw [count_active]; exact ha.1)]
  exact hframe2 k i (hk.imp_right fun ha => hnext.symm.trans ha.2)

theorem saveAccountAuditSnapshot_ok {revision : Int}
    (hok : saveAccountAuditSnapshot db s size revision=.ok db') :
    checkSnapshot s size revision=.ok () ∧ checkPrevious db s revision=.ok () ∧
    ∃db1 db2,saveRisk (storeSnapshot db s revision) .activity s=.ok db1 ∧
      saveRisk db1 .exposure s=.ok db2 ∧
      db'=clearDirty (evictEvents db2 s.accountID) s.accountID revision := by
  obtain ⟨⟨⟩,hcheck,hok⟩ := bind_ok hok
  obtain ⟨⟨⟩,hprevious,hok⟩ := bind_ok hok
  obtain ⟨db2,hrisks,hok⟩ := bind_ok hok
  obtain ⟨db1,hactivity,hrisks⟩ := bind_ok hrisks
  obtain ⟨db2',hexposure,hrisks⟩ := bind_ok hrisks
  cases hrisks
  cases hok
  exact ⟨hcheck,hprevious,db1,db2,hactivity,hexposure,rfl⟩

end saveRisk

section refusals

variable {risk : Risk} {e : AuditError}
theorem openEvent_error (h : Consistent S db) (hst : S (s.accountID,risk)=st)
    (herr : openEvent db st risk s=.error e) : e=.eventCapacity := by
  unfold openEvent at herr
  dsimp only at herr
  split at herr
  · split at herr
    · cases herr
      rfl
    split at herr
    · rename_i hids
      -- a cycle is numbered only when it starts
      obtain ⟨id,hid⟩ := exists_mem_of_ne_nil _ hids
      obtain ⟨row,hrow,hkey,hcycle⟩ := mem_eventIDs.mp hid
      have := h.bounded hrow
      rw [hkey,hst] at this
      omega
    · exact nomatch herr
  · exact nomatch herr

theorem queueAccountAuditNotification_error {score now : Int} (h : Consistent S db)
    (herr : queueAccountAuditNotification db id score s now=.error e) : e=.notificationCapacity := by
  have hrow : ∃w,(db.workflow.putNew (id,{})).lookup id=some w := by
    unfold Table.putNew
    split_ifs with hsome
    · exact Option.isSome_iff_exists.mp hsome
    · exact ⟨_,AList.lookup_insert _⟩
  obtain ⟨w0,hw0⟩ := hrow
  have hwake := lookup_modify (db.workflow.putNew (id,{})) id id (wake now)
  rw [if_pos rfl,hw0,Option.map_some] at hwake
  unfold queueAccountAuditNotification at herr
  dsimp only at herr
  rw [hwake] at herr
  dsimp only at herr
  split at herr
  · exact nomatch herr
  split at herr
  · cases herr
    rfl
  split at herr
  · rename_i hany
    -- the numbers in use are those the workflow has passed
    obtain ⟨⟨i,n⟩,hn,heq⟩ := any_eq_true.mp hany
    obtain ⟨hid,hrev⟩ : n.eventID=id ∧ n.revision=(w0.wake now).revision+1 := by simpa using heq
    obtain ⟨w,hw,hle⟩ := h.numbered (mem_rows.mp hn)
    obtain ⟨w1,hw1,hle1⟩ := Grown.putNew db.workflow (id,{}) _ w (hid ▸ hw)
    rw [hw0] at hw1
    cases hw1
    have hgrow : w0.revision≤(w0.wake now).revision := by
      unfold wake
      split_ifs
      · exact le_add_one (le_rfl)
      · exact le_rfl
    omega
  · exact nomatch herr

theorem notifyEvent_error (h : Consistent S db) (hst : S (s.accountID,risk)=st)
    (herr : notifyEvent db st risk s=.error e) : e=.notificationCapacity := by
  unfold notifyEvent at herr
  split_ifs at herr with hnow
  split at herr
  · rename_i hnone
    obtain ⟨i,row,hrow,hkey,hcycle,-⟩ := h.running (by rw [hst]; exact hnow.1)
    rw [hst] at hcycle
    have := mem_eventIDs.mpr ⟨row,hrow,hkey,hcycle⟩
    rw [hnone] at this
    exact absurd this not_mem_nil
  · exact queueAccountAuditNotification_error h herr

theorem saveRisk_error (h : Consistent db.state db) (herr : saveRisk db risk s=.error e) :
    e=.eventCapacity ∨ e=.notificationCapacity := by
  unfold saveRisk at herr
  dsimp only at herr
  split at herr
  · exact nomatch herr
  have hcounted := h.count risk s
  rcases bind_error herr with hopen | ⟨⟨db1,st1⟩,hopen,herr⟩
  · exact .inl (openEvent_error hcounted (update_self ..) hopen)
  obtain ⟨rfl,-⟩ := openEvent_ok hopen
  obtain ⟨hopened,-,-⟩ := openEvent_spec hcounted (update_self ..) hopen
  rcases bind_error herr with hnotify | ⟨db2,hnotify,herr⟩
  · rw [advanceEvent_state] at hnotify
    cases hstays : (((db.state (s.accountID,risk)).count risk s).opened.ended).active with
    | true =>
      obtain ⟨hsame,h',-⟩ := advanceEvent_stays hopened (update_self ..) hstays
      exact .inr (notifyEvent_error h' ((update_self ..).trans hsame.symm) hnotify)
    | false => exact nomatch (notifyEvent_idle hstays).symm.trans hnotify
  · exact nomatch herr

end refusals

end Oboard.Audit
