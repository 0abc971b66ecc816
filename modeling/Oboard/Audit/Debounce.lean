import Oboard.Audit.EventCycles
import Oboard.Framework.Streaks

namespace Oboard.Audit

open Runs Activity Streaks List Table EventState Grown NotificationRow

section counters

def follows (s t : RiskSnapshot) : Bool := minuteOf t=minuteOf s+1 && versionOf t=versionOf s

def lastMinute (history : List RiskSnapshot) : Int := history.head?.elim 0 minuteOf

def enterHistory (userID : Int) (history : List RiskSnapshot) (s : RiskSnapshot) : List RiskSnapshot :=
  if s.accountID=userID ∧ lastMinute history< minuteOf s then s::history else history

/-- The saved minutes of an account, the newest first. A minute that is not new is not one of them. -/
def history (log : List RiskSnapshot) (userID : Int) : List RiskSnapshot :=
  log.foldl (enterHistory userID) []

/-- The counters say how long the risk has been high, and how long low while an event is open. -/
structure Counts (history : List RiskSnapshot) (risk : Risk) (st : EventState) : Prop where
  last : st.lastMinute=lastMinute history
  version : st.version=history.head?.elim "" versionOf
  high : st.high=min 2 (streak follows (highNow risk) history)
  low : st.active=true → st.low=min 10 (streak follows (lowNow risk) history)

variable {risk : Risk} {st : EventState} {s : RiskSnapshot}

theorem Counts.linked (hc : Counts h risk st) (hn : n=min bound (streak follows p h)) :
    (if minuteOf s≠st.lastMinute+1 ∨ versionOf s≠st.version then 0 else n)=
      if Streaks.linked follows h s then min bound (streak follows p h) else 0 := by
  subst hn
  rw [hc.last,hc.version]
  cases h with
  | nil => simp [streak]
  | cons t h =>
    change (if minuteOf s≠minuteOf t+1 ∨ versionOf s≠versionOf t then _ else _)=
      if follows t s then _ else _
    by_cases hf : minuteOf s=minuteOf t+1 ∧ versionOf s=versionOf t
    · simp [follows,hf]
    · rw [if_pos (not_and_or.mp hf),if_neg (by simpa [follows] using hf)]

theorem Counts.count_high (hc : Counts h risk st) :
    (st.count risk s).high=min 2 (streak follows (highNow risk) (s::h)) := by
  rw [min_streak_cons (by decide),← hc.linked hc.high]
  unfold EventState.count
  split_ifs <;> rfl

theorem Counts.count_low (hc : Counts h risk st) (ha : st.active=true) :
    (st.count risk s).low=min 10 (streak follows (lowNow risk) (s::h)) := by
  rw [min_streak_cons (by decide),← hc.linked (hc.low ha)]
  unfold EventState.count
  split_ifs <;> rfl

/-- No minute is both high and low. -/
def Exclusive (s : RiskSnapshot) : Prop := ∀risk,highNow risk s=true → lowNow risk s=false

theorem exclusive_of_checkSnapshot {revision : Int}
    (h : checkSnapshot s size revision=.ok ()) : Exclusive s := by
  unfold checkSnapshot at h
  split at h
  · exact nomatch h
  split at h
  · exact nomatch h
  split at h
  · exact nomatch h
  rename_i hscores
  have hvalid risk score (hs : riskScore s risk=some score) : score.lower≤ score.upper := by
    by_contra hlt
    refine hscores (any_eq_true.mpr ⟨some score,?_,by simp [validScore,hlt]⟩)
    cases risk <;> simp [← hs,riskScore]
  intro risk hhigh
  cases hs : riskScore s risk with
  | none => simp [lowNow,hs]
  | some score =>
    have hle := hvalid risk score hs
    have hge : 70≤ score.lower := by
      have := (Bool.and_eq_true _ _ |>.mp hhigh).2
      simpa [hs] using this
    have hnot : ¬score.upper<40 := by omega
    simp [lowNow,hs,hnot]

theorem count_low_of_high (st : EventState) (he : Exclusive s) (hh : highNow risk s=true) : (st.count risk s).low=0 := by
  simp [EventState.count,he risk hh]

theorem highNow_of_high (hh : 2≤(st.count risk s).high) : highNow risk s=true := by
  by_contra hnot
  simp [EventState.count,hnot] at hh

theorem lowNow_of_low (hl : 10≤(st.count risk s).low) : lowNow risk s=true := by
  by_contra hnot
  simp [EventState.count,hnot] at hl

theorem next_active_of_idle (hc : Counts h risk st) (he : Exclusive s) (ha : st.active=false) :
    (st.next risk s).active=true ↔ Recent follows (highNow risk) 2 (s::h) := by
  have hnext : (st.next risk s).active=true ↔ 2≤(st.count risk s).high := by
    by_cases hopen : 2≤(st.count risk s).high
    · have hlow := count_low_of_high st he (highNow_of_high hopen)
      simp [EventState.next,opened,ended,ha,hopen,hlow]
    · simp [EventState.next,opened,ended,ha,hopen]
  rw [← le_streak_iff,hnext,hc.count_high]
  simp

theorem next_idle_of_active (hc : Counts h risk st) (ha : st.active=true) :
    (st.next risk s).active=false ↔ Recent follows (lowNow risk) 10 (s::h) := by
  have hnext : (st.next risk s).active=false ↔ 10≤(st.count risk s).low := by
    by_cases hend : 10≤(st.count risk s).low <;>
      simp [EventState.next,opened,ended,ha,hend]
  rw [← le_streak_iff,hnext,hc.count_low ha]
  simp

theorem opened_high (st : EventState) : st.opened.high=st.high := by
  unfold opened
  split_ifs <;> rfl

theorem opened_low (st : EventState) : st.opened.low=st.low := by
  unfold opened
  split_ifs <;> rfl

theorem high_of_opened (ha : st.active=false)
    (hactive : (st.count risk s).opened.ended.active=true) : 2≤(st.count risk s).high := by
  by_contra hnot
  simp [opened,ended,ha,hnot] at hactive

theorem Counts.next (hc : Counts h risk st) (he : Exclusive s) :
    Counts (s::h) risk (st.next risk s) where
  last := rfl
  version := rfl
  high := by
    rw [← hc.count_high]
    change (st.count risk s).opened.ended.high=(st.count risk s).high
    by_cases hend : (st.count risk s).opened.active=true ∧ 10≤(st.count risk s).opened.low
    · have hlow : lowNow risk s=true := lowNow_of_low (opened_low _ ▸ hend.2)
      have hnot : highNow risk s=false := by
        cases hh : highNow risk s with
        | false => rfl
        | true => exact nomatch (he risk hh).symm.trans hlow
      rw [ended,if_pos hend]
      simp [EventState.count,hnot]
    · rw [ended,if_neg hend]
      exact opened_high _
  low := by
    intro hactive
    change (st.count risk s).opened.ended.active=true at hactive
    have hlow : (st.next risk s).low=(st.count risk s).low := by
      change (st.count risk s).opened.ended.low=(st.count risk s).low
      unfold ended at hactive ⊢
      split_ifs at hactive ⊢
      exact opened_low _
    rw [hlow]
    cases ha : st.active with
    | true => exact hc.count_low ha
    | false =>
      -- the minute that opens an event is high, so the low ones start from nothing
      have hhigh := highNow_of_high (high_of_opened ha hactive)
      rw [count_low_of_high st he hhigh,streak_of_not _ (he risk hhigh)]
      rfl

end counters

variable {s : RiskSnapshot} {saved : List RiskSnapshot}

section moves

def enter (k : Int×Risk) (st : EventState) (s : RiskSnapshot) : EventState :=
  if s.accountID=k.1 ∧ st.lastMinute< minuteOf s then st.next k.2 s else st

/-- What any call does to the events and states. -/
structure Moved (db : AuditDB) (saved : List RiskSnapshot) (db' : AuditDB) : Prop where
  consistent : Consistent db'.state db'
  state : ∀k,db'.state k=saved.foldl (enter k) (db.state k)
  exclusive : ∀s∈saved,Exclusive s
  frame : ∀k i,(db'.state k).active=(db.state k).active → (IsOpen db' k i ↔ IsOpen db k i)

theorem Consistent.moved (h : Consistent db.state db') (hstates : db'.states=db.states)
    (hopen : ∀k i,IsOpen db' k i ↔ IsOpen db k i) : Moved db [] db' := by
  have hstate : db'.state=db.state := by
    unfold AuditDB.state stateOf
    rw [hstates]
  exact ⟨hstate ▸ h,fun k => congrFun hstate k,by simp,fun k i _ => hopen k i⟩

theorem Consistent.delivered (h : Consistent db.state db) (hevents : db'.events=db.events)
    (hstates : db'.states=db.states) (hworkflow : Grown db.workflow db'.workflow)
    (hnotes : ∀{i n},db'.notifications.lookup i=some n → ∃n0,db.notifications.lookup i=some n0 ∧
      n0.eventID=n.eventID ∧ n0.revision=n.revision ∧ (n.live=true → n0.live=true)) :
    Moved db [] db' := by
  refine (h.deliver hevents hworkflow hnotes).moved hstates fun k i => ?_
  unfold IsOpen
  rw [hevents]

theorem isOpen_deleteEvents (hp : ∀i e,p i e=true → e.status=.recovered) : IsOpen (deleteEvents db p) k i ↔ IsOpen db k i := by
  unfold IsOpen deleteEvents
  rw [lookup_deleteRows]
  constructor
  · rintro ⟨e,he,hrest⟩
    exact ⟨e,(Option.filter_eq_some_iff.mp he).1,hrest⟩
  rintro ⟨e,he,hk,hs⟩
  have hpe : p i e=false := by
    cases hpe : p i e with
    | false => rfl
    | true => exact absurd ((hp i e hpe).symm.trans hs) (by decide)
  exact ⟨e,Option.filter_eq_some_iff.mpr ⟨he,by simp [hpe]⟩,hk,hs⟩

section

variable (h : Consistent db.state db)
include h

theorem claimAccountAuditNotifications_moved
    (hok : claimAccountAuditNotifications db now limit=.ok (db',claimed)) : Moved db [] db' := by
  unfold claimAccountAuditNotifications at hok
  split at hok
  · exact nomatch hok
  cases hok
  refine h.delivered rfl rfl (refl _) fun {i n} hn => ?_
  rw [lookup_mapRows] at hn
  obtain ⟨n0,hn0,rfl⟩ := Option.map_eq_some_iff.mp hn
  refine ⟨n0,hn0,?_⟩
  split_ifs with hclaimed
  · refine ⟨rfl,rfl,fun _ => ?_⟩
    -- only waiting messages are leased
    have hmem := mem_of_mem_take (contains_iff_mem.mp hclaimed)
    rw [mem_insertionSort,mem_map] at hmem
    obtain ⟨⟨j,n1⟩,hn1,rfl⟩ := hmem
    obtain ⟨hrow,hclaimable⟩ := mem_filter.mp hn1
    obtain rfl := Option.some.inj (hn0.symm.trans (mem_rows.mp hrow))
    simp only [claimable,Bool.and_eq_true,Bool.or_eq_true,decide_eq_true_eq] at hclaimable
    simp only [live,Bool.or_eq_true,decide_eq_true_eq]
    exact hclaimable.1.1.imp id And.left
  · exact ⟨rfl,rfl,id⟩

theorem completeAccountAuditNotification_moved {id leaseToken now : Int}
    (hok : completeAccountAuditNotification db id leaseToken now delivered=.ok db') :
    Moved db [] db' := by
  unfold completeAccountAuditNotification at hok
  split at hok
  · exact nomatch hok
  generalize (if delivered then NotificationStatus.delivered else .pending)=status at hok
  dsimp only at hok
  split at hok
  · exact nomatch hok
  rename_i n hn
  split at hok
  · rename_i hleased
    cases hok
    refine h.delivered rfl rfl (refl _) fun {i n'} hn' => ?_
    rcases lookup_insert_cases hn' with ⟨rfl,rfl⟩ | hold
    · exact ⟨n,hn,rfl,rfl,fun _ => by simp [live,hleased.2.1]⟩
    · exact ⟨n',hold,rfl,rfl,fun hl => hl⟩
  split at hok
  · cases hok
    exact h.delivered rfl rfl (refl _) fun hn => ⟨_,hn,rfl,rfl,fun hl => hl⟩
  · exact nomatch hok

theorem setAccountAuditEventStatus_moved
    (hok : setAccountAuditEventStatus db r=.ok db') : Moved db [] db' := by
  obtain ⟨-,-,hok⟩ := bind_ok hok
  split at hok
  · cases hok
    exact h.delivered rfl rfl (refl _) fun hn => ⟨_,hn,rfl,rfl,id⟩
  split at hok
  · exact nomatch hok
  split at hok
  · exact nomatch hok
  split at hok
  · exact nomatch hok
  rename_i w hw
  split at hok
  · exact nomatch hok
  split at hok
  · exact nomatch hok
  cases hok
  refine h.delivered rfl rfl (insert fun w' hw' => ?_) fun {i n} hn => ?_
  · rw [hw] at hw'
    cases hw'
    exact Int.le_add_one (Int.le_rfl)
  rw [lookup_mapRows] at hn
  obtain ⟨n0,hn0,rfl⟩ := Option.map_eq_some_iff.mp hn
  refine ⟨n0,hn0,?_⟩
  split_ifs
  · obtain ⟨hid,hrev,hlive⟩ := cancel_fields n0
    exact ⟨hid.symm,hrev.symm,fun hl => nomatch hlive.symm.trans hl⟩
  · exact ⟨rfl,rfl,id⟩

theorem cleanupAccountAuditHistory_moved
    (hok : cleanupAccountAuditHistory db before limit=.ok db') : Moved db [] db' := by
  unfold cleanupAccountAuditHistory at hok
  split at hok
  · exact nomatch hok
  cases hok
  have hp (expired : List Int) : ∀i (e : EventRow),
      (decide (e.status=.recovered) && expired.contains i)=true → e.status=.recovered := by
    intro i e he
    simpa using (Bool.and_eq_true _ _ |>.mp he).1
  refine Consistent.moved ?_ rfl fun k i => isOpen_deleteEvents (hp _)
  exact (h.delete (hp _)).deliver rfl (refl _) fun hn => ⟨_,hn,rfl,rfl,id⟩

theorem cleanupAccountAuditNotifications_moved
    (hok : cleanupAccountAuditNotifications db before limit=.ok db') : Moved db [] db' := by
  unfold cleanupAccountAuditNotifications at hok
  split at hok
  · exact nomatch hok
  cases hok
  refine h.delivered rfl rfl (refl _) fun {i n} hn => ?_
  rw [lookup_deleteRows] at hn
  exact ⟨n,(Option.filter_eq_some_iff.mp hn).1,rfl,rfl,id⟩

theorem Consistent.active_of_open (ho : IsOpen db k i) : (db.state k).active=true := by
  obtain ⟨e,he,rfl,hs⟩ := ho
  exact (h.carried he hs).1

theorem Consistent.open_of_active (ha : (db.state k).active=true) : ∃i,IsOpen db k i := by
  obtain ⟨i,e,he,hk,-,hs⟩ := h.running ha
  exact ⟨i,e,he,hk,hs⟩

theorem saveRisk_moved (hok : saveRisk db risk s=.ok db') : Consistent db'.state db' ∧
      (∀k,db'.state k=if k=(s.accountID,risk) then enter k (db.state k) s else db.state k) ∧
      ∀k i,(db'.state k).active=(db.state k).active → (IsOpen db' k i ↔ IsOpen db k i) := by
  obtain ⟨h',hframe,hstate⟩ := saveRisk_spec h hok
  refine ⟨h',fun k => ?_,fun k i hactive => ?_⟩
  · rw [hstate,Function.update_apply]
    by_cases hk : k=(s.accountID,risk)
    · subst hk
      by_cases hminute : minuteOf s≤(db.state (s.accountID,risk)).lastMinute
      · simp [enter,hminute]
      · simp [enter,hminute]
    · rw [if_neg hk,if_neg hk]
  · by_cases hk : k=(s.accountID,risk)
    · subst hk
      cases ha : (db.state (s.accountID,risk)).active with
      | true => exact hframe _ i (.inr ⟨ha,hactive.trans ha⟩)
      | false =>
        rw [ha] at hactive
        constructor
        · exact fun ho => nomatch hactive.symm.trans (h'.active_of_open ho)
        · exact fun ho => nomatch ha.symm.trans (h.active_of_open ho)
    · exact hframe k i (.inl hk)

end

variable {revision : Int}

theorem evictEvents_recovered (newest : List Int) (userID i : Int) (e : EventRow)
    (h : (decide (e.userID=userID) && decide (e.status=.recovered) && !newest.contains i)=true) :
    e.status=.recovered := by
  simp only [Bool.and_eq_true,decide_eq_true_eq] at h
  exact h.1.2

theorem saveAccountAuditSnapshot_moved (h : Consistent db.state db)
    (hok : saveAccountAuditSnapshot db s size revision=.ok db') : Moved db [s] db' := by
  obtain ⟨hcheck,-,db1,db2,hactivity,hexposure,rfl⟩ := saveAccountAuditSnapshot_ok hok
  have h0 : Consistent db.state (storeSnapshot db s revision) :=
    h.deliver rfl (refl _) fun hn => ⟨_,hn,rfl,rfl,id⟩
  obtain ⟨h1,hstate1,hframe1⟩ := saveRisk_moved h0 hactivity
  obtain ⟨h2,hstate2,hframe2⟩ := saveRisk_moved h1 hexposure
  refine ⟨?_,fun k => ?_,?_,fun k i hactive => ?_⟩
  · exact (h2.delete (evictEvents_recovered _ _)).deliver rfl (refl _) fun hn => ⟨_,hn,rfl,rfl,id⟩
  · change db2.state k=enter k (db.state k) s
    rw [hstate2,hstate1]
    obtain ⟨u,risk⟩ := k
    by_cases hu : u=s.accountID
    · subst hu
      cases risk with
      | activity =>
        rw [if_neg (by simp),if_pos rfl]
        rfl
      | exposure =>
        rw [if_pos rfl,if_neg (by simp)]
        rfl
    · have hne risk' : (u,risk)≠(s.accountID,risk') := by simp [hu]
      rw [if_neg (hne _),if_neg (hne _),enter,if_neg (fun hh => hu hh.1.symm)]
      rfl
  · simpa using exclusive_of_checkSnapshot hcheck
  · change (db2.state k).active=(db.state k).active at hactive
    refine (isOpen_deleteEvents (evictEvents_recovered _ _)).trans ?_
    -- at most one of the two passes changes this state
    have hone : db1.state k=db.state k ∨ db2.state k=db1.state k := by
      rw [hstate2,hstate1]
      by_cases hk : k=(s.accountID,.activity)
      · exact .inr (if_neg (by simp [hk]))
      · exact .inl (if_neg hk)
    rcases hone with hone | hone
    · refine (hframe2 k i (by rw [hactive,hone])).trans (hframe1 k i ?_)
      exact congrArg active hone
    refine (hframe2 k i (by rw [hone])).trans (hframe1 k i ?_)
    rw [← hone]
    exact hactive

theorem auditMove_moved (h : Consistent db.state db)
    (hok : auditMove size db move=.ok (db',saved)) : Moved db saved db' := by
  cases move with
  | mark userID =>
    cases hok
    exact h.delivered rfl rfl (refl _) fun hn => ⟨_,hn,rfl,rfl,id⟩
  | save s revision =>
    obtain ⟨db1,hone,hok⟩ := bind_ok hok
    cases hok
    exact saveAccountAuditSnapshot_moved h hone
  | review r =>
    obtain ⟨db1,hone,hok⟩ := bind_ok hok
    cases hok
    exact setAccountAuditEventStatus_moved h hone
  | claim now limit =>
    obtain ⟨⟨db1,claimed⟩,hone,hok⟩ := bind_ok hok
    cases hok
    exact claimAccountAuditNotifications_moved h hone
  | complete id leaseToken now delivered =>
    obtain ⟨db1,hone,hok⟩ := bind_ok hok
    cases hok
    exact completeAccountAuditNotification_moved h hone
  | cleanHistory before limit =>
    obtain ⟨db1,hone,hok⟩ := bind_ok hok
    cases hok
    exact cleanupAccountAuditHistory_moved h hone
  | cleanNotifications before limit =>
    obtain ⟨db1,hone,hok⟩ := bind_ok hok
    cases hok
    exact cleanupAccountAuditNotifications_moved h hone

theorem auditStep_moved (size) (h : Consistent db.state db) (move) :
    Moved db (auditStep size db move).2 (auditStep size db move).1 := by
  unfold auditStep
  cases hok : auditMove size db move with
  | error e => exact h.moved rfl fun _ _ => Iff.rfl
  | ok next => exact auditMove_moved h hok

theorem auditStep_saved (size) (db) (move) :
    (auditStep size db move).2=[] ∨ ∃s,(auditStep size db move).2=[s] := by
  unfold auditStep
  cases hok : auditMove size db move with
  | error e => exact .inl rfl
  | ok next =>
    cases move with
    | mark => exact .inl (by cases hok; rfl)
    | save s revision =>
      obtain ⟨db1,-,hok⟩ := bind_ok hok
      exact .inr ⟨s,by cases hok; rfl⟩
    | _ =>
      obtain ⟨db1,-,hok⟩ := bind_ok hok
      exact .inl (by cases hok; rfl)

end moves

section debounce

variable {db : AuditDB} {log : List RiskSnapshot} {k : Int×Risk}

theorem Counts.enter (hc : Counts h k.2 st) (he : Exclusive s) :
    Counts (enterHistory k.1 h s) k.2 (enter k st s) := by
  unfold Audit.enter enterHistory
  rw [hc.last]
  split_ifs
  · exact hc.next he
  · exact hc

theorem Counts.foldl (hc : Counts h k.2 st) (he : ∀s∈saved,Exclusive s) :
    Counts (saved.foldl (enterHistory k.1) h) k.2 (saved.foldl (Audit.enter k) st) := by
  induction saved generalizing h st with
  | nil => exact hc
  | cons s saved ih =>
    exact ih (hc.enter (he s mem_cons_self)) fun t ht => he t (mem_cons_of_mem _ ht)

structure DebounceInv (db : AuditDB) (log : List RiskSnapshot) : Prop where
  consistent : Consistent db.state db
  counts : ∀k,Counts (history log k.1) k.2 (db.state k)

theorem debounceInv_empty : DebounceInv {} [] where
  consistent := {
    unique := nofun
    carried := nofun
    running := nofun
    bounded := nofun
    quiet := nofun
    numbered := nofun}
  counts := fun _ => ⟨rfl,rfl,rfl,nofun⟩

variable (size : RiskSnapshot → Nat)

theorem DebounceInv.step (hi : DebounceInv db log) (move) :
    DebounceInv (auditStep size db move).1 (log++(auditStep size db move).2) := by
  have hm := auditStep_moved size hi.consistent move
  refine ⟨hm.consistent,fun k => ?_⟩
  rw [hm.state,history,foldl_append]
  exact (hi.counts k).foldl hm.exclusive

theorem debounceInv_run :
    DebounceInv (run (auditStep size) {} moves).1 (run (auditStep size) {} moves).2 := by
  have hguard : RunGuarded (auditStep size) (fun _ _ => True) {} moves :=
    runGuarded_of_forall _ (fun _ _ _ => trivial) _
  have h := run_invariant DebounceInv _ (fun {_ _ move} _ hi => hi.step size move) hguard
    debounceInv_empty
  simpa using h

def SavesMinute (log saved : List RiskSnapshot) (userID : Int) (s : RiskSnapshot) : Prop :=
  saved=[s] ∧ s.accountID=userID ∧ lastMinute (history log userID)< minuteOf s

theorem foldl_enter_active {active : Bool} {rule : RiskSnapshot → Prop}
    (hc : st.lastMinute=lastMinute (history log k.1)) (hsaved : saved=[] ∨ ∃s,saved=[s])
    (ha : st.active≠active) (hrule : ∀s∈saved,(st.next k.2 s).active=active ↔ rule s) :
    (saved.foldl (enter k) st).active=active ↔ ∃s,SavesMinute log saved k.1 s ∧ rule s := by
  rcases hsaved with rfl | ⟨s,rfl⟩
  · constructor
    · exact fun h => absurd h ha
    · rintro ⟨s,⟨hs,-⟩,-⟩
      exact nomatch hs
  rw [foldl_cons,foldl_nil,enter,hc]
  split_ifs with hnew
  · rw [hrule s mem_cons_self]
    constructor
    · exact fun h => ⟨s,⟨rfl,hnew⟩,h⟩
    rintro ⟨t,⟨ht,-⟩,h⟩
    cases ht
    exact h
  · constructor
    · exact fun h => absurd h ha
    rintro ⟨t,⟨ht,hminute⟩,-⟩
    cases ht
    exact absurd hminute hnew

theorem DebounceInv.no_open_iff (hi : DebounceInv db log) :
    (¬∃i,IsOpen db k i) ↔ (db.state k).active=false := by
  constructor
  · intro hno
    by_contra hactive
    exact hno (hi.consistent.open_of_active (by simpa using hactive))
  · rintro hidle ⟨i,ho⟩
    exact nomatch hidle.symm.trans (hi.consistent.active_of_open ho)

theorem DebounceInv.opens (hi : DebounceInv db log) (move) (k) :
    (∃i,¬IsOpen db k i ∧ IsOpen (auditStep size db move).1 k i) ↔
      (¬∃i,IsOpen db k i) ∧ ∃s,SavesMinute log (auditStep size db move).2 k.1 s ∧
        Recent follows (highNow k.2) 2 (s::history log k.1) := by
  have hm := auditStep_moved size hi.consistent move
  have hc := hi.counts k
  have hopens : (∃i,¬IsOpen db k i ∧ IsOpen (auditStep size db move).1 k i) ↔
      (db.state k).active=false ∧ ((auditStep size db move).1.state k).active=true := by
    constructor
    · rintro ⟨i,hnot,hopen⟩
      have hactive := hm.consistent.active_of_open hopen
      refine ⟨?_,hactive⟩
      by_contra hwas
      exact hnot ((hm.frame k i (by simp [hactive,hwas])).mp hopen)
    · rintro ⟨hidle,hactive⟩
      obtain ⟨i,hopen⟩ := hm.consistent.open_of_active hactive
      exact ⟨i,fun ho => (nomatch hidle.symm.trans (hi.consistent.active_of_open ho)),hopen⟩
  rw [hopens,hi.no_open_iff,hm.state]
  refine and_congr_right fun hidle => ?_
  refine foldl_enter_active hc.last (auditStep_saved size db move) (by simp [hidle]) fun s hs => ?_
  exact next_active_of_idle hc (hm.exclusive s hs) hidle

theorem DebounceInv.recovers (hi : DebounceInv db log) (move) (k) (i) (ho : IsOpen db k i) :
    ¬IsOpen (auditStep size db move).1 k i ↔ ∃s,SavesMinute log (auditStep size db move).2 k.1 s ∧
      Recent follows (lowNow k.2) 10 (s::history log k.1) := by
  have hm := auditStep_moved size hi.consistent move
  have hc := hi.counts k
  have hactive := hi.consistent.active_of_open ho
  have hends : ¬IsOpen (auditStep size db move).1 k i ↔
      ((auditStep size db move).1.state k).active=false := by
    constructor
    · intro hnot
      by_contra hstays
      exact hnot ((hm.frame k i (by simp [hactive,hstays])).mpr ho)
    · exact fun hidle hopen => nomatch hidle.symm.trans (hm.consistent.active_of_open hopen)
  rw [hends,hm.state]
  refine foldl_enter_active hc.last (auditStep_saved size db move) (by simp [hactive]) fun s _ => ?_
  exact next_idle_of_active hc hactive

/-- A save is refused for what it brings, for its age or for want of room. -/
def AuditError.refusal : AuditError → Bool
  | .invalidSnapshot | .invalidWindow | .invalidScore | .snapshotTooLarge | .staleSnapshot
  | .snapshotCapacity | .eventCapacity | .notificationCapacity => true
  | _ => false

theorem saveAccountAuditSnapshot_error {revision : Int} (h : Consistent db.state db)
    (herr : saveAccountAuditSnapshot db s size revision=.error e) : e.refusal=true := by
  rcases bind_error herr with hcheck | ⟨⟨⟩,-,herr⟩
  · unfold checkSnapshot at hcheck
    split at hcheck
    · cases hcheck
      rfl
    split at hcheck
    · cases hcheck
      rfl
    split at hcheck
    · cases hcheck
      rfl
    split at hcheck
    · cases hcheck
      rfl
    · exact nomatch hcheck
  rcases bind_error herr with hprevious | ⟨⟨⟩,-,herr⟩
  · unfold checkPrevious at hprevious
    split at hprevious
    · split at hprevious
      · cases hprevious
        rfl
      · exact nomatch hprevious
    split at hprevious
    · cases hprevious
      rfl
    · exact nomatch hprevious
  have hrefused {d} {risk} (hd : Consistent d.state d)
      (hone : saveRisk d risk s=.error e) : e.refusal=true := by
    rcases saveRisk_error hd hone with rfl | rfl <;> rfl
  have h0 : Consistent db.state (storeSnapshot db s revision) :=
    h.deliver rfl (refl _) fun hn => ⟨_,hn,rfl,rfl,id⟩
  rcases bind_error herr with hrisks | ⟨_,-,herr⟩
  · rcases bind_error hrisks with hactivity | ⟨db1,hactivity,hrisks⟩
    · exact hrefused h0 hactivity
    rcases bind_error hrisks with hexposure | ⟨_,-,hrisks⟩
    · exact hrefused (saveRisk_moved h0 hactivity).1 hexposure
    · exact nomatch hrisks
  · exact nomatch herr

/-- Events follow the debounce rule in a state that the logged saves led to. -/
structure Debounced (db : AuditDB) (log : List RiskSnapshot) : Prop where
  single : ∀k i j,IsOpen db k i → IsOpen db k j → i=j
  carried : ∀k cycle,(∃i e,db.events.lookup i=some e ∧ e.key=k ∧ e.status≠.recovered ∧ e.cycle=cycle) ↔
    (db.state k).active=true ∧ (db.state k).cycle=cycle
  quiet : ∀i n e,db.notifications.lookup i=some n → n.status=.pending ∨ n.status=.leased →
    db.events.lookup n.eventID=some e → e.status≠.recovered
  accepts : ∀s revision e,saveAccountAuditSnapshot db s size revision=.error e → e.refusal=true
  opens : ∀move k,(∃i,¬IsOpen db k i ∧ IsOpen (auditStep size db move).1 k i) ↔
    (¬∃i,IsOpen db k i) ∧ ∃s,SavesMinute log (auditStep size db move).2 k.1 s ∧
      Recent follows (highNow k.2) 2 (s::history log k.1)
  recovers : ∀move k i,IsOpen db k i → (¬IsOpen (auditStep size db move).1 k i ↔
    ∃s,SavesMinute log (auditStep size db move).2 k.1 s ∧
      Recent follows (lowNow k.2) 10 (s::history log k.1))

theorem DebounceInv.debounced (hi : DebounceInv db log) : Debounced size db log where
  single := by
    rintro k i j ⟨e,he,rfl,hes⟩ ⟨f,hf,hk,hfs⟩
    refine hi.consistent.unique he hf hk.symm ?_
    rw [(hi.consistent.carried he hes).2,(hi.consistent.carried hf hfs).2,hk]
  carried := by
    intro k cycle
    constructor
    · rintro ⟨i,e,he,rfl,hs,rfl⟩
      have hpending : e.status=.pending := by
        cases hstatus : e.status with
        | pending => rfl
        | recovered => exact absurd hstatus hs
      obtain ⟨hactive,hcycle⟩ := hi.consistent.carried he hpending
      exact ⟨hactive,hcycle.symm⟩
    · rintro ⟨hactive,rfl⟩
      obtain ⟨i,e,he,hk,hcycle,hs⟩ := hi.consistent.running hactive
      exact ⟨i,e,he,hk,by simp [hs],hcycle⟩
  quiet := by
    intro i n e hn hlive he
    obtain ⟨e',he',hs⟩ := hi.consistent.quiet hn (by simpa [live] using hlive)
    rw [he] at he'
    cases he'
    simp [hs]
  accepts := fun s revision e herr => saveAccountAuditSnapshot_error size hi.consistent herr
  opens := hi.opens size
  recovers := hi.recovers size

/-- In every run the events of each risk open, continue and recover by its streaks of minutes. -/
theorem risk_events_debounced (moves : List AuditMove) :
    Debounced size (run (auditStep size) {} moves).1 (run (auditStep size) {} moves).2 :=
  (debounceInv_run size).debounced size

/-- Events of one risk have distinct cycles up to the stored one, no notification is ahead of the
workflow of its event, and one that is still to be delivered belongs to a pending event. -/
theorem event_cycles_distinct (moves : List AuditMove) :
    let db := (run (auditStep size) {} moves).1
    (∀i j e f,db.events.lookup i=some e → db.events.lookup j=some f → e.key=f.key →
      e.cycle=f.cycle → i=j) ∧
    (∀i e,db.events.lookup i=some e → e.cycle≤(db.state e.key).cycle) ∧
    ∀i n,db.notifications.lookup i=some n →
      (∃w,db.workflow.lookup n.eventID=some w ∧ n.revision≤w.revision) ∧
      (n.live=true → ∃e,db.events.lookup n.eventID=some e ∧ e.status=.pending) :=
  have h := (debounceInv_run size).consistent
  ⟨fun _ _ _ _ => h.unique,fun _ _ => h.bounded,fun _ _ hn => ⟨h.numbered hn,h.quiet hn⟩⟩

end debounce

section samples

def exposureMinute (lower upper minute : Int) : RiskSnapshot where
  accountID := 1
  exposure := some ⟨lower,upper,.range,.uncertain,none,none⟩
  quality := {}
  features := {accountID := 1,evidenceCutoff := minute*minuteNanos}
  policy := defaultPolicy
  versions := ⟨"m","b","s"⟩
  asOf := minute*minuteNanos
  windowStart := (minute-30)*minuteNanos
  windowEnd := minute*minuteNanos

def saveMinute (lower upper : Int) (i : Nat) (minute : Int) : AuditMove :=
  .save (exposureMinute lower upper minute) (i+1)

def calmMoves : List AuditMove :=
  [saveMinute 80 90 0 1,saveMinute 80 90 1 2]++
    (List.range 10).map (fun i => saveMinute 0 10 (i+2) (i+3))

def earlyMoves : List AuditMove := [saveMinute 80 90 0 (-1),saveMinute 80 90 1 0]

/-- Ten low minutes with an incomplete history end no exposure event. -/
theorem calm_exposure_stays_open :
    ((run (auditStep (fun _ => 0)) {} calmMoves).2.map minuteOf=[1,2,3,4,5,6,7,8,9,10,11,12] ∧
      ((run (auditStep (fun _ => 0)) {} calmMoves).2.drop 2).all (fun s => complete s.quality &&
        s.exposure.any (fun score => score.upper<40))=true ∧
      ((run (auditStep (fun _ => 0)) {} calmMoves).1.events.rows.map
        (fun e => (e.2.key,e.2.status)))=[((1,.exposure),.pending)]) ∧
    (run (auditStep (fun _ => 0)) {} earlyMoves).2.map minuteOf=[-1,0] ∧
    (run (auditStep (fun _ => 0)) {} earlyMoves).2.all (highNow .exposure)=true ∧
    (run (auditStep (fun _ => 0)) {} earlyMoves).1.events.rows.length=0 := by
  decide +kernel

end samples

end Oboard.Audit
