import Oboard.Core.AccessSnapshot

namespace Oboard.Store

open GoText Oboard.Core List Table

inductive PlanBindingStatus where
  | active
  | pending
  deriving DecidableEq

/-- One row of user_plan_bindings besides its id. -/
structure PlanBindingRow where
  userID : Int
  planID : Int
  enabled : Bool
  status : PlanBindingStatus
  startsAt : Option Time
  expiresAt : Option Time
  trafficResetAnchorAt : Option Time
  trafficResetHourAligned : Bool
  deployedAt : Option Time

def PlanBindingRow.binding (id : Int) (row : PlanBindingRow) : UserPlanBinding :=
  ⟨id,row.userID,row.planID,row.enabled,row.startsAt,row.expiresAt,row.trafficResetAnchorAt,
    row.trafficResetHourAligned⟩

def PlanBindingRow.inForce (row : PlanBindingRow) (at_ : Time) : Bool :=
  row.enabled && row.status=.active && withinWindow row.startsAt row.expiresAt at_

theorem PlanBindingRow.enabled_of_inForce (row : PlanBindingRow)
    (h : row.inForce at_=true) : row.enabled=true := by
  simp only [inForce,Bool.and_eq_true] at h
  exact h.1.1

/-- The partial unique index: one enabled row per user. -/
def OneEnabled (rows : Table Int PlanBindingRow) : Prop :=
  ∀id row id' row',rows.lookup id=some row → rows.lookup id'=some row' →
    row.enabled=true → row'.enabled=true → row.userID=row'.userID → id=id'

theorem oneEnabled_iff_entries (rows) :
    (∀e∈rows.entries,∀e'∈rows.entries,e.2.enabled=true → e'.2.enabled=true →
      e.2.userID=e'.2.userID → e.1=e'.1) ↔ OneEnabled rows := by
  simp only [OneEnabled,← mem_entries_iff,Sigma.forall]
  exact ⟨fun h id row id' row' hr hr' => h id row hr id' row' hr',
    fun h id row hr id' row' hr' => h id row id' row' hr hr'⟩

instance (rows : Table Int PlanBindingRow) : Decidable (OneEnabled rows) :=
  decidable_of_iff _ (oneEnabled_iff_entries rows)

/-- The table with its constraints. The next id is one that no row ever had. -/
structure PlanBindings where
  rows : Table Int PlanBindingRow
  nextID : Int
  fresh : ∀id row,rows.lookup id=some row → id<nextID
  oneEnabled : OneEnabled rows

namespace PlanBindings

/-- A rewrite of rows that neither moves a row to another user nor enables one. -/
def update (t : PlanBindings) (f : PlanBindingRow → PlanBindingRow)
    (huser : ∀row,(f row).userID=row.userID)
    (hoff : ∀row,(f row).enabled=true → row.enabled=true) : PlanBindings where
  rows := t.rows.mapRows (fun _ => f)
  nextID := t.nextID
  fresh := by
    intro id row h
    rw [lookup_mapRows] at h
    obtain ⟨row0,h0,-⟩ := Option.map_eq_some_iff.mp h
    exact t.fresh id row0 h0
  oneEnabled := by
    intro id row id' row' h h' hon hon' hu
    rw [lookup_mapRows] at h h'
    obtain ⟨row0,h0,rfl⟩ := Option.map_eq_some_iff.mp h
    obtain ⟨row0',h0',rfl⟩ := Option.map_eq_some_iff.mp h'
    rw [huser,huser] at hu
    exact t.oneEnabled _ _ _ _ h0 h0' (hoff _ hon) (hoff _ hon') hu

def disableUser (t : PlanBindings) (userID : Int) : PlanBindings :=
  t.update (fun row => if row.userID=userID then {row with enabled := false} else row)
    (fun row => by split_ifs <;> rfl)
    (fun row => by split_ifs <;> simp)

/-- A user without an enabled row can get one. -/
def insertEnabled (t : PlanBindings) (row : PlanBindingRow)
    (hoff : ∀id r,t.rows.lookup id=some r → r.enabled=true → r.userID≠row.userID) :
    PlanBindings where
  rows := t.rows.insert t.nextID row
  nextID := t.nextID+1
  fresh := by
    intro id r h
    rw [lookup_insert_eq] at h
    split_ifs at h with hid
    · exact hid ▸ Int.lt_succ _
    · exact (t.fresh id r h).trans (Int.lt_succ _)
  oneEnabled := by
    intro id r id' r' h h' hon hon' hu
    rw [lookup_insert_eq] at h h'
    split_ifs at h h' with hid hid' hid'
    · exact hid.trans hid'.symm
    · cases h
      exact absurd hu.symm (hoff id' r' h' hon')
    · cases h'
      exact absurd hu (hoff id r h hon)
    · exact t.oneEnabled _ _ _ _ h h' hon hon' hu

theorem lookup_disableUser (t : PlanBindings) (userID id) :
    (t.disableUser userID).rows.lookup id=(t.rows.lookup id).map
      (fun row => if row.userID=userID then {row with enabled := false} else row) :=
  lookup_mapRows _ _ _

theorem disableUser_off (t : PlanBindings) (userID id) (row : PlanBindingRow)
    (h : (t.disableUser userID).rows.lookup id=some row) (hon : row.enabled=true) :
    row.userID≠userID := by
  rw [lookup_disableUser] at h
  obtain ⟨row0,-,rfl⟩ := Option.map_eq_some_iff.mp h
  split_ifs at hon with hu
  · rwa [if_neg hu]

/-- Enabled rows in the order of their user, the newest of a user first. -/
def listEnabledUserPlanBindings (t : PlanBindings) (userIDs : List Int) : List UserPlanBinding :=
  ((t.rows.rows.filter (fun r => r.2.enabled && userIDs.contains r.2.userID)).map
    (fun r => r.2.binding r.1)).insertionSort
      (fun a b => a.userID<b.userID ∨ (a.userID=b.userID ∧ b.id≤a.id))

/-- The bindings that the plan authorization snapshot of an instant resolves from. -/
def listEffectiveUserPlanBindings (t : PlanBindings) (at_ : Time) : List UserPlanBinding :=
  ((t.rows.rows.filter (fun r => r.2.enabled && r.2.status=.active &&
    withinWindow r.2.startsAt r.2.expiresAt at_)).map (fun r => r.2.binding r.1)).insertionSort
      (fun a b => a.userID≤b.userID)

theorem mem_listEffectiveUserPlanBindings {t : PlanBindings} :
    v∈t.listEffectiveUserPlanBindings at_ ↔
      ∃id row,t.rows.lookup id=some row ∧ row.inForce at_=true ∧ v=row.binding id := by
  rw [listEffectiveUserPlanBindings,mem_insertionSort,mem_map]
  constructor
  · rintro ⟨⟨id,row⟩,hmem,rfl⟩
    obtain ⟨hrow,hon⟩ := mem_filter.mp hmem
    exact ⟨id,row,mem_rows.mp hrow,hon,rfl⟩
  · rintro ⟨id,row,hrow,hon,rfl⟩
    exact ⟨(id,row),mem_filter.mpr ⟨mem_rows.mpr hrow,hon⟩,rfl⟩

def currentEnabledBindingPlanID (t : PlanBindings) (userID : Int) : Int :=
  ((t.listEnabledUserPlanBindings [userID]).head?.map UserPlanBinding.planID).getD 0

/-- Stages one binding: the enabled row of the user goes out, the new row comes in. -/
def setUserPlanBinding (t : PlanBindings) (status : PlanBindingStatus) (ts : Time)
    (v : UserPlanBinding) : PlanBindings :=
  if v.planID=0 then t.disableUser v.userID
  else (t.disableUser v.userID).insertEnabled
    { userID := v.userID
      planID := v.planID
      enabled := true
      status := status
      startsAt := v.startsAt
      expiresAt := v.expiresAt
      trafficResetAnchorAt := if status=.active then some (v.startsAt.getD ts) else none
      trafficResetHourAligned := true
      deployedAt := none }
    (t.disableUser_off v.userID)

def stageStep (status : PlanBindingStatus) (ts : Time) (expected : Option (Table Int Int))
    (s : PlanBindings×List Int) (v : UserPlanBinding) : PlanBindings×List Int :=
  match expected with
  | none => (s.1.setUserPlanBinding status ts v,s.2)
  | some plans =>
    if s.1.currentEnabledBindingPlanID v.userID≠(plans.lookup v.userID).getD 0 then
      (s.1,s.2++[v.userID])
    else (s.1.setUserPlanBinding status ts v,s.2)

/-- Staging as one transaction. The error names the users that somebody else moved. -/
def setUserPlanBindingsTx (t : PlanBindings) (bindings : List UserPlanBinding)
    (status : PlanBindingStatus) (ts : Time) (expected : Option (Table Int Int)) :
    Except (List Int) PlanBindings :=
  let s := bindings.foldl (stageStep status ts expected) (t,[])
  if s.2≠[] then .error s.2 else .ok s.1

end PlanBindings

end Oboard.Store
