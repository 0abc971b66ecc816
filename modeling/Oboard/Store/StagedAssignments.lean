import Oboard.Store.AccessChanges
import Oboard.Framework.Runs

namespace Oboard.Store

open GoText Oboard.Core Runs List Table PlanBindings Option PlanBindingRow

/-- A change staged in a run and not activated yet, with the bindings as they were before. -/
structure StagedChange where
  id : Int
  users : List Int
  before : PlanBindings

structure StagingState where
  store : AccessStore
  staged : List StagedChange := []

inductive StagingCall where
  | stage (bindings : List UserPlanBinding) (serverIDs : List Int) (activateAt : Option Time)
      (expected : Option (Table Int Int)) (ts : Time)
  | cancel (id : Int)
  | fail (id : Int) (errorText : String) (ts : Time)
  | revert (userIDs previousIDs : List Int)
  | activate (id : Int) (ts : Time)

def userBindingChange (bindings : List UserPlanBinding) (activateAt : Option Time) : AccessChange :=
  {changeType := .userBindings,activateAt := activateAt,userIDs := bindings.map UserPlanBinding.userID}

def activateAssignment (s : AccessStore) (id : Int) (v : AccessChange) (ts : Time) : AccessStore :=
  let active := {s with
    planBindings := s.planBindings.setUserPlanBindingsActiveForUsers v.userIDs ts}
  keepOnError active (updateAccessChangeStatus active id [.preparing,.activating] .finalizing "" ts)

def stagingStep (σ : StagingState) : StagingCall → StagingState×List Int
  | .stage bindings serverIDs activateAt expected ts =>
    match createAccessChangeWithPendingBindings σ.store (userBindingChange bindings activateAt)
        serverIDs bindings expected ts with
    | .error _ => (σ,[])
    | .ok (store,id) =>
      (⟨store,⟨id,bindings.map UserPlanBinding.userID,σ.store.planBindings⟩::σ.staged⟩,[id])
  | .cancel id => ({σ with store := keepOnError σ.store (markAccessChangeCancelled σ.store id)},[])
  | .fail id errorText ts =>
    let failed := updateAccessChangeStatus σ.store id [.preparing,.activating,.finalizing] .failed
      errorText ts
    ({σ with store := keepOnError σ.store failed},[])
  | .revert userIDs previousIDs =>
    let reverted := keepOnError σ.store.planBindings
      (σ.store.planBindings.revertPendingUserPlanBindings userIDs previousIDs)
    ({σ with store := {σ.store with planBindings := reverted}},[])
  | .activate id ts =>
    match σ.store.changes.lookup id with
    | none => (σ,[])
    | some v => (⟨activateAssignment σ.store id v ts,σ.staged.filter (fun c => c.id≠id)⟩,[])

def SameInForce (a b : PlanBindings) (u : Int) : Prop :=
  ∀t v,v.userID=u → (v∈a.listEffectiveUserPlanBindings t ↔ v∈b.listEffectiveUserPlanBindings t)

/-- Every staged change that was not activated leaves its users the bindings from before it. -/
def Invisible (σ : StagingState) : Prop :=
  ∀c∈σ.staged,∀u∈c.users,SameInForce σ.store.planBindings c.before u

/-- Staging meets no binding that is or comes in force, an activation meets no other staged
change of its users, and a revert enables no active row that has an instant in its window. -/
def StagingSafe (σ : StagingState) : StagingCall → Prop
  | .stage bindings _ _ _ _ =>
    ∀b∈bindings,∀t,∀v∈σ.store.planBindings.listEffectiveUserPlanBindings t,v.userID≠b.userID
  | .activate id _ =>
    ∀v,σ.store.changes.lookup id=some v → ∀c∈σ.staged,c.id≠id → ∀u∈v.userIDs,u∉c.users
  | .revert _ previousIDs =>
    ∀id∈previousIDs,∀row,σ.store.planBindings.rows.lookup id=some row → row.enabled=false →
      row.status=.active → ∀t,withinWindow row.startsAt row.expiresAt t=false
  | _ => True

section bindings

theorem SameInForce.refl (a) (u) : SameInForce a a u := fun _ _ _ => Iff.rfl

theorem SameInForce.trans (h : SameInForce a b u) (h' : SameInForce b c u) : SameInForce a c u :=
  fun t v hv => (h t v hv).trans (h' t v hv)

theorem sameInForce_of_rows (h : ∀id row t,row.userID=u → row.inForce t=true →
      (a.rows.lookup id=some row ↔ b.rows.lookup id=some row)) : SameInForce a b u := by
  intro t v hv
  simp only [mem_listEffectiveUserPlanBindings]
  constructor
  · rintro ⟨id,row,hrow,hon,rfl⟩
    exact ⟨id,row,(h id row t hv hon).mp hrow,hon,rfl⟩
  · rintro ⟨id,row,hrow,hon,rfl⟩
    exact ⟨id,row,(h id row t hv hon).mpr hrow,hon,rfl⟩

variable {row : PlanBindingRow} {id : Int}

theorem lookup_map_same (huser : ∀r,(f r).userID=r.userID) (hf : ∀r,r.userID=row.userID → f r=r) :
    o.map f=some row ↔ o=some row := by
  constructor
  · intro h
    obtain ⟨r,rfl,rfl⟩ := map_eq_some_iff.mp h
    rw [hf r (huser r).symm]
  · rintro rfl
    exact congrArg some (hf row rfl)

variable (t : PlanBindings) (userIDs : List Int) (ts : Time)

theorem lookup_activate_other (h : row.userID∉userIDs) :
    (t.setUserPlanBindingsActiveForUsers userIDs ts).rows.lookup id=some row ↔
      t.rows.lookup id=some row := by
  refine (Eq.to_iff (congrArg (· = some row) (lookup_mapRows t.rows _ id))).trans
    (lookup_map_same (fun r => ?_) (fun r hr => ?_))
  · split_ifs <;> rfl
  · rw [if_neg]
    simp [hr,h]

theorem lookup_disableUser_other {userID : Int} (h : row.userID≠userID) :
    (t.disableUser userID).rows.lookup id=some row ↔ t.rows.lookup id=some row := by
  rw [lookup_disableUser]
  refine lookup_map_same (fun r => ?_) (fun r hr => if_neg (hr ▸ h))
  split_ifs <;> rfl

theorem lookup_nextID : t.rows.lookup t.nextID=none := by
  cases h : t.rows.lookup t.nextID with
  | none => rfl
  | some row => exact absurd (t.fresh _ row h) (lt_irrefl _)

variable (v : UserPlanBinding)

theorem lookup_setUserPlanBinding (id) : (t.setUserPlanBinding .pending ts v).rows.lookup id=
        (t.disableUser v.userID).rows.lookup id ∨
    id=t.nextID ∧ ∃row,(t.setUserPlanBinding .pending ts v).rows.lookup id=some row ∧
      row.userID=v.userID ∧ row.status=.pending := by
  unfold setUserPlanBinding
  by_cases hp : v.planID=0
  · rw [if_pos hp]
    exact .inl rfl
  rw [if_neg hp]
  by_cases hid : id=t.nextID
  · subst hid
    exact .inr ⟨rfl,_,AList.lookup_insert _,rfl,rfl⟩
  · exact .inl (AList.lookup_insert_ne hid)

theorem lookup_stage_other (h : row.userID≠v.userID) :
    (t.setUserPlanBinding .pending ts v).rows.lookup id=some row ↔ t.rows.lookup id=some row := by
  rcases lookup_setUserPlanBinding t ts v id with heq | ⟨rfl,row',heq,hu,-⟩
  · rw [heq]
    exact lookup_disableUser_other t h
  rw [heq,lookup_nextID]
  refine ⟨fun hc => absurd ?_ h,fun hc => by cases hc⟩
  rw [← some.inj hc,hu]

theorem stage_not_inForce (hrow : (t.setUserPlanBinding .pending ts v).rows.lookup id=some row)
    (hon : row.inForce at_=true) : row.userID≠v.userID := by
  rcases lookup_setUserPlanBinding t ts v id with heq | ⟨-,row',heq,-,hs⟩
  · exact t.disableUser_off v.userID id row (heq ▸ hrow) (row.enabled_of_inForce hon)
  · obtain rfl := some.inj (heq.symm.trans hrow)
    simp [inForce,hs] at hon

theorem stageStep_rows (expected) (s) (id) (hon : row.inForce at_=true) :
    ((stageStep .pending ts expected s v).1.rows.lookup id=some row → s.1.rows.lookup id=some row) ∧
    (row.userID≠v.userID → s.1.rows.lookup id=some row →
      (stageStep .pending ts expected s v).1.rows.lookup id=some row) := by
  have hset : ((s.1.setUserPlanBinding .pending ts v).rows.lookup id=some row →
      s.1.rows.lookup id=some row) ∧ (row.userID≠v.userID → s.1.rows.lookup id=some row →
      (s.1.setUserPlanBinding .pending ts v).rows.lookup id=some row) :=
    ⟨fun h => (lookup_stage_other s.1 ts v (stage_not_inForce s.1 ts v h hon)).mp h,
      fun hu h => (lookup_stage_other s.1 ts v hu).mpr h⟩
  unfold stageStep
  split
  · exact hset
  split_ifs
  · exact ⟨fun h => h,fun _ h => h⟩
  · exact hset

theorem foldl_stageStep_rows (expected : Option (Table Int Int)) (bindings : List UserPlanBinding)
    (s : PlanBindings×List Int) (id) (hon : row.inForce at_=true) :
    ((bindings.foldl (stageStep .pending ts expected) s).1.rows.lookup id=some row →
      s.1.rows.lookup id=some row) ∧
    ((∀v∈bindings,row.userID≠v.userID) → s.1.rows.lookup id=some row →
      (bindings.foldl (stageStep .pending ts expected) s).1.rows.lookup id=some row) := by
  induction bindings generalizing s with
  | nil => exact ⟨fun h => h,fun _ h => h⟩
  | cons v bindings ih =>
    obtain ⟨hout,hin⟩ := ih (stageStep .pending ts expected s v)
    obtain ⟨hstep,hkeep⟩ := stageStep_rows ts v expected s id hon
    exact ⟨fun h => hstep (hout h),fun hu h => hin (fun w hw => hu w (mem_cons_of_mem _ hw))
      (hkeep (hu v mem_cons_self) h)⟩

theorem sameInForce_staged (h : t.setUserPlanBindingsTx bindings .pending ts expected=.ok staged)
    (hfree : ∀b∈bindings,∀at_,∀w∈t.listEffectiveUserPlanBindings at_,w.userID≠b.userID) (u) :
    SameInForce staged t u := by
  unfold setUserPlanBindingsTx at h
  simp only at h
  split_ifs at h
  obtain rfl := Except.ok.inj h
  refine sameInForce_of_rows (fun id row at_ _ hon => ?_)
  obtain ⟨hout,hin⟩ := foldl_stageStep_rows ts expected bindings (t,[]) id hon
  refine ⟨hout,fun hrow => hin (fun b hb => ?_) hrow⟩
  exact hfree b hb at_ (row.binding id)
    (mem_listEffectiveUserPlanBindings.mpr ⟨id,row,hrow,hon,rfl⟩)

theorem enable_self (h : row.enabled=true) : {row with enabled := true}=row := by
  cases row
  exact congrArg (fun e => mk _ _ e _ _ _ _ _ _) h.symm

theorem sameInForce_reverted (h : t.revertPendingUserPlanBindings userIDs previousIDs=.ok reverted)
    (hsafe : ∀id∈previousIDs,∀row,t.rows.lookup id=some row → row.enabled=false →
      row.status=.active → ∀at_,withinWindow row.startsAt row.expiresAt at_=false) (u) :
    SameInForce reverted t u := by
  unfold revertPendingUserPlanBindings at h
  split_ifs at h
  · obtain rfl := Except.ok.inj h
    exact SameInForce.refl _ u
  obtain rfl := Except.ok.inj h
  refine sameInForce_of_rows (fun id row at_ _ hon => ?_)
  change (t.revertedRows userIDs previousIDs).lookup id=some row ↔ _
  rw [revertedRows,lookup_mapRows,lookup_deleteRows,map_eq_some_iff]
  simp only [inForce,Bool.and_eq_true,decide_eq_true_eq] at hon
  obtain ⟨⟨henabled,hactive⟩,hwindow⟩ := hon
  constructor
  · rintro ⟨row0,hfilter,heq⟩
    have hrow0 := (filter_eq_some_iff.mp hfilter).1
    split_ifs at heq with hprev
    · subst heq
      cases hoff : row0.enabled with
      | true => rw [hrow0,enable_self hoff]
      | false =>
        have hnever := hsafe id (contains_iff_mem.mp hprev) row0 hrow0 hoff hactive at_
        rw [hnever] at hwindow
        cases hwindow
    · exact heq ▸ hrow0
  · intro hrow
    refine ⟨row,filter_eq_some_iff.mpr ⟨hrow,by simp [hactive]⟩,?_⟩
    split_ifs
    · exact enable_self henabled
    · rfl

end bindings

section steps

theorem planBindings_updateAccessChangeStatus {id : Int}
    (h : updateAccessChangeStatus s id source target errorText ts=.ok s') :
    s'.planBindings=s.planBindings := by
  obtain ⟨-,-,-,rfl⟩ := updateAccessChangeStatus_ok h
  rfl

theorem planBindings_keepOnError {result : Except ε AccessStore}
    (h : ∀s',result=.ok s' → s'.planBindings=s.planBindings) :
    (keepOnError s result).planBindings=s.planBindings := by
  cases result with
  | error e => rfl
  | ok s' => exact h s' rfl

theorem planBindings_activateAssignment (s) (id) (v)
    (ts) : (activateAssignment s id v ts).planBindings=
      s.planBindings.setUserPlanBindingsActiveForUsers v.userIDs ts :=
  planBindings_keepOnError (fun _ h => planBindings_updateAccessChangeStatus h)

theorem Invisible.of_same (h : Invisible σ)
    (hsame : ∀c∈σ.staged,∀u∈c.users,SameInForce store.planBindings σ.store.planBindings u) :
    Invisible {σ with store := store} :=
  fun c hc u hu => (hsame c hc u hu).trans (h c hc u hu)

theorem Invisible.of_eq (h : Invisible σ)
    (heq : store.planBindings=σ.store.planBindings) : Invisible {σ with store := store} :=
  h.of_same (fun _ _ u _ => heq ▸ SameInForce.refl _ u)

theorem Invisible.step (h : Invisible σ) (hsafe : StagingSafe σ call) :
    Invisible (stagingStep σ call).1 := by
  cases call with
  | stage bindings serverIDs activateAt expected ts =>
    simp only [stagingStep,createAccessChangeWithPendingBindings]
    cases htx : σ.store.planBindings.setUserPlanBindingsTx bindings .pending ts expected with
    | error conflicts => exact h
    | ok staged =>
      have hsame := sameInForce_staged σ.store.planBindings ts htx hsafe
      intro c hc u hu
      rcases mem_cons.mp hc with rfl | hc
      · exact hsame u
      · exact (hsame u).trans (h c hc u hu)
  | cancel id =>
    refine h.of_eq (planBindings_keepOnError (fun _ hcancel => ?_))
    obtain ⟨-,-,-,-,rfl⟩ := markAccessChangeCancelled_ok hcancel
    rfl
  | fail id errorText ts =>
    exact h.of_eq (planBindings_keepOnError (fun _ => planBindings_updateAccessChangeStatus))
  | revert userIDs previousIDs =>
    refine h.of_same (fun c _ u _ => ?_)
    change SameInForce (keepOnError σ.store.planBindings
      (σ.store.planBindings.revertPendingUserPlanBindings userIDs previousIDs)) _ u
    cases hrevert : σ.store.planBindings.revertPendingUserPlanBindings userIDs previousIDs with
    | error e => exact SameInForce.refl _ u
    | ok reverted => exact sameInForce_reverted σ.store.planBindings userIDs hrevert hsafe u
  | activate id ts =>
    simp only [stagingStep]
    cases hv : σ.store.changes.lookup id with
    | none => exact h
    | some v =>
      intro c hc u hu
      obtain ⟨hmem,hid⟩ := mem_filter.mp hc
      have hother : u∉v.userIDs := fun huv => hsafe v hv c hmem (of_decide_eq_true hid) u huv hu
      rw [planBindings_activateAssignment]
      exact (sameInForce_of_rows (fun _ _ _ hu _ =>
          lookup_activate_other _ v.userIDs ts (hu ▸ hother))).trans (h c hmem u hu)

end steps

/-- In a run whose steps are all safe a staged assignment stays invisible until it activates. -/
theorem staged_assignments_stay_invisible (store : AccessStore) (calls : List StagingCall)
    (h : RunGuarded stagingStep StagingSafe ⟨store,[]⟩ calls) :
    Invisible (run stagingStep ⟨store,[]⟩ calls).1 :=
  run_invariant (fun σ _ => Invisible σ) StagingSafe (fun hsafe hinv => hinv.step hsafe) h
    (w := []) (fun _ hc => by cases hc)

def oneAssigned (userID : Int) : AccessStore where
  planBindings := {
    rows := AList.insert 1 ⟨userID,5,true,.active,none,none,none,true,none⟩ ∅
    nextID := 2
    fresh := fun id row h => by
      rw [lookup_insert_eq] at h
      split_ifs at h with hid
      · subst hid
        decide
      · cases h
    oneEnabled := fun id row id' row' h h' _ _ _ => by
      rw [lookup_insert_eq] at h h'
      split_ifs at h h' with hid hid'
      · exact hid.trans hid'.symm
      all_goals contradiction }

theorem oneAssigned_inForce {userID at_ : Int}
    (h : v∈(oneAssigned userID).planBindings.listEffectiveUserPlanBindings at_) :
    v.userID=userID := by
  obtain ⟨id,row,hrow,-,rfl⟩ := mem_listEffectiveUserPlanBindings.mp h
  change AList.lookup id (AList.insert 1 _ (∅ : Table Int PlanBindingRow))=some row at hrow
  rw [lookup_insert_eq] at hrow
  split_ifs at hrow
  · rw [← some.inj hrow]
    rfl
  · cases hrow

def stagedAndCancelled : List StagingCall :=
  [.stage [⟨0,1,6,true,none,none,none,false⟩] [] none none 10,.cancel 1]

theorem stagedAndCancelled_safe :
    RunGuarded stagingStep StagingSafe ⟨oneAssigned 2,[]⟩ stagedAndCancelled := by
  refine ⟨fun b hb t v hv => ?_,trivial,trivial⟩
  rw [oneAssigned_inForce hv,mem_singleton.mp hb]
  decide

theorem new_user_assignment_stays_invisible :
    RunGuarded stagingStep StagingSafe ⟨oneAssigned 2,[]⟩ stagedAndCancelled ∧
    (run stagingStep ⟨oneAssigned 2,[]⟩ stagedAndCancelled).2=[1] ∧
    Invisible (run stagingStep ⟨oneAssigned 2,[]⟩ stagedAndCancelled).1 :=
  ⟨stagedAndCancelled_safe,by decide +kernel,
    staged_assignments_stay_invisible (oneAssigned 2) stagedAndCancelled stagedAndCancelled_safe⟩

/-- A user on a plan loses it when another one is staged, and the cancelled change never gives
it back. -/
theorem cancelled_assignment_removes_plan :
    (oneAssigned 1).planBindings.listEffectiveUserPlanBindings 50≠[] ∧
    (run stagingStep ⟨oneAssigned 1,[]⟩ stagedAndCancelled).1.store.planBindings.listEffectiveUserPlanBindings
      50=[] ∧
    ((run stagingStep ⟨oneAssigned 1,[]⟩ stagedAndCancelled).1.store.changes.lookup 1).map
      AccessChange.status=some .cancelled ∧
    ¬Invisible (run stagingStep ⟨oneAssigned 1,[]⟩ stagedAndCancelled).1 := by
  have hgone : (run stagingStep ⟨oneAssigned 1,[]⟩
      stagedAndCancelled).1.store.planBindings.listEffectiveUserPlanBindings 50=[] := by
    decide +kernel
  refine ⟨by decide +kernel,hgone,by decide +kernel,fun h => ?_⟩
  have hsame := h ⟨1,[1],(oneAssigned 1).planBindings⟩ mem_cons_self 1 mem_cons_self 50
    ⟨1,1,5,true,none,none,none,true⟩ rfl
  rw [hgone] at hsame
  exact absurd (hsame.mpr (by decide +kernel)) not_mem_nil

end Oboard.Store
