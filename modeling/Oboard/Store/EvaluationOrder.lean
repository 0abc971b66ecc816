import Oboard.Store.AuthorizationRevoke
import Oboard.Store.RuntimeUserStates

namespace Oboard.Store

open List GoText AuthorizationLedger

/-- The routing revision and the digest of an evaluated view. -/
abbrev DesiredView : Type := Nat×String

/-- After each evaluation the stored revision has not fallen, and the stored digest is the one of
an evaluation with the highest revision so far. -/
def KeepsNewest (step : σ → ε → σ) (stored : σ → DesiredView) (view : ε → DesiredView) (s : σ)
    (calls : List ε) : Prop :=
  ∀done call,done++[call]<+: calls →
    (stored (done.foldl step s)).1≤(stored ((done++[call]).foldl step s)).1 ∧
    ∃newest∈done++[call],(stored ((done++[call]).foldl step s)).2=(view newest).2 ∧
      ∀other∈done++[call],(view other).1≤(view newest).1

/-- Where every evaluation overwrites the view, the newest one stays exactly if they come in the
order of their revisions. -/
theorem keepsNewest_iff {step : σ → ε → σ} (hstep : ∀s call,stored (step s call)=view call)
    (s : σ) (calls : List ε) : KeepsNewest step stored view s calls ↔
      IsChain (· ≤ ·) ((stored s).1::calls.map fun call => (view call).1) := by
  constructor
  · intro h
    have hle (done call) (hpre : done++[call]<+: calls) := (h done call hpre).1
    clear h
    induction calls generalizing s with
    | nil => exact isChain_singleton _
    | cons call rest ih =>
      have hfirst := hle [] call (by simp)
      have hrest := ih (step s call) fun done next hpre =>
        hle (call::done) next (by simpa using hpre)
      rw [hstep] at hrest
      exact isChain_cons_cons.mpr ⟨by simpa [hstep] using hfirst,hrest⟩
  · intro h done call hpre
    have hpair := (isChain_iff_pairwise.mp h).sublist ((hpre.map _).sublist.cons_cons _)
    rw [map_append,← cons_append,pairwise_append] at hpair
    have hcall (n) (hn : n∈(stored s).1::done.map fun call => (view call).1) :
        n≤(view call).1 := hpair.2.2 n hn _ (by simp)
    rw [foldl_append,foldl_cons,foldl_nil,hstep]
    refine ⟨hcall _ ?_,call,by simp,rfl,fun other hother => ?_⟩
    · rcases eq_nil_or_concat' done with rfl | ⟨front,last,rfl⟩
      · simp
      · simp [hstep]
    · rcases mem_append.mp hother with hother | hother
      · exact hcall _ (mem_cons_of_mem _ (mem_map_of_mem hother))
      · rw [mem_singleton.mp hother]

/-- One desired evaluation; with an expiry it allocates a lease sequence as well. -/
structure AuthorizationEvaluation where
  routingRevision : Nat
  digest : String
  keys : List String := []
  now : Time := 0
  expiresAt : Option Time := none

def AuthorizationEvaluation.step (serverID : Int) (e : AuthorizationEvaluation)
    (l : AuthorizationLedger) : AuthorizationLedger :=
  (authorizationStep l (match e.expiresAt with
    | none => .evaluate serverID e.routingRevision e.digest e.keys e.now
    | some expiresAt => .evaluateWithSequence serverID e.routingRevision e.digest e.keys e.now
        expiresAt)).1

def AuthorizationLedger.view (l : AuthorizationLedger) (serverID : Int) : DesiredView :=
  ((l.state serverID).evaluatedRoutingRevision,(l.state serverID).desiredDigest)

def RuntimeUserLedger.view (l : RuntimeUserLedger) (serverID : Int) : DesiredView :=
  ((l.state serverID).evaluatedRoutingRevision,(l.state serverID).desiredDigest)

theorem view_issueState (l : AuthorizationLedger) (expiresAt) :
    (l.updateState serverID (issueState expiresAt)).view serverID=l.view serverID := by
  unfold AuthorizationLedger.view
  rw [state_updateState]
  split_ifs <;> rfl

theorem view_authorization_step (hid : 0<serverID) (l) (e : AuthorizationEvaluation) :
    (e.step serverID l).view serverID=(e.routingRevision,e.digest) := by
  unfold AuthorizationEvaluation.step
  cases e.expiresAt with
  | none =>
    simp only [authorizationStep,settle,evaluateAuthorizationDesired,state_ensureState,
      if_neg (not_le.mpr hid)]
    split_ifs <;>
      simp_all [AuthorizationLedger.view,state_write,state_advanceDesired,desiredState]
  | some expiresAt =>
    simp only [authorizationStep,settle,evaluateAuthorizationDesiredWithSequence,state_ensureState,
      if_neg (not_le.mpr hid),view_issueState]
    split_ifs <;> simp_all [AuthorizationLedger.view,state_write,state_advanceDesired,desiredState,
      state_ensureState]

theorem view_runtime_user_step (hid : 0<serverID) (l) (view : DesiredView) :
    (runtimeUserStep l (.evaluate serverID view.2 view.1)).view serverID=
      (view.1,trimSpace view.2) := by
  have hwrite (row : RuntimeUserState) :
      ((l.ensureState serverID).updateState serverID fun _ => row).state serverID=row :=
    (Table.getD_modify _ _ _ _ _).trans (if_pos ⟨rfl,l.states.isSome_putNew (serverID,{})⟩)
  simp only [runtimeUserStep,RuntimeUserLedger.recordRuntimeUserDesiredAt,if_neg (not_le.mpr hid),
    RuntimeUserLedger.view,RuntimeUserLedger.state_ensure]
  split_ifs with hc hr
  · simp [Runs.keepOnError,Except.map,hc,hr]
  · simp [Runs.keepOnError,Except.map,hwrite,hc]
  · simp [Runs.keepOnError,Except.map,hwrite]

/-- In both lanes an older view overwrites a newer one, unless the evaluations come in the order of
their routing revisions. -/
theorem newest_view_kept_iff (serverID : Int) (hid : 0<serverID) (l : AuthorizationLedger)
    (evaluations : List AuthorizationEvaluation) (u : RuntimeUserLedger)
    (records : List DesiredView) :
    (KeepsNewest (fun l e => e.step serverID l) (·.view serverID)
        (fun e => (e.routingRevision,e.digest)) l evaluations ↔
      IsChain (· ≤ ·) ((l.view serverID).1::evaluations.map (·.routingRevision))) ∧
    (KeepsNewest (fun u record => runtimeUserStep u (.evaluate serverID record.2 record.1))
        (·.view serverID) (fun record => (record.1,trimSpace record.2)) u records ↔
      IsChain (· ≤ ·) ((u.view serverID).1::records.map (·.1))) :=
  ⟨keepsNewest_iff (view_authorization_step hid) l evaluations,
    keepsNewest_iff (view_runtime_user_step hid) u records⟩

theorem ordered_evaluations_keep_newest :
    KeepsNewest (fun l e => AuthorizationEvaluation.step 1 e l) (·.view 1)
      (fun e => (e.routingRevision,e.digest)) {} [⟨1,"a",[],0,none⟩,⟨2,"b",[],0,some 60⟩] :=
  (newest_view_kept_iff 1 (by decide) {} _ {} []).1.mpr (by decide)

/-- The evaluation of an older projection arrives last. -/
theorem older_view_overwrites :
    ¬KeepsNewest (fun l e => AuthorizationEvaluation.step 1 e l) (·.view 1)
      (fun e => (e.routingRevision,e.digest)) {} [⟨2,"b",[],0,none⟩,⟨1,"a",[],0,none⟩] := by
  rw [keepsNewest_iff (view_authorization_step Int.one_pos)]
  decide

end Oboard.Store
