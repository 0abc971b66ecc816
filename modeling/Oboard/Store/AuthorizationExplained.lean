import Oboard.Store.AuthorizationRevoke

namespace Oboard.Store

open GoText Ascending Runs Table

/-- The confirmed denials of a server are at or below a revision. -/
def ConfirmedBelow (denials : Table (Int×String) AuthorizationDenial) (s revision : Int) : Prop :=
  ∀key row,denials.lookup (s,key)=some row → row.confirmedAt.isSome=true → row.denyRevision≤revision

/-- One server's rows explain themselves: a gap has a reason, a confirmed denial was reached. -/
structure ServerExplained (st : AuthorizationState)
    (denials : Table (Int×String) AuthorizationDenial) (s : Int) : Prop where
  reason : st.confirmedRevision<st.desiredRevision → st.pendingReason≠none
  denials : ConfirmedBelow denials s st.confirmedRevision

def Explained (l : AuthorizationLedger) : Prop :=
  ∀s,ServerExplained (l.state s) l.denials s

theorem explained_empty : Explained {} :=
  fun s => ⟨fun h => absurd h (lt_irrefl 0),fun key row h => by simp at h⟩

/-- The report of another incarnation that puts the watermark back. -/
def Lowers (l : AuthorizationLedger) (id revision : Int) (bootID : String) : Prop :=
  0 < id ∧ 0<revision ∧ trimSpace bootID≠"" ∧ (l.state id).confirmedBootID≠"" ∧
    (l.state id).confirmedBootID≠trimSpace bootID ∧ revision<(l.state id).confirmedRevision

/-- When a call leaves an explained ledger explained. -/
def Explains (l : AuthorizationLedger) : AuthorizationCall → Prop
  | .restate id revision _ _ bootID _ => Lowers l id revision bootID →
      (l.state id).desiredRevision≤revision ∧ ConfirmedBelow l.denials id revision
  | .resync id => 0 < id → ConfirmedBelow l.denials id 0
  | .markPending id reason _ _ => 0 < id →
      (l.state id).desiredRevision≤(l.state id).confirmedRevision ∨ reason≠none
  | _ => True

variable {denials : Table (Int×String) AuthorizationDenial}

section writes

variable {id : Int} {f : AuthorizationState → AuthorizationState}

theorem explained_of_states (h : Explained l)
    (hs : ∀s,l'.state s=if s=id then f (l.state s) else l.state s) (hd : l'.denials=l.denials) :
    Explained l' ↔ ServerExplained (f (l.state id)) l.denials id := by
  constructor
  · intro h'
    have hid := h' id
    rwa [hs,if_pos rfl,hd] at hid
  intro hid s
  rw [hs,hd]
  split_ifs with he
  · exact he ▸ hid
  · exact h s

theorem explained_write_iff (h : Explained l) : Explained ((l.ensureState id).updateState id f) ↔
      ServerExplained (f (l.state id)) l.denials id :=
  explained_of_states h (fun s => state_write l s id f) rfl

theorem explained_update_iff (h : Explained l) (hrow : (l.states.lookup id).isSome=true) :
    Explained (l.updateState id f) ↔ ServerExplained (f (l.state id)) l.denials id :=
  explained_of_states h (fun s => by simp [state_updateState,hrow]) rfl

theorem explained_ensureState (h : Explained l) : Explained (l.ensureState id) := by
  intro s
  rw [state_ensureState]
  exact h s

theorem ServerExplained.congr (h : ServerExplained st denials s)
    (hc : st'.confirmedRevision=st.confirmedRevision) (hd : st'.desiredRevision=st.desiredRevision)
    (hp : st'.pendingReason=st.pendingReason) : ServerExplained st' denials s := by
  refine ⟨?_,?_⟩
  · rw [hc,hd,hp]
    exact h.reason
  · rw [hc]
    exact h.denials

theorem explained_updateState (h : Explained l)
    (hf : ServerExplained (f (l.state id)) l.denials id) : Explained (l.updateState id f) := by
  intro s
  rw [state_updateState]
  split_ifs with hs
  · exact hs.1 ▸ hf
  · exact h s

end writes

section evaluations

variable {id : Int}

theorem confirmed_denyKey (h : (denyKey id revision bound ts denials key).lookup k=some row)
    (hc : row.confirmedAt.isSome=true) : denials.lookup k=some row := by
  by_cases hk : k=(id,key)
  · unfold denyKey at h
    split at h <;>
    · rw [lookup_insert_eq,if_pos hk] at h
      cases h
      cases hc
  · rwa [lookup_denyKey_ne k.1 id revision bound ts (fun he => hk (Prod.ext he.1 he.2))] at h

theorem confirmed_foldl_denyKey {keys : List String}
    (h : (keys.foldl (denyKey id revision bound ts) denials).lookup k=some row)
    (hc : row.confirmedAt.isSome=true) : denials.lookup k=some row := by
  induction keys generalizing denials with
  | nil => exact h
  | cons key keys ih => exact confirmed_denyKey (ih h) hc

section

variable (h : Explained l)
include h

theorem explained_advance :
    Explained ((l.ensureState id).advanceDesired id ((l.ensureState id).state id) routingRevision
      digest sorted now) := by
  intro s
  rw [state_advanceDesired]
  have hd : ConfirmedBelow ((l.ensureState id).advanceDesired id ((l.ensureState id).state id)
      routingRevision digest sorted now).denials s (l.state s).confirmedRevision :=
    fun key row hrow hc => (h s).denials key row (confirmed_foldl_denyKey hrow hc) hc
  split_ifs
  · refine ⟨fun _ => ?_,hd⟩
    cases hp : (l.state s).pendingReason <;> simp [desiredState,hp]
  · exact ⟨(h s).reason,hd⟩

theorem explained_watermark : Explained ((l.ensureState id).updateState id
      (fun row => {row with evaluatedRoutingRevision := routingRevision})) :=
  (explained_write_iff h).mpr ((h id).congr rfl rfl rfl)

theorem explained_issue : Explained (l.updateState id (issueState expiresAt)) :=
  explained_updateState h ((h id).congr rfl rfl rfl)

section

variable (routingRevision : Nat) (digest : String) (keys : List String)

theorem explained_evaluate :
    Explained (authorizationStep l (.evaluate id routingRevision digest keys now)).1 := by
  simp only [authorizationStep,evaluateAuthorizationDesired]
  split_ifs
  · exact h
  · exact h
  · exact explained_watermark h
  · exact explained_advance h

theorem explained_evaluateWithSequence : Explained (authorizationStep l
      (.evaluateWithSequence id routingRevision digest keys now expiresAt)).1 := by
  simp only [authorizationStep,evaluateAuthorizationDesiredWithSequence]
  split_ifs
  · exact h
  · exact explained_issue (explained_advance h)
  · exact explained_issue (explained_watermark h)
  · exact explained_issue (explained_ensureState h)

end

end

end evaluations

section reports

variable {id : Int}

theorem explained_deliver (h : Explained l) :
    Explained (authorizationStep l (.deliver id revision number messageID ts)).1 := by
  simp only [authorizationStep,recordAuthorizationDelivery]
  split_ifs
  · exact h
  · refine explained_updateState h ⟨fun hgap => ?_,(h id).denials⟩
    simp [not_le.mpr hgap]

theorem confirmedBelow_confirmDenials (h : ConfirmedBelow denials s old)
    (hle : s=id → old≤revision) :
    ConfirmedBelow (confirmDenials id revision ts denials) s (if s=id then revision else old) := by
  intro key row hrow hc
  rw [confirmDenials,lookup_mapRows] at hrow
  obtain ⟨row0,h0,rfl⟩ := Option.map_eq_some_iff.mp hrow
  dsimp only at hc ⊢
  split_ifs at hc ⊢ with hmark hs hs
  · exact hmark.2.2
  · exact absurd hmark.1 hs
  · exact (h key row0 h0 hc).trans (hle hs)
  · exact h key row0 h0 hc

section

variable (h : Explained l) (revision sequence : Int) (digest bootID : String) (ts : Time)
include h

theorem explained_confirmation :
    Explained (recordAuthorizationConfirmation l id revision sequence digest bootID ts).1 := by
  simp only [recordAuthorizationConfirmation,state_ensureState]
  split_ifs with hpos hnew
  · exact h
  · intro s
    have hle : s=id → (l.state s).confirmedRevision≤revision := by
      rintro rfl
      rcases hnew with hlt | heq
      · exact hlt.le
      · exact heq.1.le
    have hd : ConfirmedBelow (confirmDenials id revision ts l.denials) s _ :=
      confirmedBelow_confirmDenials (h s).denials hle
    change ServerExplained (((l.ensureState id).updateState id _).state s) _ s
    by_cases hs : s=id
    · rw [state_write,if_pos hs]
      rw [if_pos hs] at hd
      refine ⟨fun hgap => ?_,hd⟩
      dsimp only at hgap ⊢
      rw [if_neg (not_le.mpr hgap)]
      exact (h s).reason ((hle hs).trans_lt hgap)
    · rw [state_write,if_neg hs]
      rw [if_neg hs] at hd
      exact ⟨(h s).reason,hd⟩
  · exact explained_ensureState h

theorem explained_restate_iff :
    Explained (restateAuthorizationConfirmation l id revision sequence digest bootID ts).1 ↔
      (Lowers l id revision bootID →
        (l.state id).desiredRevision≤revision ∧ ConfirmedBelow l.denials id revision) := by
  have hconfirm : Explained
      (recordAuthorizationConfirmation l id revision sequence digest bootID ts).1 :=
    explained_confirmation h revision sequence digest bootID ts
  simp only [restateAuthorizationConfirmation]
  split_ifs with hbad hlow
  · refine ⟨fun _ hl => ?_,fun _ => hconfirm⟩
    rcases hbad with hid | hr | hb
    · exact absurd hl.1 (not_lt.mpr hid)
    · exact absurd hl.2.1 (not_lt.mpr hr)
    · exact absurd hb hl.2.2.1
  · simp only [not_or,not_le] at hbad
    have hl : Lowers l id revision bootID :=
      ⟨hbad.1,hbad.2.1,hbad.2.2,hlow.2.1,hlow.2.2.1,hlow.2.2.2⟩
    refine (explained_update_iff h hlow.1).trans ⟨fun hs _ => ?_,fun hs => ?_⟩
    · exact ⟨not_lt.mp (fun hgap => hs.reason hgap rfl),hs.denials⟩
    · obtain ⟨hdesired,hd⟩ := hs hl
      exact ⟨fun hgap => absurd hgap (not_lt.mpr hdesired),hd⟩
  · refine ⟨fun _ hl => absurd ⟨?_,hl.2.2.2.1,hl.2.2.2.2.1,hl.2.2.2.2.2⟩ hlow,fun _ => hconfirm⟩
    by_contra hnone
    have hboot := hl.2.2.2.1
    rw [AuthorizationLedger.state,Option.not_isSome_iff_eq_none.mp hnone] at hboot
    exact hboot rfl

end

theorem explained_resync_iff (h : Explained l) :
    Explained (authorizationStep l (.resync id)).1 ↔ (0 < id → ConfirmedBelow l.denials id 0) := by
  simp only [authorizationStep,forceAuthorizationResync]
  split_ifs with hid
  · exact ⟨fun _ hpos => absurd hpos (not_lt.mpr hid),fun _ => h⟩
  · refine (explained_write_iff h).trans ⟨fun hs _ => hs.denials,fun hd => ?_⟩
    exact ⟨fun _ => by simp,hd (not_le.mp hid)⟩

theorem explained_markPending_iff (h : Explained l) :
    Explained (authorizationStep l (.markPending id reason lastError retryable)).1 ↔
      (0 < id → (l.state id).desiredRevision≤(l.state id).confirmedRevision ∨ reason≠none) := by
  simp only [authorizationStep,markAuthorizationPending]
  split_ifs with hid
  · exact ⟨fun _ hpos => absurd hpos (not_lt.mpr hid),fun _ => h⟩
  refine (explained_write_iff h).trans ⟨fun hs _ => ?_,fun hr => ?_⟩
  · exact or_iff_not_imp_left.mpr (fun hgap => hs.reason (not_le.mp hgap))
  · refine ⟨fun hgap => ?_,(h id).denials⟩
    exact (hr (not_le.mp hid)).resolve_left (not_le.mpr hgap)

end reports

theorem explained_step_iff (l) (call) (h : Explained l) :
    Explained (authorizationStep l call).1 ↔ Explains l call := by
  cases call with
  | evaluate id routingRevision digest keys now =>
    exact iff_of_true (explained_evaluate h routingRevision digest keys) trivial
  | evaluateWithSequence id routingRevision digest keys now expiresAt =>
    exact iff_of_true (explained_evaluateWithSequence h routingRevision digest keys) trivial
  | issue id revision expiresAt =>
    refine iff_of_true ?_ trivial
    simp only [authorizationStep,issueAuthorizationSequence]
    split_ifs
    · exact h
    · exact explained_issue (explained_ensureState h)
  | deliver id revision sequence messageID ts =>
    exact iff_of_true (explained_deliver h) trivial
  | confirm id revision sequence digest bootID ts =>
    exact iff_of_true (explained_confirmation h revision sequence digest bootID ts) trivial
  | restate id revision sequence digest bootID ts =>
    exact explained_restate_iff h revision sequence digest bootID ts
  | resync id => exact explained_resync_iff h
  | markPending id reason lastError retryable =>
    exact explained_markPending_iff h
  | prune now =>
    refine iff_of_true (fun s => ⟨(h s).reason,fun key row hrow hc => ?_⟩) trivial
    simp only [authorizationStep,pruneAuthorizationDenials,lookup_deleteRows] at hrow
    exact (h s).denials key row (Option.filter_eq_some_iff.mp hrow).1 hc

/-- All states of a run are explained exactly when each of its calls explains what it leaves. -/
theorem ledger_explains_itself_iff (l : AuthorizationLedger) (h : Explained l)
    (calls : List AuthorizationCall) :
    (∀before,before<+:calls → Explained (run authorizationStep l before).1) ↔
      RunGuarded authorizationStep Explains l calls :=
  throughout_iff_runGuarded explained_step_iff h calls

def restartedInStep : List AuthorizationCall :=
  [.evaluate 1 0 "a" ["u"] 0,.deliver 1 1 1 "m" 0,.confirm 1 1 1 "a" "boot1" 0,
    .restate 1 1 2 "a" "boot2" 0,.resync 1,.evaluate 1 0 "b" [] 0]

theorem restarted_node_is_explained :
    Explained {} ∧ RunGuarded authorizationStep Explains {} restartedInStep ∧
    ((run authorizationStep {} restartedInStep).1.state 1).desiredRevision=2 ∧
    ∀before,before<+:restartedInStep → Explained (run authorizationStep {} before).1 := by
  have hg : RunGuarded authorizationStep Explains {} restartedInStep := by
    refine ⟨trivial,trivial,trivial,?_,?_,trivial,trivial⟩
    · rintro ⟨-,-,-,-,-,hlt⟩
      exact absurd hlt (by decide +kernel)
    intro _ key row hrow
    have hnone : (run authorizationStep {} (restartedInStep.take 4)).1.denials.rows=[] := by
      decide +kernel
    have hmem : ((1,key),row)∈(run authorizationStep {} (restartedInStep.take 4)).1.denials.rows :=
      mem_rows.mpr hrow
    rw [hnone] at hmem
    cases hmem
  exact ⟨explained_empty,hg,by decide +kernel,
    (ledger_explains_itself_iff {} explained_empty restartedInStep).mpr hg⟩

def restartedBehind : List AuthorizationCall :=
  [.evaluate 1 0 "a" ["u"] 0,.evaluate 1 0 "b" [] 0,.confirm 1 2 1 "b" "boot1" 0,
    .restate 1 1 1 "a" "boot2" 0]

def resyncedAfterDenial : List AuthorizationCall :=
  [.evaluate 1 0 "a" ["u"] 0,.evaluate 1 0 "b" [] 0,.confirm 1 2 1 "b" "boot1" 0,.resync 1]

theorem restarted_node_is_unexplained :
    Explained {} ∧ ¬Explained (run authorizationStep {} restartedBehind).1 ∧
    ¬Explained (run authorizationStep {} resyncedAfterDenial).1 := by
  refine ⟨explained_empty,fun h => ?_,fun h => ?_⟩
  · exact (h 1).reason (by decide +kernel) (by decide +kernel)
  have hrow : (run authorizationStep {} resyncedAfterDenial).1.denials.lookup (1,"u")=
      some ⟨2,0,some 0,0⟩ := by
    decide +kernel
  exact absurd ((h 1).denials "u" _ hrow rfl) (by decide +kernel)

end Oboard.Store
