import Oboard.Framework.Table
import Oboard.Framework.GoText
import Oboard.Framework.Runs

namespace Oboard.Store

open GoText Runs

/-- Why a server's confirmed users trail the desired ones. The empty reason is absent. -/
inductive RuntimeUsersPending where
  | agentOffline
  | delivering
  | agentUpgrade
  | deliveryFailed
  | unenrolled
  | awaitingConfirm
  | runtimeUnavailable
  | coreConfigFallback
  | revisionConflict
  deriving DecidableEq

/-- One row of runtime_user_states. The defaults are those of the table. -/
structure RuntimeUserState where
  desiredRevision : Int := 0
  desiredDigest : String := ""
  evaluatedRoutingRevision : Nat := 0
  deliveredRevision : Int := 0
  deliveredMessageID : String := ""
  deliveredAt : Option Time := none
  confirmedRevision : Int := 0
  confirmedDigest : String := ""
  confirmedBootID : String := ""
  confirmedAt : Option Time := none
  pendingReason : Option RuntimeUsersPending := none
  lastError : String := ""
  retryable : Bool := true

structure RuntimeUserLedger where
  states : Table Int RuntimeUserState := ∅

namespace RuntimeUserLedger

section

variable (l : RuntimeUserLedger) (serverID : Int)

/-- A server without a row reads as the zero state. -/
def state : RuntimeUserState :=
  (l.states.lookup serverID).getD {}

def ensureState : RuntimeUserLedger :=
  ⟨l.states.putNew (serverID,{})⟩

def updateState (f : RuntimeUserState → RuntimeUserState) : RuntimeUserLedger :=
  ⟨l.states.modify serverID f⟩

/-- The answer is the desired state after the call and whether it changed. -/
def recordRuntimeUserDesiredAt (digest : String)
    (routingRevision : Nat) : Except String (RuntimeUserLedger×RuntimeUserState×Bool) :=
  if serverID≤0 then .error "sql: no rows in result set"
  else
    let digest := trimSpace digest
    let tx := l.ensureState serverID
    let current := tx.state serverID
    if current.desiredDigest=digest ∧ 0<current.desiredRevision then
      -- nothing was written yet, so the early return loses nothing by its rollback
      if current.evaluatedRoutingRevision=routingRevision then .ok (l,current,false)
      else
        let moved := {current with evaluatedRoutingRevision := routingRevision}
        .ok (tx.updateState serverID (fun _ => moved),moved,false)
    else
      let next := {current with
        desiredRevision := current.desiredRevision+1
        desiredDigest := digest
        evaluatedRoutingRevision := routingRevision
        pendingReason := current.pendingReason.or (some .delivering)}
      .ok (tx.updateState serverID (fun _ => next),next,true)

end

/-- A conflict marker survives the delivery, which is no acknowledgement. -/
def recordRuntimeUserDelivery (l : RuntimeUserLedger) (serverID revision : Int) (messageID : String)
    (ts : Time) : RuntimeUserLedger :=
  l.updateState serverID (fun row =>
    {row with
      deliveredRevision := revision
      deliveredMessageID := trimSpace messageID
      deliveredAt := some ts
      pendingReason := if row.pendingReason=some .revisionConflict then some .revisionConflict
        else if row.desiredRevision≤row.confirmedRevision then none else some .awaitingConfirm
      lastError := ""
      retryable := true})

section

variable (row : RuntimeUserState) (revision : Int) (digest bootID : String)

/-- The watermark moves forward, or the node re-applied its revision with another identity. -/
def confirmsUsers : Bool :=
  row.confirmedRevision<revision || (row.confirmedRevision=revision &&
    (row.confirmedDigest≠trimSpace digest || row.confirmedBootID≠trimSpace bootID))

/-- What a node has reported. The callers differ in the reports that clear the pending reason. -/
def confirmUsers (ts : Time) (clears : Bool) : RuntimeUserState :=
  {row with
    confirmedRevision := revision
    confirmedDigest := trimSpace digest
    confirmedBootID := trimSpace bootID
    confirmedAt := some ts
    pendingReason := if clears then none else row.pendingReason
    lastError := if clears then "" else row.lastError}

end

def recordRuntimeUserConfirmation (l : RuntimeUserLedger) (serverID revision : Int)
    (digest bootID : String) (ts : Time) : RuntimeUserLedger×Bool :=
  if serverID≤0 ∨ revision≤0 then (l,false)
  else
    let tx := l.ensureState serverID
    if confirmsUsers (tx.state serverID) revision digest bootID then
      (tx.updateState serverID (fun row =>
        confirmUsers row revision digest bootID ts (row.desiredRevision≤revision)),true)
    else (tx,false)

/-- A restated revision does not clear a revision conflict. -/
def clearsRestated (row : RuntimeUserState) (revision : Int) : Bool :=
  row.desiredRevision≤revision && row.pendingReason≠some .revisionConflict

section

variable (l : RuntimeUserLedger) (serverID revision : Int) (digest bootID : String) (ts : Time)

def recordRuntimeUserConfirmationPreservingConflict : RuntimeUserLedger×Bool :=
  if serverID≤0 ∨ revision≤0 then (l,false)
  else
    let tx := l.ensureState serverID
    if confirmsUsers (tx.state serverID) revision digest bootID then
      (tx.updateState serverID (fun row =>
        confirmUsers row revision digest bootID ts (clearsRestated row revision)),true)
    else (tx,false)

/-- A report of another incarnation replaces the watermark even when it is behind. -/
def restateRuntimeUserConfirmation : RuntimeUserLedger×Bool :=
  let boot := trimSpace bootID
  let current := l.state serverID
  if serverID≤0 ∨ revision≤0 ∨ boot="" then
    recordRuntimeUserConfirmation l serverID revision digest bootID ts
  else if (l.states.lookup serverID).isSome ∧ current.confirmedBootID≠"" ∧
      current.confirmedBootID≠boot ∧ revision<current.confirmedRevision then
    (l.updateState serverID (fun row =>
      confirmUsers row revision digest boot ts (clearsRestated row revision)),true)
  else recordRuntimeUserConfirmationPreservingConflict l serverID revision digest bootID ts

end

/-- The desired identity and the watermark are cleared, so that a new revision is offered. -/
def forceRuntimeUsersResync (l : RuntimeUserLedger) (serverID : Int) :
    Except String RuntimeUserLedger :=
  if serverID≤0 then .error "sql: no rows in result set"
  else .ok ((l.ensureState serverID).updateState serverID (fun row =>
    {row with
      desiredDigest := ""
      evaluatedRoutingRevision := 0
      confirmedRevision := 0
      confirmedDigest := ""
      confirmedBootID := ""
      confirmedAt := none
      pendingReason := some .delivering
      lastError := ""
      retryable := true}))

def markRuntimeUserPending (l : RuntimeUserLedger) (serverID : Int)
    (reason : Option RuntimeUsersPending) (lastError : String) (retryable : Bool) :
    RuntimeUserLedger :=
  if serverID≤0 then l
  else (l.ensureState serverID).updateState serverID (fun row =>
    {row with pendingReason := reason,lastError := trimSpace lastError,retryable := retryable})

end RuntimeUserLedger

inductive RuntimeUserCall where
  | evaluate (serverID : Int) (digest : String) (routingRevision : Nat)
  | deliver (serverID revision : Int) (messageID : String) (ts : Time)
  | confirm (serverID revision : Int) (digest bootID : String) (ts : Time)
  | restate (serverID revision : Int) (digest bootID : String) (ts : Time)
  | resync (serverID : Int)
  | markPending (serverID : Int) (reason : Option RuntimeUsersPending) (lastError : String)
      (retryable : Bool)

def runtimeUserStep (l : RuntimeUserLedger) : RuntimeUserCall → RuntimeUserLedger
  | .evaluate serverID digest routingRevision =>
    keepOnError l ((l.recordRuntimeUserDesiredAt serverID digest routingRevision).map Prod.fst)
  | .deliver serverID revision messageID ts =>
    l.recordRuntimeUserDelivery serverID revision messageID ts
  | .confirm serverID revision digest bootID ts =>
    (l.recordRuntimeUserConfirmation serverID revision digest bootID ts).1
  | .restate serverID revision digest bootID ts =>
    (l.restateRuntimeUserConfirmation serverID revision digest bootID ts).1
  | .resync serverID => keepOnError l (l.forceRuntimeUsersResync serverID)
  | .markPending serverID reason lastError retryable =>
    l.markRuntimeUserPending serverID reason lastError retryable

section conflict

variable {l : RuntimeUserLedger} {id s : Int}

namespace RuntimeUserLedger

theorem state_ensure (l : RuntimeUserLedger) (id s) : (l.ensureState id).state s=l.state s :=
  Table.getD_putNew _ _ _ _

def InConflict (l : RuntimeUserLedger) (s : Int) : Prop :=
  (l.state s).pendingReason=some .revisionConflict

instance (l : RuntimeUserLedger) (s : Int) : Decidable (l.InConflict s) :=
  inferInstanceAs (Decidable (_=_))

theorem InConflict.row (h : l.InConflict s) : (l.states.lookup s).isSome := by
  unfold InConflict state at h
  cases hrow : l.states.lookup s with
  | none => simp [hrow] at h
  | some row => rfl

theorem InConflict.ensure_iff : (l.ensureState id).InConflict s ↔ l.InConflict s := by
  unfold InConflict
  rw [state_ensure]

section

variable (h : l.InConflict s)
include h

theorem InConflict.update_iff : (l.updateState id f).InConflict s ↔
      (id=s → (f (l.state s)).pendingReason=some .revisionConflict) := by
  have hstate : (l.updateState id f).state s=
      if s=id ∧ (l.states.lookup id).isSome then f (l.state s) else l.state s :=
    Table.getD_modify _ _ _ _ _
  unfold InConflict
  rw [hstate]
  by_cases hid : id=s
  · subst hid
    rw [if_pos ⟨rfl,h.row⟩]
    simp
  · rw [if_neg (fun hs => hid hs.1.symm)]
    exact ⟨fun _ hs => absurd hs hid,fun _ => h⟩

theorem InConflict.write_iff : ((l.ensureState id).updateState id f).InConflict s ↔
      (id=s → (f (l.state s)).pendingReason=some .revisionConflict) := by
  rw [InConflict.update_iff (ensure_iff.mpr h),state_ensure]

theorem InConflict.confirm_iff (revision) (digest bootID) (ts) :
    (l.recordRuntimeUserConfirmation id revision digest bootID ts).1.InConflict s ↔
      ¬(id=s ∧ 0< id ∧ 0<revision ∧ confirmsUsers (l.state s) revision digest bootID ∧
        (l.state s).desiredRevision≤revision) := by
  unfold recordRuntimeUserConfirmation
  dsimp only
  split_ifs with hinvalid hconfirms
  · exact iff_of_true h (by omega)
  · rw [h.write_iff]
    rw [state_ensure] at hconfirms
    have hreason : (confirmUsers (l.state s) revision digest bootID ts
        ((l.state s).desiredRevision≤revision)).pendingReason=some .revisionConflict ↔
          ¬(l.state s).desiredRevision≤revision := by
      simp only [confirmUsers,decide_eq_true_eq]
      split_ifs with hle
      · simpa using hle
      · exact iff_of_true h hle
    rw [hreason]
    constructor
    · rintro hkept ⟨hid,-,-,-,hle⟩
      exact hkept hid hle
    intro hnot hid hle
    subst hid
    exact hnot ⟨rfl,by omega,by omega,hconfirms,hle⟩
  · rw [state_ensure] at hconfirms
    refine iff_of_true (InConflict.ensure_iff.mpr h) ?_
    rintro ⟨rfl,-,-,hc,-⟩
    exact hconfirms hc

theorem confirmUsers_keeps : (confirmUsers (l.state s) revision digest bootID ts
      (clearsRestated (l.state s) revision)).pendingReason=some .revisionConflict := by
  have hclears : clearsRestated (l.state s) revision=false := by
    simp [clearsRestated,show (l.state s).pendingReason=_ from h]
  rw [confirmUsers,hclears]
  exact h

theorem InConflict.restate
    (hboot : trimSpace bootID≠"") (hid : 0< id) (hrevision : 0<revision) (ts) :
    (l.restateRuntimeUserConfirmation id revision digest bootID ts).1.InConflict s := by
  unfold restateRuntimeUserConfirmation recordRuntimeUserConfirmationPreservingConflict
  dsimp only
  rw [if_neg (by simp only [hboot,or_false]; omega)]
  split_ifs
  · exact h.update_iff.mpr fun _ => confirmUsers_keeps h
  · exact h
  · exact h.write_iff.mpr fun _ => confirmUsers_keeps h
  · exact InConflict.ensure_iff.mpr h

end

end RuntimeUserLedger

/-- The calls that may end a conflict: an acknowledgement at or above the desired revision, a
forced resync and an explicit mark. -/
def RuntimeUserCall.releases (l : RuntimeUserLedger) (s : Int) : RuntimeUserCall → Bool
  | .confirm id revision _ _ _ => id=s && (l.state s).desiredRevision≤revision
  | .resync id => id=s
  | .markPending id _ _ _ => id=s
  | _ => false

/-- A report without boot id that would pass as an acknowledgement. -/
def RuntimeUserCall.unsigned (l : RuntimeUserLedger) (s : Int) : RuntimeUserCall → Bool
  | .restate id revision digest bootID _ => trimSpace bootID="" && id=s && 0< id && 0<revision &&
    RuntimeUserLedger.confirmsUsers (l.state s) revision digest bootID &&
    (l.state s).desiredRevision≤revision
  | _ => false

/-- The calls of a run are logged as they are made. -/
def laneStep (l : RuntimeUserLedger) (call : RuntimeUserCall) :
    RuntimeUserLedger×List RuntimeUserCall :=
  (runtimeUserStep l call,[call])

theorem conflict_step_iff (call : RuntimeUserCall) (hcall : call.releases l s=false)
    (h : l.InConflict s) : (laneStep l call).1.InConflict s ↔ call.unsigned l s=false := by
  cases call with
  | evaluate id digest routingRevision =>
    refine iff_of_true ?_ rfl
    have hkept : (Option.or (l.state s).pendingReason (some .delivering))=some .revisionConflict := by
      rw [show (l.state s).pendingReason=_ from h]
      rfl
    simp only [laneStep,runtimeUserStep,RuntimeUserLedger.recordRuntimeUserDesiredAt,
      RuntimeUserLedger.state_ensure]
    split_ifs
    · exact h
    · exact h
    · refine h.write_iff.mpr ?_
      rintro rfl
      exact h
    · refine h.write_iff.mpr ?_
      rintro rfl
      exact hkept
  | deliver id revision messageID ts =>
    refine iff_of_true (h.update_iff.mpr fun _ => ?_) rfl
    exact if_pos h
  | confirm id revision digest bootID ts =>
    refine iff_of_true ((h.confirm_iff ..).mpr ?_) rfl
    rintro ⟨hid,-,-,-,hle⟩
    simp [RuntimeUserCall.releases,hid,hle] at hcall
  | restate id revision digest bootID ts =>
    simp only [laneStep,runtimeUserStep]
    by_cases hown : trimSpace bootID≠"" ∧ 0< id ∧ 0<revision
    · obtain ⟨hboot,hid,hrevision⟩ := hown
      refine iff_of_true (h.restate hboot hid hrevision ts) ?_
      simp [RuntimeUserCall.unsigned,hboot]
    have hplain : l.restateRuntimeUserConfirmation id revision digest bootID ts=
        l.recordRuntimeUserConfirmation id revision digest bootID ts := by
      unfold RuntimeUserLedger.restateRuntimeUserConfirmation
      rw [if_pos (by by_cases hb : trimSpace bootID="" <;> simp only [hb] at hown ⊢ <;> grind)]
    rw [hplain,h.confirm_iff,← Bool.not_eq_true]
    simp only [RuntimeUserCall.unsigned,Bool.and_eq_true,decide_eq_true_eq,not_iff_not]
    grind
  | resync id =>
    have hid : id≠s := by simpa [RuntimeUserCall.releases] using hcall
    refine iff_of_true ?_ rfl
    simp only [laneStep,runtimeUserStep,RuntimeUserLedger.forceRuntimeUsersResync]
    split_ifs
    · exact h
    · exact h.write_iff.mpr fun hs => absurd hs hid
  | markPending id reason lastError retryable =>
    have hid : id≠s := by simpa [RuntimeUserCall.releases] using hcall
    refine iff_of_true ?_ rfl
    simp only [laneStep,runtimeUserStep,RuntimeUserLedger.markRuntimeUserPending]
    split_ifs
    · exact h
    · exact h.write_iff.mpr fun hs => absurd hs hid

/-- A conflict lasts as long as no report without boot id passes as an acknowledgement. -/
theorem conflict_is_sticky_iff (l : RuntimeUserLedger) (s : Int) (calls : List RuntimeUserCall)
    (h : l.InConflict s)
    (hcalls : RunGuarded laneStep (fun l call => call.releases l s=false) l calls) :
    (∀before,before<+:calls → (run laneStep l before).1.InConflict s) ↔
      RunGuarded laneStep (fun l call => call.unsigned l s=false) l calls :=
  throughout_iff_runGuarded_of (P := fun l => l.InConflict s)
    (fun _ call hcall h => conflict_step_iff call hcall h) h hcalls

def conflicted : RuntimeUserLedger :=
  (run laneStep {} [.evaluate 1 "users" 1,.deliver 1 1 "m" 0,
    .markPending 1 (some .revisionConflict) "already applied with a different" false]).1

theorem conflict_survives_signed_report : conflicted.InConflict 1 ∧
    (run laneStep conflicted [.restate 1 1 "" "boot" 5,.deliver 1 1 "m" 9]).1.InConflict 1 := by
  have h : conflicted.InConflict 1 := by decide +kernel
  exact ⟨h,(conflict_is_sticky_iff conflicted 1 _ h (by decide +kernel)).mpr (by decide +kernel) _
    List.prefix_rfl⟩

/-- The report of a node that knows no boot id erases the conflict it came with. -/
theorem unsigned_report_clears_conflict :
    conflicted.InConflict 1 ∧ ¬(run laneStep conflicted [.restate 1 1 "" "" 5]).1.InConflict 1 := by
  decide +kernel

end conflict

end Oboard.Store
