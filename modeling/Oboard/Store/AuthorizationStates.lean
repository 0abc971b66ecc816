import Oboard.Framework.Table
import Oboard.Framework.GoText
import Oboard.Framework.Runs
import Oboard.Framework.Ascending
import Mathlib.Data.String.Basic

namespace Oboard.Store

open GoText Ascending Table

/-- Why a server's confirmed authorization trails the desired one. The empty reason is absent. -/
inductive AuthorizationPending where
  | agentOffline
  | delivering
  | agentUpgrade
  | deliveryFailed
  | unenrolled
  | awaitingConfirm
  | superseded
  | runtimeUnavailable
  | compatibilityTask

/-- One row of authorization_states. The defaults are those of the table. -/
structure AuthorizationState where
  desiredRevision : Int := 0
  desiredDigest : String := ""
  desiredKeys : List String := []
  evaluatedRoutingRevision : Nat := 0
  issuedSequence : Int := 0
  lastIssuedExpiresAt : Option Time := none
  deliveredRevision : Int := 0
  deliveredSequence : Int := 0
  deliveredMessageID : String := ""
  deliveredAt : Option Time := none
  confirmedRevision : Int := 0
  confirmedSequence : Int := 0
  confirmedDigest : String := ""
  confirmedBootID : String := ""
  confirmedAt : Option Time := none
  pendingReason : Option AuthorizationPending := none
  lastError : String := ""
  retryable : Bool := true

/-- One row of authorization_denials, keyed by server and credential. -/
structure AuthorizationDenial where
  denyRevision : Int
  leaseBoundUntil : Time
  confirmedAt : Option Time
  createdAt : Time
  deriving DecidableEq

structure AuthorizationLedger where
  states : Table Int AuthorizationState := ∅
  denials : Table (Int×String) AuthorizationDenial := ∅

structure AuthorizationDesiredEvaluation where
  state : AuthorizationState
  changed : Bool := false
  deniedKeys : List String := []

namespace AuthorizationLedger

section

variable (l : AuthorizationLedger) (serverID : Int)

/-- A server without a row reads as the zero state. -/
def state : AuthorizationState :=
  (l.states.lookup serverID).getD {}

/-- The row is inserted with its defaults when it is missing. -/
def ensureState : AuthorizationLedger :=
  {l with states := l.states.putNew (serverID,{})}

def updateState (f : AuthorizationState → AuthorizationState) : AuthorizationLedger :=
  {l with states := l.states.modify serverID f}

end

end AuthorizationLedger

def deniedKeys (previous sorted : List String) : List String :=
  sortUnique (previous.filter (fun key => key∉sorted))

/-- The last instant at which the server can still hold an issued lease. -/
def leaseBound (lastIssued : Option Time) (now : Time) : Time :=
  match lastIssued with
  | none => now
  | some e => if now<e then e else now

/-- The upsert of one denial. A second revocation raises the bound and asks for a
confirmation again. -/
def denyKey (serverID revision : Int) (bound ts : Time)
    (denials : Table (Int×String) AuthorizationDenial) (key : String) :
    Table (Int×String) AuthorizationDenial :=
  match denials.lookup (serverID,key) with
  | none => denials.insert (serverID,key) ⟨revision,bound,none,ts⟩
  | some row => denials.insert (serverID,key) {row with
        denyRevision := revision
        leaseBoundUntil := if row.leaseBoundUntil<bound then bound else row.leaseBoundUntil
        confirmedAt := none}

def desiredState (current : AuthorizationState) (routingRevision : Nat) (digest : String)
    (sorted : List String) : AuthorizationState :=
  {current with
    desiredRevision := current.desiredRevision+1
    desiredDigest := digest
    desiredKeys := sorted
    evaluatedRoutingRevision := routingRevision
    pendingReason := current.pendingReason.or (some .delivering)}

def AuthorizationLedger.advanceDesired (l : AuthorizationLedger) (serverID : Int)
    (current : AuthorizationState) (routingRevision : Nat) (digest : String)
    (sorted : List String) (now : Time) : AuthorizationLedger :=
  let revision := current.desiredRevision+1
  let bound := leaseBound current.lastIssuedExpiresAt now
  {states := l.states.modify serverID (fun row => desiredState row routingRevision digest sorted)
   denials := (deniedKeys current.desiredKeys sorted).foldl (denyKey serverID revision bound now)
    l.denials}

def evaluateAuthorizationDesired (l : AuthorizationLedger) (serverID : Int)
    (routingRevision : Nat) (digest : String) (keys : List String) (now : Time) :
    Except String (AuthorizationLedger×AuthorizationDesiredEvaluation) :=
  if serverID≤0 then .error "server id must be positive"
  else
    let sorted := keys.insertionSort (· ≤ ·)
    let tx := l.ensureState serverID
    let current := tx.state serverID
    if current.desiredDigest=digest ∧ 0<current.desiredRevision then
      -- nothing was written yet, so the early return loses nothing by its rollback
      if current.evaluatedRoutingRevision=routingRevision then .ok (l,⟨current,false,[]⟩)
      else .ok (tx.updateState serverID
          (fun row => {row with evaluatedRoutingRevision := routingRevision}),
        ⟨{current with evaluatedRoutingRevision := routingRevision},false,[]⟩)
    else .ok (tx.advanceDesired serverID current routingRevision digest sorted now,
      ⟨desiredState current routingRevision digest sorted,true,
        deniedKeys current.desiredKeys sorted⟩)

/-- The next renewal sequence and the raised expiry of a lease that is about to be signed. -/
def issueState (expiresAt : Time) (row : AuthorizationState) : AuthorizationState :=
  {row with
    issuedSequence := row.issuedSequence+1
    lastIssuedExpiresAt := match row.lastIssuedExpiresAt with
      | none => some expiresAt
      | some e => if e<expiresAt then some expiresAt else some e}

section

variable (l : AuthorizationLedger)

def issueAuthorizationSequence (serverID revision : Int)
    (expiresAt : Time) : Except String (AuthorizationLedger×Int) :=
  if serverID≤0 ∨ revision≤0 then
    .error "server id and authorization revision must be positive"
  else
    let tx := (l.ensureState serverID).updateState serverID (issueState expiresAt)
    .ok (tx,(tx.state serverID).issuedSequence)

/-- Evaluation and sequence allocation in one transaction. -/
def evaluateAuthorizationDesiredWithSequence (serverID : Int)
    (routingRevision : Nat) (digest : String) (keys : List String) (now expiresAt : Time) :
    Except String (AuthorizationLedger×AuthorizationDesiredEvaluation×Int) :=
  if serverID≤0 then .error "server id must be positive"
  else
    let sorted := keys.insertionSort (· ≤ ·)
    let tx := l.ensureState serverID
    let current := tx.state serverID
    let evaluated : AuthorizationLedger×AuthorizationDesiredEvaluation :=
      if current.desiredDigest≠digest ∨ current.desiredRevision≤0 then
        (tx.advanceDesired serverID current routingRevision digest sorted now,
          ⟨desiredState current routingRevision digest sorted,true,
            deniedKeys current.desiredKeys sorted⟩)
      else if current.evaluatedRoutingRevision≠routingRevision then
        (tx.updateState serverID (fun row => {row with evaluatedRoutingRevision := routingRevision}),
          ⟨{current with evaluatedRoutingRevision := routingRevision},false,[]⟩)
      else (tx,⟨current,false,[]⟩)
    let issued := evaluated.1.updateState serverID (issueState expiresAt)
    let sequence := (issued.state serverID).issuedSequence
    .ok (issued,
      {evaluated.2 with state := {evaluated.2.state with issuedSequence := sequence}},sequence)

def recordAuthorizationDelivery (serverID revision sequence : Int)
    (messageID : String) (ts : Time) : Except String AuthorizationLedger :=
  if serverID≤0 then .error "server id must be positive"
  else .ok (l.updateState serverID (fun row =>
    {row with
      deliveredRevision := revision
      deliveredSequence := sequence
      deliveredMessageID := trimSpace messageID
      deliveredAt := some ts
      pendingReason :=
        if row.desiredRevision≤row.confirmedRevision then none else some .awaitingConfirm
      lastError := ""
      retryable := true}))

end

/-- Denials at or below a confirmed revision are marked, those marked before keep their time. -/
def confirmDenials (serverID revision : Int) (ts : Time)
    (denials : Table (Int×String) AuthorizationDenial) : Table (Int×String) AuthorizationDenial :=
  denials.mapRows (fun key row =>
    if key.1=serverID ∧ row.confirmedAt=none ∧ row.denyRevision≤revision then
      {row with confirmedAt := some ts} else row)

section

variable (l : AuthorizationLedger) (serverID revision sequence : Int) (digest bootID : String) (ts : Time)

def recordAuthorizationConfirmation : AuthorizationLedger×Bool :=
  if serverID≤0 ∨ revision≤0 then (l,false)
  else
    let tx := l.ensureState serverID
    let current := tx.state serverID
    if current.confirmedRevision<revision ∨
        (current.confirmedRevision=revision ∧ current.confirmedSequence<sequence) then
      let confirmed := tx.updateState serverID (fun row =>
        {row with
          confirmedRevision := revision
          confirmedSequence := sequence
          confirmedDigest := trimSpace digest
          confirmedBootID := trimSpace bootID
          confirmedAt := some ts
          pendingReason := if row.desiredRevision≤revision then none else row.pendingReason
          lastError := if row.desiredRevision≤revision then "" else row.lastError})
      ({confirmed with denials := confirmDenials serverID revision ts confirmed.denials},true)
    else (tx,false)

/-- A report of another incarnation replaces the watermark even when it is behind. -/
def restateAuthorizationConfirmation : AuthorizationLedger×Bool :=
  let boot := trimSpace bootID
  let current := l.state serverID
  if serverID≤0 ∨ revision≤0 ∨ boot="" then
    recordAuthorizationConfirmation l serverID revision sequence digest bootID ts
  else if (l.states.lookup serverID).isSome ∧ current.confirmedBootID≠"" ∧
      current.confirmedBootID≠boot ∧ revision<current.confirmedRevision then
    (l.updateState serverID (fun row =>
      {row with
        confirmedRevision := revision
        confirmedSequence := sequence
        confirmedDigest := trimSpace digest
        confirmedBootID := boot
        confirmedAt := some ts
        pendingReason := none
        lastError := ""}),true)
  else recordAuthorizationConfirmation l serverID revision sequence digest bootID ts

end

/-- Only the identity of the desired set is cleared, its keys stay for the next comparison. -/
def forceAuthorizationResync (l : AuthorizationLedger) (serverID : Int) :
    Except String AuthorizationLedger :=
  if serverID≤0 then .error "server id must be positive"
  else .ok ((l.ensureState serverID).updateState serverID (fun row =>
    {row with
      desiredDigest := ""
      evaluatedRoutingRevision := 0
      confirmedRevision := 0
      confirmedSequence := 0
      confirmedDigest := ""
      confirmedBootID := ""
      confirmedAt := none
      pendingReason := some .delivering
      lastError := ""
      retryable := true}))

def markAuthorizationPending (l : AuthorizationLedger) (serverID : Int)
    (reason : Option AuthorizationPending) (lastError : String) (retryable : Bool) :
    Except String AuthorizationLedger :=
  if serverID≤0 then .error "server id must be positive"
  else .ok ((l.ensureState serverID).updateState serverID (fun row =>
    {row with
      pendingReason := reason
      lastError := trimSpace (String.ofList (cutBytes 2000 lastError.toList))
      retryable := retryable}))

def AuthorizationDenial.prunable (now : Time) (row : AuthorizationDenial) : Bool :=
  row.confirmedAt.isSome && row.leaseBoundUntil<now

def pruneAuthorizationDenials (l : AuthorizationLedger) (now : Time) : AuthorizationLedger :=
  {l with denials := l.denials.deleteRows (fun _ row => row.prunable now)}

section reads

variable (l : AuthorizationLedger) (serverID id : Int)

theorem state_ensureState : (l.ensureState id).state serverID=l.state serverID :=
  getD_putNew _ _ _ _

variable (f : AuthorizationState → AuthorizationState)

theorem state_updateState : (l.updateState id f).state serverID=
      if serverID=id ∧ (l.states.lookup id).isSome then f (l.state serverID)
      else l.state serverID :=
  getD_modify _ _ _ _ _

theorem isSome_ensureState : ((l.ensureState id).states.lookup id).isSome :=
  l.states.isSome_putNew (id,{})

theorem state_write : ((l.ensureState id).updateState id f).state serverID=
      if serverID=id then f (l.state serverID) else l.state serverID := by
  rw [state_updateState,state_ensureState]
  simp [isSome_ensureState]

end reads

section combined

variable {l : AuthorizationLedger} {serverID : Int}

/-- Evaluation and sequence allocation in two transactions. -/
def evaluateThenIssue (l : AuthorizationLedger) (serverID : Int) (routingRevision : Nat)
    (digest : String) (keys : List String) (now expiresAt : Time) :
    Except String (AuthorizationLedger×AuthorizationDesiredEvaluation×Int) := do
  let (l,evaluation) ← evaluateAuthorizationDesired l serverID routingRevision digest keys now
  let (l,sequence) ←
    issueAuthorizationSequence l serverID evaluation.state.desiredRevision expiresAt
  return (l,evaluation,sequence)

theorem ensureState_of_row (h : (l.states.lookup serverID).isSome) : l.ensureState serverID=l := by
  unfold AuthorizationLedger.ensureState Table.putNew
  rw [if_pos h]

theorem issue_of_ensured (hid : 0 < serverID) (hrevision : 0 < revision)
    (h : tx.ensureState serverID=l) : issueAuthorizationSequence tx serverID revision expiresAt=
      .ok (l.updateState serverID (issueState expiresAt),
        ((l.updateState serverID (issueState expiresAt)).state serverID).issuedSequence) := by
  unfold issueAuthorizationSequence
  rw [if_neg (by omega),h]

theorem isSome_written (l : AuthorizationLedger) (f : AuthorizationState → AuthorizationState) :
    (((l.ensureState serverID).states.modify serverID f).lookup serverID).isSome := by
  rw [lookup_modify,if_pos rfl,Option.isSome_map]
  exact isSome_ensureState l serverID

/-- Both counters can be raised once more within 64 bits. Beyond, Go's next revision wraps and
the next sequence is no 64-bit integer any more. -/
structure AuthorizationState.Raisable (row : AuthorizationState) : Prop where
  revision : 0≤row.desiredRevision ∧ row.desiredRevision<2^63-1
  sequence : row.issuedSequence<2^63-1

/-- The combined transaction writes what the two transactions write. Its evaluation already
carries the new sequence. -/
theorem combined_write_is_its_steps (l : AuthorizationLedger) (serverID : Int)
    (routingRevision : Nat) (digest : String) (keys : List String) (now expiresAt : Time)
    (hrow : (l.state serverID).Raisable) :
    evaluateAuthorizationDesiredWithSequence l serverID routingRevision digest keys now expiresAt=
      (evaluateThenIssue l serverID routingRevision digest keys now expiresAt).map (fun r =>
        (r.1,{r.2.1 with state := {r.2.1.state with issuedSequence := r.2.2}},r.2.2)) := by
  unfold evaluateAuthorizationDesiredWithSequence evaluateThenIssue evaluateAuthorizationDesired
  by_cases hid : serverID≤0
  · rw [if_pos hid,if_pos hid]
    rfl
  rw [if_neg hid,if_neg hid]
  have hid : 0 < serverID := by omega
  have hstate := state_ensureState l serverID serverID
  dsimp only
  by_cases hsame : ((l.ensureState serverID).state serverID).desiredDigest=digest ∧
      0 < ((l.ensureState serverID).state serverID).desiredRevision
  · rw [if_pos hsame,if_neg (by rw [not_or]; exact ⟨not_not.mpr hsame.1,by omega⟩)]
    by_cases hrouting :
        ((l.ensureState serverID).state serverID).evaluatedRoutingRevision=routingRevision
    · rw [if_pos hrouting,if_neg (not_not.mpr hrouting)]
      simp only [bind,Except.bind,issue_of_ensured hid hsame.2 rfl]
      rfl
    rw [if_neg hrouting,if_pos hrouting]
    simp only [bind,Except.bind]
    rw [issue_of_ensured hid hsame.2 (ensureState_of_row (isSome_written l _))]
    rfl
  · rw [if_neg hsame,if_pos (by rw [not_and_or] at hsame; exact hsame.imp id (by omega))]
    have hnext : 0 < (desiredState ((l.ensureState serverID).state serverID) routingRevision digest
        (keys.insertionSort (· ≤ ·))).desiredRevision := by
      change 0 < ((l.ensureState serverID).state serverID).desiredRevision+1
      rw [hstate]
      exact Int.lt_add_one_of_le hrow.revision.1
    simp only [bind,Except.bind]
    rw [issue_of_ensured hid hnext (ensureState_of_row (isSome_written l _))]
    rfl

/-- On an empty ledger the first evaluation of a server is given the first sequence. -/
theorem combined_write_first : (AuthorizationLedger.state {} 1).Raisable ∧
    evaluateAuthorizationDesiredWithSequence {} 1 7 "digest" ["key"] 10 20=
      (evaluateThenIssue {} 1 7 "digest" ["key"] 10 20).map (fun r =>
        (r.1,{r.2.1 with state := {r.2.1.state with issuedSequence := r.2.2}},r.2.2)) :=
  have hrow : (AuthorizationLedger.state {} 1).Raisable := ⟨by decide,by decide⟩
  ⟨hrow,combined_write_is_its_steps {} 1 7 "digest" ["key"] 10 20 hrow⟩

/-- The two steps return the evaluation with the sequence from before the issue. -/
theorem combined_evaluation_differs :
    (evaluateAuthorizationDesiredWithSequence {} 1 7 "digest" ["key"] 10 20).map
        (fun r => r.2.1.state.issuedSequence)=.ok 1 ∧
    (evaluateThenIssue {} 1 7 "digest" ["key"] 10 20).map
        (fun r => r.2.1.state.issuedSequence)=.ok 0 := by
  constructor <;> decide +kernel

end combined

end Oboard.Store
