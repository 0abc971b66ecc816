import Oboard.Store.AuthorizationStates

namespace Oboard.Store

open GoText Ascending Runs List Table

inductive AuthorizationCall where
  | evaluate (serverID : Int) (routingRevision : Nat) (digest : String) (keys : List String)
      (now : Time)
  | evaluateWithSequence (serverID : Int) (routingRevision : Nat) (digest : String)
      (keys : List String) (now expiresAt : Time)
  | issue (serverID revision : Int) (expiresAt : Time)
  | deliver (serverID revision sequence : Int) (messageID : String) (ts : Time)
  | confirm (serverID revision sequence : Int) (digest bootID : String) (ts : Time)
  | restate (serverID revision sequence : Int) (digest bootID : String) (ts : Time)
  | resync (serverID : Int)
  | markPending (serverID : Int) (reason : Option AuthorizationPending) (lastError : String)
      (retryable : Bool)
  | prune (now : Time)

inductive AuthorizationEvent where
  | evaluated (serverID : Int) (keys : List String)
  | issued (serverID : Int) (expiresAt : Time)
  | pruned (serverID : Int) (credentialID : String) (at_ : Time)

def settle {α : Type} (l : AuthorizationLedger) (next : α → AuthorizationLedger)
    (events : List AuthorizationEvent) (result : Except String α) :
    AuthorizationLedger×List AuthorizationEvent :=
  match result with
  | .error _ => (l,[])
  | .ok a => (next a,events)

def prunedRows (l : AuthorizationLedger) (now : Time) : List AuthorizationEvent :=
  (l.denials.rows.filter (fun row => row.2.prunable now)).map
    (fun row => .pruned row.1.1 row.1.2 now)

def authorizationStep (l : AuthorizationLedger) :
    AuthorizationCall → AuthorizationLedger×List AuthorizationEvent
  | .evaluate serverID routingRevision digest keys now =>
    settle l Prod.fst [.evaluated serverID keys]
      (evaluateAuthorizationDesired l serverID routingRevision digest keys now)
  | .evaluateWithSequence serverID routingRevision digest keys now expiresAt =>
    settle l Prod.fst [.evaluated serverID keys,.issued serverID expiresAt]
      (evaluateAuthorizationDesiredWithSequence l serverID routingRevision digest keys now expiresAt)
  | .issue serverID revision expiresAt =>
    settle l Prod.fst [.issued serverID expiresAt]
      (issueAuthorizationSequence l serverID revision expiresAt)
  | .deliver serverID revision sequence messageID ts =>
    settle l id [] (recordAuthorizationDelivery l serverID revision sequence messageID ts)
  | .confirm serverID revision sequence digest bootID ts =>
    ((recordAuthorizationConfirmation l serverID revision sequence digest bootID ts).1,[])
  | .restate serverID revision sequence digest bootID ts =>
    ((restateAuthorizationConfirmation l serverID revision sequence digest bootID ts).1,[])
  | .resync serverID => settle l id [] (forceAuthorizationResync l serverID)
  | .markPending serverID reason lastError retryable =>
    settle l id [] (markAuthorizationPending l serverID reason lastError retryable)
  | .prune now => (pruneAuthorizationDenials l now,prunedRows l now)

/-- What one server may still hold for one credential, read off the calls alone: whether it is
wanted, the expiries of its leases, and the last removal of its denial since. -/
structure Exposure where
  desired : Bool := false
  expiries : List Time := []
  prunedAt : Option Time := none

def Exposure.observe (serverID : Int) (credentialID : String) (x : Exposure) :
    AuthorizationEvent → Exposure
  | .evaluated id keys => if id=serverID then {x with desired := credentialID∈keys} else x
  | .issued id expiresAt =>
    if id=serverID ∧ x.desired then ⟨true,expiresAt::x.expiries,none⟩ else x
  | .pruned id credential at_ =>
    if id=serverID ∧ credential=credentialID then {x with prunedAt := some at_} else x

def exposure (serverID : Int) (credentialID : String) (log : List AuthorizationEvent) : Exposure :=
  log.foldl (Exposure.observe serverID credentialID) {}

/-- A revoked credential that some lease admits has a denial that outlasts all these leases,
unless the denial was removed after they had expired. -/
def RevokeRemembered (denial : Option AuthorizationDenial) (x : Exposure) : Prop :=
  x.desired=false → x.expiries≠[] → (∃row,denial=some row ∧ ∀e∈x.expiries,e≤row.leaseBoundUntil) ∨
    (denial=none ∧ ∃p,x.prunedAt=some p ∧ ∀e∈x.expiries,e<p)

/-- Every evaluated digest is a digest of its key set. The empty digest stands for no evaluation. -/
def AuthorizationCall.IdentifiesKeys (contents : String → Set String) : AuthorizationCall → Prop
  | .evaluate _ _ digest keys _ => digest≠"" ∧ ∀k,k∈keys ↔ k∈contents digest
  | .evaluateWithSequence _ _ digest keys _ _ => digest≠"" ∧ ∀k,k∈keys ↔ k∈contents digest
  | _ => True

def AuthorizationCall.evaluatedDigest (serverID : Int) : AuthorizationCall → Option String
  | .evaluate id _ digest _ _ => if id=serverID ∧ 0 < id then some digest else none
  | .evaluateWithSequence id _ digest _ _ _ => if id=serverID ∧ 0 < id then some digest else none
  | _ => none

/-- Columns that only evaluations and issues move. -/
structure Kept (st st' : AuthorizationState) : Prop where
  revision : st'.desiredRevision=st.desiredRevision
  sequence : st'.issuedSequence=st.issuedSequence
  keys : st'.desiredKeys=st.desiredKeys
  issued : st'.lastIssuedExpiresAt=st.lastIssuedExpiresAt
  digest : st'.desiredDigest=st.desiredDigest ∨ st'.desiredDigest=""

theorem Kept.refl (st) : Kept st st := ⟨rfl,rfl,rfl,rfl,.inl rfl⟩

def leaseBoundOf (denial : Option AuthorizationDenial) : Option Time :=
  denial.map AuthorizationDenial.leaseBoundUntil

section quiet

variable (l : AuthorizationLedger) (serverID id : Int)

theorem kept_updateState (hf : ∀row,Kept row (f row)) :
    Kept (l.state serverID) ((l.updateState id f).state serverID) := by
  rw [state_updateState]
  split_ifs
  · exact hf _
  · exact Kept.refl _

theorem kept_write (hf : ∀row,Kept row (f row)) :
    Kept (l.state serverID) (((l.ensureState id).updateState id f).state serverID) := by
  rw [state_write]
  split_ifs
  · exact hf _
  · exact Kept.refl _

variable (revision : Int)

theorem leaseBoundOf_confirmDenials : leaseBoundOf ((confirmDenials id revision ts denials).lookup key)=
      leaseBoundOf (denials.lookup key) := by
  rw [confirmDenials,lookup_mapRows,leaseBoundOf,Option.map_map]
  congr 1
  funext row
  change (if _ then _ else _ : AuthorizationDenial).leaseBoundUntil=_
  split_ifs <;> rfl

/-- The ledger moved, but neither the desired set nor the leases nor any denial bound did. -/
def Quiet (l l' : AuthorizationLedger) : Prop :=
  (∀serverID,Kept (l.state serverID) (l'.state serverID)) ∧
  ∀key,leaseBoundOf (l'.denials.lookup key)=leaseBoundOf (l.denials.lookup key)

theorem Quiet.refl : Quiet l l := ⟨fun _ => Kept.refl _,fun _ => rfl⟩

theorem quiet_confirmation (sequence) (digest bootID) (ts) :
    Quiet l (recordAuthorizationConfirmation l id revision sequence digest bootID ts).1 := by
  simp only [recordAuthorizationConfirmation]
  split_ifs
  · exact Quiet.refl l
  · refine ⟨fun s => ?_,fun key => leaseBoundOf_confirmDenials id revision⟩
    exact kept_write l s id (fun row => ⟨rfl,rfl,rfl,rfl,.inl rfl⟩)
  · exact ⟨fun s => by rw [state_ensureState]; exact Kept.refl _,fun _ => rfl⟩

theorem quiet_restate (sequence) (digest bootID) (ts) :
    Quiet l (restateAuthorizationConfirmation l id revision sequence digest bootID ts).1 := by
  simp only [restateAuthorizationConfirmation]
  split_ifs
  · exact quiet_confirmation l id revision sequence digest bootID ts
  · exact ⟨fun s => kept_updateState l s id (fun row => ⟨rfl,rfl,rfl,rfl,.inl rfl⟩),fun _ => rfl⟩
  · exact quiet_confirmation l id revision sequence digest bootID ts

theorem quiet_delivery (sequence) (messageID) (ts) :
    Quiet l (authorizationStep l (.deliver id revision sequence messageID ts)).1 := by
  simp only [authorizationStep,recordAuthorizationDelivery]
  split_ifs
  · exact Quiet.refl l
  · exact ⟨fun s => kept_updateState l s id (fun row => ⟨rfl,rfl,rfl,rfl,.inl rfl⟩),fun _ => rfl⟩

theorem quiet_resync : Quiet l (authorizationStep l (.resync id)).1 := by
  simp only [authorizationStep,forceAuthorizationResync]
  split_ifs
  · exact Quiet.refl l
  · exact ⟨fun s => kept_write l s id (fun row => ⟨rfl,rfl,rfl,rfl,.inr rfl⟩),fun _ => rfl⟩

theorem quiet_markPending (reason) (lastError) (retryable) :
    Quiet l (authorizationStep l (.markPending id reason lastError retryable)).1 := by
  simp only [authorizationStep,markAuthorizationPending]
  split_ifs
  · exact Quiet.refl l
  · exact ⟨fun s => kept_write l s id (fun row => ⟨rfl,rfl,rfl,rfl,.inl rfl⟩),fun _ => rfl⟩

end quiet

section denials

variable (serverID id revision : Int) (bound ts : Time)

theorem lookup_denyKey_ne (h : ¬(serverID=id ∧ credentialID=key)) :
    (denyKey id revision bound ts denials key).lookup (serverID,credentialID)=
      denials.lookup (serverID,credentialID) := by
  have hne : (serverID,credentialID)≠(id,key) := fun heq => h (Prod.mk.injEq .. ▸ heq)
  unfold denyKey
  split <;> exact AList.lookup_insert_ne hne

def BoundedBy (bound : Time) (denial : Option AuthorizationDenial) : Prop :=
  ∃row,denial=some row ∧ bound≤row.leaseBoundUntil

variable (denials : Table (Int×String) AuthorizationDenial)

theorem boundedBy_denyKey :
    BoundedBy bound ((denyKey id revision bound ts denials key).lookup (id,key)) := by
  unfold denyKey
  split
  · exact ⟨_,AList.lookup_insert _,le_rfl⟩
  refine ⟨_,AList.lookup_insert _,?_⟩
  split_ifs with h
  · exact le_rfl
  · exact le_of_not_gt h

variable {keys : List String}

theorem boundedBy_foldl_denyKey
    (h : credentialID∈keys ∨ BoundedBy bound (denials.lookup (id,credentialID))) :
    BoundedBy bound ((keys.foldl (denyKey id revision bound ts) denials).lookup (id,credentialID)) := by
  induction keys generalizing denials with
  | nil => simpa using h
  | cons key keys ih =>
    refine ih _ ?_
    by_cases hk : credentialID=key
    · subst hk
      exact .inr (boundedBy_denyKey id revision bound ts denials)
    · rw [lookup_denyKey_ne id id revision bound ts (fun h => hk h.2)]
      simpa [hk] using h

theorem lookup_foldl_denyKey_ne (h : ¬(serverID=id ∧ credentialID∈keys)) :
    (keys.foldl (denyKey id revision bound ts) denials).lookup (serverID,credentialID)=
      denials.lookup (serverID,credentialID) := by
  induction keys generalizing denials with
  | nil => rfl
  | cons key keys ih =>
    have hkey : ¬(serverID=id ∧ credentialID=key) := by
      rintro ⟨hs,rfl⟩
      exact h ⟨hs,mem_cons_self⟩
    have hrest : ¬(serverID=id ∧ credentialID∈keys) :=
      fun hk => h ⟨hk.1,mem_cons_of_mem _ hk.2⟩
    rw [foldl_cons,ih _ hrest,lookup_denyKey_ne serverID id revision bound ts hkey]

theorem le_leaseBound (h : lastIssued=some m) : m≤leaseBound lastIssued now := by
  subst h
  unfold leaseBound
  simp only
  split_ifs with hlt
  · exact le_rfl
  · exact le_of_not_gt hlt

theorem mem_deniedKeys :
    k∈deniedKeys previous (keys.insertionSort (· ≤ ·)) ↔ k∈previous ∧ k∉keys := by
  simp [deniedKeys,mem_sortUnique]

end denials

structure Evaluated (l : AuthorizationLedger) (id : Int) (digest : String) (keys : List String)
    (now : Time) (l' : AuthorizationLedger) : Prop where
  others : ∀s,s≠id → l'.state s=l.state s
  same : (l.state id).desiredDigest=digest ∧ 0<(l.state id).desiredRevision →
    Kept (l.state id) (l'.state id) ∧ l'.denials=l.denials
  changed : ¬((l.state id).desiredDigest=digest ∧ 0<(l.state id).desiredRevision) →
    (∃routingRevision,l'.state id=desiredState (l.state id) routingRevision digest
      (keys.insertionSort (· ≤ ·))) ∧
    l'.denials=(deniedKeys (l.state id).desiredKeys (keys.insertionSort (· ≤ ·))).foldl
      (denyKey id ((l.state id).desiredRevision+1)
        (leaseBound (l.state id).lastIssuedExpiresAt now) now) l.denials

structure Issued (l : AuthorizationLedger) (id : Int) (expiresAt : Time)
    (l' : AuthorizationLedger) : Prop where
  state : ∀s,l'.state s=if s=id then issueState expiresAt (l.state s) else l.state s
  denials : l'.denials=l.denials

section writes

variable {l : AuthorizationLedger} {id : Int} (routingRevision : Nat) (digest : String)
  (keys : List String) (now expiresAt : Time)

section

variable (hc : (l.state id).desiredDigest=digest ∧ 0<(l.state id).desiredRevision)
include hc

theorem evaluated_watermark : Evaluated l id digest keys now ((l.ensureState id).updateState id
      (fun row => {row with evaluatedRoutingRevision := routingRevision})) where
  others := fun s hs => by rw [state_write,if_neg hs]
  same := fun _ => ⟨kept_write l id id (fun row => ⟨rfl,rfl,rfl,rfl,.inl rfl⟩),rfl⟩
  changed := fun hn => absurd hc hn

theorem evaluated_unchanged (hs : ∀s,l'.state s=l.state s) (hd : l'.denials=l.denials) :
    Evaluated l id digest keys now l' where
  others := fun s _ => hs s
  same := fun _ => ⟨hs id ▸ Kept.refl _,hd⟩
  changed := fun hn => absurd hc hn

end

theorem state_advanceDesired (current) (sorted) (s) :
    ((l.ensureState id).advanceDesired id current routingRevision digest sorted now).state s=
      if s=id then desiredState (l.state s) routingRevision digest sorted else l.state s :=
  state_write l s id (fun row => desiredState row routingRevision digest sorted)

theorem evaluated_advance (hn : ¬((l.state id).desiredDigest=digest ∧ 0<(l.state id).desiredRevision)) :
    Evaluated l id digest keys now ((l.ensureState id).advanceDesired id (l.state id)
      routingRevision digest (keys.insertionSort (· ≤ ·)) now) where
  others := fun s hs => by rw [state_advanceDesired,if_neg hs]
  same := fun hc => absurd hc hn
  changed := fun _ => ⟨⟨routingRevision,by rw [state_advanceDesired,if_pos rfl]⟩,rfl⟩

theorem evaluate_spec (hid : 0 < id) : ∃l' out,
    evaluateAuthorizationDesired l id routingRevision digest keys now=.ok (l',out) ∧
    Evaluated l id digest keys now l' := by
  simp only [evaluateAuthorizationDesired,state_ensureState,if_neg (not_le.mpr hid)]
  split_ifs with hc hr
  · exact ⟨_,_,rfl,evaluated_unchanged digest keys now hc (fun _ => rfl) rfl⟩
  · exact ⟨_,_,rfl,evaluated_watermark routingRevision digest keys now hc⟩
  · exact ⟨_,_,rfl,evaluated_advance routingRevision digest keys now hc⟩

theorem issued_updateState (hrow : (l.states.lookup id).isSome) :
    Issued l id expiresAt (l.updateState id (issueState expiresAt)) :=
  ⟨fun s => by simp [state_updateState,hrow],rfl⟩

theorem isSome_modify_ensureState : (((l.ensureState id).states.modify id f).lookup id).isSome := by
  rw [lookup_modify,if_pos rfl,Option.isSome_map]
  exact isSome_ensureState l id

theorem evaluateWithSequence_spec (hid : 0 < id) : ∃mid l' out n,
    evaluateAuthorizationDesiredWithSequence l id routingRevision digest keys now expiresAt=
      .ok (l',out,n) ∧
    Evaluated l id digest keys now mid ∧ Issued mid id expiresAt l' := by
  simp only [evaluateAuthorizationDesiredWithSequence,state_ensureState,if_neg (not_le.mpr hid)]
  split_ifs with hn hr
  · refine ⟨_,_,_,_,rfl,evaluated_advance routingRevision digest keys now ?_,
      issued_updateState expiresAt isSome_modify_ensureState⟩
    rintro ⟨rfl,hpos⟩
    exact hn.elim (fun h => h rfl) (fun h => absurd hpos (not_lt.mpr h))
  all_goals
    have hc : (l.state id).desiredDigest=digest ∧ 0<(l.state id).desiredRevision := by
      simpa using hn
  · exact ⟨_,_,_,_,rfl,evaluated_watermark routingRevision digest keys now hc,
      issued_updateState expiresAt isSome_modify_ensureState⟩
  · exact ⟨_,_,_,_,rfl,evaluated_unchanged digest keys now hc (fun s => state_ensureState l s id) rfl,
      issued_updateState expiresAt (isSome_ensureState l id)⟩

end writes

/-- All that a call can do to the ledger, with the events it leaves. -/
inductive StepEffect (l : AuthorizationLedger) :
    AuthorizationCall → AuthorizationLedger → List AuthorizationEvent → Prop where
  | quiet {call : AuthorizationCall} {l' : AuthorizationLedger} (hq : Quiet l l')
      (hnone : ∀s,call.evaluatedDigest s=none) : StepEffect l call l' []
  | evaluated {id : Int} {routingRevision : Nat} {digest : String} {keys : List String}
      {now : Time} {l' : AuthorizationLedger} (hid : 0 < id) (hv : Evaluated l id digest keys now l') :
      StepEffect l (.evaluate id routingRevision digest keys now) l' [.evaluated id keys]
  | evaluatedIssued {id : Int} {routingRevision : Nat} {digest : String} {keys : List String}
      {now expiresAt : Time} {mid l' : AuthorizationLedger} (hid : 0 < id)
      (hv : Evaluated l id digest keys now mid) (hi : Issued mid id expiresAt l') :
      StepEffect l (.evaluateWithSequence id routingRevision digest keys now expiresAt) l'
        [.evaluated id keys,.issued id expiresAt]
  | issued {id revision : Int} {expiresAt : Time} {l' : AuthorizationLedger}
      (hi : Issued l id expiresAt l') :
      StepEffect l (.issue id revision expiresAt) l' [.issued id expiresAt]
  | pruned (now : Time) :
      StepEffect l (.prune now) (pruneAuthorizationDenials l now) (prunedRows l now)

theorem settle_quiet (l : AuthorizationLedger) (next : α → AuthorizationLedger)
    (result : Except String α) : (settle l next [] result).2=[] := by
  cases result <;> rfl

theorem step_effect (l : AuthorizationLedger) (call : AuthorizationCall) :
    StepEffect l call (authorizationStep l call).1 (authorizationStep l call).2 := by
  cases call with
  | evaluate id routingRevision digest keys now =>
    by_cases hid : 0 < id
    · obtain ⟨l',out,heq,hv⟩ := evaluate_spec (l := l) routingRevision digest keys now hid
      simp only [authorizationStep,heq]
      exact .evaluated hid hv
    · simp only [authorizationStep,evaluateAuthorizationDesired,if_pos (not_lt.mp hid)]
      exact .quiet (Quiet.refl l) (fun s => if_neg (fun hc => hid hc.2))
  | evaluateWithSequence id routingRevision digest keys now expiresAt =>
    by_cases hid : 0 < id
    · obtain ⟨mid,l',out,n,heq,hv,hi⟩ :=
        evaluateWithSequence_spec (l := l) routingRevision digest keys now expiresAt hid
      simp only [authorizationStep,heq]
      exact .evaluatedIssued hid hv hi
    simp only [authorizationStep,evaluateAuthorizationDesiredWithSequence,
      if_pos (not_lt.mp hid)]
    exact .quiet (Quiet.refl l) (fun s => if_neg (fun hc => hid hc.2))
  | issue id revision expiresAt =>
    by_cases hid : id≤0 ∨ revision≤0
    · simp only [authorizationStep,issueAuthorizationSequence,if_pos hid]
      exact .quiet (Quiet.refl l) (fun _ => rfl)
    · simp only [authorizationStep,issueAuthorizationSequence,if_neg hid]
      exact .issued ⟨fun s => state_write l s id _,rfl⟩
  | prune now => exact .pruned now
  | deliver id revision sequence messageID ts =>
    have hq := quiet_delivery l id revision sequence messageID ts
    simp only [authorizationStep,settle_quiet] at hq ⊢
    exact .quiet hq (fun _ => rfl)
  | confirm id revision sequence digest bootID ts =>
    exact .quiet (quiet_confirmation l id revision sequence digest bootID ts) (fun _ => rfl)
  | restate id revision sequence digest bootID ts =>
    exact .quiet (quiet_restate l id revision sequence digest bootID ts) (fun _ => rfl)
  | resync id =>
    have hq := quiet_resync l id
    simp only [authorizationStep,settle_quiet] at hq ⊢
    exact .quiet hq (fun _ => rfl)
  | markPending id reason lastError retryable =>
    have hq := quiet_markPending l id reason lastError retryable
    simp only [authorizationStep,settle_quiet] at hq ⊢
    exact .quiet hq (fun _ => rfl)

/-- The rows of one server account for the exposure of every credential on it. -/
structure RevokeInv (contents : String → Set String) (s : Int) (l : AuthorizationLedger)
    (log : List AuthorizationEvent) : Prop where
  keys : (l.state s).desiredDigest≠"" →
    ∀k,k∈(l.state s).desiredKeys ↔ k∈contents (l.state s).desiredDigest
  fresh : 0≤(l.state s).desiredRevision ∧
    ((l.state s).desiredRevision=0 → (l.state s).desiredDigest="")
  desired : ∀k,(exposure s k log).desired=true ↔ k∈(l.state s).desiredKeys
  issued : ∀k,∀e∈(exposure s k log).expiries,∃m,(l.state s).lastIssuedExpiresAt=some m ∧ e ≤ m
  remembered : ∀k,RevokeRemembered (l.denials.lookup (s,k)) (exposure s k log)

theorem exposure_append :
    exposure s k (log++events)=events.foldl (Exposure.observe s k) (exposure s k log) :=
  foldl_append

theorem revokeInv_empty : RevokeInv contents s {} [] where
  keys := fun h => absurd rfl h
  fresh := ⟨le_rfl,fun _ => rfl⟩
  desired := fun k => by simp [exposure,AuthorizationLedger.state]
  issued := fun k e he => by simp [exposure] at he
  remembered := fun k _ h => absurd rfl h

section steps

variable {contents : String → Set String}

theorem RevokeRemembered.of_bound (hb : leaseBoundOf denial'=leaseBoundOf denial)
    (h : RevokeRemembered denial x) : RevokeRemembered denial' x := by
  intro hd he
  rcases h hd he with ⟨row,rfl,hrow⟩ | ⟨rfl,hp⟩
  · obtain ⟨row',rfl,hrow'⟩ := Option.map_eq_some_iff.mp hb
    exact .inl ⟨row',rfl,fun e hm => hrow' ▸ hrow e hm⟩
  · exact .inr ⟨Option.map_eq_none_iff.mp hb,hp⟩

theorem RevokeInv.kept (h : RevokeInv contents s l log) (hk : Kept (l.state s) (l'.state s))
    (hb : ∀k,leaseBoundOf (l'.denials.lookup (s,k))=leaseBoundOf (l.denials.lookup (s,k)))
    (he : ∀k,exposure s k log'=exposure s k log) : RevokeInv contents s l' log' where
  keys := fun hne k => by
    have hd : (l'.state s).desiredDigest=(l.state s).desiredDigest := hk.digest.resolve_right hne
    rw [hk.keys,hd]
    exact h.keys (hd ▸ hne) k
  fresh := by
    rw [hk.revision]
    refine ⟨h.fresh.1,fun h0 => ?_⟩
    rcases hk.digest with hd | hd
    · rw [hd]
      exact h.fresh.2 h0
    · exact hd
  desired := fun k => by
    rw [hk.keys,he]
    exact h.desired k
  issued := fun k => by
    rw [hk.issued,he]
    exact h.issued k
  remembered := fun k => by
    rw [he]
    exact (h.remembered k).of_bound (hb k)

theorem RevokeInv.quiet (h : RevokeInv contents s l log) (hq : Quiet l l') :
    RevokeInv contents s l' log :=
  h.kept (hq.1 s) (fun k => hq.2 (s,k)) (fun _ => rfl)

variable {id : Int} {keys : List String}

theorem exposure_evaluated : exposure s k (log++[.evaluated id keys])=
      if id=s then {exposure s k log with desired := k∈keys} else exposure s k log :=
  exposure_append

section evaluated

variable (hv : Evaluated l id digest keys now l')
include hv

theorem Evaluated.denial
    (hn : ¬((l.state id).desiredDigest=digest ∧ 0<(l.state id).desiredRevision)) (s) (k) :
    (s=id ∧ BoundedBy (leaseBound (l.state s).lastIssuedExpiresAt now) (l'.denials.lookup (s,k))) ∨
    (¬(s=id ∧ k∈(l.state id).desiredKeys ∧ k∉keys) ∧
      l'.denials.lookup (s,k)=l.denials.lookup (s,k)) := by
  obtain ⟨-,hd⟩ := hv.changed hn
  by_cases hk : s=id ∧ k∈deniedKeys (l.state id).desiredKeys (keys.insertionSort (· ≤ ·))
  · obtain ⟨rfl,hk⟩ := hk
    refine .inl ⟨rfl,?_⟩
    rw [hd]
    exact boundedBy_foldl_denyKey _ _ _ _ _ (.inl hk)
  refine .inr ⟨fun h => hk ⟨h.1,mem_deniedKeys.mpr h.2⟩,?_⟩
  rw [hd]
  exact lookup_foldl_denyKey_ne s id _ _ _ _ hk

theorem Evaluated.denial_other (hs : s≠id) (k) :
    l'.denials.lookup (s,k)=l.denials.lookup (s,k) := by
  by_cases hc : (l.state id).desiredDigest=digest ∧ 0<(l.state id).desiredRevision
  · rw [(hv.same hc).2]
  · exact (hv.denial hc s k).elim (fun h => absurd h.1 hs) And.right

variable (hkeys : ∀k,k∈keys ↔ k∈contents digest)
include hkeys

/-- The digest did not change, so neither did the desired set. -/
theorem RevokeInv.evaluated_same (h : RevokeInv contents id l log) (hne : digest≠"")
    (hc : (l.state id).desiredDigest=digest ∧ 0<(l.state id).desiredRevision) :
    RevokeInv contents id l' (log++[.evaluated id keys]) := by
  obtain ⟨hk,hd⟩ := hv.same hc
  refine h.kept hk (fun k => by rw [hd]) (fun k => ?_)
  have hmem : (exposure id k log).desired=decide (k∈keys) := by
    rw [Bool.eq_iff_iff,h.desired,decide_eq_true_iff,hkeys,← hc.1]
    exact h.keys (hc.1 ▸ hne) k
  rw [exposure_evaluated,if_pos rfl,← hmem]

theorem RevokeInv.evaluated_changed (h : RevokeInv contents id l log)
    (hn : ¬((l.state id).desiredDigest=digest ∧ 0<(l.state id).desiredRevision)) :
    RevokeInv contents id l' (log++[.evaluated id keys]) := by
  obtain ⟨⟨routingRevision,hst⟩,-⟩ := hv.changed hn
  have hx : ∀k,exposure id k (log++[.evaluated id keys])=
      {exposure id k log with desired := k∈keys} := by
    intro k
    rw [exposure_evaluated,if_pos rfl]
  have h0 := h.fresh.1
  constructor
  case keys =>
    intro _ k
    rw [hst]
    change k∈keys.insertionSort (· ≤ ·) ↔ k∈contents digest
    rw [mem_insertionSort,hkeys]
  case fresh =>
    rw [hst]
    change 0≤(l.state id).desiredRevision+1 ∧ ((l.state id).desiredRevision+1=0 → digest="")
    omega
  case desired =>
    intro k
    rw [hst,hx]
    change decide (k∈keys)=true ↔ k∈keys.insertionSort (· ≤ ·)
    rw [mem_insertionSort,decide_eq_true_iff]
  case issued =>
    intro k
    rw [hst,hx]
    exact h.issued k
  case remembered =>
    intro k
    rw [hx]
    intro hfalse hsome
    have hout : k∉keys := of_decide_eq_false hfalse
    rcases hv.denial hn id k with ⟨-,row,hrow,hle⟩ | ⟨hkeep,hsame⟩
    · refine .inl ⟨row,hrow,fun e he => ?_⟩
      obtain ⟨m,hm,hem⟩ := h.issued k e he
      exact hem.trans ((le_leaseBound hm).trans hle)
    -- the key is absent now and did not leave in this step
    have hbefore : (exposure id k log).desired=false := by
      rw [← Bool.not_eq_true,h.desired]
      exact fun hin => hkeep ⟨rfl,hin,hout⟩
    rw [hsame]
    exact h.remembered k hbefore hsome

theorem RevokeInv.evaluated (h : RevokeInv contents s l log) (hne : digest≠"") :
    RevokeInv contents s l' (log++[.evaluated id keys]) := by
  by_cases hs : s=id
  · subst hs
    by_cases hc : (l.state s).desiredDigest=digest ∧ 0<(l.state s).desiredRevision
    · exact h.evaluated_same hv hkeys hne hc
    · exact h.evaluated_changed hv hkeys hc
  · refine h.kept (hv.others s hs ▸ Kept.refl _) (fun k => by rw [hv.denial_other hs]) (fun k => ?_)
    rw [exposure_evaluated,if_neg (Ne.symm hs)]

end evaluated

theorem exposure_issued : exposure s k (log++[.issued id expiresAt])=
      if id=s ∧ (exposure s k log).desired then ⟨true,expiresAt::(exposure s k log).expiries,none⟩
      else exposure s k log :=
  exposure_append

theorem issueState_covers :
    ∃m,(issueState expiresAt st).lastIssuedExpiresAt=some m ∧ expiresAt ≤ m ∧
      ∀e,st.lastIssuedExpiresAt=some e → e ≤ m := by
  unfold issueState
  cases hl : st.lastIssuedExpiresAt with
  | none => exact ⟨expiresAt,rfl,le_rfl,fun e he => by simp at he⟩
  | some a =>
    by_cases hlt : a<expiresAt
    · refine ⟨expiresAt,if_pos hlt,le_rfl,fun e he => ?_⟩
      cases he
      exact le_of_lt hlt
    refine ⟨a,if_neg hlt,le_of_not_gt hlt,fun e he => ?_⟩
    cases he
    exact le_rfl

theorem RevokeInv.issued_here (h : RevokeInv contents id l log) (hv : Issued l id expiresAt l') :
    RevokeInv contents id l' (log++[.issued id expiresAt]) := by
  have hst : l'.state id=issueState expiresAt (l.state id) := by rw [hv.state,if_pos rfl]
  have hx : ∀k,exposure id k (log++[.issued id expiresAt])=
      if (exposure id k log).desired then ⟨true,expiresAt::(exposure id k log).expiries,none⟩
      else exposure id k log := by
    simp [exposure_issued]
  constructor
  case keys =>
    rw [hst]
    exact h.keys
  case fresh =>
    rw [hst]
    exact h.fresh
  case desired =>
    intro k
    rw [hst,hx]
    change _ ↔ k∈(l.state id).desiredKeys
    rw [← h.desired]
    split_ifs with hd <;> simp [hd]
  case issued =>
    intro k e he
    obtain ⟨m,hm,hnew,hold⟩ := issueState_covers
    refine ⟨m,hst ▸ hm,?_⟩
    have hcases : e=expiresAt ∨ e∈(exposure id k log).expiries := by
      rw [hx] at he
      split_ifs at he
      · exact mem_cons.mp he
      · exact .inr he
    rcases hcases with rfl | he
    · exact hnew
    · obtain ⟨m0,hm0,hle⟩ := h.issued k e he
      exact hle.trans (hold m0 hm0)
  case remembered =>
    intro k
    rw [hx,hv.denials]
    split_ifs with hd
    · exact fun hfalse => by simp at hfalse
    · exact h.remembered k

theorem RevokeInv.issue (h : RevokeInv contents s l log) (hv : Issued l id expiresAt l') :
    RevokeInv contents s l' (log++[.issued id expiresAt]) := by
  by_cases hs : s=id
  · subst hs
    exact h.issued_here hv
  refine h.kept ?_ (fun k => by rw [hv.denials]) (fun k => ?_)
  · rw [hv.state,if_neg hs]
    exact Kept.refl _
  · rw [exposure_issued,if_neg (fun hc => hs hc.1.symm)]

theorem observe_pruned (rows : List ((Int×String)×AuthorizationDenial))
    (x : Exposure) : (rows.map (fun row => AuthorizationEvent.pruned row.1.1 row.1.2 now)).foldl
        (Exposure.observe s k) x=
      if ∃row∈rows,row.1=(s,k) then {x with prunedAt := some now} else x := by
  induction rows generalizing x with
  | nil => simp
  | cons row rows ih =>
    obtain ⟨⟨a,b⟩,r⟩ := row
    rw [map_cons,foldl_cons,ih]
    by_cases h : a=s ∧ b=k
    · obtain ⟨rfl,rfl⟩ := h
      simp [Exposure.observe]
    · have hne : ¬(a,b)=(s,k) := by simpa using h
      simp only [Exposure.observe,if_neg h,exists_mem_cons_iff,hne,false_or]

theorem exposure_pruned : exposure s k (log++prunedRows l now)=
      if ∃row,l.denials.lookup (s,k)=some row ∧ row.prunable now then
        {exposure s k log with prunedAt := some now} else exposure s k log := by
  rw [exposure_append,prunedRows,observe_pruned]
  refine if_congr ⟨?_,?_⟩ rfl rfl
  · rintro ⟨⟨key,row⟩,hmem,rfl⟩
    obtain ⟨hrow,hp⟩ := mem_filter.mp hmem
    exact ⟨row,mem_rows.mp hrow,hp⟩
  · rintro ⟨row,hrow,hp⟩
    exact ⟨((s,k),row),mem_filter.mpr ⟨mem_rows.mpr hrow,hp⟩,rfl⟩

theorem RevokeRemembered.prune (h : RevokeRemembered (some row) x) (hp : row.prunable now) :
    RevokeRemembered none {x with prunedAt := some now} := by
  intro hd he
  have hlt : row.leaseBoundUntil<now := by
    simp only [AuthorizationDenial.prunable,Bool.and_eq_true,decide_eq_true_eq] at hp
    exact hp.2
  rcases h hd he with ⟨_,hrow,hle⟩ | ⟨hnone,-⟩
  · cases hrow
    exact .inr ⟨rfl,now,rfl,fun e hm => (hle e hm).trans_lt hlt⟩
  · cases hnone

theorem RevokeInv.prune (h : RevokeInv contents s l log) :
    RevokeInv contents s (pruneAuthorizationDenials l now) (log++prunedRows l now) := by
  have hx : ∀k,(exposure s k (log++prunedRows l now)).desired=(exposure s k log).desired ∧
      (exposure s k (log++prunedRows l now)).expiries=(exposure s k log).expiries := by
    intro k
    rw [exposure_pruned]
    split_ifs <;> exact ⟨rfl,rfl⟩
  refine ⟨h.keys,h.fresh,fun k => (hx k).1 ▸ h.desired k,fun k => (hx k).2 ▸ h.issued k,fun k => ?_⟩
  have hold := h.remembered k
  rw [exposure_pruned,pruneAuthorizationDenials,lookup_deleteRows]
  split_ifs with hp
  · obtain ⟨row,hrow,hp⟩ := hp
    rw [hrow] at hold
    have hgone : (l.denials.lookup (s,k)).filter (fun row => !row.prunable now)=none := by
      simp [hrow,hp]
    rw [hgone]
    exact hold.prune hp
  · have hkeep : (l.denials.lookup (s,k)).filter (fun row => !row.prunable now)=
        l.denials.lookup (s,k) := by
      cases hrow : l.denials.lookup (s,k) with
      | none => rfl
      | some row =>
        have : ¬row.prunable now=true := fun hc => hp ⟨row,hrow,hc⟩
        simp [this]
    rw [hkeep]
    exact hold

theorem RevokeInv.step (h : RevokeInv contents s l log) (hcall : call.IdentifiesKeys contents)
    (heff : StepEffect l call l' events) : RevokeInv contents s l' (log++events) := by
  cases heff with
  | quiet hq _ =>
    rw [append_nil]
    exact h.quiet hq
  | evaluated _ hv => exact h.evaluated hv hcall.2 hcall.1
  | evaluatedIssued _ hv hi =>
    have := (h.evaluated hv hcall.2 hcall.1).issue hi
    rwa [append_assoc] at this
  | issued hi => exact h.issue hi
  | pruned now => exact h.prune

theorem Evaluated.counters (h : RevokeInv contents s l log) (hne : digest≠"")
    (hv : Evaluated l id digest keys now l') :
    (l'.state s).issuedSequence=(l.state s).issuedSequence ∧
    (l'.state s).desiredRevision=(l.state s).desiredRevision+
      if id=s ∧ digest≠(l.state s).desiredDigest then 1 else 0 := by
  by_cases hs : s=id
  · subst hs
    by_cases hd : digest=(l.state s).desiredDigest
    · have hpos : 0<(l.state s).desiredRevision := by
        refine lt_of_le_of_ne h.fresh.1 (fun h0 => hne ?_)
        rw [hd]
        exact h.fresh.2 h0.symm
      obtain ⟨hk,-⟩ := hv.same ⟨hd.symm,hpos⟩
      simp [hk.sequence,hk.revision,hd]
    · obtain ⟨⟨_,hst⟩,-⟩ := hv.changed (fun hc => hd hc.1.symm)
      rw [hst]
      exact ⟨rfl,by simp [desiredState,hd]⟩
  · rw [hv.others s hs]
    simp [Ne.symm hs]

theorem Issued.counters (hi : Issued l id expiresAt l') (s) :
    (l.state s).issuedSequence≤(l'.state s).issuedSequence ∧
    (l'.state s).desiredRevision=(l.state s).desiredRevision := by
  rw [hi.state]
  split_ifs
  · exact ⟨by simp [issueState],rfl⟩
  · exact ⟨le_rfl,rfl⟩

theorem moves_evaluated (hid : 0 < id) : (if id=s ∧ digest≠stored then 1 else 0 : Int)=
      if (if id=s ∧ 0 < id then some digest else none : Option String).any
        (·≠stored) then 1 else 0 := by
  by_cases hs : id=s
  · subst hs
    simp [hid]
  · simp [hs]

theorem StepEffect.counters (heff : StepEffect l call l' events)
    (h : RevokeInv contents s l log) (hcall : call.IdentifiesKeys contents) :
    (l.state s).issuedSequence≤(l'.state s).issuedSequence ∧
    (l'.state s).desiredRevision=(l.state s).desiredRevision+
      if (call.evaluatedDigest s).any (·≠(l.state s).desiredDigest) then 1
      else 0 := by
  cases heff with
  | quiet hq hnone => simp [hnone,(hq.1 s).sequence,(hq.1 s).revision]
  | evaluated hid hv =>
    obtain ⟨hseq,hrev⟩ := hv.counters h hcall.1
    exact ⟨hseq.ge,hrev.trans (congrArg _ (moves_evaluated hid))⟩
  | evaluatedIssued hid hv hi =>
    obtain ⟨hseq,hrev⟩ := hv.counters h hcall.1
    exact ⟨hseq.ge.trans (hi.counters s).1,
      ((hi.counters s).2.trans hrev).trans (congrArg _ (moves_evaluated hid))⟩
  | issued hi => simpa [AuthorizationCall.evaluatedDigest] using hi.counters s
  | pruned now => simp [AuthorizationCall.evaluatedDigest,pruneAuthorizationDenials,AuthorizationLedger.state]

end steps

section runs

variable {contents : String → Set String} {calls : List AuthorizationCall}

theorem guarded_of_identifies (h : ∀call∈calls,call.IdentifiesKeys contents) :
    RunGuarded authorizationStep (fun _ call => call.IdentifiesKeys contents) l calls :=
  runGuarded_of_forall authorizationStep (fun call hc _ => h call hc) l

theorem revokeInv_run (h : ∀call∈calls,call.IdentifiesKeys contents) (s) :
    RevokeInv contents s (run authorizationStep {} calls).1 (run authorizationStep {} calls).2 := by
  have := run_invariant (RevokeInv contents s) _
    (fun {l _ call} hcall hinv => hinv.step hcall (step_effect l call))
    (guarded_of_identifies h) revokeInv_empty
  simpa using this

theorem counters_run
    (hinv : RevokeInv contents s l log) (h : ∀call∈calls,call.IdentifiesKeys contents) :
    (l.state s).desiredRevision≤((run authorizationStep l calls).1.state s).desiredRevision ∧
    (l.state s).issuedSequence≤((run authorizationStep l calls).1.state s).issuedSequence := by
  have := run_invariant (w := log) (fun l1 log1 => RevokeInv contents s l1 log1 ∧
      (l.state s).desiredRevision≤(l1.state s).desiredRevision ∧
      (l.state s).issuedSequence≤(l1.state s).issuedSequence) _
    (fun {l1 log1 call} hcall hp => by
      obtain ⟨hseq,hrev⟩ := (step_effect l1 call).counters hp.1 hcall
      refine ⟨hp.1.step hcall (step_effect l1 call),?_,hp.2.2.trans hseq⟩
      rw [hrev]
      split_ifs <;> omega)
    (guarded_of_identifies h) ⟨hinv,le_rfl,le_rfl⟩
  exact this.2

/-- A credential that left the desired set has a denial that outlasts every lease that admits it,
until a prune past their expiry. -/
theorem no_revoke_forgotten (contents : String → Set String) (calls : List AuthorizationCall)
    (hcalls : ∀call∈calls,call.IdentifiesKeys contents) (serverID : Int) :
    let reached := run authorizationStep {} calls
    (∀credentialID,RevokeRemembered (reached.1.denials.lookup (serverID,credentialID))
      (exposure serverID credentialID reached.2)) ∧
    (∀more,(∀call∈more,call.IdentifiesKeys contents) → (reached.1.state serverID).desiredRevision≤
        ((run authorizationStep reached.1 more).1.state serverID).desiredRevision ∧
      (reached.1.state serverID).issuedSequence≤
        ((run authorizationStep reached.1 more).1.state serverID).issuedSequence) ∧
    ∀call,call.IdentifiesKeys contents →
      ((authorizationStep reached.1 call).1.state serverID).desiredRevision=
        (reached.1.state serverID).desiredRevision+
          if (call.evaluatedDigest serverID).any
            (fun digest => digest≠(reached.1.state serverID).desiredDigest) then 1 else 0 := by
  have hinv := revokeInv_run hcalls serverID
  exact ⟨hinv.remembered,fun more hmore => counters_run hinv hmore,
    fun call hcall => ((step_effect _ call).counters hinv hcall).2⟩

def revokedLease : List AuthorizationCall :=
  [.evaluateWithSequence 1 1 "granted" ["key"] 0 100,.evaluate 1 2 "revoked" [] 10]

def revokedLeaseContents (digest : String) : Set String := {k | digest="granted" ∧ k="key"}

theorem revokedLease_identifiesKeys :
    ∀call∈revokedLease,call.IdentifiesKeys revokedLeaseContents := by
  simp [revokedLease,AuthorizationCall.IdentifiesKeys,revokedLeaseContents]

theorem revoked_lease_is_denied : (∀call∈revokedLease,call.IdentifiesKeys revokedLeaseContents) ∧
    ∃row,(run authorizationStep {} revokedLease).1.denials.lookup (1,"key")=some row ∧
      100≤row.leaseBoundUntil := by
  refine ⟨revokedLease_identifiesKeys,?_⟩
  have h := (no_revoke_forgotten revokedLeaseContents revokedLease revokedLease_identifiesKeys
    1).1 "key"
  rcases h rfl (cons_ne_nil _ _) with ⟨row,hrow,hle⟩ | ⟨-,_,hp,-⟩
  · exact ⟨row,hrow,hle 100 mem_cons_self⟩
  · cases hp

end runs

end Oboard.Store
