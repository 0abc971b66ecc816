import Oboard.Store.DeviceRetirement

namespace Oboard.Store

open GoText Runs List Table RetirementStore AuthorizationLedger AList

/-- A lane of one server before and after a call for it. -/
structure LaneRow (call : LaneCall) (before after : LaneState) : Prop where
  desired : after.desiredRevision=before.desiredRevision ∨
    call.evaluates ∧ 0<call.serverID ∧ before.desiredRevision≤after.desiredRevision
  confirmed : after.confirmedRevision=before.confirmedRevision ∨ after.confirmedRevision=0 ∨
    call.reported=some after.confirmedRevision

theorem LaneRow.refl (call) (st) : LaneRow call st st := ⟨.inl rfl,.inl rfl⟩

theorem LaneRow.next (hid : ¬call.serverID≤0) (hcall : call.evaluates)
    (hd : b.desiredRevision=a.desiredRevision+1) (hc : b.confirmedRevision=a.confirmedRevision) :
    LaneRow call a b :=
  ⟨.inr ⟨hcall,not_le.mp hid,by omega⟩,.inl hc⟩

/-- A call reaches the lane of its server only. -/
structure LaneMove (call : LaneCall) (before after : Int → LaneState) : Prop where
  others : ∀s,s≠call.serverID → after s=before s
  own : LaneRow call (before call.serverID) (after call.serverID)

theorem LaneMove.refl (call) (lane) : LaneMove call lane lane :=
  ⟨fun _ _ => rfl,.refl _ _⟩

section rows

variable {t : Table Int ρ} {d : ρ} {f : ρ → ρ} {lane : ρ → LaneState} {call : LaneCall}

section

variable (hf : LaneRow call (lane ((t.lookup call.serverID).getD d)) (lane (f ((t.lookup call.serverID).getD d))))
include hf

theorem laneMove_update : LaneMove call (fun s => lane ((t.lookup s).getD d))
      (fun s => lane (((t.modify call.serverID f).lookup s).getD d)) where
  others := fun s hs => by rw [getD_modify,if_neg (fun h => hs h.1)]
  own := by
    rw [getD_modify]
    split_ifs
    · exact hf
    · exact .refl _ _

theorem laneMove_write : LaneMove call (fun s => lane ((t.lookup s).getD d))
      (fun s => lane ((((t.putNew (call.serverID,d)).modify call.serverID f).lookup s).getD d)) := by
  have h := @laneMove_update ρ (t.putNew (call.serverID,d)) d f lane call (by rwa [getD_putNew])
  simpa only [getD_putNew] using h

end

end rows

variable {id : Int}

section authorization

variable (l : AuthorizationLedger) (call : LaneCall)

def AuthorizationLedger.lanes (l : AuthorizationLedger) (s : Int) : LaneState := (l.state s).lane

theorem AuthorizationLedger.lanes_ensure (id) : (l.ensureState id).lanes=l.lanes := by
  funext s
  unfold lanes
  rw [state_ensureState]

theorem AuthorizationLedger.lanes_issue (id) (expiresAt) :
    (l.updateState id (issueState expiresAt)).lanes=l.lanes := by
  funext s
  unfold lanes
  rw [state_updateState]
  split_ifs <;> rfl

theorem laneMove_confirm : LaneMove ⟨id,some revision,false⟩ l.lanes
      (recordAuthorizationConfirmation l id revision number digest bootID ts).1.lanes := by
  simp only [recordAuthorizationConfirmation]
  split_ifs
  · exact .refl _ _
  · exact laneMove_write ⟨.inl rfl,.inr (.inr rfl)⟩
  · rw [l.lanes_ensure]
    exact .refl _ _

theorem laneMove_authorization (move) (h : move.laneCall=some call) :
    LaneMove call l.lanes (authorizationStep l move).1.lanes := by
  cases move with
  | evaluate id routingRevision digest keys now =>
    cases h
    simp only [authorizationStep,evaluateAuthorizationDesired]
    split_ifs with hid
    · exact .refl _ _
    · exact .refl _ _
    · exact laneMove_write ⟨.inl rfl,.inl rfl⟩
    · exact laneMove_write (.next hid rfl rfl rfl)
  | evaluateWithSequence id routingRevision digest keys now expiresAt =>
    cases h
    simp only [authorizationStep,evaluateAuthorizationDesiredWithSequence]
    split_ifs with hid
    · exact .refl _ _
    · change LaneMove _ _ (updateState _ _ _).lanes
      rw [lanes_issue]
      exact laneMove_write (.next hid rfl rfl rfl)
    · change LaneMove _ _ (updateState _ _ _).lanes
      rw [lanes_issue]
      exact laneMove_write ⟨.inl rfl,.inl rfl⟩
    · change LaneMove _ _ (updateState _ _ _).lanes
      rw [lanes_issue,l.lanes_ensure]
      exact .refl _ _
  | issue id revision expiresAt =>
    cases h
    simp only [authorizationStep,issueAuthorizationSequence]
    split_ifs
    · exact .refl _ _
    · exact laneMove_write ⟨.inl rfl,.inl rfl⟩
  | deliver id revision sequence messageID ts =>
    cases h
    simp only [authorizationStep,recordAuthorizationDelivery]
    split_ifs
    · exact .refl _ _
    · exact laneMove_update ⟨.inl rfl,.inl rfl⟩
  | confirm id revision sequence digest bootID ts =>
    cases h
    exact laneMove_confirm l
  | restate id revision sequence digest bootID ts =>
    cases h
    simp only [authorizationStep,restateAuthorizationConfirmation]
    split_ifs
    · exact laneMove_confirm l
    · exact laneMove_update ⟨.inl rfl,.inr (.inr rfl)⟩
    · exact laneMove_confirm l
  | resync id =>
    cases h
    simp only [authorizationStep,forceAuthorizationResync]
    split_ifs
    · exact .refl _ _
    · exact laneMove_write ⟨.inl rfl,.inr (.inl rfl)⟩
  | markPending id reason lastError retryable =>
    cases h
    simp only [authorizationStep,markAuthorizationPending]
    split_ifs
    · exact .refl _ _
    · exact laneMove_write ⟨.inl rfl,.inl rfl⟩
  | prune now => cases h

theorem lanes_prune (h : move.laneCall=none) : (authorizationStep l move).1.lanes=l.lanes := by
  cases move with
  | prune now => rfl
  | _ => cases h

end authorization

section users

variable (l : RuntimeUserLedger) (call : LaneCall)

def RuntimeUserLedger.lanes (l : RuntimeUserLedger) (s : Int) : LaneState := (l.state s).lane

theorem RuntimeUserLedger.lanes_ensure (id) : (l.ensureState id).lanes=l.lanes := by
  funext s
  unfold RuntimeUserLedger.lanes
  rw [l.state_ensure]

theorem laneMove_users_confirm : LaneMove ⟨id,some revision,false⟩ l.lanes
      (l.recordRuntimeUserConfirmation id revision digest bootID ts).1.lanes := by
  simp only [RuntimeUserLedger.recordRuntimeUserConfirmation]
  split_ifs
  · exact .refl _ _
  · exact laneMove_write ⟨.inl rfl,.inr (.inr rfl)⟩
  · rw [l.lanes_ensure]
    exact .refl _ _

theorem laneMove_users : LaneMove move.laneCall l.lanes (runtimeUserStep l move).lanes := by
  cases move with
  | evaluate id digest routingRevision =>
    simp only [runtimeUserStep,RuntimeUserLedger.recordRuntimeUserDesiredAt,l.state_ensure]
    split_ifs with hid
    · exact .refl _ _
    · exact .refl _ _
    · exact laneMove_write ⟨.inl rfl,.inl rfl⟩
    · exact laneMove_write (.next hid rfl rfl rfl)
  | deliver id revision messageID ts => exact laneMove_update ⟨.inl rfl,.inl rfl⟩
  | confirm id revision digest bootID ts => exact laneMove_users_confirm l
  | restate id revision digest bootID ts =>
    simp only [runtimeUserStep,RuntimeUserLedger.restateRuntimeUserConfirmation,
      RuntimeUserLedger.recordRuntimeUserConfirmationPreservingConflict]
    split_ifs
    · exact laneMove_users_confirm l
    · exact laneMove_update ⟨.inl rfl,.inr (.inr rfl)⟩
    · exact .refl _ _
    · exact laneMove_write ⟨.inl rfl,.inr (.inr rfl)⟩
    · rw [l.lanes_ensure]
      exact .refl _ _
  | resync id =>
    simp only [runtimeUserStep,RuntimeUserLedger.forceRuntimeUsersResync]
    split_ifs
    · exact .refl _ _
    · exact laneMove_write ⟨.inl rfl,.inr (.inl rfl)⟩
  | markPending id reason lastError retryable =>
    simp only [runtimeUserStep,RuntimeUserLedger.markRuntimeUserPending]
    split_ifs
    · exact .refl _ _
    · exact laneMove_write ⟨.inl rfl,.inl rfl⟩

end users

def RetirementState.revoked : RetirementState → Bool
  | .review | .transition => false
  | .credentialRevoking | .awaitingNodeConfirmation | .complete => true

def RetirementStore.Revoked (db : RetirementStore) (id : Int) : Prop :=
  ∃st,db.batchState id=some st ∧ st.revoked

/-- A revision of a lane was evaluated after the revoke of a batch, for the server that has the
id now. -/
def EvaluatedSince (log : List RetirementEvent) (id : Int) (lane : Lane) (serverID revision : Int) :
    Prop :=
  ∃before after,log=before++after ∧ .revoked id∈before ∧ .removed serverID∉after ∧
    .evaluated lane serverID revision∈after

section evidence

variable {lane : Lane}

theorem EvaluatedSince.append (h : EvaluatedSince log id lane serverID revision) (hmore : .removed serverID∉more) :
    EvaluatedSince (log++more) id lane serverID revision := by
  obtain ⟨before,after,rfl,hrev,hrem,hev⟩ := h
  refine ⟨before,after++more,append_assoc _ _ _,hrev,?_,mem_append_left _ hev⟩
  simpa using ⟨hrem,hmore⟩

end evidence

/-- Where a lane stands after a revoke: nothing was ever desired, the desired revision was
evaluated since, or the server still owes a later one. -/
def LaneSettled (db : RetirementStore) (log : List RetirementEvent) (id : Int) (lane : Lane)
    (s : Int) : Prop :=
  (db.lane lane s).desiredRevision=0 ∨
  EvaluatedSince log id lane s (db.lane lane s).desiredRevision ∨
  ∃target,db.targets.lookup (id,s)=some target ∧
    (db.lane lane s).desiredRevision<target.revision lane

structure Retiring (db : RetirementStore) (log : List RetirementEvent) : Prop where
  desired : ∀lane s,0≤(db.lane lane s).desiredRevision
  confirmed : ∀lane s,(db.lane lane s).confirmedRevision≤(db.lane lane s).desiredRevision
  known : ∀lane s,0<(db.lane lane s).desiredRevision → (db.servers.lookup s).isSome
  single : ∀a b,(db.batchState a).isSome → (db.batchState b).isSome → a=b
  enrolled : (∀id,¬db.Revoked id) → ∀lane s,0<(db.lane lane s).desiredRevision → db.enrolled s
  logged : ∀id,db.Revoked id → .revoked id∈log
  settled : ∀id,db.Revoked id → ∀lane s,LaneSettled db log id lane s

theorem retiring_empty : Retiring {} [] where
  desired := fun lane s => by cases lane <;> exact le_rfl
  confirmed := fun lane s => by cases lane <;> exact le_rfl
  known := fun lane s h => by cases lane <;> exact absurd h (lt_irrefl 0)
  single := fun a b h => absurd h (by simp [batchState])
  enrolled := fun _ lane s h => by cases lane <;> exact absurd h (lt_irrefl 0)
  logged := fun id ⟨st,h,_⟩ => absurd h (by simp [batchState])
  settled := fun id ⟨st,h,_⟩ => absurd h (by simp [batchState])

/-- A move that evaluates nothing and revokes nothing. Confirmations may be dropped. -/
structure Frame (db db' : RetirementStore) : Prop where
  desired : ∀lane s,(db'.lane lane s).desiredRevision=(db.lane lane s).desiredRevision
  confirmed : ∀lane s,(db'.lane lane s).confirmedRevision=(db.lane lane s).confirmedRevision ∨
    (db'.lane lane s).confirmedRevision=0
  servers : ∀s,(db.servers.lookup s).isSome → (db'.servers.lookup s).isSome
  enrolled : ∀s,db.enrolled s → db'.enrolled s
  targets : ∀id s target,(db.servers.lookup s).isSome → db.targets.lookup (id,s)=some target →
    db'.targets.lookup (id,s)=some target
  single : (∀a b,(db.batchState a).isSome → (db.batchState b).isSome → a=b) →
    ∀a b,(db'.batchState a).isSome → (db'.batchState b).isSome → a=b
  revoked : ∀id,db'.Revoked id ↔ db.Revoked id

variable {log : List RetirementEvent}

theorem Frame.keeps (hf : Frame db db') (h : Retiring db log) : Retiring db' log where
  desired := fun lane s => (hf.desired lane s).symm ▸ h.desired lane s
  confirmed := fun lane s => by
    rw [hf.desired]
    rcases hf.confirmed lane s with he | he
    · exact he.symm ▸ h.confirmed lane s
    · exact he.symm ▸ h.desired lane s
  known := fun lane s hd => hf.servers s (h.known lane s (hf.desired lane s ▸ hd))
  single := hf.single h.single
  enrolled := fun hn lane s hd =>
    hf.enrolled s (h.enrolled (fun id hr => hn id ((hf.revoked id).mpr hr)) lane s
      (hf.desired lane s ▸ hd))
  logged := fun id hr => h.logged id ((hf.revoked id).mp hr)
  settled := fun id hr lane s => by
    unfold LaneSettled
    rw [hf.desired]
    rcases h.settled id ((hf.revoked id).mp hr) lane s with hz | he | ⟨target,ht,hlt⟩
    · exact .inl hz
    · exact .inr (.inl he)
    · rcases (h.desired lane s).eq_or_lt with hz | hpos
      · exact .inl hz.symm
      · exact .inr (.inr ⟨target,hf.targets id s target (h.known lane s hpos) ht,hlt⟩)

theorem Frame.refl (db) : Frame db db :=
  ⟨fun _ _ => rfl,fun _ _ => .inl rfl,fun _ h => h,fun _ h => h,fun _ _ _ _ h => h,id,
    fun _ => Iff.rfl⟩

section frames

variable {db db' : RetirementStore}

theorem Frame.trans (h : Frame db db') (h' : Frame db' db'') : Frame db db'' where
  desired := fun lane s => (h'.desired lane s).trans (h.desired lane s)
  confirmed := fun lane s => by
    rcases h'.confirmed lane s with he | he
    · rw [he]
      exact h.confirmed lane s
    · exact .inr he
  servers := fun s hs => h'.servers s (h.servers s hs)
  enrolled := fun s hs => h'.enrolled s (h.enrolled s hs)
  targets := fun id s target hs ht => h'.targets id s target (h.servers s hs) (h.targets id s target hs ht)
  single := fun hs => h'.single (h.single hs)
  revoked := fun id => (h'.revoked id).trans (h.revoked id)

theorem frame_of_batches (hl : db'.authorization.lanes=db.authorization.lanes)
    (hu : db'.users.lanes=db.users.lanes) (hs : db'.servers=db.servers)
    (ht : ∀key target,db.targets.lookup key=some target → db'.targets.lookup key=some target)
    (hsingle : (∀a b,(db.batchState a).isSome → (db.batchState b).isSome → a=b) →
      ∀a b,(db'.batchState a).isSome → (db'.batchState b).isSome → a=b)
    (hrevoked : ∀id,db'.Revoked id ↔ db.Revoked id) : Frame db db' := by
  have hlane lane s : db'.lane lane s=db.lane lane s := by
    cases lane
    · exact congrFun hl s
    · exact congrFun hu s
  have henrolled s : db'.enrolled s=db.enrolled s := by
    simp only [enrolled,hs]
  exact ⟨fun lane s => by rw [hlane],fun lane s => .inl (by rw [hlane]),fun s h => by rwa [hs],
    fun s h => by rwa [henrolled],fun id s target _ h => ht _ target h,hsingle,hrevoked⟩

theorem batchState_of_insert (hb : db'.batches=db.batches.insert id batch) :
    db'.batchState a=if a=id then some batch.state else db.batchState a := by
  unfold batchState
  rw [hb,lookup_insert_eq]
  split_ifs <;> rfl

theorem frame_of_progress (hold : db.batches.lookup id=some batch)
    (hb : db'.batches=db.batches.insert id batch') (hrev : batch'.state.revoked=batch.state.revoked)
    (hl : db'.authorization.lanes=db.authorization.lanes) (hu : db'.users.lanes=db.users.lanes)
    (hs : db'.servers=db.servers)
    (ht : ∀key target,db.targets.lookup key=some target → db'.targets.lookup key=some target) :
    Frame db db' := by
  have hstate : db.batchState id=some batch.state := by simp [batchState,hold]
  have hsome {a} (ha : (db'.batchState a).isSome) : (db.batchState a).isSome := by
    rw [batchState_of_insert hb] at ha
    split_ifs at ha with he
    · simp [he,hstate]
    · exact ha
  refine frame_of_batches hl hu hs ht (fun h a b ha hb => h a b (hsome ha) (hsome hb)) (fun a => ?_)
  · unfold RetirementStore.Revoked
    rw [batchState_of_insert hb]
    split_ifs with he
    · subst he
      simp [hstate,hrev]
    · rfl

theorem frame_start : Frame db (retirementStep db (.start actor reason deadline at_)).1 := by
  simp only [retirementStep,startDeviceRetirement]
  split_ifs with harg hactive hprevious
  · exact .refl db
  · exact .refl db
  · exact .refl db
  · have hnone a : db.batchState a=none := by
      unfold batchState
      cases hb : db.batches.lookup a with
      | none => rfl
      | some batch =>
        have hmem := mem_rows.mpr hb
        rw [not_not.mp hprevious] at hmem
        cases hmem
    refine frame_of_batches rfl rfl rfl (fun _ _ h => h) (fun _ a b ha hb => ?_) (fun a => ?_)
    · rw [batchState_of_insert rfl,hnone] at ha hb
      have hone {c : Int} {st : RetirementState} (hc : (if c=1 then some st else none).isSome) :
          c=1 := by
        by_contra hne
        simp [hne] at hc
      rw [hone ha,hone hb]
    · unfold RetirementStore.Revoked
      rw [batchState_of_insert rfl]
      split_ifs
      · simp [hnone,RetirementState.revoked]
      · rfl

theorem frame_review (id userID) (decision) (reason) :
    Frame db (retirementStep db (.review id userID decision reason)).1 := by
  simp only [retirementStep,reviewDeviceRetirement]
  split_ifs <;> first
    | exact .refl db
    | exact frame_of_batches rfl rfl rfl (fun _ _ h => h) (fun h => h) (fun _ => Iff.rfl)

theorem frame_beginTransition (id) (at_) :
    Frame db (retirementStep db (.beginTransition id at_)).1 := by
  simp only [retirementStep,beginDeviceRetirementTransition]
  cases hb : db.batches.lookup id with
  | none => exact .refl db
  | some batch =>
    simp only
    split_ifs with hstate
    · exact .refl db
    · exact .refl db
    · exact .refl db
    · refine frame_of_progress hb rfl ?_ rfl rfl rfl (fun _ _ h => h)
      rw [not_not.mp hstate]
      rfl

theorem frame_bind (id version) : Frame db (retirementStep db (.bindDeployment id version)).1 := by
  simp only [retirementStep,bindDeviceRetirementDeployment]
  split_ifs
  · exact .refl db
  cases hb : db.batches.lookup id with
  | none => exact .refl db
  | some batch =>
    simp only
    split_ifs with hstate
    · refine frame_of_progress hb rfl ?_ rfl rfl rfl (fun key target h => ?_)
      · rcases hstate.1 with he | he
        · rw [he]
          rfl
        · rw [he]
      · change (List.foldl Table.putNew _ _).lookup key=_
        rw [lookup_foldl_putNew,h,Option.some_or]
    · exact .refl db

theorem frame_finalize (id) : Frame db (retirementStep db (.finalize id)).1 := by
  simp only [retirementStep,finalizeDeviceRetirement]
  cases hb : db.batches.lookup id with
  | none => exact .refl db
  | some batch =>
    simp only
    split_ifs with hdone hstate
    · exact .refl db
    · exact .refl db
    · exact .refl db
    · exact .refl db
    · refine frame_of_progress hb rfl ?_ rfl rfl rfl (fun _ _ h => h)
      rw [not_not.mp (fun h => hstate (.inl h))]
      rfl

theorem isSome_of_enrolled (h : db.enrolled s) : (db.servers.lookup s).isSome := by
  unfold enrolled at h
  cases hs : db.servers.lookup s with
  | none => simp [hs] at h
  | some server => rfl

theorem frame_releaseServer (hid : db.servers.lookup id=none) : Frame db (db.releaseServer id) where
  desired := fun lane s => by cases lane <;> rfl
  confirmed := fun lane s => .inl (by cases lane <;> rfl)
  servers := fun _ h => h
  enrolled := fun _ h => h
  targets := fun a s target hs ht => by
    have hne : s≠id := fun he => by rw [he,hid] at hs; cases hs
    change (Table.deleteRows _ _).lookup _=_
    rw [lookup_deleteRows,ht]
    simp [hne]
  single := fun h => h
  revoked := fun _ => Iff.rfl

theorem frame_insertServer (hid : db.servers.lookup id=none) :
    Frame db {db with servers := db.servers.insert id server,serverSequence := number} := by
  have hkept {s} (hs : (db.servers.lookup s).isSome) :
      (db.servers.insert id server).lookup s=db.servers.lookup s :=
    lookup_insert_ne (fun he => by rw [he,hid] at hs; cases hs)
  refine ⟨fun lane s => by cases lane <;> rfl,fun lane s => .inl (by cases lane <;> rfl),
    fun s hs => (hkept hs).symm ▸ hs,fun s h => ?_,fun _ _ _ _ h => h,fun h => h,fun _ => Iff.rfl⟩
  have hs := hkept (isSome_of_enrolled h)
  simp only [enrolled] at h ⊢
  rwa [hs]

theorem frame_createServer (id) (server) :
    Frame db (retirementStep db (.createServer id server)).1 := by
  simp only [retirementStep,createServer]
  by_cases hfree : id≤0 ∨ (db.servers.lookup id).isSome ∨ db.agentTaken id server.agentID
  · rw [if_pos hfree]
    exact .refl db
  have hid : db.servers.lookup id=none :=
    Option.not_isSome_iff_eq_none.mp (fun h => hfree (.inr (.inl h)))
  rw [if_neg hfree]
  by_cases hr : id≤db.serverSequence
  · simp only [if_pos hr]
    have hreleased : (db.releaseServer id).servers.lookup id=none := hid
    exact (frame_releaseServer hid).trans (frame_insertServer hreleased)
  · simp only [if_neg hr]
    exact frame_insertServer hid

theorem frame_of_servers {servers : Table Int EnrolledServer}
    (hservers : ∀s row,db.servers.lookup s=some row → ∃row',servers.lookup s=some row' ∧
      (row.agentID≠"" → row'.agentID≠"")) : Frame db {db with servers := servers} where
  desired := fun lane s => by cases lane <;> rfl
  confirmed := fun lane s => .inl (by cases lane <;> rfl)
  servers := fun s hs => by
    obtain ⟨row,hrow⟩ := Option.isSome_iff_exists.mp hs
    obtain ⟨row',hrow',-⟩ := hservers s row hrow
    exact Option.isSome_iff_exists.mpr ⟨row',hrow'⟩
  enrolled := fun s h => by
    obtain ⟨row,hrow⟩ := Option.isSome_iff_exists.mp (isSome_of_enrolled h)
    obtain ⟨row',hrow',hagent⟩ := hservers s row hrow
    simp only [enrolled,hrow,hrow',decide_eq_true_eq] at h ⊢
    exact hagent h
  targets := fun _ _ _ _ h => h
  single := fun h => h
  revoked := fun _ => Iff.rfl

theorem frame_saveServer (id) (agentID enrollmentHash) (status) :
    Frame db (retirementStep db (.saveServer id agentID enrollmentHash status)).1 := by
  simp only [retirementStep,saveServer]
  by_cases htaken : db.agentTaken id agentID
  · rw [if_pos htaken]
    exact .refl db
  rw [if_neg htaken]
  refine frame_of_servers (fun s row hrow => ?_)
  rw [lookup_modify]
  by_cases hs : s=id
  · subst hs
    rw [if_pos rfl,hrow]
    refine ⟨_,rfl,fun h => ?_⟩
    dsimp only
    by_cases ha : agentID=""
    · rwa [if_pos ha]
    · rwa [if_neg ha]
  · rw [if_neg hs]
    exact ⟨row,hrow,fun h => h⟩

theorem frame_clearDelivered (id) : Frame db {db with
      authorization := db.authorization.updateState id clearDeliveredAuthorization
      users := db.users.updateState id clearDeliveredUsers} := by
  have hone {before after} (h : LaneMove ⟨id,none,false⟩ before after) s :
      (after s).desiredRevision=(before s).desiredRevision ∧
      ((after s).confirmedRevision=(before s).confirmedRevision ∨ (after s).confirmedRevision=0) := by
    by_cases hs : s=id
    · subst hs
      obtain ⟨hd,hc⟩ := h.own
      exact ⟨hd.resolve_right (fun hn => absurd hn.1 (by simp)),
        hc.imp_right (fun hn => hn.resolve_right (fun hr => absurd hr (by simp)))⟩
    · rw [h.others s hs]
      exact ⟨rfl,.inl rfl⟩
  have hl := hone (@laneMove_update _ db.authorization.states {} clearDeliveredAuthorization
    AuthorizationState.lane ⟨id,none,false⟩ ⟨.inl rfl,.inr (.inl rfl)⟩)
  have hu := hone (@laneMove_update _ db.users.states {} clearDeliveredUsers
    RuntimeUserState.lane ⟨id,none,false⟩ ⟨.inl rfl,.inr (.inl rfl)⟩)
  refine ⟨fun lane s => ?_,fun lane s => ?_,fun _ h => h,fun _ h => h,fun _ _ _ _ h => h,
    fun h => h,fun _ => Iff.rfl⟩
  · cases lane
    · exact (hl s).1
    · exact (hu s).1
  cases lane
  · exact (hl s).2
  · exact (hu s).2

theorem frame_claim (id) (server : EnrolledServer) (hagent : agentID≠"")
    (enrollmentHash) (ts) : Frame db {db with
      servers := (clearExpired db.servers enrollmentHash ts).insert id (server.claim agentID)} := by
  refine frame_of_servers (fun s row hrow => ?_)
  rw [lookup_insert_eq]
  by_cases hs : s=id
  · rw [if_pos hs]
    exact ⟨_,rfl,fun _ => hagent⟩
  rw [if_neg hs,clearExpired,lookup_mapRows,hrow]
  refine ⟨_,rfl,fun h => ?_⟩
  change (if _ then _ else _ : EnrolledServer).agentID≠""
  split_ifs
  · exact h
  · exact h

theorem frame_claimEnrollment :
    Frame db (retirementStep db (.claimEnrollment enrollmentHash agentID agentTokenHash ts)).1 := by
  simp only [retirementStep,claimServerEnrollment]
  by_cases harg : trimSpace enrollmentHash="" ∨ trimSpace agentID="" ∨ trimSpace agentTokenHash=""
  · rw [if_pos harg]
    exact .refl db
  rw [if_neg harg]
  have hagent : agentID≠"" := fun he => harg (.inr (.inl (by rw [he]; decide)))
  split
  case h_1 id server hclaimed =>
    split_ifs
    · exact .refl db
    · exact (frame_claim id server hagent enrollmentHash ts).trans (frame_clearDelivered id)
  case h_2 => exact .refl db

theorem frame_context : Frame db (retirementStep db (.context tables)).1 :=
  frame_of_batches rfl rfl rfl (fun _ _ h => h) id (fun _ => Iff.rfl)

end frames

section steps

variable {db : RetirementStore}

theorem lane_deleteServer (serverID) (lane) (s) :
    (deleteServer db serverID).lane lane s=if s=serverID then {} else db.lane lane s := by
  split_ifs with hs
  · subst hs
    cases lane <;> simp only [lane,deleteServer,state,RuntimeUserLedger.state,lookup_erase] <;> rfl
  · cases lane <;>
      simp only [lane,deleteServer,state,RuntimeUserLedger.state,lookup_erase_ne hs]

theorem Retiring.deleteServer (h : Retiring db log) (serverID) :
    Retiring (deleteServer db serverID) (log++[.removed serverID]) := by
  have hservers {s} hs :
      (Store.deleteServer db serverID).servers.lookup s=db.servers.lookup s :=
    lookup_erase_ne hs
  have hother {lane} {s}
      (hd : 0<((Store.deleteServer db serverID).lane lane s).desiredRevision) :
      s≠serverID ∧ 0<(db.lane lane s).desiredRevision := by
    rw [lane_deleteServer] at hd
    by_cases hs : s=serverID
    · rw [if_pos hs] at hd
      exact absurd hd (lt_irrefl 0)
    · rw [if_neg hs] at hd
      exact ⟨hs,hd⟩
  constructor
  · intro lane s
    rw [lane_deleteServer]
    split_ifs
    · exact le_rfl
    · exact h.desired lane s
  · intro lane s
    rw [lane_deleteServer]
    split_ifs
    · exact le_rfl
    · exact h.confirmed lane s
  · intro lane s hd
    rw [hservers (hother hd).1]
    exact h.known lane s (hother hd).2
  · exact h.single
  · intro hn lane s hd
    have henrolled := h.enrolled hn lane s (hother hd).2
    simp only [RetirementStore.enrolled,hservers (hother hd).1] at henrolled ⊢
    exact henrolled
  · exact fun id hr => mem_append_left _ (h.logged id hr)
  · intro id hr lane s
    unfold LaneSettled
    rw [lane_deleteServer]
    by_cases hs : s=serverID
    · exact .inl (by rw [if_pos hs])
    rw [if_neg hs]
    rcases h.settled id hr lane s with hz | he | ⟨target,ht,hlt⟩
    · exact .inl hz
    · exact .inr (.inl (he.append (by simpa using hs)))
    · refine .inr (.inr ⟨target,?_,hlt⟩)
      change (Table.deleteRows _ _).lookup _=_
      rw [lookup_deleteRows,ht]
      simp [hs]

def RetirementStore.covered (db : RetirementStore) (id : Int) : List Int :=
  nodeServers (db.enrolNodes id) id

variable {lane : Lane} {call : LaneCall}

theorem revoke_cases (h : revokeDeviceRetirement db id at_=.ok db') :
    (db'=db ∧ db.batchState id≠some .transition) ∨
    (db.batchState id=some .transition ∧ (∀s∈db.covered id,db.targets.lookup (id,s)=none) ∧
      ∃batch,db'=db.revokeBatch id batch at_) := by
  unfold revokeDeviceRetirement at h
  cases hb : db.batches.lookup id with
  | none => simp [hb] at h
  | some batch =>
    have hstate : db.batchState id=some batch.state := by simp [batchState,hb]
    rw [hb] at h
    dsimp only at h
    split at h
    case h_1 hs | h_2 hs | h_3 hs => exact .inl ⟨(Except.ok.inj h).symm,by simp [hstate,hs]⟩
    case h_4 hs => cases h
    case h_5 hs =>
      split_ifs at h with hany
      refine .inr ⟨by rw [hstate,hs],fun s hmem => ?_,batch,(Except.ok.inj h).symm⟩
      simp only [any_eq_true,not_exists,not_and,Bool.not_eq_true,Option.isSome_eq_false_iff,
        Option.isNone_iff_eq_none] at hany
      exact hany s hmem

theorem mem_covered (h : db.enrolled s) : s∈db.covered id := by
  have hnode : ((db.enrolNodes id).lookup (id,s)).isSome := by
    unfold enrolNodes
    rw [lookup_foldl_putNew]
    obtain ⟨server,hserver⟩ := Option.isSome_iff_exists.mp (isSome_of_enrolled h)
    have hagent : server.agentID≠"" := by
      simpa [enrolled,hserver] using h
    cases db.nodes.lookup (id,s) with
    | some row => rfl
    | none =>
      rw [Option.none_or,lookup_isSome_iff]
      refine ⟨((id,s),()),mem_map.mpr ⟨(s,server),?_,rfl⟩,by simp⟩
      exact mem_filter.mpr ⟨mem_rows.mpr hserver,by simpa using hagent⟩
  obtain ⟨row,hrow⟩ := Option.isSome_iff_exists.mp hnode
  refine mem_map.mpr ⟨((id,s),row),mem_filter.mpr ⟨mem_rows.mpr hrow,?_⟩,rfl⟩
  simp

variable (db) in
theorem lane_revokeBatch (id) (batch) (stamp) (lane)
    (s) : ((db.revokeBatch id batch stamp).lane lane s).desiredRevision=
      (db.lane lane s).desiredRevision ∧
    (((db.revokeBatch id batch stamp).lane lane s).confirmedRevision=
        (db.lane lane s).confirmedRevision ∨
      ((db.revokeBatch id batch stamp).lane lane s).confirmedRevision=0) := by
  cases lane
  · simp only [lane,revokeBatch,state, resetAuthorizationLanes,lookup_mapRows]
    cases db.authorization.states.lookup s with
    | none => exact ⟨rfl,.inl rfl⟩
    | some row =>
      simp only [Option.map_some,Option.getD_some]
      split_ifs
      · exact ⟨rfl,.inr rfl⟩
      · exact ⟨rfl,.inl rfl⟩
  · simp only [lane,revokeBatch,RuntimeUserLedger.state, resetUserLanes,lookup_mapRows]
    cases db.users.states.lookup s with
    | none => exact ⟨rfl,.inl rfl⟩
    | some row =>
      simp only [Option.map_some,Option.getD_some]
      split_ifs
      · exact ⟨rfl,.inr rfl⟩
      · exact ⟨rfl,.inl rfl⟩

theorem lt_revokeTarget (h : 0<(db.lane lane s).desiredRevision) :
    (db.lane lane s).desiredRevision<(revokeTarget db s).revision lane := by
  cases lane
  · simp only [lane,state,revokeTarget] at h ⊢
    cases hrow : db.authorization.states.lookup s with
    | none => simp [hrow,AuthorizationState.lane] at h
    | some row => exact Int.lt_succ _
  simp only [lane,RuntimeUserLedger.state,revokeTarget] at h ⊢
  cases hrow : db.users.states.lookup s with
  | none => simp [hrow,RuntimeUserState.lane] at h
  | some row => exact Int.lt_succ _

theorem lookup_targets {servers : List Int} {f : Int → RetirementTarget} (h : s∈servers) :
    (servers.map (fun s => ((id,s),f s))).lookup (id,s)=some (f s) := by
  obtain ⟨target,ht⟩ := lookup_of_mem (mem_map.mpr ⟨s,h,rfl⟩ :
    ((id,s),f s)∈servers.map (fun s => ((id,s),f s)))
  obtain ⟨s',-,heq⟩ := mem_map.mp (mem_of_lookup ht)
  cases heq
  exact ht

theorem Retiring.revokeBatch (h : Retiring db log) (batch) (stamp)
    (hstate : db.batchState id=some .transition)
    (hfree : ∀s∈db.covered id,db.targets.lookup (id,s)=none) :
    Retiring (db.revokeBatch id batch stamp) (log++[.revoked id]) := by
  have hinsert : (db.revokeBatch id batch stamp).batches=db.batches.insert id
      {batch with state := .credentialRevoking,revokedAt := some stamp} := rfl
  have hbatch a : (db.revokeBatch id batch stamp).batchState a=
      if a=id then some .credentialRevoking else db.batchState a := batchState_of_insert hinsert
  have honly {a} ha : a=id :=
    h.single a id ha (by simp [hstate])
  -- the only batch is still in transition, so every lane in use belongs to an enrolled server
  have hbefore a : ¬db.Revoked a := by
    rintro ⟨st,hst,hr⟩
    have ha : a=id := honly (by rw [hst]; rfl)
    rw [ha,hstate] at hst
    cases hst
    cases hr
  have hcovered {a} (ha : ((db.revokeBatch id batch stamp).batchState a).isSome) : a=id := by
    rw [hbatch] at ha
    split_ifs at ha with he
    · exact he
    · exact honly ha
  have hdesired lane s := (lane_revokeBatch db id batch stamp lane s).1
  constructor
  · intro lane s
    rw [hdesired]
    exact h.desired lane s
  · intro lane s
    rw [hdesired]
    rcases (lane_revokeBatch db id batch stamp lane s).2 with he | he
    · rw [he]
      exact h.confirmed lane s
    · rw [he]
      exact h.desired lane s
  · intro lane s hd
    rw [hdesired] at hd
    exact h.known lane s hd
  · exact fun a b ha hb => (hcovered ha).trans (hcovered hb).symm
  · intro hn
    refine absurd ⟨.credentialRevoking,?_,rfl⟩ (hn id)
    rw [hbatch,if_pos rfl]
  · rintro a ⟨st,hst,-⟩
    have ha : a=id := hcovered (by rw [hst]; rfl)
    simp [ha]
  · rintro a ⟨st,hst,-⟩ lane s
    obtain rfl : a=id := hcovered (by rw [hst]; rfl)
    unfold LaneSettled
    rw [hdesired]
    rcases (h.desired lane s).eq_or_lt with hz | hpos
    · exact .inl hz.symm
    have hmem : s∈db.covered a := mem_covered (h.enrolled hbefore lane s hpos)
    refine .inr (.inr ⟨revokeTarget db s,?_,lt_revokeTarget hpos⟩)
    change (List.foldl Table.putNew _ _).lookup _=_
    rw [lookup_foldl_putNew,hfree s hmem]
    exact lookup_targets hmem

/-- A node reports a revision that was offered to it, and before the revoke only enrolled servers
are evaluated. -/
def offeredCall (db : RetirementStore) (lane : Lane) (call : LaneCall) : Bool :=
  (match call.reported with
    | none => true
    | some revision => revision≤(db.lane lane call.serverID).desiredRevision) &&
  (!call.evaluates || db.enrolled call.serverID ||
    db.batches.rows.any (fun row => row.2.state.revoked))

def offered (db : RetirementStore) : RetirementMove → Bool
  | .authorization call => call.laneCall.all (offeredCall db .authorization)
  | .users call => offeredCall db .users call.laneCall
  | _ => true

theorem offeredCall_reported (h : offeredCall db lane call)
    (hr : call.reported=some revision) : revision≤(db.lane lane call.serverID).desiredRevision := by
  simp only [offeredCall,hr,Bool.and_eq_true,decide_eq_true_eq] at h
  exact h.1

theorem offeredCall_evaluates (h : offeredCall db lane call) (he : call.evaluates)
    (hn : ∀id,¬db.Revoked id) : db.enrolled call.serverID := by
  simp only [offeredCall,he,Bool.and_eq_true,Bool.or_eq_true,Bool.not_true,Bool.false_eq_true,
    false_or,any_eq_true] at h
  rcases h.2 with henrolled | ⟨⟨id,batch⟩,hrow,hrev⟩
  · exact henrolled
  refine absurd ⟨batch.state,?_,hrev⟩ (hn id)
  rw [batchState,mem_rows.mp hrow]
  rfl

theorem Retiring.laneCall (h : Retiring db log)
    (hmove : LaneMove call (db.lane lane) (db'.lane lane))
    (hlanes : ∀other,other≠lane → db'.lane other=db.lane other) (hservers : db'.servers=db.servers)
    (htargets : db'.targets=db.targets) (hbatches : db'.batches=db.batches)
    (hadmits : db.admits (some call)) (hoffered : offeredCall db lane call) :
    Retiring db' (log++db'.evaluations lane (some call)) := by
  have hbatch : db'.batchState=db.batchState := by
    funext a
    rw [batchState,hbatches]
    rfl
  have hrevoked {id} : db'.Revoked id ↔ db.Revoked id := by
    rw [RetirementStore.Revoked,hbatch]
    rfl
  have henrolled s : db'.enrolled s=db.enrolled s := by
    simp only [RetirementStore.enrolled,hservers]
  have hquiet s : .removed s∉db'.evaluations lane (some call) := by
    simp only [evaluations]
    split_ifs <;> simp
  -- a lane is either left alone or it is the one of the call
  have hcases other s : db'.lane other s=db.lane other s ∨ other=lane ∧ s=call.serverID := by
    by_cases ho : other=lane
    · by_cases hs : s=call.serverID
      · exact .inr ⟨ho,hs⟩
      · exact .inl (ho ▸ hmove.others s hs)
    · exact .inl (by rw [hlanes other ho])
  have hgrows : (db.lane lane call.serverID).desiredRevision≤
      (db'.lane lane call.serverID).desiredRevision := by
    rcases hmove.own.desired with he | ⟨-,-,hle⟩
    · exact he.symm.le
    · exact hle
  constructor
  · intro other s
    rcases hcases other s with he | ⟨rfl,rfl⟩
    · exact he.symm ▸ h.desired other s
    · exact (h.desired _ _).trans hgrows
  · intro other s
    rcases hcases other s with he | ⟨rfl,rfl⟩
    · exact he.symm ▸ h.confirmed other s
    rcases hmove.own.confirmed with hc | hc | hc
    · exact hc.trans_le ((h.confirmed _ _).trans hgrows)
    · exact hc.trans_le ((h.desired _ _).trans hgrows)
    · exact (offeredCall_reported hoffered hc).trans hgrows
  · intro other s hd
    rw [hservers]
    rcases hcases other s with he | ⟨rfl,rfl⟩
    · exact h.known other s (he ▸ hd)
    · exact hadmits
  · rw [hbatch]
    exact h.single
  · intro hn other s hd
    rw [henrolled]
    have hn' id : ¬db.Revoked id := fun hr => hn id (hrevoked.mpr hr)
    rcases hcases other s with he | ⟨rfl,rfl⟩
    · exact h.enrolled hn' other s (he ▸ hd)
    rcases hmove.own.desired with he | ⟨hev,-,-⟩
    · exact h.enrolled hn' other _ (he ▸ hd)
    · exact offeredCall_evaluates hoffered hev hn'
  · exact fun id hr => mem_append_left _ (h.logged id (hrevoked.mp hr))
  · intro id hr other s
    have hkept (he : (db'.lane other s).desiredRevision=(db.lane other s).desiredRevision) :
        LaneSettled db' (log++db'.evaluations lane (some call)) id other s := by
      unfold LaneSettled
      rw [he,htargets]
      exact (h.settled id (hrevoked.mp hr) other s).imp_right
        (fun hs => hs.imp_left (·.append (hquiet s)))
    rcases hcases other s with he | ⟨rfl,rfl⟩
    · exact hkept (by rw [he])
    rcases hmove.own.desired with he | ⟨hev,hpos,-⟩
    · exact hkept he
    · simp only [evaluations,hev,hpos,and_self]
      exact .inr (.inl ⟨log,_,rfl,h.logged id (hrevoked.mp hr),by simp,by simp⟩)

theorem Retiring.step (h : Retiring db log) (move) (hoffered : offered db move) :
    Retiring (retirementStep db move).1 (log++(retirementStep db move).2) := by
  have quiet {db'} (hf : Frame db db') : Retiring db' (log++[]) := by
    rw [append_nil]
    exact hf.keeps h
  cases move with
  | start actor reason deadline at_ => exact quiet frame_start
  | review id userID decision reason => exact quiet (frame_review id userID decision reason)
  | beginTransition id at_ => exact quiet (frame_beginTransition id at_)
  | revoke id at_ =>
    simp only [retirementStep]
    cases hrevoke : revokeDeviceRetirement db id at_ with
    | error e => exact quiet (.refl db)
    | ok next =>
      rcases revoke_cases hrevoke with ⟨rfl,hstate⟩ | ⟨hstate,hfree,batch,rfl⟩
      · simp only [if_neg hstate]
        exact quiet (.refl _)
      · simp only [if_pos hstate]
        exact h.revokeBatch batch at_ hstate hfree
  | bindDeployment id version => exact quiet (frame_bind id version)
  | finalize id => exact quiet (frame_finalize id)
  | createServer id server => exact quiet (frame_createServer id server)
  | saveServer id agentID enrollmentHash status =>
    exact quiet (frame_saveServer id agentID enrollmentHash status)
  | claimEnrollment enrollmentHash agentID agentTokenHash ts =>
    exact quiet frame_claimEnrollment
  | deleteServer serverID => exact h.deleteServer serverID
  | authorization call =>
    simp only [retirementStep]
    split_ifs with hadmits
    · cases hcall : call.laneCall with
      | none =>
        exact quiet (frame_of_batches (lanes_prune db.authorization hcall) rfl rfl
          (fun _ _ h => h) id (fun _ => Iff.rfl))
      | some lc =>
        rw [hcall] at hadmits
        have hoff : offeredCall db .authorization lc := by simpa [offered,hcall] using hoffered
        refine h.laneCall (laneMove_authorization db.authorization lc call hcall) ?_ rfl rfl rfl
          hadmits hoff
        intro other ho
        cases other
        · exact absurd rfl ho
        · rfl
    · exact quiet (.refl db)
  | users call =>
    simp only [retirementStep]
    split_ifs with hadmits
    · refine h.laneCall (laneMove_users db.users) ?_ rfl rfl rfl hadmits hoffered
      intro other ho
      cases other
      · rfl
      · exact absurd rfl ho
    · exact quiet (.refl db)
  | context tables => exact quiet frame_context

end steps

theorem retiring_run (h : RunGuarded retirementStep (fun db move => offered db move) {} moves) :
    Retiring (run retirementStep {} moves).1 (run retirementStep {} moves).2 := by
  have hrun := run_invariant Retiring _ (fun {_ _ move} ho hi => hi.step move ho) h retiring_empty
  rwa [nil_append] at hrun

/-- A batch becomes complete only when every enrolled server confirmed, in each lane, a revision
evaluated after the revoke. -/
def CompletesReleased (db : RetirementStore) (log : List RetirementEvent) (id : Int) : Prop :=
  db.batchState id≠some .complete →
  (retirementStep db (.finalize id)).1.batchState id=some .complete →
    ∀serverID,db.enrolled serverID → ∀lane,
      EvaluatedSince log id lane serverID (db.lane lane serverID).confirmedRevision

section finalize

theorem confirmed_of_lanePending {lane : Lane} (h : lanePending db lane s target revoked=false) :
    0<(db.lane lane s).confirmedRevision ∧ target≤(db.lane lane s).confirmedRevision ∧
      (db.lane lane s).desiredRevision≤(db.lane lane s).confirmedRevision := by
  simp only [lanePending,Bool.or_eq_false_iff,decide_eq_false_iff_not,not_le,not_lt] at h
  exact ⟨h.1.1.1.1.2,h.1.1.1.2,h.1.1.2⟩

theorem confirmed_of_nodePending (h : nodePending db id s version revoked=false) :
    ∃target,db.targets.lookup (id,s)=some target ∧ ∀lane,0<(db.lane lane s).confirmedRevision ∧
        target.revision lane≤(db.lane lane s).confirmedRevision ∧
        (db.lane lane s).desiredRevision≤(db.lane lane s).confirmedRevision := by
  unfold nodePending at h
  split at h
  case h_1 target server ht hs =>
    simp only [Bool.or_eq_false_iff] at h
    refine ⟨target,ht,fun lane => ?_⟩
    cases lane
    · exact confirmed_of_lanePending h.1.2
    · exact confirmed_of_lanePending h.2
  case h_2 => cases h

theorem finalize_confirmed (hopen : db.batchState id≠some .complete)
    (hdone : (retirementStep db (.finalize id)).1.batchState id=some .complete) :
    db.Revoked id ∧ ∀s,db.enrolled s → ∃target,db.targets.lookup (id,s)=some target ∧
      ∀lane,0<(db.lane lane s).confirmedRevision ∧
        target.revision lane≤(db.lane lane s).confirmedRevision ∧
        (db.lane lane s).desiredRevision≤(db.lane lane s).confirmedRevision := by
  simp only [retirementStep,finalizeDeviceRetirement] at hdone
  cases hb : db.batches.lookup id with
  | none => exact absurd (by simpa [hb,keepOnError] using hdone) hopen
  | some batch =>
    have hstate : db.batchState id=some batch.state := by simp [batchState,hb]
    rw [hb] at hdone
    dsimp only at hdone
    split_ifs at hdone with hc hs hpending hfleet
    · exact absurd hdone hopen
    · exact absurd hdone hopen
    · exact absurd hdone hopen
    · exact absurd hdone hopen
    · have hawait : batch.state=.awaitingNodeConfirmation := not_not.mp (fun h => hs (.inl h))
      refine ⟨⟨batch.state,hstate,by rw [hawait]; rfl⟩,fun s henrolled => ?_⟩
      obtain ⟨server,hserver⟩ := Option.isSome_iff_exists.mp (isSome_of_enrolled henrolled)
      have hagent : server.agentID≠"" := by
        simpa [enrolled,hserver] using henrolled
      have hnode : (db.nodes.lookup (id,s)).isSome := by
        by_contra hn
        refine hfleet (any_eq_true.mpr ⟨(s,server),mem_rows.mpr hserver,?_⟩)
        simpa [hagent] using hn
      obtain ⟨row,hrow⟩ := Option.isSome_iff_exists.mp hnode
      have hmem : s∈nodeServers db.nodes id :=
        mem_map.mpr ⟨((id,s),row),mem_filter.mpr ⟨mem_rows.mpr hrow,by simp⟩,rfl⟩
      have hnot : nodePending db id s batch.deploymentVersion batch.revokedAt=false := by
        by_contra hn
        exact hpending (any_eq_true.mpr ⟨s,hmem,by simpa using hn⟩)
      exact confirmed_of_nodePending hnot

theorem Retiring.completes (h : Retiring db log) : CompletesReleased db log id := by
  intro hopen hdone s henrolled lane
  obtain ⟨hrevoked,hnodes⟩ := finalize_confirmed hopen hdone
  obtain ⟨target,ht,hlanes⟩ := hnodes s henrolled
  obtain ⟨hpos,htarget,hdesired⟩ := hlanes lane
  have heq : (db.lane lane s).confirmedRevision=(db.lane lane s).desiredRevision :=
    le_antisymm (h.confirmed lane s) hdesired
  rcases h.settled id hrevoked lane s with hz | he | ⟨target',ht',hlt⟩
  · rw [heq,hz] at hpos
    exact absurd hpos (lt_irrefl 0)
  · rwa [heq]
  · rw [ht] at ht'
    cases ht'
    exact absurd (htarget.trans heq.le) (not_le.mpr hlt)

end finalize

/-- Along every run whose nodes report offered revisions a batch completes only after every node let
go. -/
theorem retirement_completes_after_release {moves : List RetirementMove}
    (h : RunGuarded retirementStep (fun db move => offered db move) {} moves) (id : Int) :
    CompletesReleased (run retirementStep {} moves).1 (run retirementStep {} moves).2 id :=
  (retiring_run h).completes

def deployedContext : RetirementContext :=
  {syncStates := insert 1 ⟨.synced,1⟩ ∅
   tasks := [⟨1,.applyDeployment,1,.succeeded,false⟩]}

def releasedNode : List RetirementMove :=
  [.createServer 1 {enrollmentHash := "enrol"},.claimEnrollment "enrol" "agent" "token" 1,
   .authorization (.evaluate 1 1 "old" ["device"] 2),.users (.evaluate 1 "old" 1),
   .start "admin" "migration" 20 10,.beginTransition 1 11,.revoke 1 12,.bindDeployment 1 1,
   .context deployedContext,
   .authorization (.evaluate 1 2 "new" [] 13),.users (.evaluate 1 "new" 2),
   .authorization (.confirm 1 2 1 "new" "boot" 14),.users (.confirm 1 2 "new" "boot" 14)]

theorem releasedNode_released :
    (run retirementStep {} (releasedNode++[.finalize 1])).1.batchState 1=some .complete ∧
    EvaluatedSince (run retirementStep {} releasedNode).2 1 .users 1
      ((run retirementStep {} releasedNode).1.lane .users 1).confirmedRevision :=
  ⟨by decide +kernel,retirement_completes_after_release (by decide +kernel) 1 (by decide +kernel)
    (by decide +kernel) 1 (by decide +kernel) .users⟩

def restatingNode : List RetirementMove :=
  [.start "admin" "migration" 20 10,.beginTransition 1 11,.revoke 1 12,
   .createServer 1 {enrollmentHash := "enrol"},.claimEnrollment "enrol" "agent" "token" 13,
   .bindDeployment 1 1,.context deployedContext,
   .authorization (.restate 1 7 1 "" "boot" 14),.users (.restate 1 7 "" "boot" 14)]

theorem restatingNode_completes : ¬CompletesReleased (run retirementStep {} restatingNode).1
      (run retirementStep {} restatingNode).2 1 := by
  intro h
  obtain ⟨before,after,hlog,-,-,hev⟩ :=
    h (by decide +kernel) (by decide +kernel) 1 (by decide +kernel) .users
  have hevents : (run retirementStep {} restatingNode).2=[.revoked 1] := by decide +kernel
  have hmem := hlog ▸ mem_append_right before hev
  rw [hevents] at hmem
  cases mem_singleton.mp hmem

end Oboard.Store
