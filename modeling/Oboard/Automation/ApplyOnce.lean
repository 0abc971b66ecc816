import Oboard.Automation.ChangesetCalls

namespace Oboard.Automation

open GoText Runs List ChangesetStatus

variable {Input : Type} {hash : Plan Input → String} {w : World Input} {principal : Principal}

/-- No call has claimed the changeset and it has not been given up. -/
def ChangesetStatus.isOpen (status : ChangesetStatus) : Bool :=
  status=.draft || status=.validated || status=.awaitingApproval || status=.approved

def ChangesetStatus.isFinal (status : ChangesetStatus) : Bool :=
  status=.succeeded || status=.failed || status=.superseded || status=.expired

variable {status : ChangesetStatus}

theorem ChangesetStatus.ne_approved_of_isFinal (h : status.isFinal=true) : status≠.approved := by
  rintro rfl
  exact absurd h (by decide)

theorem ChangesetStatus.isOpen_of_isFinal (h : status.isFinal=true) : status.isOpen=false := by
  cases status <;> first | rfl | exact absurd h (by decide)

/-- The next access writes the row without a guard. -/
def Phase.overwrites (hash : Plan Input → String) (w : World Input) (principal : Principal) :
    Phase Input → Bool
  | .validateWrite item => (validatedRow w hash principal item).isOk
  | .approveWrite _ | .settle _ _ => true
  | _ => false

/-- Unguarded writes come before the claim and before the changeset is given up. -/
def Timely (hash : Plan Input → String) (b : Board Input) : Move Input → Prop
  | .advance call w => ∀c∈b.calls[call]?,c.2.overwrites hash w c.1=true → b.row.status.isOpen=true
  | _ => True

instance (hash : Plan Input → String) (b : Board Input) : ∀move,Decidable (Timely hash b move)
  | .advance call _ => inferInstanceAs (Decidable (∀c∈b.calls[call]?,_ → _))
  | .start _ _ | .abandon _ => inferInstanceAs (Decidable True)

def AppliedOnce (log : List (Event Input)) : Prop :=
  ∀i j plan plan',.ran i plan∈log → .ran j plan'∈log → i=j

def StatusFinal (hash : Plan Input → String) (b : Board Input) (moves : List (Move Input)) : Prop :=
  ∀before after,moves=before++after → (run (boardStep hash) b before).1.row.status.isFinal=true →
    (run (boardStep hash) b moves).1.row.status=(run (boardStep hash) b before).1.row.status

def Approved (b : Board Input) (log : List (Event Input)) (planHash : String) : Prop :=
  (∃a∈b.approvals,a.planHash=planHash) ∨ .approvedAutomatically planHash∈log

def RunsApproved (hash : Plan Input → String) (b : Board Input) (log : List (Event Input)) : Prop :=
  ∀i plan,.ran i plan∈log → Approved b log (hash plan)

section approved

/-- What a call knows in each phase: the plan it is about to run is approved, the status it is about
to write is final. -/
def Phase.knows (hash : Plan Input → String) (b : Board Input) (log : List (Event Input)) :
    Phase Input → Prop
  | .approveWrite item => Approved b log item.planHash
  | .applyCheck item | .applyClaim item | .running item _ => Approved b log (hash item.plan)
  | .settle _ status | .finish _ status => status.isFinal=true
  | _ => True

structure ApprovalsHold (hash : Plan Input → String) (b : Board Input) (log : List (Event Input)) :
    Prop where
  row : b.row.status=.approved → Approved b log b.row.planHash
  calls : ∀call∈b.calls,call.2.knows hash b log
  ran : RunsApproved hash b log

variable {b b' : Board Input} {log log' : List (Event Input)}

theorem Approved.mono (ha : Approved b log h) (happrovals : b.approvals⊆b'.approvals)
    (hlog : log⊆log') : Approved b' log' h :=
  ha.imp (fun ⟨a,hmem,heq⟩ => ⟨a,happrovals hmem,heq⟩) fun hmem => hlog hmem

variable {phase : Phase Input} {row : Changeset Input}

theorem Phase.knows.mono (hk : phase.knows hash b log) (happrovals : b.approvals⊆b'.approvals)
    (hlog : log⊆log') : phase.knows hash b' log' := by
  cases phase with
  | approveWrite | applyCheck | applyClaim | running => exact Approved.mono hk happrovals hlog
  | settle | finish => exact hk
  | _ => trivial

/-- What one access establishes about approvals, in any later state. -/
structure Establishes (hash : Plan Input → String) (b : Board Input) (log : List (Event Input))
    (o : Outcome Input) : Prop where
  row : o.row.status=.approved → Approved b log o.row.planHash
  phase : o.phase.knows hash b log
  ran : ∀i plan,.ran i plan∈o.events → Approved b log (hash plan)

theorem establishes_read (hrow : row.status=.approved → Approved b log row.planHash)
    (hphase : phase.knows hash b log) : Establishes hash b log (read row phase) :=
  ⟨hrow,hphase,nofun⟩

theorem knows_applyRead (hrow : row.status=.approved → Approved b log row.planHash) :
    (applyRead hash w principal row).knows hash b log := by
  unfold applyRead
  split_ifs with _ hstatus _ hhash
  · trivial
  · trivial
  · rfl
  · rfl
  rw [not_not] at hstatus hhash
  change Approved b log (hash row.plan)
  rw [hhash]
  exact hrow hstatus

theorem knows_applyCheck (h : Approved b log (hash item.plan)) :
    (applyCheck w principal item).knows hash b log := by
  unfold applyCheck
  split
  · rfl
  · trivial
  · exact h

theorem establishes_runNext (hrow : row.status=.approved → Approved b log row.planHash)
    (h : Approved b log (hash item.plan)) :
    Establishes hash b log (runNext w principal row item call rest) := by
  have hran phase (hphase : phase.knows hash b log) : Establishes hash b log
      {read row phase with events := [.ran call item.plan]} := by
    refine ⟨hrow,hphase,fun i plan hmem => ?_⟩
    cases mem_singleton.mp hmem
    exact h
  cases rest with
  | nil => exact establishes_read hrow rfl
  | cons op rest =>
    simp only [runNext]
    split
    · exact establishes_read hrow rfl
    split
    · exact hran (.finish item .failed) rfl
    · exact hran (.running item rest) h

theorem advance_establishes
    (hrow : b.row.status=.approved → Approved b log b.row.planHash) (hk : phase.knows hash b log)
    (happrovals : b.approvals++(advance hash w principal call b.row phase).approvals⊆b'.approvals)
    (hlog : log++(advance hash w principal call b.row phase).events⊆log') :
    Establishes hash b' log' (advance hash w principal call b.row phase) := by
  have hold : b.approvals⊆b'.approvals := fun _ h => happrovals (mem_append_left _ h)
  have hbefore : log⊆log' := fun _ h => hlog (mem_append_left _ h)
  have hrow' h : Approved b' log' b.row.planHash :=
    (hrow h).mono hold hbefore
  have hk' := hk.mono hold hbefore
  cases phase with
  | validateRead =>
    refine establishes_read hrow' ?_
    unfold validateRead
    split_ifs <;> trivial
  | validateWrite item =>
    simp only [advance,validateWrite] at hlog ⊢
    split at hlog
    · exact establishes_read hrow' trivial
    next written hwritten =>
    split_ifs at hlog ⊢ with hstatus
    · refine ⟨fun _ => .inr (hlog ?_),trivial,fun i plan h => ?_⟩
      · simp [write,updateAutomationChangeset]
      · simp [write] at h
    · exact ⟨fun h => absurd h hstatus,trivial,fun i plan h => by simp [write] at h⟩
  | approveRead =>
    refine establishes_read hrow' ?_
    unfold approveRead
    split_ifs <;> trivial
  | approveInsert item =>
    refine ⟨hrow',.inl ⟨⟨item.planHash,item.riskClass⟩,happrovals ?_,rfl⟩,nofun⟩
    exact mem_append_right _ mem_cons_self
  | approveWrite item => exact ⟨fun _ => hk',trivial,fun i plan h => by simp [advance,write] at h⟩
  | applyRead => exact establishes_read hrow' (knows_applyRead hrow')
  | applyCheck item => exact establishes_read hrow' (knows_applyCheck hk')
  | applyClaim item =>
    by_cases hstatus : b.row.status=.approved
    · simp only [advance,claimAutomationChangesetApply,if_pos hstatus]
      exact ⟨nofun,hk',fun i plan h => by simp at h⟩
    · simp only [advance,claimAutomationChangesetApply,if_neg hstatus]
      exact establishes_read hrow' trivial
  | settle item status =>
    refine ⟨fun h => ?_,trivial,fun i plan h => by simp [advance,write] at h⟩
    exact absurd h (ne_approved_of_isFinal hk')
  | running item rest => exact establishes_runNext hrow' hk'
  | finish item status =>
    refine ⟨fun h => ?_,trivial,fun i plan h => by simp [advance,write] at h⟩
    exact absurd h (ne_approved_of_isFinal hk')
  | done => exact establishes_read hrow' trivial

theorem ApprovalsHold.step (h : ApprovalsHold hash b log) (move) :
    ApprovalsHold hash (boardStep hash b move).1 (log++(boardStep hash b move).2) := by
  have hcalls {calls} (hnew : ∀call∈calls,call.2.knows hash b log) :
      ApprovalsHold hash {b with calls := calls} (log++[]) := by
    rw [append_nil]
    exact ⟨h.row,hnew,h.ran⟩
  cases move with
  | start kind principal =>
    refine hcalls fun call hmem => ?_
    rcases mem_append.mp hmem with hmem | hmem
    · exact h.calls call hmem
    · rw [mem_singleton.mp hmem]
      cases kind <;> trivial
  | abandon call =>
    simp only [boardStep]
    split
    · exact hcalls h.calls
    refine hcalls fun call hmem => ?_
    rcases mem_or_eq_of_mem_set hmem with hmem | rfl
    · exact h.calls call hmem
    · trivial
  | advance call w =>
    simp only [boardStep]
    split
    · exact hcalls h.calls
    next principal phase hcall =>
    have hk := h.calls _ (mem_of_getElem? hcall)
    obtain ⟨hrow,hphase,hran⟩ : Establishes hash _ _ (advance hash w principal call b.row phase) :=
      advance_establishes h.row hk (List.Subset.refl
        (Board.approvals ⟨_,_,b.calls.set call (principal,_)⟩)) (List.Subset.refl _)
    refine ⟨hrow,fun other hmem => ?_,fun i plan hmem => ?_⟩
    · rcases mem_or_eq_of_mem_set hmem with hmem | rfl
      · exact (h.calls other hmem).mono (subset_append_left _ _) (subset_append_left _ _)
      · exact hphase
    rcases mem_append.mp hmem with hmem | hmem
    · exact (h.ran i plan hmem).mono (subset_append_left _ _) (subset_append_left _ _)
    · exact hran i plan hmem

end approved

section once

/-- The call has claimed the changeset and has yet to say how it ended. -/
def Phase.applies : Phase Input → Bool
  | .running _ _ | .finish _ _ => true
  | _ => false

/-- What one access can do to the status and to the record. -/
inductive Effect (call : Nat) (row : Changeset Input) (phase : Phase Input) (overwrites : Bool)
    (o : Outcome Input) : Prop
  | reads (hrow : o.row=row) (hphase : o.phase.applies=true → phase.applies=true)
      (hevents : o.events=[])
  | runs (plan : Plan Input) (hrow : o.row=row) (hphase : phase.applies=true)
      (hevents : o.events=[.ran call plan])
  | overwrites (approved : Option String) (hover : overwrites=true) (hphase : o.phase.applies=false)
      (hevents : o.events=(approved.map .approvedAutomatically).toList)
  | claims (hrow : row.status=.approved) (hstatus : o.row.status=.applying)
      (hevents : o.events=[.claimed call])
  | finishes (hphase : phase.applies=true) (hdone : o.phase.applies=false)
      (hfinal : o.row.status.isFinal=true) (hevents : o.events=[])

theorem runNext_effect (w : World Input) (row item : Changeset Input)
    (rest : List (Operation Input)) :
    Effect call row (.running item rest) overwrites (runNext w principal row item call rest) := by
  cases rest with
  | nil => exact .reads rfl (fun _ => rfl) rfl
  | cons op rest =>
    simp only [runNext]
    split
    · exact .reads rfl (fun _ => rfl) rfl
    split
    · exact .runs item.plan rfl rfl rfl
    · exact .runs item.plan rfl rfl rfl

theorem advance_effect (w : World Input) (hk : phase.knows hash b log) : Effect call b.row phase
      (phase.overwrites hash w principal) (advance hash w principal call b.row phase) := by
  have hread {next} (hnext : next.applies=false) :
      Effect call b.row phase (phase.overwrites hash w principal) (read b.row next) :=
    .reads rfl (fun h => absurd h (by simp [read,hnext])) rfl
  cases phase with
  | validateRead =>
    refine hread ?_
    unfold validateRead
    split_ifs <;> rfl
  | validateWrite item =>
    simp only [advance,validateWrite]
    split
    · exact hread rfl
    next written hwritten =>
    have hover : (Phase.validateWrite item).overwrites hash w principal=true := by
      simp [Phase.overwrites,hwritten,Except.toBool]
    split_ifs
    · exact .overwrites (some written.planHash) hover rfl rfl
    · exact .overwrites none hover rfl rfl
  | approveRead =>
    refine hread ?_
    unfold approveRead
    split_ifs <;> rfl
  | approveInsert item => exact .reads rfl nofun rfl
  | approveWrite item => exact .overwrites none rfl rfl rfl
  | applyRead =>
    refine hread ?_
    unfold applyRead
    split_ifs <;> rfl
  | applyCheck item =>
    refine hread ?_
    unfold applyCheck
    split <;> rfl
  | applyClaim item =>
    by_cases hstatus : b.row.status=.approved
    · simp only [advance,claimAutomationChangesetApply,if_pos hstatus]
      exact .claims hstatus rfl rfl
    · simp only [advance,claimAutomationChangesetApply,if_neg hstatus]
      exact hread rfl
  | settle item status => exact .overwrites none rfl rfl rfl
  | running item rest => exact runNext_effect w b.row item rest
  | finish item status => exact .finishes rfl rfl hk rfl
  | done => exact hread rfl

variable {b : Board Input} {log : List (Event Input)}

/-- One call at most holds the claim, and a claimed changeset is open no more. -/
structure Once (b : Board Input) (log : List (Event Input)) : Prop where
  claimed : ∀i j,.claimed i∈log → .claimed j∈log → i=j
  holder : ∀i principal phase,b.calls[i]?=some (principal,phase) → phase.applies=true →
    .claimed i∈log ∧ b.row.status=.applying
  ran : ∀i plan,.ran i plan∈log → .claimed i∈log
  closed : ∀i,.claimed i∈log → b.row.status.isOpen=false

theorem Once.appliedOnce (h : Once b log) : AppliedOnce log :=
  fun i j plan plan' hi hj => h.claimed i j (h.ran i plan hi) (h.ran j plan' hj)

theorem Once.unclaimed (h : Once b log) (hopen : b.row.status.isOpen=true) (i) :
    .claimed i∉log := fun hi => by
  have := h.closed i hi
  simp [hopen] at this

theorem call_of_set {calls : List (Principal×Phase Input)} (h : (calls.set call moved)[i]?=some other) :
    i=call ∧ other=moved ∨ i≠call ∧ calls[i]?=some other := by
  rw [getElem?_set] at h
  split_ifs at h with hi hlt
  · exact .inl ⟨hi.symm,(Option.some.inj h).symm⟩
  · exact .inr ⟨Ne.symm hi,h⟩

section

variable (h : Once b log)
include h

theorem Once.note (hclaimed : ∀i,e≠.claimed i)
    (hran : ∀i plan,e=.ran i plan → .claimed i∈log) : Once b (log++[e]) := by
  have hbefore i hi : .claimed i∈log :=
    (mem_append.mp hi).resolve_right fun hi => hclaimed i (mem_singleton.mp hi).symm
  refine ⟨fun i j hi hj => h.claimed i j (hbefore i hi) (hbefore j hj),
    fun i p phase hi happlies => ?_,fun i plan hmem => ?_,fun i hi => h.closed i (hbefore i hi)⟩
  · exact (h.holder i p phase hi happlies).imp_left (mem_append_left _)
  apply mem_append_left
  rcases mem_append.mp hmem with hmem | hmem
  · exact h.ran i plan hmem
  · exact hran i plan (mem_singleton.mp hmem).symm

theorem Once.claim (hfree : ∀i,.claimed i∉log) (hstatus : b'.row.status=.applying)
    (hholder : ∀i principal phase,b'.calls[i]?=some (principal,phase) →
      phase.applies=true → i=call) :
    Once b' (log++[.claimed call]) := by
  have hcall i (hi : .claimed i∈log++[.claimed call]) : i=call := by simpa [hfree] using hi
  refine ⟨fun i j hi hj => (hcall i hi).trans (hcall j hj).symm,fun i p phase hi happlies => ?_,
    fun i plan hmem => ?_,fun i _ => ?_⟩
  · rw [hholder i p phase hi happlies]
    exact ⟨mem_append_right _ mem_cons_self,hstatus⟩
  · exact absurd (h.ran i plan (by simpa using hmem)) (hfree i)
  · rw [hstatus]
    rfl

theorem Once.advance {phase : Phase Input} (hcall : b.calls[call]?=some (principal,phase))
    (heffect : Effect call b.row phase overwrites o)
    (htimely : overwrites=true → b.row.status.isOpen=true) :
    Once ⟨o.row,b.approvals++o.approvals,b.calls.set call (principal,o.phase)⟩ (log++o.events) := by
  have hcalls (hrow : o.row=b.row) (hphase : o.phase.applies=true → phase.applies=true) :
      Once ⟨o.row,b.approvals++o.approvals,b.calls.set call (principal,o.phase)⟩ log := by
    refine ⟨h.claimed,fun i p next hi happlies => ?_,h.ran,hrow ▸ h.closed⟩
    rw [hrow]
    rcases call_of_set hi with ⟨rfl,heq⟩ | ⟨-,hi⟩
    · cases heq
      exact h.holder i principal phase hcall (hphase happlies)
    · exact h.holder i p next hi happlies
  -- A call other than the one that moves holds the claim only if it held it before.
  have hothers {i} {p} {next}
      (hi : (b.calls.set call (principal,o.phase))[i]?=some (p,next))
      (happlies : next.applies=true) :
      i=call ∧ o.phase.applies=true ∨ i≠call ∧ .claimed i∈log := by
    rcases call_of_set hi with ⟨rfl,heq⟩ | ⟨hne,hi⟩
    · cases heq
      exact .inl ⟨rfl,happlies⟩
    · exact .inr ⟨hne,(h.holder i p next hi happlies).1⟩
  cases heffect with
  | reads hrow hphase hevents =>
    rw [hevents,append_nil]
    exact hcalls hrow hphase
  | runs plan hrow hphase hevents =>
    rw [hevents]
    refine (hcalls hrow fun _ => hphase).note nofun fun i plan' heq => ?_
    cases heq
    exact (h.holder call principal phase hcall hphase).1
  | overwrites approved hover hphase hevents =>
    have hfree := h.unclaimed (htimely hover)
    have hwritten : Once ⟨o.row,b.approvals++o.approvals,b.calls.set call (principal,o.phase)⟩ log := by
      refine ⟨h.claimed,fun i p next hi happlies => ?_,h.ran,fun i hi => absurd hi (hfree i)⟩
      rcases hothers hi happlies with ⟨-,happlies⟩ | ⟨-,hmem⟩
      · rw [hphase] at happlies
        exact nomatch happlies
      · exact absurd hmem (hfree i)
    cases approved with
    | none =>
      rw [hevents]
      simpa using hwritten
    | some planHash =>
      rw [hevents]
      exact hwritten.note nofun nofun
  | claims hrow hstatus hevents =>
    have hfree := h.unclaimed (by rw [hrow]; rfl)
    rw [hevents]
    refine h.claim hfree hstatus fun i p next hi happlies => ?_
    rcases hothers hi happlies with ⟨heq,-⟩ | ⟨-,hmem⟩
    · exact heq
    · exact absurd hmem (hfree i)
  | finishes hphase hdone hfinal hevents =>
    obtain ⟨hmine,-⟩ := h.holder call principal phase hcall hphase
    rw [hevents,append_nil]
    refine ⟨h.claimed,fun i p next hi happlies => ?_,h.ran, fun _ _ => isOpen_of_isFinal hfinal⟩
    rcases hothers hi happlies with ⟨-,happlies⟩ | ⟨hne,hmem⟩
    · rw [hdone] at happlies
      exact nomatch happlies
    · exact absurd (h.claimed i call hmem hmine) hne

theorem Once.step (ha : ApprovalsHold hash b log) (htimely : Timely hash b move) :
    Once (boardStep hash b move).1 (log++(boardStep hash b move).2) := by
  have hcalls {calls}
      (hnew : ∀(i : Nat) principal phase,calls[i]?=some (principal,phase) →
        phase.applies=true → b.calls[i]?=some (principal,phase)) :
      Once {b with calls := calls} (log++[]) := by
    rw [append_nil]
    refine ⟨h.claimed,fun i p phase hi happlies => ?_,h.ran,h.closed⟩
    exact h.holder i p phase (hnew i p phase hi happlies) happlies
  cases move with
  | start kind principal =>
    refine hcalls fun i p phase hi happlies => ?_
    rw [getElem?_append] at hi
    split_ifs at hi with hlt
    · exact hi
    · cases mem_singleton.mp (mem_of_getElem? hi)
      cases kind <;> exact nomatch happlies
  | abandon call =>
    simp only [boardStep]
    split
    · exact hcalls fun _ _ _ hi _ => hi
    refine hcalls fun i p phase hi happlies => ?_
    rcases call_of_set hi with ⟨-,heq⟩ | ⟨-,hi⟩
    · cases heq
      exact nomatch happlies
    · exact hi
  | advance call w =>
    simp only [boardStep]
    split
    · exact hcalls fun _ _ _ hi _ => hi
    next principal phase hcall =>
    exact h.advance hcall (advance_effect w (ha.calls _ (mem_of_getElem? hcall)))
      (htimely (principal,phase) hcall)

theorem Once.keeps_final (ha : ApprovalsHold hash b log) (htimely : Timely hash b move)
    (hfinal : b.row.status.isFinal=true) : (boardStep hash b move).1.row.status=b.row.status := by
  cases move with
  | start kind principal => rfl
  | abandon call =>
    simp only [boardStep]
    split <;> rfl
  | advance call w =>
    simp only [boardStep]
    split
    · rfl
    next principal phase hcall =>
    cases advance_effect w (ha.calls _ (mem_of_getElem? hcall)) with
    | reads hrow | runs _ hrow => exact congrArg _ hrow
    | overwrites _ hover =>
      have hopen := htimely (principal,phase) hcall hover
      rw [isOpen_of_isFinal hfinal] at hopen
      exact nomatch hopen
    | claims hrow =>
      rw [hrow] at hfinal
      exact nomatch hfinal
    | finishes hphase =>
      rw [(h.holder call principal phase hcall hphase).2] at hfinal
      exact nomatch hfinal

end

theorem create_draft (h : create w principal request=.ok row) : row.status=.draft := by
  simp only [create] at h
  split_ifs at h
  split at h
  · exact nomatch h
  obtain ⟨_,-,h⟩ := bind_ok h
  obtain ⟨_,-,h⟩ := bind_ok h
  cases h
  rfl

theorem once_new (row : Changeset Input) : Once {row := row} [] :=
  ⟨fun _ _ h => (nomatch h),fun _ _ _ h => (nomatch h),fun _ _ h => (nomatch h),fun _ h => (nomatch h)⟩

def Sound (hash : Plan Input → String) (b : Board Input) (log : List (Event Input)) : Prop :=
  ApprovalsHold hash b log ∧ Once b log

theorem Sound.step (h : Sound hash b log) (htimely : Timely hash b move) :
    Sound hash (boardStep hash b move).1 (log++(boardStep hash b move).2) :=
  ⟨h.1.step move,h.2.step h.1 htimely⟩

variable {moves : List (Move Input)}

section

variable (h : Sound hash b log) (htimely : RunGuarded (boardStep hash) (Timely hash) b moves)
include h htimely

theorem Sound.along :
    Sound hash (run (boardStep hash) b moves).1 (log++(run (boardStep hash) b moves).2) :=
  run_invariant (Sound hash) _ (fun hg h => Sound.step h hg) htimely h

theorem Sound.statusFinal : StatusFinal hash b moves := by
  rintro before after rfl hfinal
  obtain ⟨hbefore,hafter⟩ := runGuarded_append.mp htimely
  rw [run_append]
  have hkept := run_invariant (fun b' log' => Sound hash b' log' ∧
      b'.row.status=(run (boardStep hash) b before).1.row.status) _
    (fun {b' _ _} hg hs => ⟨hs.1.step hg,?_⟩) hafter ⟨h.along hbefore,rfl⟩
  · exact hkept.2
  · rw [hs.1.2.keeps_final hs.1.1 hg (hs.2 ▸ hfinal)]
    exact hs.2

end

end once

/-- Handlers only run approved plans, and calls whose unguarded writes come in time apply the
changeset once at most. -/
theorem changeset_applied_once (hash : Plan Input → String) {request : CreateRequest Input}
    {row : Changeset Input} (hcreate : create w principal request=.ok row)
    (moves : List (Move Input)) : RunsApproved hash (run (boardStep hash) {row := row} moves).1
      (run (boardStep hash) {row := row} moves).2 ∧
    (RunGuarded (boardStep hash) (Timely hash) {row := row} moves →
      AppliedOnce (run (boardStep hash) {row := row} moves).2 ∧
      StatusFinal hash {row := row} moves) := by
  have hnew : ApprovalsHold hash {row := row} [] :=
    ⟨fun happroved => (nomatch (create_draft hcreate).symm.trans happroved),
      fun _ hmem => (nomatch hmem),fun _ _ hmem => (nomatch hmem)⟩
  have hall : RunGuarded (boardStep hash) (fun _ _ => True) {row := row} moves :=
    runGuarded_of_forall _ (fun _ _ _ => trivial) _
  refine ⟨?_,fun htimely => ?_⟩
  · have h := run_invariant (ApprovalsHold hash) _
      (fun {_ _ move} _ h => h.step move) hall hnew
    exact h.ran
  · have h : Sound hash {row := row} [] := ⟨hnew,once_new row⟩
    exact ⟨(h.along htimely).2.appliedOnce,h.statusFinal htimely⟩

section runs

def plainWorld : World Unit where
  now := 1
  authorize := fun _ _ => some {riskClass := 1}
  validator := fun _ => some fun _ _ => .ok ()
  handler := fun _ => some fun _ _ => .ok ()
  revisionResolver := fun _ => none
  serverCreatedAt := fun _ => none
  principalType := fun _ => some .other
  policies := fun _ _ => none

def plainRequest : CreateRequest Unit where
  idempotencyKey := "key"
  baseRevisions := some []
  operations := [⟨"servers.dns_test",some (),some []⟩]

def operator : Principal := {id := "user",userID := some 1,role := .operator,interactive := true}

def plainHash (_ : Plan Unit) : String := "hash"

def plainRow : Changeset Unit where
  principalID := "user"
  status := .draft
  riskClass := 1
  createdAt := 1
  expiresAt := 1+1800*second
  plan := ⟨[],[⟨"servers.dns_test",(),[],1⟩]⟩

def advances (call n : Nat) : List (Move Unit) := List.replicate n (.advance call plainWorld)

def approvedInTime : List (Move Unit) :=
  .start .validate operator::advances 0 2++.start .approve operator::advances 1 9

def approvedTwice : List (Move Unit) :=
  .start .validate operator::advances 0 2++.start .approve operator::.start .approve operator::
    .advance 1 plainWorld::.advance 2 plainWorld::advances 1 8++advances 2 8

theorem plainRow_created : create plainWorld operator plainRequest=.ok plainRow := rfl

theorem approval_in_time_applies_once :
    RunGuarded (boardStep plainHash) (Timely plainHash) {row := plainRow} approvedInTime ∧
    (run (boardStep plainHash) {row := plainRow} approvedInTime).1.row.status=.succeeded ∧
    AppliedOnce (run (boardStep plainHash) {row := plainRow} approvedInTime).2 ∧
    StatusFinal plainHash {row := plainRow} approvedInTime := by
  have htimely : RunGuarded (boardStep plainHash) (Timely plainHash) {row := plainRow}
      approvedInTime := by decide
  exact ⟨htimely,by decide,
    (changeset_applied_once plainHash plainRow_created approvedInTime).2 htimely⟩

/-- The second approval writes its status over the result of the first and applies again. -/
theorem second_approval_applies_again : create plainWorld operator plainRequest=.ok plainRow ∧
    ¬AppliedOnce (run (boardStep plainHash) {row := plainRow} approvedTwice).2 ∧
    ¬StatusFinal plainHash {row := plainRow} (approvedTwice.take 17) := by
  have hlog : (run (boardStep plainHash) {row := plainRow} approvedTwice).2=
      [.claimed 1,.ran 1 plainRow.plan,.claimed 2,.ran 2 plainRow.plan] := by
    decide
  refine ⟨plainRow_created,fun h => ?_,fun h => ?_⟩
  · exact absurd (h 1 2 plainRow.plan plainRow.plan (by decide) (by decide)) (by decide)
  · have hkept := h (approvedTwice.take 15) _ rfl (by decide)
    exact absurd hkept (by decide)

end runs

end Oboard.Automation
