import Mathlib.Data.List.NodupEquivFin
import Oboard.Controller.CoalescedQueue

namespace Oboard.Controller

open Runs List Nat AList

section tokens

namespace CoalescedQueue

section

variable (q : CoalescedQueue) (key : Int)

def timersOf : Nat := (q.timers.map (·.1)).count key

/-- A received key still counts for the channel until its worker takes the lock. -/
def slotsOf : Nat :=
  q.ch.count key+q.workers.count (.received key)

def evaluationsOf : Nat := q.workers.count (.evaluating key)

def Idle : Prop :=
  q.timersOf key=0 ∧ q.slotsOf key=0 ∧ q.evaluationsOf key=0

/-- Exactly one timer, slot or evaluation stands for a key that has a state, where its flags say. -/
def Placed : Prop :=
  match q.states.lookup key with
  | none => Idle q key
  | some state => q.timersOf key=state.timer.isSome.toNat ∧ q.slotsOf key=state.queued.toNat ∧
    q.evaluationsOf key=state.running.toNat ∧
    q.timersOf key+q.slotsOf key+q.evaluationsOf key=1

end

end CoalescedQueue

open CoalescedQueue

variable {q q' : CoalescedQueue} {w : Nat}

variable {workers : List WorkerPhase}

theorem count_set_phase (h : workers[w]?=some old) (new phase) :
    (workers.set w new).count phase+(if old=phase then 1 else 0)=
      workers.count phase+if new=phase then 1 else 0 := by
  obtain ⟨hw,rfl⟩ := List.getElem?_eq_some_iff.mp h
  rw [count_set hw]
  simp only [beq_iff_eq]
  split_ifs with ho hn <;> grind

theorem count_set_other (h : workers[w]?=some old) (hold : old≠phase) (hnew : new≠phase) :
    (workers.set w new).count phase=workers.count phase := by
  simpa only [if_neg hold,if_neg hnew,add_zero] using count_set_phase h new phase

theorem timersOf_erase (h : timer∈q.timers) (k) :
    ({q with timers := q.timers.erase timer} : CoalescedQueue).timersOf k+
      (if timer.1=k then 1 else 0)=q.timersOf k := by
  have hperm := (perm_cons_erase h).map (·.1)
  simp only [timersOf,hperm.count_eq k,map_cons,count_cons,beq_iff_eq]

theorem placed_of_none (h : q.states.lookup k=none) : Placed q k ↔ Idle q k := by
  simp only [Placed,h]

theorem placed_of_some (h : q.states.lookup k=some state) : Placed q k ↔
    q.timersOf k=state.timer.isSome.toNat ∧ q.slotsOf k=state.queued.toNat ∧
      q.evaluationsOf k=state.running.toNat ∧
      q.timersOf k+q.slotsOf k+q.evaluationsOf k=1 := by
  simp only [Placed,h]

theorem CoalescedQueue.Placed.congr (h : Placed q k) (hstate : q'.states.lookup k=q.states.lookup k)
    (htimers : q'.timersOf k=q.timersOf k) (hslots : q'.slotsOf k=q.slotsOf k)
    (hruns : q'.evaluationsOf k=q.evaluationsOf k) : Placed q' k := by
  unfold Placed Idle at *
  rw [hstate,htimers,hslots,hruns]
  exact h

theorem state_of_placed (h : Placed q k) (hpos : 0<q.timersOf k+q.slotsOf k+q.evaluationsOf k) :
    ∃state,q.states.lookup k=some state := by
  cases hstate : q.states.lookup k with
  | none =>
    obtain ⟨ht,hs,he⟩ := (placed_of_none hstate).mp h
    omega
  | some state => exact ⟨state,rfl⟩

theorem state_of_worker (h : Placed q key) (hw : q.workers[w]?=some old)
    (hold : old=.received key ∨ old=.evaluating key) : ∃state,q.states.lookup key=some state := by
  have hmem := count_pos_iff.mpr (mem_of_getElem? hw)
  refine state_of_placed h ?_
  unfold slotsOf evaluationsOf
  rcases hold with rfl | rfl <;> omega

theorem scheduleLocked_placed (hidle : Idle q key) (hqueued : state.queued=false)
    (hrunning : state.running=false) (hother : ∀k≠key,Placed q k) (k) :
    Placed (scheduleLocked q key state delay) k := by
  obtain ⟨ht,hs,he⟩ := hidle
  have htimers : (scheduleLocked q key state delay).timersOf k=
      q.timersOf k+if key=k then 1 else 0 := by
    simp only [scheduleLocked,timersOf,map_cons,count_cons,beq_iff_eq]
  by_cases hk : k=key
  · subst hk
    have hslots : (scheduleLocked q k state delay).slotsOf k=0 := hs
    have hruns : (scheduleLocked q k state delay).evaluationsOf k=0 := he
    rw [placed_of_some (lookup_insert _),htimers,hslots,hruns,ht,if_pos rfl,hqueued,hrunning]
    exact ⟨rfl,rfl,rfl,rfl⟩
  · refine (hother k hk).congr (lookup_insert_ne hk) ?_ rfl rfl
    rw [htimers,if_neg (Ne.symm hk),add_zero]

theorem enqueue_placed (h : q.closed=false → ∀k,Placed q k) :
    (enqueue config q key).closed=false → ∀k,Placed (enqueue config q key) k := by
  unfold enqueue
  by_cases hskip : key≤0 ∨ q.closed=true
  · rwa [if_pos hskip]
  rw [if_neg hskip]
  rw [not_or,Bool.not_eq_true] at hskip
  have hall := h hskip.2
  cases hstate : q.states.lookup key with
  | none =>
    split_ifs with hfull
    · exact h
    · have hidle := (placed_of_none hstate).mp (hall key)
      exact fun _ => scheduleLocked_placed hidle rfl rfl (fun k _ => hall k)
  | some state =>
    dsimp only
    have hkey := (placed_of_some hstate).mp (hall key)
    split_ifs with hfree
    · exact absurd hkey.2.2.2 (by simp_all)
    intro _ k
    by_cases hk : k=key
    · subst hk
      rw [placed_of_some (lookup_insert _)]
      exact hkey
    · exact (hall k).congr (lookup_insert_ne hk) rfl rfl rfl

theorem makeReady_placed (hidle : Idle q key) (hstate : q.states.lookup key=some state)
    (hqueued : state.queued=false) (hrunning : state.running=false) (hother : ∀k≠key,Placed q k) :
    (makeReady config q key).closed=false → ∀k,Placed (makeReady config q key) k := by
  unfold makeReady
  by_cases hclosed : q.closed=true
  · exact fun hopen => absurd hopen (by simp [hclosed])
  rw [if_neg hclosed]
  intro _ k
  simp only [hstate,hqueued,hrunning,Bool.false_eq_true,or_self]
  cases state.dirty with
  | false =>
    by_cases hk : k=key
    · subst hk
      exact (placed_of_none (lookup_erase _ _)).mpr hidle
    · exact (hother k hk).congr (lookup_erase_ne hk) rfl rfl rfl
  | true =>
  simp only [not_true_eq_false,if_false]
  split_ifs with hroom
  · by_cases hk : k=key
    · subst hk
      obtain ⟨ht,hs,he⟩ := hidle
      rw [placed_of_some (lookup_insert _)]
      have hslots : (q.ch++[k]).count k+q.workers.count (.received k)=1 := by
        unfold slotsOf at hs
        rw [count_append,count_singleton_self]
        omega
      refine ⟨ht,hslots,he,?_⟩
      change q.timersOf k+((q.ch++[k]).count k+q.workers.count (.received k))+q.evaluationsOf k=1
      omega
    · refine (hother k hk).congr (lookup_insert_ne hk) rfl ?_ rfl
      simp [slotsOf,Ne.symm hk]
  · exact scheduleLocked_placed hidle rfl rfl hother k

section

variable (h : ∀k,Placed q k)
include h

theorem startEvaluation_placed (hopen : q.closed=false)
    (hw : q.workers[w]?=some (.received key)) (k) : Placed (startEvaluation q w key).1 k := by
  obtain ⟨state,hstate⟩ := state_of_worker (h key) hw (.inl rfl)
  obtain ⟨ht,hs,he,hone⟩ := (placed_of_some hstate).mp (h key)
  simp only [startEvaluation,hstate,hopen]
  by_cases hk : k=key
  · subst hk
    have hreceived := count_set_phase hw (.evaluating k) (.received k)
    have hevaluating := count_set_phase hw (.evaluating k) (.evaluating k)
    simp only [if_true,reduceCtorEq,if_false] at hreceived hevaluating
    rw [placed_of_some (lookup_insert _)]
    unfold slotsOf evaluationsOf at *
    simp only [Bool.toNat_false,Bool.toNat_true]
    change q.timersOf k=_ ∧ _ ∧ _ ∧ q.timersOf k+_+_=1
    refine ⟨ht,?_,?_,?_⟩ <;> omega
  · refine (h k).congr (lookup_insert_ne hk) rfl ?_ ?_
    · rw [slotsOf,count_set_other hw (by simp [Ne.symm hk]) (by simp),slotsOf]
    · rw [evaluationsOf,count_set_other hw (by simp) (by simp [Ne.symm hk]),evaluationsOf]

theorem finishEvaluation_placed (hw : q.workers[w]?=some (.evaluating key)) :
    (finishEvaluation config q w key failed).closed=false →
      ∀k,Placed (finishEvaluation config q w key failed) k := by
  obtain ⟨state,hstate⟩ := state_of_worker (h key) hw (.inr rfl)
  obtain ⟨ht,hs,he,hone⟩ := (placed_of_some hstate).mp (h key)
  have hreceived := count_set_phase hw .waiting (.received key)
  have hevaluating := count_set_phase hw .waiting (.evaluating key)
  simp only [if_true,reduceCtorEq,if_false] at hreceived hevaluating
  simp only [slotsOf,evaluationsOf] at hs he hone
  have hidle : Idle {q with workers := q.workers.set w .waiting} key := by
    change q.timersOf key=0 ∧ q.ch.count key+(q.workers.set w .waiting).count (.received key)=0 ∧
      (q.workers.set w .waiting).count (.evaluating key)=0
    refine ⟨?_,?_,?_⟩ <;> omega
  have hqueued : state.queued=false := Bool.toNat_eq_zero.mp (by omega)
  have hother : ∀k≠key,Placed {q with workers := q.workers.set w .waiting} k := by
    intro k hk
    refine (h k).congr rfl rfl ?_ ?_
    · rw [slotsOf,count_set_other hw (by simp) (by simp),slotsOf]
    · rw [evaluationsOf,count_set_other hw (by simp [Ne.symm hk]) (by simp),evaluationsOf]
  simp only [finishEvaluation,hstate]
  split_ifs with hclosed hdirty
  · exact fun hopen => absurd hopen (by simp [hclosed])
  · exact fun _ => scheduleLocked_placed hidle hqueued rfl hother
  · exact fun _ => scheduleLocked_placed hidle hqueued rfl hother

theorem fire_placed (htimer : timer∈q.timers) :
    (makeReady config {q with timers := q.timers.erase timer} timer.1).closed=false →
      ∀k,Placed (makeReady config {q with timers := q.timers.erase timer} timer.1) k := by
  have herase := timersOf_erase htimer
  have hfired := herase timer.1
  rw [if_pos rfl] at hfired
  obtain ⟨state,hstate⟩ := state_of_placed (h timer.1) (by omega)
  obtain ⟨ht,hs,he,hone⟩ := (placed_of_some hstate).mp (h timer.1)
  have hidle : Idle {q with timers := q.timers.erase timer} timer.1 := by
    refine ⟨by omega,?_,?_⟩
    · change q.slotsOf timer.1=0
      omega
    · change q.evaluationsOf timer.1=0
      omega
  refine makeReady_placed hidle hstate ?_ ?_ fun k hk => ?_
  · exact Bool.toNat_eq_zero.mp (hs.symm.trans hidle.2.1)
  · exact Bool.toNat_eq_zero.mp (he.symm.trans hidle.2.2)
  · refine (h k).congr rfl ?_ rfl rfl
    simpa only [if_neg (Ne.symm hk),add_zero] using herase k

theorem receive_placed (hw : q.workers[w]?=some .waiting) (hch : q.ch=key::rest) (k) :
    Placed {q with ch := rest, workers := q.workers.set w (.received key)} k := by
  refine (h k).congr rfl rfl ?_ ?_
  · have hreceived := count_set_phase hw (.received key) (.received k)
    simp only [reduceCtorEq,if_false,WorkerPhase.received.injEq] at hreceived
    simp only [slotsOf,hch,count_cons,beq_iff_eq]
    omega
  · rw [evaluationsOf,count_set_other hw (by simp) (by simp),evaluationsOf]

end

theorem CoalescedQueue.Placed.alone (h : Placed q k) : q.evaluationsOf k≤1 := by
  cases hstate : q.states.lookup k with
  | none =>
    have := (placed_of_none hstate).mp h
    exact this.2.2 ▸ zero_le 1
  | some state =>
    have := (placed_of_some hstate).mp h
    omega

end tokens

section steps

open CoalescedQueue

variable {q : CoalescedQueue} {key k : Int}

theorem workStep_closed (h : action≠.stop) : (workStep config q action).1.closed=q.closed := by
  cases action with
  | stop => exact absurd rfl h
  | start w =>
    simp only [workStep]
    split
    · unfold startEvaluation
      split <;> rfl
    · rfl
  | _ =>
    simp only [workStep,enqueue,makeReady,finishEvaluation]
    repeat' split
    all_goals rfl

theorem workStep_placed (h : ∀k,Placed q k) (hopen : q.closed=false) :
    (workStep config q action).1.closed=false → ∀k,Placed (workStep config q action).1 k := by
  cases action with
  | stop => exact fun hclosed => absurd hclosed (by simp [workStep,stop])
  | tick elapsed => exact fun _ k => (h k).congr rfl rfl rfl rfl
  | enqueue key => exact enqueue_placed (fun _ => h)
  | fire timer =>
    simp only [workStep]
    split
    case isTrue hfire => exact fire_placed h hfire.1
    case isFalse => exact fun _ => h
  | receive w =>
    simp only [workStep]
    split
    case h_1 key rest hw hch => exact fun _ => receive_placed h hw hch
    case h_2 => exact fun _ => h
  | start w =>
    simp only [workStep]
    split
    case h_1 key hw => exact fun _ => startEvaluation_placed h hopen hw
    case h_2 => exact fun _ => h
  | finish w failed =>
    simp only [workStep]
    split
    case h_1 key hw => exact finishEvaluation_placed h hw
    case h_2 => exact fun _ => h
  | leave w =>
    simp only [workStep]
    split
    case h_1 hw =>
      refine fun _ k => (h k).congr rfl rfl ?_ ?_
      · rw [slotsOf,count_set_other hw (by simp) (by simp),slotsOf]
      · rw [evaluationsOf,count_set_other hw (by simp) (by simp),evaluationsOf]
    case h_2 => exact fun _ => h

theorem startEvaluation_of_closed (h : q.closed=true) :
    startEvaluation q w key=({q with workers := q.workers.set w .waiting},false) := by
  unfold startEvaluation
  rw [h]
  cases q.states.lookup key <;> rfl

theorem evaluationsOf_closed (h : q.closed=true) :
    (workStep config q action).1.evaluationsOf k≤q.evaluationsOf k := by
  have hset {w} {old new} (hw : q.workers[w]?=some old)
      (hnew : new≠.evaluating k) : (q.workers.set w new).count (.evaluating k)≤q.evaluationsOf k := by
    have := count_set_phase hw new (.evaluating k)
    rw [if_neg hnew] at this
    unfold evaluationsOf
    omega
  cases action with
  | tick => exact le_rfl
  | stop => exact le_rfl
  | enqueue key => simp [workStep,enqueue,h]
  | fire timer =>
    simp only [workStep,h]
    split <;> exact le_rfl
  | receive w =>
    simp only [workStep]
    split
    case h_1 hw _ => exact hset hw (by simp)
    case h_2 => exact le_rfl
  | start w =>
    simp only [workStep]
    split
    case h_1 key hw =>
      rw [startEvaluation_of_closed h]
      exact hset hw (by simp)
    case h_2 => exact le_rfl
  | finish w failed =>
    simp only [workStep,finishEvaluation,h]
    split
    case h_1 hw => split <;> exact hset hw (by simp)
    case h_2 => exact le_rfl
  | leave w =>
    simp only [workStep]
    split
    case h_1 hw => exact hset hw (by simp)
    case h_2 => exact le_rfl

structure Sound (q : CoalescedQueue) : Prop where
  placed : q.closed=false → ∀k,Placed q k
  alone : ∀k,q.evaluationsOf k≤1

theorem Sound.step (h : Sound q) : Sound (workStep config q action).1 := by
  cases hclosed : q.closed with
  | true =>
    refine ⟨fun hopen => ?_,fun k => (evaluationsOf_closed hclosed).trans (h.alone k)⟩
    by_cases hstop : action=.stop
    · subst hstop
      exact absurd hopen (by simp [workStep,stop])
    · rw [workStep_closed hstop,hclosed] at hopen
      exact absurd hopen (by simp)
  | false =>
    have hplaced : (workStep config q action).1.closed=false → ∀k,Placed _ k :=
      workStep_placed (h.placed hclosed) hclosed
    refine ⟨hplaced,fun k => ?_⟩
    by_cases hstop : action=.stop
    · subst hstop
      exact h.alone k
    · exact (hplaced ((workStep_closed hstop).trans hclosed) k).alone

theorem sound_new : Sound (newCoalescedQueue config) := by
  have hcount {phase} (h : phase≠.waiting) :
      (List.replicate config.workers WorkerPhase.waiting).count phase=0 :=
    count_eq_zero.mpr fun hmem => h (eq_of_mem_replicate hmem)
  have hidle k : Idle (newCoalescedQueue config) k :=
    ⟨rfl,by simp [newCoalescedQueue,slotsOf,hcount],by simp [newCoalescedQueue,evaluationsOf,hcount]⟩
  exact ⟨fun _ k => (placed_of_none rfl).mpr (hidle k),fun k => (hidle k).2.2 ▸ zero_le 1⟩

end steps

section work

open CoalescedQueue

/-- Enqueued since its last evaluation started, or that evaluation failed. -/
def Owed (key : Int) (log : List WorkEvent) : Prop :=
  ∃before event after,log=before++event::after ∧
    (event=.enqueued key ∨ event=.finished key true) ∧ .started key∉after

/-- A received key is in the hands of a worker that has not started it yet. -/
def Pending (q : CoalescedQueue) (key : Int) : Prop :=
  (∃due,(key,due)∈q.timers) ∨ (key∈q.ch ∨ .received key∈q.workers) ∨ .evaluating key∈q.workers

def KeepsWork (q : CoalescedQueue) (log : List WorkEvent) : Prop :=
  q.closed=false → ∀key,0<key → Owed key log →
    ∃state,q.states.lookup key=some state ∧ state.dirty=true ∧ Pending q key

def EvaluatedOnce (q : CoalescedQueue) : Prop := ∀(w v : Nat) (key : Int),
  q.workers[w]?=some (.evaluating key) → q.workers[v]?=some (.evaluating key) → w=v

def HasRoom (config : CoalescedQueueConfig) (q : CoalescedQueue) : QueueAction → Prop
  | .enqueue key => q.closed=false → 0<key → q.states.lookup key=none →
    q.states.entries.length<config.size
  | _ => True

def dirtyAt (q : CoalescedQueue) (key : Int) : Bool := (q.states.lookup key).any (·.dirty)

variable {config : CoalescedQueueConfig} {q : CoalescedQueue} {key k : Int}
  {log : List WorkEvent}

theorem owed_snoc : Owed key (log++[event]) ↔
    event=.enqueued key ∨ event=.finished key true ∨ (Owed key log ∧ event≠.started key) := by
  constructor
  · rintro ⟨before,e,after,heq,he,hafter⟩
    rcases eq_nil_or_concat after with rfl | ⟨rest,last,rfl⟩
    · obtain ⟨-,hlast⟩ := append_inj' heq rfl
      cases hlast
      exact he.imp_right .inl
    have heq' : log++[event]=(before++e::rest)++[last] := by simpa using heq
    obtain ⟨rfl,hlast⟩ := append_inj' heq' rfl
    cases hlast
    simp only [concat_eq_append,mem_append,mem_singleton,not_or] at hafter
    exact .inr (.inr ⟨⟨before,e,rest,rfl,he,hafter.1⟩,Ne.symm hafter.2⟩)
  · rintro (rfl | rfl | ⟨⟨before,e,after,rfl,he,hafter⟩,hne⟩)
    · exact ⟨log,_,[],rfl,.inl rfl,not_mem_nil⟩
    · exact ⟨log,_,[],rfl,.inr rfl,not_mem_nil⟩
    · refine ⟨before,e,after++[event],by simp,he,?_⟩
      simpa [hafter] using Ne.symm hne

theorem pending_of_placed (h : Placed q key)
    (hstate : q.states.lookup key=some state) : Pending q key := by
  obtain ⟨-,-,-,hone⟩ := (placed_of_some hstate).mp h
  have hsome : 0<q.timersOf key ∨ 0<q.ch.count key ∨ 0<q.workers.count (.received key) ∨
      0<q.evaluationsOf key := by
    unfold slotsOf at hone
    omega
  rcases hsome with ht | hc | hr | he
  · obtain ⟨timer,hmem,rfl⟩ := mem_map.mp (count_pos_iff.mp ht)
    exact .inl ⟨timer.2,hmem⟩
  · exact .inr (.inl (.inl (count_pos_iff.mp hc)))
  · exact .inr (.inl (.inr (count_pos_iff.mp hr)))
  · exact .inr (.inr (count_pos_iff.mp he))

theorem dirtyAt_insert {states : Table Int CoalescedState}
    (hstates : q.states=states.insert key state) :
    dirtyAt q k=if k=key then state.dirty else (states.lookup k).any (·.dirty) := by
  unfold dirtyAt
  rw [hstates,Table.lookup_insert_eq]
  split_ifs <;> rfl

theorem dirtyAt_scheduleLocked :
    dirtyAt (scheduleLocked q key state delay) k=if k=key then state.dirty else dirtyAt q k := by
  rw [dirtyAt_insert rfl]
  rfl

theorem dirtyAt_enqueue : dirtyAt q k=true → dirtyAt (enqueue config q key) k=true := by
  intro h
  simp only [enqueue]
  repeat' split
  · exact h
  · exact h
  · rw [dirtyAt_scheduleLocked]
    split_ifs <;> first | rfl | exact h
  · rw [dirtyAt_scheduleLocked]
    split_ifs <;> first | rfl | exact h
  · rw [dirtyAt_insert rfl]
    split_ifs <;> first | rfl | exact h

theorem dirtyAt_enqueue_self (hroom : HasRoom config q (.enqueue key)) (hopen : q.closed=false)
    (hkey : 0<key) : dirtyAt (enqueue config q key) key=true := by
  have hskip : ¬(key≤0 ∨ q.closed=true) := by simp [hopen,hkey]
  simp only [enqueue,if_neg hskip]
  split
  case h_1 hstate =>
    rw [if_neg (not_le.mpr (hroom hopen hkey hstate)),dirtyAt_scheduleLocked,if_pos rfl]
  case h_2 =>
    split_ifs
    · rw [dirtyAt_scheduleLocked,if_pos rfl]
    · rw [dirtyAt_insert rfl,if_pos rfl]

theorem dirtyAt_makeReady : dirtyAt q k=true → dirtyAt (makeReady config q key) k=true := by
  intro h
  by_cases hclosed : q.closed=true
  · simpa only [makeReady,if_pos hclosed] using h
  simp only [makeReady,if_neg hclosed]
  split
  case h_1 => exact h
  case h_2 state hstate =>
    have hself : k=key → state.dirty=true := by
      rintro rfl
      simpa only [dirtyAt,hstate,Option.any_some] using h
    split_ifs with hdirty
    · rw [dirtyAt_insert rfl]
      split_ifs with hk <;> first | exact hself hk | exact h
    · rw [dirtyAt_insert rfl]
      split_ifs with hk <;> first | exact hself hk | exact h
    · rw [dirtyAt_scheduleLocked]
      split_ifs with hk <;> first | exact hself hk | exact h
    · have hne : k≠key := fun heq => hdirty (hself heq)
      simpa only [dirtyAt,lookup_erase_ne hne] using h

theorem dirtyAt_finishEvaluation (hopen : q.closed=false)
    (hdirty : dirtyAt q k=true ∨ failed=true ∧ k=key ∧ (q.states.lookup key).isSome) :
    dirtyAt (finishEvaluation config q w key failed) k=true := by
  simp only [finishEvaluation,hopen,Bool.false_eq_true,if_false]
  split
  case h_1 hstate =>
    rcases hdirty with h | ⟨-,-,h⟩
    · exact h
    · simp [hstate] at h
  case h_2 state hstate =>
    have hself : k=key → (finishedState q.now failed state).dirty=true := by
      rintro rfl
      rcases hdirty with h | ⟨rfl,-⟩
      · rw [dirtyAt,hstate,Option.any_some] at h
        simp [finishedState,h]
      · rfl
    have hother : k≠key → dirtyAt q k=true := fun hne =>
      hdirty.resolve_right (fun h => hne h.2.1)
    split_ifs
    · rw [dirtyAt_scheduleLocked]
      split_ifs with hk <;> first | exact hself hk | exact hother hk
    · rw [dirtyAt_scheduleLocked]
      split_ifs with hk <;> first | exact hself hk | exact hother hk

def KeepsDirty (q : CoalescedQueue) (log : List WorkEvent) : Prop :=
  q.closed=false → ∀key,0<key → Owed key log → dirtyAt q key=true

theorem keepsWork_of (hsound : Sound q) (h : KeepsDirty q log) : KeepsWork q log := by
  intro hopen key hkey howed
  obtain ⟨state,hstate,hdirty⟩ := (Option.any_eq_true _ _).mp (h hopen key hkey howed)
  exact ⟨state,hstate,hdirty,pending_of_placed (hsound.placed hopen key) hstate⟩

theorem KeepsDirty.step (hsound : Sound q) (hroom : HasRoom config q action) (h : KeepsDirty q log) :
    KeepsDirty (workStep config q action).1 (log++(workStep config q action).2) := by
  by_cases hstop : action=.stop
  · subst hstop
    exact fun hopen => absurd hopen (by simp [workStep,stop])
  intro hopen
  rw [workStep_closed hstop] at hopen
  have hold := h hopen
  intro key hkey
  have hquiet {q'} (hstates : q'.states=q.states) :
      Owed key (log++[]) → dirtyAt q' key=true := by
    rw [append_nil,dirtyAt,hstates]
    exact hold key hkey
  cases action with
  | stop => exact absurd rfl hstop
  | tick => exact hquiet rfl
  | enqueue added =>
    simp only [workStep,owed_snoc]
    rintro (hsame | hfinished | ⟨howed,-⟩)
    · cases hsame
      exact dirtyAt_enqueue_self hroom hopen hkey
    · cases hfinished
    · exact dirtyAt_enqueue (hold key hkey howed)
  | fire timer =>
    simp only [workStep]
    split_ifs
    · rw [append_nil]
      exact fun howed => dirtyAt_makeReady (hold key hkey howed)
    · exact hquiet rfl
  | receive w =>
    simp only [workStep]
    split <;> exact hquiet rfl
  | start w =>
    simp only [workStep]
    split
    case h_1 started hw =>
      unfold startEvaluation
      split
      case h_1 state _ _ =>
        simp only [if_true,owed_snoc]
        rintro (hsame | hfinished | ⟨howed,hne⟩)
        · cases hsame
        · cases hfinished
        · have hkey' : key≠started := fun heq => hne (by rw [heq])
          rw [dirtyAt_insert rfl,if_neg hkey']
          exact hold key hkey howed
      case h_2 => exact hquiet rfl
    case h_2 => exact hquiet rfl
  | finish w failed =>
    simp only [workStep]
    split
    case h_1 finished hw =>
      simp only [owed_snoc]
      rintro (hsame | hfinished | ⟨howed,-⟩)
      · cases hsame
      · cases hfinished
        obtain ⟨state,hstate⟩ := state_of_worker (hsound.placed hopen key) hw (.inr rfl)
        exact dirtyAt_finishEvaluation hopen (.inr ⟨rfl,rfl,by rw [hstate]; rfl⟩)
      · exact dirtyAt_finishEvaluation hopen (.inl (hold key hkey howed))
    case h_2 => exact hquiet rfl
  | leave w =>
    simp only [workStep]
    split <;> exact hquiet rfl

theorem hasRoom_of_keepsWork
    (h : KeepsWork (workStep config q action).1 (log++(workStep config q action).2)) :
    HasRoom config q action := by
  cases action with
  | enqueue key =>
    intro hopen hkey hstate
    by_contra hfull
    have hskip : ¬(key≤0 ∨ q.closed=true) := by simp [hopen,hkey]
    have hdropped : workStep config q (.enqueue key)=(q,[.enqueued key]) := by
      simp only [workStep,enqueue,if_neg hskip,hstate,if_pos (not_lt.mp hfull)]
    rw [hdropped] at h
    obtain ⟨state,hsome,-⟩ := h hopen key hkey (owed_snoc.mpr (.inl rfl))
    exact absurd (hstate.symm.trans hsome) (by simp)
  | _ => trivial

theorem Sound.evaluatedOnce (h : Sound q) : EvaluatedOnce q := by
  intro w v key hw hv
  have hnot {i j : Nat} (hi : q.workers[i]?=some (.evaluating key))
      (hj : q.workers[j]?=some (.evaluating key)) : ¬i<j := by
    intro hlt
    obtain ⟨hi',hkey⟩ := List.getElem?_eq_some_iff.mp hi
    obtain ⟨hj',hkey'⟩ := List.getElem?_eq_some_iff.mp hj
    have hdup := duplicate_iff_exists_distinct_get.mpr ⟨⟨i,hi'⟩,⟨j,hj'⟩,hlt,hkey.symm,hkey'.symm⟩
    exact absurd (duplicate_iff_two_le_count.mp hdup) (not_le.mpr (lt_succ_of_le (h.alone key)))
  exact le_antisymm (not_lt.mp (hnot hv hw)) (not_lt.mp (hnot hw hv))

/-- No owed key is lost exactly where every new key finds room, and a key has one evaluation at a
time. -/
theorem queue_keeps_work_iff_room (config : CoalescedQueueConfig) (actions : List QueueAction) :
    ((∀before,before<+:actions →
        KeepsWork (run (workStep config) (newCoalescedQueue config) before).1
          (run (workStep config) (newCoalescedQueue config) before).2) ↔
      RunGuarded (workStep config) (HasRoom config) (newCoalescedQueue config) actions) ∧
    EvaluatedOnce (run (workStep config) (newCoalescedQueue config) actions).1 := by
  constructor
  · refine logged_iff_runGuarded (I := fun q log => Sound q ∧ KeepsDirty q log) ?_ ?_ ?_ ?_ actions
    · exact fun hroom h => ⟨h.1.step,h.2.step h.1 hroom⟩
    · exact fun h => keepsWork_of h.1 h.2
    · exact hasRoom_of_keepsWork
    · refine ⟨sound_new,fun _ key _ howed => ?_⟩
      obtain ⟨before,event,after,heq,-⟩ := howed
      simp at heq
  · have hguard : RunGuarded (workStep config) (fun _ _ => True) (newCoalescedQueue config) actions :=
      runGuarded_of_forall _ (fun _ _ _ => trivial) _
    exact (run_invariant (w := []) (fun q _ => Sound q) _ (fun _ h => h.step) hguard sound_new).evaluatedOnce

/-- Until the queue closes, one timer, slot or evaluation stands for each key with a state. -/
theorem open_queue_places_keys (config : CoalescedQueueConfig) (actions : List QueueAction) (key) :
    let q := (run (workStep config) (newCoalescedQueue config) actions).1
    q.closed=true ∨ Placed q key := by
  have h := run_keeps (workStep config) (fun q _ => Sound q) (·.step) (@sound_new config) actions
  exact (Bool.eq_false_or_eq_true _).imp_right (h.placed · key)

def reconnects (n : Nat) : List QueueAction := (List.range n).map (fun i => .enqueue (Int.ofNat i+1))

theorem reconnects_succ : reconnects (n+1)=reconnects n++[.enqueue (Int.ofNat n+1)] := by
  unfold reconnects
  rw [range_succ,map_append]
  rfl

theorem reconnects_fill (hn : n≤config.size) :
    (run (workStep config) (newCoalescedQueue config) (reconnects n)).1.closed=false ∧
    (run (workStep config) (newCoalescedQueue config) (reconnects n)).1.states.entries.length=n ∧
    ∀key,(n : Int)<key →
      (run (workStep config) (newCoalescedQueue config) (reconnects n)).1.states.lookup key=none := by
  induction n with
  | zero => exact ⟨rfl,rfl,fun _ _ => rfl⟩
  | succ n ih =>
    obtain ⟨hopen,hlength,hnone⟩ := ih (le_of_succ_le hn)
    rw [reconnects_succ,run_append]
    simp only [run]
    generalize (run (workStep config) (newCoalescedQueue config) (reconnects n)).1=q at hopen hlength hnone
    have hskip : ¬(Int.ofNat n+1≤0 ∨ q.closed=true) := by
      simp only [hopen,Int.ofNat_eq_natCast,Bool.false_eq_true,or_false]
      omega
    have hnew := hnone (Int.ofNat n+1) (by simp only [Int.ofNat_eq_natCast]; omega)
    have hroom : ¬config.size≤q.states.entries.length := by omega
    simp only [workStep,enqueue,if_neg hskip,hnew,if_neg hroom,scheduleLocked]
    refine ⟨hopen,?_,fun key hkey => ?_⟩
    · rw [entries_insert_of_notMem (lookup_eq_none.mp hnew),length_cons,hlength]
    · rw [lookup_insert_ne (by simp only [Int.ofNat_eq_natCast]; omega)]
      exact hnone key (by omega)

theorem fleet_overflows :
    ¬KeepsWork (run (workStep config) (newCoalescedQueue config) (reconnects (config.size+1))).1
      (run (workStep config) (newCoalescedQueue config) (reconnects (config.size+1))).2 := by
  intro h
  obtain ⟨hopen,hlength,hnone⟩ := reconnects_fill (le_rfl)
  rw [reconnects_succ,run_append] at h
  simp only [run] at h
  have hroom := hasRoom_of_keepsWork h hopen
  simp only [Int.ofNat_eq_natCast] at hroom
  have := hroom (by omega) (hnone _ (by omega))
  omega

/-- The 513th server to reconnect is dropped. -/
theorem recovery_drops_full_fleet : ¬KeepsWork
      (run (workStep recoveryDeploymentQueueConfig) (newCoalescedQueue recoveryDeploymentQueueConfig)
        (reconnects 513)).1
      (run (workStep recoveryDeploymentQueueConfig) (newCoalescedQueue recoveryDeploymentQueueConfig)
        (reconnects 513)).2 :=
  fleet_overflows

end work

end Oboard.Controller
