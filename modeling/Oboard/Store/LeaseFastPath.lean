import Oboard.Store.TrafficLease

namespace Oboard.Store

open GoText Word64 Runs List Table

structure TrafficLeaseProbe where
  userID : Int
  periodKey : String
  limitBytes : Int
  deriving DecidableEq

def TrafficLeaseProbe.valid (probe : TrafficLeaseProbe) : Bool :=
  0<probe.limitBytes && 0<probe.userID && probe.periodKey≠""

/-- Of several probes for a user the first valid one counts. -/
def probeOf (probes : List TrafficLeaseProbe) (userID : Int) : Option TrafficLeaseProbe :=
  probes.find? (fun probe => probe.valid && probe.userID=userID)

namespace Ledger

def LeaseRow.readable (row : LeaseRow) : Prop := Fits row.leaseBytes ∧ Fits row.consumedBytes

instance (row : LeaseRow) : Decidable (LeaseRow.readable row) := inferInstanceAs (Decidable (_ ∧ _))

/-- One row of the batched query. A column that is no 64-bit integer fails the whole batch. -/
def collectHealthy (probes : List TrafficLeaseProbe) (at_ : Time)
    (out : Table Int TrafficLeaseAllocation) (entry : LeaseKey×LeaseRow) :
    Except TrafficError (Table Int TrafficLeaseAllocation) :=
  if ¬LeaseRow.readable entry.2 then .error .columnNotInteger
  else match probeOf probes entry.1.userID with
    | none => .ok out
    | some probe =>
      if probe.periodKey≠entry.1.periodKey then .ok out
      else match trafficLeaseIsHealthy entry.2 probe.limitBytes at_ with
        | none => .ok out
        | some allocation => .ok (out.insert entry.1.userID allocation)

section

variable (l : Ledger) (serverID : Int) (probes : List TrafficLeaseProbe)

def probedRows : List (LeaseKey×LeaseRow) :=
  l.leases.rows.filter (fun entry => entry.1.serverID=serverID && (probeOf probes entry.1.userID).isSome)

def currentTrafficLeaseAllocations (at_ : Time) : Except TrafficError (Table Int TrafficLeaseAllocation) :=
  if serverID≤0 then .ok ∅
  else (l.probedRows serverID probes).foldlM (collectHealthy probes at_) ∅

end

section write

variable {l : Ledger} {call : EnsureCall}

variable {row : LeaseRow}

theorem healthy_spec (h : trafficLeaseIsHealthy row limit at_=some a) :
    row.state=.active ∧ a=⟨clampZero (wrap (row.leaseBytes-row.consumedBytes)),row.leaseBytes⟩ ∧
      ¬clampZero (wrap (row.leaseBytes-row.consumedBytes))<(trafficLeaseChunk limit).tdiv 2 := by
  unfold trafficLeaseIsHealthy at h
  split at h
  case h_1 expiry hstate hvalid =>
    change (if _ then none else if clampZero _<_ then none else some ⟨clampZero _,_⟩)=some a at h
    by_cases hexpiry : expiry≤at_+trafficLeaseRefreshBefore
    · simp [hexpiry] at h
    rw [if_neg hexpiry] at h
    split_ifs at h with hhalf
    exact ⟨hstate,(Option.some.inj h).symm,hhalf⟩
  case h_2 => cases h

theorem grantLease_of_healthy (h : trafficLeaseIsHealthy row limit at_=some a) :
    grantLease limit used other row=(a.resetBytes,a.remainingBytes,false) := by
  obtain ⟨-,rfl,hhalf⟩ := healthy_spec h
  unfold grantLease
  dsimp only
  rw [if_neg (fun hn => hhalf hn.1)]

theorem current_spec (h : l.currentTrafficLeaseAllocation call=some a) :
    ∃row,l.leases.lookup call.lease=some row ∧ LeaseRow.readable row ∧
      trafficLeaseIsHealthy row call.limitBytes call.sweepAt=some a := by
  unfold currentTrafficLeaseAllocation at h
  cases hrow : l.leases.lookup call.lease with
  | none => simp [hrow] at h
  | some row =>
    simp only [hrow] at h
    split_ifs at h with hread
    exact ⟨row,rfl,hread,h⟩

section

variable (l : Ledger) (call : EnsureCall)

/-- The ledger after the expiry sweep of a call, if one is due. -/
def swept : Ledger :=
  if trafficLeaseExpirySweepInterval≤call.sweepAt-call.lastSweep ∧ call.swapped then
    l.expireStaleTrafficLeases call.sweptAt else l

/-- The ledger after a call that grants nothing: the sweep that may be due, and a new validity of
the lease. -/
def renewed (row : LeaseRow) : Ledger :=
  let row := {row with validUntil := some (call.nowTime+24*hour)}
  {l.swept call with leases := (l.swept call).leases.insert call.lease row}

def Readable : Prop :=
  (∃used,l.effectiveUsed call=.ok used) ∧ ∃other,l.otherUnconsumed call=.ok other

end

/-- The sweep only moves the state of a lease, and never from or to released. -/
theorem expireLease_cases : expireLease now row=row ∨
      row.state=.active ∧ expireLease now row={row with state := .expiredUnsettled} := by
  unfold expireLease
  split
  case h_1 hstate _ =>
    split_ifs
    · exact .inr ⟨hstate,rfl⟩
    · exact .inl rfl
  case h_2 => exact .inl rfl

theorem otherUnconsumedRow_expire :
    otherUnconsumedRow call k (expireLease now row)=otherUnconsumedRow call k row := by
  rcases expireLease_cases with he | ⟨hstate,he⟩
  · rw [he]
  · rw [he]
    simp [otherUnconsumedRow,hstate]

theorem otherUnconsumed_expire (l : Ledger) (call : EnsureCall) :
    (l.expireStaleTrafficLeases now).otherUnconsumed call=l.otherUnconsumed call := by
  have hsum : Table.total (otherUnconsumedRow call) (l.expireStaleTrafficLeases now).leases=
      Table.total (otherUnconsumedRow call) l.leases :=
    total_mapRows _ _ _ (fun k row => otherUnconsumedRow_expire)
  unfold otherUnconsumed
  rw [hsum]
  simp only [expireStaleTrafficLeases,Table.mapRows,all_map,Function.comp_def,
    otherUnconsumedRow_expire,(expireLease_spec now _).1,(expireLease_spec now _).2.1]

theorem reads_swept (l : Ledger) (call : EnsureCall) :
    (l.swept call).effectiveUsed call=l.effectiveUsed call ∧
    (l.swept call).otherUnconsumed call=l.otherUnconsumed call := by
  unfold swept
  split_ifs
  · exact ⟨rfl,otherUnconsumed_expire l call⟩
  · exact ⟨rfl,rfl⟩

theorem lookup_swept (h : l.leases.lookup call.lease=some row) :
    ∃state,(l.swept call).leases.lookup call.lease=some {row with state := state} := by
  unfold swept
  split_ifs
  · rw [expireStaleTrafficLeases,lookup_mapRows,h]
    rcases expireLease_cases with he | ⟨-,he⟩
    · exact ⟨row.state,congrArg some he⟩
    · exact ⟨_,congrArg some he⟩
  · exact ⟨row.state,h⟩

/-- Where the lock-free check accepts, the write path only renews the lease, if it can read its
columns. -/
theorem ensureLeaseTx_of_healthy (h : l.currentTrafficLeaseAllocation call=some a) :
    (¬l.Readable call ∧ ∃e,l.ensureLeaseTx call=.error e) ∨
    ∃row,l.leases.lookup call.lease=some row ∧ l.ensureLeaseTx call=.ok (l.renewed call row,a) := by
  obtain ⟨row,hrow,hread,hhealthy⟩ := current_spec h
  obtain ⟨state,hswept⟩ := lookup_swept hrow
  obtain ⟨hused,hother⟩ := reads_swept l call
  have hload : (l.swept call).loadLease call=.ok {row with state := state} := by
    unfold loadLease
    rw [hswept]
    exact if_pos hread
  have hsweep : (if trafficLeaseExpirySweepInterval≤call.sweepAt-call.lastSweep ∧ call.swapped then
      l.expireStaleTrafficLeases call.sweptAt else l)=l.swept call := rfl
  unfold ensureLeaseTx
  dsimp only
  rw [hsweep,hload,hused,hother]
  cases hu : l.effectiveUsed call with
  | error e => exact .inl ⟨fun hr => by simpa [hu] using hr.1,e,rfl⟩
  | ok used =>
    cases ho : l.otherUnconsumed call with
    | error e => exact .inl ⟨fun hr => by simpa [ho] using hr.2,e,rfl⟩
    | ok other =>
      refine .inr ⟨row,hrow,?_⟩
      -- the grant reads the bytes of the row and not its state
      have hgrant : grantLease call.limitBytes used other {row with state := state}=
          (a.resetBytes,a.remainingBytes,false) := by
        rw [← grantLease_of_healthy hhealthy]
        rfl
      obtain ⟨hstate,rfl,-⟩ := healthy_spec hhealthy
      simp only [bind,Except.bind,hgrant,renewed,hstate]
      rfl

end write

section batch

variable {l : Ledger} {probes : List TrafficLeaseProbe} {at_ : Time}

/-- What a row says about a user: the allocation of a healthy lease of the probed period. -/
def probedAllocation (probes : List TrafficLeaseProbe) (at_ : Time) (userID : Int)
    (entry : LeaseKey×LeaseRow) : Option TrafficLeaseAllocation :=
  (probeOf probes userID).bind (fun probe =>
    if userID=entry.1.userID ∧ probe.periodKey=entry.1.periodKey then
      trafficLeaseIsHealthy entry.2 probe.limitBytes at_ else none)

variable {entries : List (LeaseKey×LeaseRow)}

theorem collectHealthy_ok (h : collectHealthy probes at_ out entry=.ok out') :
    out'.lookup userID=(probedAllocation probes at_ userID entry).or (out.lookup userID) := by
  unfold collectHealthy at h
  unfold probedAllocation
  split_ifs at h with hread
  by_cases hu : userID=entry.1.userID
  · subst hu
    cases hp : probeOf probes entry.1.userID with
    | none =>
      rw [hp] at h
      cases h
      rfl
    | some probe =>
      simp only [hp] at h
      rw [Option.bind_some]
      by_cases hk : probe.periodKey=entry.1.periodKey
      · rw [if_neg (not_not.mpr hk)] at h
        rw [if_pos ⟨rfl,hk⟩]
        cases ha : trafficLeaseIsHealthy entry.2 probe.limitBytes at_ with
        | none =>
          rw [ha] at h
          cases h
          rfl
        | some a =>
          rw [ha] at h
          cases h
          exact AList.lookup_insert _
      · rw [if_pos hk] at h
        cases h
        rw [if_neg (fun hn => hk hn.2),Option.none_or]
  · have hnone : (probeOf probes userID).bind (fun probe =>
        if userID=entry.1.userID ∧ probe.periodKey=entry.1.periodKey then
          trafficLeaseIsHealthy entry.2 probe.limitBytes at_ else none)=none :=
      Option.bind_eq_none_iff.mpr (fun probe _ => if_neg (fun hn => hu hn.1))
    rw [hnone,Option.none_or]
    split at h
    · cases h
      rfl
    split_ifs at h
    · cases h
      rfl
    split at h
    · cases h
      rfl
    · cases h
      exact AList.lookup_insert_ne hu

theorem foldlM_collectHealthy (h : entries.foldlM (collectHealthy probes at_) out=.ok out')
    (userID) : out'.lookup userID=
      (entries.reverse.findSome? (probedAllocation probes at_ userID)).or (out.lookup userID) := by
  induction entries generalizing out with
  | nil =>
    cases h
    rfl
  | cons entry entries ih =>
    rw [foldlM_cons] at h
    obtain ⟨mid,hmid,hrest⟩ := bind_ok h
    rw [ih hrest,collectHealthy_ok hmid,reverse_cons,findSome?_append]
    simp [Option.or_assoc]

theorem foldlM_collectHealthy_error (h : entries.foldlM (collectHealthy probes at_) out=.error e) :
    e=.columnNotInteger ∧ ∃entry∈entries,¬LeaseRow.readable entry.2 := by
  induction entries generalizing out with
  | nil => cases h
  | cons entry entries ih =>
    rw [foldlM_cons] at h
    rcases bind_error h with hone | ⟨mid,-,hrest⟩
    · unfold collectHealthy at hone
      split_ifs at hone with hread
      · split at hone
        · cases hone
        · split_ifs at hone
          split at hone <;> cases hone
      · cases hone
        exact ⟨rfl,entry,mem_cons_self,hread⟩
    · obtain ⟨he,entry',hmem,hread⟩ := ih hrest
      exact ⟨he,entry',mem_cons_of_mem _ hmem,hread⟩

theorem readable_of_foldlM (h : entries.foldlM (collectHealthy probes at_) out=.ok out') :
    ∀entry∈entries,LeaseRow.readable entry.2 := by
  induction entries generalizing out with
  | nil => simp
  | cons entry entries ih =>
    rw [foldlM_cons] at h
    obtain ⟨mid,hmid,hrest⟩ := bind_ok h
    refine forall_mem_cons.mpr ⟨?_,ih hrest⟩
    by_contra hread
    rw [collectHealthy,if_pos hread] at hmid
    cases hmid

theorem probedAllocation_iff (hserver : call.serverID=serverID)
    (hprobe : probeOf probes call.userID=some probe) (hperiod : call.periodKey=probe.periodKey)
    (hlimit : call.limitBytes=probe.limitBytes) (hat : call.sweepAt=at_)
    (hread : ∀entry∈l.probedRows serverID probes,LeaseRow.readable entry.2) (a) :
    (∃entry∈l.probedRows serverID probes,probedAllocation probes at_ call.userID entry=some a) ↔
      l.currentTrafficLeaseAllocation call=some a := by
  simp only [probedAllocation,hprobe,Option.bind_some]
  constructor
  · rintro ⟨⟨k,row⟩,hmem,ha⟩
    have hr : Fits row.leaseBytes ∧ Fits row.consumedBytes := hread _ hmem
    obtain ⟨hrows,hkey⟩ := mem_filter.mp hmem
    split_ifs at ha with hsame
    have hk : call.lease=k := by
      obtain ⟨server,user,period⟩ := k
      simp_all [EnsureCall.lease]
    unfold currentTrafficLeaseAllocation
    rw [hk,mem_rows.mp hrows]
    dsimp only
    rw [if_pos hr,hlimit,hat]
    exact ha
  · intro h
    obtain ⟨row,hrow,-,hhealthy⟩ := current_spec h
    refine ⟨(call.lease,row),mem_filter.mpr ⟨mem_rows.mpr hrow,?_⟩,?_⟩
    · simp [EnsureCall.lease,hserver,hprobe]
    · rw [if_pos ⟨rfl,hperiod.symm⟩,← hlimit,← hat]
      exact hhealthy

theorem current_batch (hpos : 0<serverID)
    (h : l.currentTrafficLeaseAllocations serverID probes at_=.ok out)
    (hserver : call.serverID=serverID) (hprobe : probeOf probes call.userID=some probe)
    (hperiod : call.periodKey=probe.periodKey) (hlimit : call.limitBytes=probe.limitBytes)
    (hat : call.sweepAt=at_) : out.lookup call.userID=l.currentTrafficLeaseAllocation call := by
  rw [currentTrafficLeaseAllocations,if_neg (by omega)] at h
  rw [foldlM_collectHealthy h,AList.lookup_empty,Option.or_none]
  have hone := probedAllocation_iff (l := l) hserver hprobe hperiod hlimit hat
    (readable_of_foldlM h)
  cases hf : (l.probedRows serverID probes).reverse.findSome?
      (probedAllocation probes at_ call.userID) with
  | some a =>
    obtain ⟨entry,hmem,ha⟩ := exists_of_findSome?_eq_some hf
    exact ((hone a).mp ⟨entry,mem_reverse.mp hmem,ha⟩).symm
  | none =>
    refine (Option.eq_none_iff_forall_ne_some.mpr (fun a ha => ?_)).symm
    obtain ⟨entry,hmem,hsome⟩ := (hone a).mpr ha
    have hnone := findSome?_eq_none_iff.mp hf entry (mem_reverse.mpr hmem)
    rw [hsome] at hnone
    cases hnone

end batch

/-- Where the lock-free check accepts, the write path only renews the lease, beside a due sweep. The
batched check answers like the single-row one. -/
theorem fast_path_agrees (l : Ledger) : (∀call a,l.currentTrafficLeaseAllocation call=some a →
      (¬l.Readable call ∧ ∃e,l.ensureLeaseTx call=.error e) ∨
      ∃row,l.leases.lookup call.lease=some row ∧ l.ensureLeaseTx call=.ok (l.renewed call row,a)) ∧
    ∀serverID probes at_,0<serverID →
      ((∃entry∈l.probedRows serverID probes,¬LeaseRow.readable entry.2) ∧
        l.currentTrafficLeaseAllocations serverID probes at_=.error .columnNotInteger) ∨
      ∃out,l.currentTrafficLeaseAllocations serverID probes at_=.ok out ∧
        ∀(call : EnsureCall) probe,call.serverID=serverID → call.sweepAt=at_ →
          probeOf probes call.userID=some probe → call.periodKey=probe.periodKey →
          call.limitBytes=probe.limitBytes →
          out.lookup call.userID=l.currentTrafficLeaseAllocation call := by
  refine ⟨fun call a h => ensureLeaseTx_of_healthy h,fun serverID probes at_ hpos => ?_⟩
  cases h : l.currentTrafficLeaseAllocations serverID probes at_ with
  | error e =>
    rw [currentTrafficLeaseAllocations,if_neg (by omega)] at h
    obtain ⟨rfl,hunreadable⟩ := foldlM_collectHealthy_error h
    exact .inl ⟨hunreadable,rfl⟩
  | ok out =>
    refine .inr ⟨out,rfl,fun call probe hserver hat hprobe hperiod hlimit => ?_⟩
    exact current_batch hpos h hserver hprobe hperiod hlimit hat

def leased (other : LeaseRow) : Ledger :=
  {oneUser with
    servers := [1,2]
    leases := (AList.insert ⟨2,1,"2025-01"⟩ other ∅).insert ⟨1,1,"2025-01"⟩
      ⟨80,0,1,.active,some (20*hour)⟩}

def oversized (l : Ledger) : Ledger :=
  {l with leases := l.leases.insert ⟨1,1,"2024-12"⟩ ⟨2^63,0,1,.active,none⟩}

def minuteCall : EnsureCall :=
  ⟨1,1,"2025-01",100,0,60*second,0,true,60*second,60*second,⟨by decide,by decide⟩⟩

/-- The healthy lease is answered as in the write path, by both checks. -/
theorem fast_path_agrees_leased : let l := leased ⟨10,0,1,.active,some (20*hour)⟩
    l.currentTrafficLeaseAllocation minuteCall=some ⟨80,80⟩ ∧
    (∃row,l.leases.lookup minuteCall.lease=some row ∧ l.ensureLeaseTx minuteCall=.ok
      (l.renewed minuteCall row,⟨80,80⟩)) ∧
    ∃out,l.currentTrafficLeaseAllocations 1 [⟨1,"2025-01",100⟩] (60*second)=.ok out ∧
      out.lookup 1=some ⟨80,80⟩ := by
  intro l
  have hcurrent : l.currentTrafficLeaseAllocation minuteCall=some ⟨80,80⟩ := by decide +kernel
  obtain ⟨hwrite,hbatch⟩ := fast_path_agrees l
  refine ⟨hcurrent,(hwrite _ _ hcurrent).resolve_left (fun hn => hn.1 ?_),?_⟩
  · exact ⟨⟨0,by decide +kernel⟩,10,by decide +kernel⟩
  rcases hbatch 1 [⟨1,"2025-01",100⟩] (60*second) (by decide) with ⟨hunread,-⟩ | ⟨out,hout,hall⟩
  · exact absurd hunread (by decide +kernel)
  · exact ⟨out,hout,(hall minuteCall ⟨1,"2025-01",100⟩ rfl rfl (by decide) rfl rfl).trans hcurrent⟩

/-- A due sweep expires the lease of server 2, and a lease beyond 64 bits stops the write path or the
batch. -/
theorem fast_path_sweep_and_overflow : let expired := leased ⟨10,0,1,.active,some 0⟩
    let huge := leased ⟨2^63,0,1,.active,some (20*hour)⟩
    (expired.currentTrafficLeaseAllocation minuteCall=some ⟨80,80⟩ ∧
      (expired.leases.lookup ⟨2,1,"2025-01"⟩).map LeaseRow.state=some .active ∧
      (expired.ensureLeaseTx minuteCall).toOption.bind (fun r =>
        (r.1.leases.lookup ⟨2,1,"2025-01"⟩).map LeaseRow.state)=some .expiredUnsettled) ∧
    (huge.currentTrafficLeaseAllocation minuteCall=some ⟨80,80⟩ ∧
      (huge.ensureLeaseTx minuteCall).toOption.isNone) ∧
    (oversized expired).currentTrafficLeaseAllocation minuteCall=some ⟨80,80⟩ ∧
      ((oversized expired).currentTrafficLeaseAllocations 1 [⟨1,"2025-01",100⟩]
        (60*second)).toOption.isNone := by
  decide +kernel

end Ledger

end Oboard.Store
