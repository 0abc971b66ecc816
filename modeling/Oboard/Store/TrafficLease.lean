import Oboard.Store.TrafficBilling

namespace Oboard.Store

open GoText Word64 Runs Table Except

structure TrafficLeaseAllocation where
  remainingBytes : Int
  resetBytes : Int
  deriving DecidableEq

def trafficLeaseChunk (limitBytes : Int) : Int :=
  let chunk := limitBytes.tdiv 10
  let chunk := if chunk<64*2^20 then 64*2^20 else chunk
  let chunk := if 2*2^30<chunk then 2*2^30 else chunk
  if limitBytes<chunk then limitBytes else chunk

def trafficLeaseExpirySweepInterval : Time := 30*second
def trafficLeaseRefreshBefore : Time := 12*hour

/-- A lease the write path would not change. -/
def trafficLeaseIsHealthy (row : LeaseRow) (limitBytes : Int) (at' : Time) :
    Option TrafficLeaseAllocation :=
  match row.state,row.validUntil with
  | .active,some expiry =>
    let remaining := wrap (row.leaseBytes-row.consumedBytes)
    let remaining := if remaining<0 then 0 else remaining
    if expiry≤at'+trafficLeaseRefreshBefore then none
    else if remaining<(trafficLeaseChunk limitBytes).tdiv 2 then none
    else some ⟨remaining,row.leaseBytes⟩
  | _,_ => none

/-- The arguments of one allocation call and the clock readings it makes. The last sweep
and the outcome of its swap come from a process-wide counter. -/
structure EnsureCall where
  serverID : Int
  userID : Int
  periodKey : String
  limitBytes : Int
  usedBytes : Int
  sweepAt : Time
  lastSweep : Time
  swapped : Bool
  sweptAt : Time
  nowTime : Time
  int64 : Fits limitBytes ∧ Fits usedBytes

def EnsureCall.lease (call : EnsureCall) : LeaseKey := ⟨call.serverID,call.userID,call.periodKey⟩

def EnsureCall.period (call : EnsureCall) : PeriodKey := ⟨call.userID,call.periodKey⟩

namespace Ledger

def expireLease (now : Time) (row : LeaseRow) : LeaseRow :=
  match row.state,row.validUntil with
  | .active,some expiry =>
    if formatRFC3339Nano expiry<formatRFC3339Nano now then {row with state := .expiredUnsettled}
    else row
  | _,_ => row

def expireStaleTrafficLeases (l : Ledger) (now : Time) : Ledger :=
  {l with leases := l.leases.mapRows (fun _ row => expireLease now row)}

/-- The open reservations of the other servers, as the summing query counts one row. -/
def otherUnconsumedRow (call : EnsureCall) (k : LeaseKey) (row : LeaseRow) : Int :=
  if k.serverID≠call.serverID ∧ k.userID=call.userID ∧ k.periodKey=call.periodKey ∧
      row.state≠.released ∧ row.consumedBytes<row.leaseBytes then
    row.leaseBytes-row.consumedBytes else 0

def otherRow (call : EnsureCall) (k : LeaseKey) : Bool :=
  k.serverID≠call.serverID && k.userID=call.userID && k.periodKey=call.periodKey

-- A column or difference outside 64 bits makes the sum a real, which no integer reads.
def otherUnconsumed (l : Ledger) (call : EnsureCall) : Except TrafficError Int :=
  let sum := Table.total (otherUnconsumedRow call) l.leases
  if (l.leases.entries.all (fun e => !otherRow call e.1 ||
      (Fits e.2.leaseBytes ∧ Fits e.2.consumedBytes ∧ Fits (otherUnconsumedRow call e.1 e.2)))) ∧
      Fits sum then .ok sum
  else .error .columnNotInteger

/-- The durable usage of the period when it is above the usage the caller saw. -/
def effectiveUsed (l : Ledger) (call : EnsureCall) : Except TrafficError Int :=
  match l.periods.lookup call.period with
  | none => .ok call.usedBytes
  | some row =>
    if Fits row.uploadBytes ∧ Fits row.downloadBytes ∧ Fits (row.uploadBytes+row.downloadBytes) then
      .ok (max (row.uploadBytes+row.downloadBytes) call.usedBytes)
    else .error .columnNotInteger

def clampZero (n : Int) : Int := if n<0 then 0 else n

/-- Lease bytes, remaining bytes and whether they grew, from the row and the free quota. -/
def grantLease (limitBytes usedBytes otherUnconsumed : Int) (row : LeaseRow) : Int×Int×Bool :=
  let currentRemaining := clampZero (wrap (row.leaseBytes-row.consumedBytes))
  let globalRemaining := clampZero (wrap (limitBytes-usedBytes))
  let available := clampZero (wrap (wrap (globalRemaining-otherUnconsumed)-currentRemaining))
  let chunk := trafficLeaseChunk limitBytes
  if currentRemaining<chunk.tdiv 2 ∧ 0<available then
    let grant := wrap (chunk-currentRemaining)
    let grant := if available<grant then available else grant
    let currentLease := if row.leaseBytes<row.consumedBytes then row.consumedBytes
      else row.leaseBytes
    (wrap (currentLease+grant),wrap (currentRemaining+grant),true)
  else (row.leaseBytes,currentRemaining,false)

section

variable (l : Ledger) (call : EnsureCall)

def loadLease : Except TrafficError LeaseRow :=
  match l.leases.lookup call.lease with
  | some row =>
    if Fits row.leaseBytes ∧ Fits row.consumedBytes then .ok row else .error .columnNotInteger
  | none =>
    if call.serverID∉l.servers ∨ call.userID∉l.users then .error .constraintFailed
    else .ok ⟨0,0,1,.active,some (call.nowTime+24*hour)⟩

def ensureLeaseTx : Except TrafficError (Ledger×TrafficLeaseAllocation) := do
  let l := if trafficLeaseExpirySweepInterval≤call.sweepAt-call.lastSweep ∧ call.swapped then
    l.expireStaleTrafficLeases call.sweptAt else l
  let row ← l.loadLease call
  let used ← l.effectiveUsed call
  let other ← l.otherUnconsumed call
  let (lease,remaining,grown) := grantLease call.limitBytes used other row
  let revision := if grown then sqlAdd row.leaseRevision 1 else row.leaseRevision
  let policy := if grown then l.policyRevision+1 else l.policyRevision
  let row := ⟨lease,row.consumedBytes,revision,.active,some (call.nowTime+24*hour)⟩
  return ({l with leases := l.leases.insert call.lease row,policyRevision := policy},
    ⟨remaining,lease⟩)

/-- The lock-free check. A row it cannot read counts as unhealthy. -/
def currentTrafficLeaseAllocation : Option TrafficLeaseAllocation :=
  match l.leases.lookup call.lease with
  | none => none
  | some row =>
    if Fits row.leaseBytes ∧ Fits row.consumedBytes then
      trafficLeaseIsHealthy row call.limitBytes call.sweepAt
    else none

def ensureTrafficLeaseAllocation : Except TrafficError (Ledger×TrafficLeaseAllocation) :=
  if call.limitBytes≤0 ∨ call.serverID≤0 ∨ call.userID≤0 ∨ call.periodKey="" then .ok (l,⟨0,0⟩)
  else
    match l.currentTrafficLeaseAllocation call with
    | some allocation => .ok (l,allocation)
    | none => l.ensureLeaseTx call

end

inductive LeaseEvent where
  | commit (batch : TrafficLedgerCommit)
  | ensure (call : EnsureCall)
  | ensureTx (call : EnsureCall)
  | sweep (now : Time)

/-- One step of an interleaving. The transaction of an allocation call may also run in a
later ledger than the one its lock-free check missed in. -/
def leaseStep (l : Ledger) : LeaseEvent → Ledger×List (Int×TrafficReport)
  | .commit batch => l.commitStep batch
  | .ensure call =>
    match l.ensureTrafficLeaseAllocation call with
    | .error _ => (l,[])
    | .ok (l',_) => (l',[])
  | .ensureTx call =>
    match l.ensureLeaseTx call with
    | .error _ => (l,[])
    | .ok (l',_) => (l',[])
  | .sweep now => (l.expireStaleTrafficLeases now,[])

def inPeriod (k : PeriodKey) (lease : LeaseKey) : Prop :=
  lease.userID=k.userID ∧ lease.periodKey=k.periodKey

instance (k : PeriodKey) (lease : LeaseKey) : Decidable (inPeriod k lease) :=
  inferInstanceAs (Decidable (_ ∧ _))

theorem inPeriod_iff : inPeriod k lease ↔ k=⟨lease.userID,lease.periodKey⟩ := by
  obtain ⟨u,p⟩ := k
  simp only [inPeriod,PeriodKey.mk.injEq]
  tauto

def usedBytes (l : Ledger) (k : PeriodKey) : Int := (l.periodTotals k).1+(l.periodTotals k).2

def leaseBytes (l : Ledger) (lease : LeaseKey) : Int :=
  (l.leases.lookup lease).elim 0 LeaseRow.leaseBytes

def openRow (k : PeriodKey) (lease : LeaseKey) (row : LeaseRow) : Int :=
  if inPeriod k lease then max 0 (row.leaseBytes-row.consumedBytes) else 0

/-- The unconsumed part of all leases of a user's period, over all servers. -/
def openBytes (l : Ledger) (k : PeriodKey) : Int := Table.total (openRow k) l.leases

theorem clampZero_eq : clampZero n=max 0 n := by
  unfold clampZero
  split_ifs <;> omega

variable {limit used remaining server : Int} {row : LeaseRow} {lease : LeaseKey} {l l' : Ledger} {k : PeriodKey} {report : TrafficReport}
  {call : EnsureCall} {a : TrafficLeaseAllocation}

theorem trafficLeaseChunk_le (h : 0<limit) :
    0<trafficLeaseChunk limit ∧ trafficLeaseChunk limit≤limit := by
  unfold trafficLeaseChunk
  dsimp only
  split_ifs <;> omega

/-- The arithmetic of one allocation when the row, the other reservations and the usage
together are within the limit's range. -/
theorem grantLease_spec (hl : 0<limit) (hf : Fits limit) (hu0 : 0≤used) (huf : Fits used)
    (ho : 0≤other) (he : 0≤row.leaseBytes) (hel : row.leaseBytes≤limit) (hc : 0≤row.consumedBytes)
    (hcu : row.consumedBytes≤used) (hr : other+max 0 (row.leaseBytes-row.consumedBytes)≤limit)
    {lease : Int} (h : grantLease limit used other row=(lease,remaining,grown)) :
    (grown=false ∧ lease=row.leaseBytes) ∨
    (grown=true ∧ row.leaseBytes<lease ∧ lease≤limit ∧ row.consumedBytes≤lease ∧
      used+other+(lease-row.consumedBytes)≤limit) := by
  obtain ⟨hfl,hfu⟩ := hf
  obtain ⟨hul,huu⟩ := huf
  have h1 : wrap (row.leaseBytes-row.consumedBytes)=row.leaseBytes-row.consumedBytes :=
    wrap_of_fits ⟨by omega,by omega⟩
  have h2 : wrap (limit-used)=limit-used := wrap_of_fits ⟨by omega,by omega⟩
  have h3 : wrap (max 0 (limit-used)-other)=max 0 (limit-used)-other :=
    wrap_of_fits ⟨by omega,by omega⟩
  have h4 : wrap (max 0 (limit-used)-other-max 0 (row.leaseBytes-row.consumedBytes))=
      max 0 (limit-used)-other-max 0 (row.leaseBytes-row.consumedBytes) :=
    wrap_of_fits ⟨by omega,by omega⟩
  obtain ⟨hchunk0,hchunk⟩ := trafficLeaseChunk_le hl
  have h5 : wrap (trafficLeaseChunk limit-max 0 (row.leaseBytes-row.consumedBytes))=
      trafficLeaseChunk limit-max 0 (row.leaseBytes-row.consumedBytes) :=
    wrap_of_fits ⟨by omega,by omega⟩
  have hhalf : (trafficLeaseChunk limit).tdiv 2<trafficLeaseChunk limit := by
    rw [Int.tdiv_eq_ediv_of_nonneg (by omega)]
    omega
  unfold grantLease at h
  simp only [clampZero_eq,h1,h2,h3,h4] at h
  split_ifs at h with hgrow hsmall hover
  all_goals obtain ⟨rfl,-,rfl⟩ := h
  iterate 4
    · rw [wrap_of_fits ⟨by omega,by omega⟩]
      exact .inr ⟨rfl,by omega,by omega,by omega,by omega⟩
  · exact .inl ⟨rfl,rfl⟩

/-- What holds of the leases of one user's period along every interleaving. Once the usage
columns leave the 64-bit range, no allocation can read them any more. -/
structure LeaseInv (l : Ledger) (k : PeriodKey) (limit : Int) : Prop where
  checkpoint : ∀stream,(0,0)≤l.checkpoint stream
  totals : (0,0)≤l.periodTotals k
  rows : ∀lease row,inPeriod k lease → l.leases.lookup lease=some row →
    0≤row.leaseBytes ∧ row.leaseBytes≤limit ∧ row.state≠.released
  consumed : l.usedBytes k<2^63 → ∀lease row,inPeriod k lease → l.leases.lookup lease=some row →
    0≤row.consumedBytes ∧ row.consumedBytes≤l.usedBytes k
  reserved : l.usedBytes k<2^63 → l.openBytes k≤limit

/-- Nothing is reserved yet and no counter is negative. -/
structure LeaseStart (l : Ledger) (k : PeriodKey) : Prop where
  leases : l.leases=∅
  checkpoint : ∀stream,(0,0)≤l.checkpoint stream
  totals : (0,0)≤l.periodTotals k

theorem LeaseStart.inv (h : LeaseStart l k) (hl : 0<limit) : LeaseInv l k limit := by
  refine ⟨h.checkpoint,h.totals,?_,?_,?_⟩
  · intro lease row _ hrow
    simp [h.leases] at hrow
  · intro _ lease row _ hrow
    simp [h.leases] at hrow
  · intro _
    simp only [openBytes,h.leases]
    exact hl.le

theorem openRow_nonneg (k) (lease) (row) : 0≤openRow k lease row := by
  unfold openRow
  split_ifs
  · exact le_max_left _ _
  · exact le_rfl

theorem openBytes_insert (l : Ledger) (k : PeriodKey) (lease : LeaseKey) (row : LeaseRow) :
    openBytes {l with leases := l.leases.insert lease row} k=
      l.openBytes k-(l.leases.lookup lease).elim 0 (openRow k lease)+openRow k lease row :=
  total_insert ..

theorem openBytes_insert_other (row : LeaseRow) (h : ¬inPeriod k lease) :
    openBytes {l with leases := l.leases.insert lease row} k=l.openBytes k := by
  rw [openBytes_insert]
  unfold openRow
  cases l.leases.lookup lease <;> simp [h]

theorem LeaseInv.quiet (h : LeaseInv l k limit)
    (hq : Quiet l l' stream u) : LeaseInv l' k limit := by
  have hu : l'.usedBytes k=l.usedBytes k := by rw [usedBytes,hq.totals]; rfl
  have ho : l'.openBytes k=l.openBytes k := by rw [openBytes,hq.leases]; rfl
  refine ⟨fun s => le_trans (h.checkpoint s) (hq.checkpoint_le h.checkpoint s),
    hq.totals ▸ h.totals,hq.leases ▸ h.rows,?_,?_⟩
  · rw [hu,hq.leases]
    exact h.consumed
  · rw [hu,ho]
    exact h.reserved

theorem consume_row (l : Ledger) (lease : LeaseKey) (h : Fits bytes) :
    ∃row,(l.consume lease bytes).leases=l.leases.insert lease row ∧
      row.leaseBytes=l.leaseBytes lease ∧ row.consumedBytes=sqlAdd (l.consumed lease) bytes ∧
      (row.state=.active ∨ ∃old,l.leases.lookup lease=some old ∧ row.state=old.state) := by
  unfold consume leaseBytes Ledger.consumed
  cases hrow : l.leases.lookup lease with
  | none => exact ⟨_,rfl,rfl,(sqlAdd_zero_left h).symm,.inl rfl⟩
  | some row => exact ⟨_,rfl,rfl,rfl,.inr ⟨row,rfl,rfl⟩⟩

section

variable (hc : ∀stream,(0,0)≤l.checkpoint stream) (ht : (0,0)≤l.periodTotals k)
  (hr : Resolved period report) (hb : Billed l l' server report period)
include hc ht hr hb

/-- The effect of an accepted report on one period, as long as the usage stays an integer. -/
theorem Billed.usage (hk : k=⟨report.userID,report.periodKey⟩) :
    let bytes := report.toUploadBytes-report.fromUploadBytes+
      (report.toDownloadBytes-report.fromDownloadBytes)
    l'.usedBytes k<2^63 ∨ l.usedBytes k+bytes<2^63 →
    0<bytes ∧ l'.usedBytes k=l.usedBytes k+bytes ∧
    wrap (uploadDelta report+downloadDelta report)=bytes := by
  intro bytes hu
  obtain ⟨⟨hu0,hup⟩,hd0,hdown⟩ := hb.counters hc
  obtain ⟨hud,hdd⟩ := hb.deltas hc
  have hmoved : ¬(report.toUploadBytes≤report.fromUploadBytes ∧
    report.toDownloadBytes≤report.fromDownloadBytes) := hb.moved
  obtain ⟨htu,htd⟩ := ht
  have htotal := hb.totals hr k
  rw [if_pos hk,hud,hdd] at htotal
  simp only [usedBytes,htotal] at hu htu htd ⊢
  have hup : 0≤report.toUploadBytes-report.fromUploadBytes := by omega
  have hdown : 0≤report.toDownloadBytes-report.fromDownloadBytes := by omega
  have heu := sqlAdd_cases htu hup
  have hed := sqlAdd_cases htd hdown
  rw [hud,hdd]
  refine ⟨by omega,by omega,wrap_of_fits ⟨by omega,by omega⟩⟩

theorem Billed.totals_nonneg : (0,0)≤l'.periodTotals k := by
  obtain ⟨⟨-,hup⟩,-,hdown⟩ := hb.counters hc
  rw [hb.totals hr]
  split_ifs
  · rw [(hb.deltas hc).1,(hb.deltas hc).2]
    exact ⟨sqlAdd_nonneg ht.1 (by omega),sqlAdd_nonneg ht.2 (by omega)⟩
  · exact ht

end

theorem LeaseInv.bounds (h : LeaseInv l k limit) (hl : 0<limit) (hk : inPeriod k lease) :
    0≤l.leaseBytes lease ∧ l.leaseBytes lease≤limit ∧
    (l.usedBytes k<2^63 → 0≤l.consumed lease ∧ l.consumed lease≤l.usedBytes k) := by
  cases hrow : l.leases.lookup lease with
  | none =>
    simp only [leaseBytes,Ledger.consumed,hrow]
    exact ⟨le_rfl,hl.le,fun _ => ⟨le_rfl,add_nonneg h.totals.1 h.totals.2⟩⟩
  | some row =>
    obtain ⟨h1,h2,-⟩ := h.rows lease row hk hrow
    simp only [leaseBytes,Ledger.consumed,hrow]
    exact ⟨h1,h2,fun hu => h.consumed hu lease row hk hrow⟩

theorem openRow_lookup (l : Ledger) (k : PeriodKey) (lease : LeaseKey) (hk : inPeriod k lease) :
    (l.leases.lookup lease).elim 0 (openRow k lease)=
      max 0 (l.leaseBytes lease-l.consumed lease) := by
  unfold openRow leaseBytes consumed
  cases l.leases.lookup lease with
  | none => simp
  | some row => simp [hk]

section

variable (hl : 0<limit) (h : LeaseInv l k limit) (hr : Resolved period report)
  (hb : Billed l l' server report period)
include hl h hr hb

theorem Billed.leaseRow (hlease : lease=⟨server,report.userID,report.periodKey⟩) :
    ∃row,l'.leases=l.leases.insert lease row ∧ row.leaseBytes=l.leaseBytes lease ∧
      (row.state=.active ∨ ∃old,l.leases.lookup lease=some old ∧ row.state=old.state) ∧
      (inPeriod k lease → l'.usedBytes k<2^63 →
        row.consumedBytes=l.consumed lease+(l'.usedBytes k-l.usedBytes k)) := by
  obtain ⟨row,hrow,hle,hco,hstate⟩ := consume_row l lease
    (fits_wrap (uploadDelta report+downloadDelta report))
  refine ⟨row,by rw [hb.leases,← hlease,hrow],hle,hstate,fun hin hu => ?_⟩
  have hk := inPeriod_iff.mp hin
  rw [hlease] at hk
  obtain ⟨hpos,hused,hwrap⟩ := hb.usage h.checkpoint h.totals hr hk (.inl hu)
  obtain ⟨-,-,hbound⟩ := h.bounds hl hin
  rw [hco,sqlAdd_of_fits ⟨by omega,by omega⟩ ⟨by omega,by omega⟩ ⟨by omega,by omega⟩]
  omega

theorem Billed.openBytes (hk : k=⟨report.userID,report.periodKey⟩) (hu : l'.usedBytes k<2^63) :
    let lease : LeaseKey := ⟨server,report.userID,report.periodKey⟩
    let bytes := l'.usedBytes k-l.usedBytes k
    l'.openBytes k=l.openBytes k-max 0 (l.leaseBytes lease-l.consumed lease)+
      max 0 (l.leaseBytes lease-(l.consumed lease+bytes)) := by
  intro lease bytes
  have hin : inPeriod k lease := by rw [hk]; exact ⟨rfl,rfl⟩
  obtain ⟨row,hleases,hle,-,hco⟩ := hb.leaseRow hl h hr (show lease=_ from rfl)
  rw [Ledger.openBytes,hleases]
  change Ledger.openBytes {l with leases := l.leases.insert lease row} k=_
  rw [openBytes_insert,openRow_lookup l k lease hin,openRow,if_pos hin,hle,hco hin hu]

end

theorem Billed.other (hr : Resolved period report) (hb : Billed l l' server report period)
    (hk : k≠⟨report.userID,report.periodKey⟩) :
    l'.usedBytes k=l.usedBytes k ∧ l'.openBytes k=l.openBytes k := by
  obtain ⟨row,hrow,-⟩ := consume_row l ⟨server,report.userID,report.periodKey⟩
    (fits_wrap (uploadDelta report+downloadDelta report))
  constructor
  · rw [usedBytes,hb.totals hr,if_neg hk]
    rfl
  · rw [Ledger.openBytes,hb.leases,hrow]
    exact openBytes_insert_other row (fun hin => hk (inPeriod_iff.mp hin))

theorem LeaseInv.bill (hl : 0<limit) (h : LeaseInv l k limit) (hr : Resolved period report)
    (hb : Billed l l' server report period) : LeaseInv l' k limit := by
  let lease : LeaseKey := ⟨server,report.userID,report.periodKey⟩
  obtain ⟨row,hleases,hle,hstate,hco⟩ := hb.leaseRow hl h hr (show lease=_ from rfl)
  have hcases : ∀lease' row',l'.leases.lookup lease'=some row' →
      (lease'=lease ∧ row'=row) ∨ l.leases.lookup lease'=some row' :=
    fun _ _ hrow' => lookup_insert_cases (hleases ▸ hrow')
  refine ⟨fun s => le_trans (h.checkpoint s) (hb.checkpoint_le h.checkpoint s),
    hb.totals_nonneg h.checkpoint h.totals hr,?_,?_,?_⟩
  · intro lease' row' hin hrow'
    rcases hcases lease' row' hrow' with ⟨rfl,rfl⟩ | hold
    · obtain ⟨h1,h2,-⟩ := h.bounds hl hin
      rw [hle]
      refine ⟨h1,h2,?_⟩
      rcases hstate with hs | ⟨old,hold,hs⟩
      · rw [hs]
        decide
      · rw [hs]
        exact (h.rows lease old hin hold).2.2
    · exact h.rows lease' row' hin hold
  · intro hu lease' row' hin hrow'
    have hgrow : l.usedBytes k≤l'.usedBytes k := by
      by_cases hk : k=⟨report.userID,report.periodKey⟩
      · obtain ⟨hpos,hused,-⟩ := hb.usage h.checkpoint h.totals hr hk (.inl hu)
        omega
      · exact (hb.other hr hk).1.ge
    rcases hcases lease' row' hrow' with ⟨rfl,rfl⟩ | hold
    · obtain ⟨-,-,hbound⟩ := h.bounds hl hin
      rw [hco hin hu]
      omega
    · obtain ⟨hc0,hcu⟩ := h.consumed (by omega) lease' row' hin hold
      omega
  · intro hu
    by_cases hk : k=⟨report.userID,report.periodKey⟩
    · obtain ⟨hpos,hused,-⟩ := hb.usage h.checkpoint h.totals hr hk (.inl hu)
      have hopen := hb.openBytes hl h hr hk hu
      have := h.reserved (by omega)
      omega
    · obtain ⟨hused,hopen⟩ := hb.other hr hk
      exact hopen ▸ h.reserved (hused ▸ hu)

theorem expireLease_spec (now) (row) : (expireLease now row).leaseBytes=row.leaseBytes ∧
    (expireLease now row).consumedBytes=row.consumedBytes ∧
    (row.state≠.released → (expireLease now row).state≠.released) := by
  unfold expireLease
  split
  · split_ifs <;> simp
  · simp

theorem openBytes_sweep (l : Ledger) (k : PeriodKey) :
    (l.expireStaleTrafficLeases now).openBytes k=l.openBytes k := by
  apply total_mapRows
  intro lease row
  obtain ⟨h1,h2,-⟩ := expireLease_spec now row
  rw [openRow,openRow,h1,h2]

theorem leaseBytes_sweep (l : Ledger) (lease : LeaseKey) :
    (l.expireStaleTrafficLeases now).leaseBytes lease=l.leaseBytes lease := by
  unfold leaseBytes expireStaleTrafficLeases
  rw [lookup_mapRows]
  cases l.leases.lookup lease with
  | none => rfl
  | some row => exact (expireLease_spec now row).1

theorem LeaseInv.sweep (h : LeaseInv l k limit) (now) :
    LeaseInv (l.expireStaleTrafficLeases now) k limit := by
  have hrows : ∀lease row',(l.expireStaleTrafficLeases now).leases.lookup lease=some row' →
      ∃row,l.leases.lookup lease=some row ∧ expireLease now row=row' := by
    intro lease row' hrow
    rw [expireStaleTrafficLeases,lookup_mapRows] at hrow
    exact Option.map_eq_some_iff.mp hrow
  refine ⟨h.checkpoint,h.totals,?_,?_,fun hu => openBytes_sweep l k ▸ h.reserved hu⟩
  · intro lease row' hin hrow
    obtain ⟨row,hold,rfl⟩ := hrows lease row' hrow
    obtain ⟨h1,-,h3⟩ := expireLease_spec now row
    obtain ⟨hr1,hr2,hr3⟩ := h.rows lease row hin hold
    exact ⟨h1 ▸ hr1,h1 ▸ hr2,h3 hr3⟩
  · intro hu lease row' hin hrow
    obtain ⟨row,hold,rfl⟩ := hrows lease row' hrow
    rw [(expireLease_spec now row).2.1]
    exact h.consumed hu lease row hin hold

/-- The row an allocation works on, the stored one or a new empty one. -/
structure LoadedRow (l : Ledger) (lease : LeaseKey) (row : LeaseRow) : Prop where
  leaseBytes : row.leaseBytes=l.leaseBytes lease
  consumedBytes : row.consumedBytes=l.consumed lease

theorem ensureLeaseTx_cases (h : l.ensureLeaseTx call=.ok (l',a)) :
    ∃l1 row used other lease remaining grown new,
      (l1=l ∨ l1=l.expireStaleTrafficLeases call.sweptAt) ∧ LoadedRow l1 call.lease row ∧
      l1.effectiveUsed call=.ok used ∧ l1.otherUnconsumed call=.ok other ∧
      grantLease call.limitBytes used other row=(lease,remaining,grown) ∧
      l'={l1 with leases := l1.leases.insert call.lease new,policyRevision := l'.policyRevision} ∧
      new.leaseBytes=lease ∧ new.consumedBytes=row.consumedBytes ∧ new.state=.active := by
  unfold ensureLeaseTx at h
  generalize hl1 : (if trafficLeaseExpirySweepInterval≤call.sweepAt-call.lastSweep ∧ call.swapped
    then l.expireStaleTrafficLeases call.sweptAt else l)=l1 at h
  have hl1' : l1=l ∨ l1=l.expireStaleTrafficLeases call.sweptAt := by
    rw [← hl1]
    split_ifs
    · exact .inr rfl
    · exact .inl rfl
  obtain ⟨row,hrow,h⟩ := bind_ok h
  have hload : LoadedRow l1 call.lease row := by
    unfold loadLease at hrow
    cases hlook : l1.leases.lookup call.lease with
    | none =>
      simp only [hlook] at hrow
      split_ifs at hrow
      obtain rfl := ok.inj hrow
      constructor <;> simp [leaseBytes,consumed,hlook]
    | some old =>
      simp only [hlook] at hrow
      split_ifs at hrow
      obtain rfl := ok.inj hrow
      constructor <;> simp [leaseBytes,consumed,hlook]
  obtain ⟨used,hused,h⟩ := bind_ok h
  obtain ⟨other,hother,h⟩ := bind_ok h
  obtain ⟨rfl,-⟩ := Prod.mk.inj (ok.inj h)
  exact ⟨l1,row,used,other,_,_,_,_,hl1',hload,hused,hother,rfl,rfl,rfl,rfl,rfl⟩

theorem effectiveUsed_spec (h : l.effectiveUsed call=.ok used)
    (ht : (0,0)≤l.periodTotals call.period)
    (hcall : 0≤call.usedBytes ∨ ∃row,l.periods.lookup call.period=some row) :
    l.usedBytes call.period≤used ∧ 0≤l.usedBytes call.period ∧ Fits used := by
  have hn : 0≤l.usedBytes call.period := add_nonneg ht.1 ht.2
  obtain ⟨hf1,hf2⟩ := call.int64.2
  unfold effectiveUsed at h
  cases hrow : l.periods.lookup call.period with
  | none =>
    rw [hrow] at h
    obtain rfl := ok.inj h
    have h0 : l.usedBytes call.period=0 := by simp [usedBytes,periodTotals,hrow]
    rcases hcall with hc | ⟨row,hc⟩
    · exact ⟨by omega,hn,hf1,hf2⟩
    · simp [hrow] at hc
  | some row =>
    simp only [hrow] at h
    split_ifs at h with hfits
    obtain rfl := ok.inj h
    have h0 : l.usedBytes call.period=row.uploadBytes+row.downloadBytes := by
      simp [usedBytes,periodTotals,hrow]
    obtain ⟨-,-,hs1,hs2⟩ := hfits
    exact ⟨by omega,hn,by omega,by omega⟩

theorem inPeriod_period (call : EnsureCall) : inPeriod call.period call.lease := ⟨rfl,rfl⟩

theorem otherUnconsumed_spec (hinv : LeaseInv l call.period limit)
    (h : l.otherUnconsumed call=.ok other) : 0≤other ∧ l.openBytes call.period=
      other+max 0 (l.leaseBytes call.lease-l.consumed call.lease) := by
  unfold otherUnconsumed at h
  dsimp only at h
  split_ifs at h
  obtain rfl := ok.inj h
  constructor
  · apply total_nonneg
    intro lease row
    unfold otherUnconsumedRow
    split_ifs <;> omega
  rw [openBytes,total_split _ _ call.lease,
    openRow_lookup l call.period call.lease (inPeriod_period call)]
  congr 1
  apply total_congr
  rintro ⟨lease,row⟩ he
  dsimp only
  have hrow := (mem_entries_iff _ _ _).mp he
  by_cases hin : inPeriod call.period lease
  · have hstate := (hinv.rows lease row hin hrow).2.2
    obtain ⟨hu,hp⟩ := hin
    have hs : lease=call.lease ↔ lease.serverID=call.serverID := by
      constructor
      · rintro rfl
        rfl
      cases lease
      simp_all [EnsureCall.lease,EnsureCall.period]
    unfold openRow otherUnconsumedRow
    rw [if_pos (show inPeriod call.period lease from ⟨hu,hp⟩)]
    by_cases hse : lease.serverID=call.serverID
    · simp [hs.mpr hse,EnsureCall.lease]
    rw [if_neg (fun he => hse (hs.mp he))]
    by_cases hlt : row.consumedBytes<row.leaseBytes
    · rw [if_pos ⟨hse,hu,hp,hstate,hlt⟩]
      omega
    · omega
  · have hne : lease≠call.lease := by
      rintro rfl
      exact hin (inPeriod_period call)
    unfold openRow otherUnconsumedRow
    rw [if_neg hne,if_neg hin,if_neg]
    rintro ⟨-,hu,hp,-⟩
    exact hin ⟨hu,hp⟩

/-- A call for the watched period uses the fixed limit and a usage that is not below zero,
unless the period row supplies the durable one. -/
def CallAllowed (k : PeriodKey) (limit : Int) (l : Ledger) (call : EnsureCall) : Prop :=
  call.period=k → call.limitBytes=limit ∧ (0≤call.usedBytes ∨ ∃row,l.periods.lookup k=some row)

theorem LeaseInv.grant {other lease : Int} (hl : 0<limit) (h : LeaseInv l call.period limit)
    (hc : CallAllowed call.period limit l call) (hload : LoadedRow l call.lease row)
    (hused : l.effectiveUsed call=.ok used) (hother : l.otherUnconsumed call=.ok other)
    (hg : grantLease call.limitBytes used other row=(lease,remaining,grown)) :
    l.usedBytes call.period<2^63 ∧
    ((grown=false ∧ lease=row.leaseBytes) ∨
      (grown=true ∧ row.leaseBytes<lease ∧ lease≤limit ∧ row.consumedBytes≤lease ∧
        l.usedBytes call.period+other+(lease-row.consumedBytes)≤limit)) := by
  obtain ⟨hlimit,hcall⟩ := hc rfl
  obtain ⟨hu,hu0,huf⟩ := effectiveUsed_spec hused h.totals hcall
  have hlt : l.usedBytes call.period<2^63 := lt_of_le_of_lt hu huf.2
  obtain ⟨ho,hopen⟩ := otherUnconsumed_spec h hother
  obtain ⟨he0,hel,hbound⟩ := h.bounds hl (inPeriod_period call)
  obtain ⟨hc0,hcu⟩ := hbound hlt
  have hres := h.reserved hlt
  have hfit : Fits limit := hlimit ▸ call.int64.1
  rw [← hload.leaseBytes,← hload.consumedBytes] at *
  rw [hlimit] at hg
  refine ⟨hlt,?_⟩
  rcases grantLease_spec hl hfit (by omega) huf ho he0 hel hc0 (by omega) (by omega) hg with
    hno | ⟨h1,h2,h3,h4,h5⟩
  · exact .inl hno
  · exact .inr ⟨h1,h2,h3,h4,by omega⟩

theorem LeaseInv.insert (h : LeaseInv l k limit)
    (hrow : inPeriod k lease → 0≤row.leaseBytes ∧ row.leaseBytes≤limit ∧ row.state≠.released ∧
      (l.usedBytes k<2^63 → 0≤row.consumedBytes ∧ row.consumedBytes≤l.usedBytes k ∧
        openBytes {l with leases := l.leases.insert lease row} k≤limit))
    (policy) :
    LeaseInv {l with leases := l.leases.insert lease row,policyRevision := policy} k limit := by
  refine ⟨h.checkpoint,h.totals,?_,?_,?_⟩
  · intro lease' row' hin hlook
    rcases lookup_insert_cases hlook with ⟨rfl,rfl⟩ | hold
    · obtain ⟨h1,h2,h3,-⟩ := hrow hin
      exact ⟨h1,h2,h3⟩
    · exact h.rows lease' row' hin hold
  · intro hu lease' row' hin hlook
    rcases lookup_insert_cases hlook with ⟨rfl,rfl⟩ | hold
    · obtain ⟨h1,h2,-⟩ := (hrow hin).2.2.2 hu
      exact ⟨h1,h2⟩
    · exact h.consumed hu lease' row' hin hold
  · intro hu
    by_cases hin : inPeriod k lease
    · exact ((hrow hin).2.2.2 hu).2.2
    · exact (openBytes_insert_other row hin).trans_le (h.reserved hu)

theorem LeaseInv.swept (h : LeaseInv l k limit) (hl1 : l1=l ∨ l1=l.expireStaleTrafficLeases now) :
    LeaseInv l1 k limit ∧ l1.periods=l.periods ∧ l1.usedBytes k=l.usedBytes k ∧
      l1.openBytes k=l.openBytes k ∧ l1.leaseBytes=l.leaseBytes := by
  rcases hl1 with rfl | rfl
  · exact ⟨h,rfl,rfl,rfl,rfl⟩
  · exact ⟨h.sweep now,rfl,rfl,openBytes_sweep l k,funext (leaseBytes_sweep l)⟩

/-- The row an allocation writes for the watched period reserves what was reserved, or as much as the
limit leaves. -/
theorem LeaseInv.write {other lease : Int} (hl : 0<limit) (h : LeaseInv l call.period limit)
    (hc : CallAllowed call.period limit l call) (hload : LoadedRow l call.lease row)
    (hused : l.effectiveUsed call=.ok used) (hother : l.otherUnconsumed call=.ok other)
    (hg : grantLease call.limitBytes used other row=(lease,remaining,grown))
    (hnl : new.leaseBytes=lease) (hnc : new.consumedBytes=row.consumedBytes)
    (hns : new.state=.active) (policy) :
    LeaseInv {l with leases := l.leases.insert call.lease new,policyRevision := policy}
        call.period limit ∧
      ((openBytes {l with leases := l.leases.insert call.lease new} call.period=
          l.openBytes call.period ∧ lease=l.leaseBytes call.lease) ∨
        l.usedBytes call.period+
          openBytes {l with leases := l.leases.insert call.lease new} call.period≤limit) := by
  have hin := inPeriod_period call
  obtain ⟨hlt,hgrant⟩ := h.grant hl hc hload hused hother hg
  obtain ⟨ho0,hopen⟩ := otherUnconsumed_spec h hother
  obtain ⟨he0,hel,hbound⟩ := h.bounds hl hin
  obtain ⟨hc0,hcu⟩ := hbound hlt
  have hres := h.reserved hlt
  have hnew := openBytes_insert l call.period call.lease new
  rw [openRow_lookup l _ _ hin,openRow,if_pos hin,hnc,hload.consumedBytes] at hnew
  rw [hload.leaseBytes,hload.consumedBytes] at hgrant
  rcases hgrant with ⟨-,hle⟩ | ⟨-,h1,h2,h3,h4⟩
  · refine ⟨h.insert (fun _ => ?_) policy,.inl ⟨by omega,hle⟩⟩
    rw [hnc,hns,hload.consumedBytes]
    exact ⟨by omega,by omega,by decide,fun _ => ⟨hc0,hcu,by omega⟩⟩
  refine ⟨h.insert (fun _ => ?_) policy,.inr (by omega)⟩
  rw [hnl,hnc,hns,hload.consumedBytes]
  exact ⟨by omega,h2,by decide,fun _ => ⟨hc0,hcu,by omega⟩⟩

/-- An allocation keeps the usage and the invariant; the open bytes stay as they are or end,
together with the usage, within the limit. -/
theorem LeaseInv.ensureTx (hl : 0<limit) (h : LeaseInv l k limit) (hc : CallAllowed k limit l call)
    (hok : l.ensureLeaseTx call=.ok (l',a)) : LeaseInv l' k limit ∧ l'.usedBytes k=l.usedBytes k ∧
    ((l'.openBytes k=l.openBytes k ∧ (call.period=k → l'.leaseBytes call.lease=l.leaseBytes call.lease)) ∨
      l'.usedBytes k+l'.openBytes k≤limit) := by
  obtain ⟨l1,row,used,other,lease,remaining,grown,new,hl1,hload,hused,hother,hg,hl',hnl,hnc,hns⟩ :=
    ensureLeaseTx_cases hok
  obtain ⟨hinv,hp1,hu1,ho1,hlb1⟩ := h.swept hl1
  have hu' : l'.usedBytes k=l1.usedBytes k := by
    rw [hl']
    rfl
  have ho' : l'.openBytes k=openBytes {l1 with leases := l1.leases.insert call.lease new} k := by
    rw [hl']
    rfl
  have hlb' : l'.leaseBytes call.lease=lease := by
    rw [hl',← hnl]
    simp [leaseBytes]
  by_cases hk : call.period=k
  · subst hk
    have hc1 : CallAllowed call.period limit l1 call := by
      intro _
      rw [hp1]
      exact hc rfl
    obtain ⟨hinv',hgrant⟩ := hinv.write hl hc1 hload hused hother hg hnl hnc hns l'.policyRevision
    rw [← hl'] at hinv'
    refine ⟨hinv',hu'.trans hu1,?_⟩
    rw [hu',ho',hlb',← ho1,← hlb1]
    exact hgrant.imp_left fun ⟨hopen,hle⟩ => ⟨hopen,fun _ => hle⟩
  · have hnot : ¬inPeriod k call.lease := fun hin => hk (inPeriod_iff.mp hin).symm
    refine ⟨?_,hu'.trans hu1,.inl ⟨?_,fun he => absurd he hk⟩⟩
    · rw [hl']
      exact hinv.insert (fun hin => absurd hin hnot) _
    · rw [ho',openBytes_insert_other new hnot,ho1]

def LeaseAllowed (k : PeriodKey) (limit : Int) (l : Ledger) : LeaseEvent → Prop
  | .commit batch => BatchResolved batch
  | .ensure call => CallAllowed k limit l call
  | .ensureTx call => CallAllowed k limit l call
  | .sweep _ => True

/-- A report that continues its stream fits into the lease of its server. -/
def FitsLease (k : PeriodKey) (l : Ledger) (server : Int) (report : TrafficReport) : Prop :=
  l.startingPoint (reportKey server report) report.userID=rangeStart report →
  k=⟨report.userID,report.periodKey⟩ →
  l.consumed ⟨server,report.userID,report.periodKey⟩+ (report.toUploadBytes-report.fromUploadBytes+
      (report.toDownloadBytes-report.fromDownloadBytes))≤
    l.leaseBytes ⟨server,report.userID,report.periodKey⟩

def NoOverrun (k : PeriodKey) (l : Ledger) : LeaseEvent → Prop
  | .commit batch => BatchGuarded (fun m server report _ => FitsLease k m server report) l batch
  | _ => True

theorem LeaseInv.users (h : LeaseInv l k limit)
    (hl : l'={l with users := l'.users,policyRevision := l'.policyRevision}) :
    LeaseInv l' k limit := by
  rw [hl]
  exact ⟨h.checkpoint,h.totals,h.rows,h.consumed,h.reserved⟩

theorem ensure_cases (h : l.ensureTrafficLeaseAllocation call=.ok (l',a)) :
    l'=l ∨ l.ensureLeaseTx call=.ok (l',a) := by
  unfold ensureTrafficLeaseAllocation at h
  split_ifs at h
  · obtain ⟨rfl,-⟩ := Prod.mk.inj (ok.inj h)
    exact .inl rfl
  split at h
  · obtain ⟨rfl,-⟩ := Prod.mk.inj (ok.inj h)
    exact .inl rfl
  · exact .inr h

theorem batchResolved_guarded (h : BatchResolved batch) :
    BatchGuarded (fun _ _ report period => Resolved period report) l batch :=
  fun l1 _ _ => guarded_of_forall _ (fun r hm _ => h r hm) l1

theorem leaseStep_call {P : Ledger → Prop} (he : event=.ensure call ∨ event=.ensureTx call)
    (h : P l) (htx : ∀l' a,l.ensureLeaseTx call=.ok (l',a) → P l') : P (l.leaseStep event).1 := by
  rcases he with rfl | rfl
  · cases hok : l.ensureTrafficLeaseAllocation call with
    | error e => simpa only [leaseStep,hok] using h
    | ok p =>
      simp only [leaseStep,hok]
      rcases ensure_cases hok with heq | hcall
      · exact heq ▸ h
      · exact htx _ _ hcall
  · cases hok : l.ensureLeaseTx call with
    | error e => simpa only [leaseStep,hok] using h
    | ok p => simpa only [leaseStep,hok] using htx _ _ hok

theorem LeaseInv.step (hl : 0<limit) (hg : LeaseAllowed k limit l event) (h : LeaseInv l k limit) :
    LeaseInv (l.leaseStep event).1 k limit := by
  cases event with
  | commit batch =>
    exact commitStep_invariant (fun l _ => LeaseInv l k limit) _ LeaseInv.users LeaseInv.quiet
      (fun h hr hb => h.bill hl hr hb) (w := []) (batchResolved_guarded hg) h
  | ensure call => exact leaseStep_call (.inl rfl) h (fun _ _ htx => (h.ensureTx hl hg htx).1)
  | ensureTx call => exact leaseStep_call (.inr rfl) h (fun _ _ htx => (h.ensureTx hl hg htx).1)
  | sweep now => exact h.sweep now

/-- The usage and all reservations of the period stay within the limit. -/
structure Budget (l : Ledger) (k : PeriodKey) (limit : Int) : Prop where
  inv : LeaseInv l k limit
  within : l.usedBytes k+l.openBytes k≤limit

theorem Budget.quiet (h : Budget l k limit) (hq : Quiet l l' stream u) : Budget l' k limit := by
  refine ⟨h.inv.quiet hq,?_⟩
  rw [usedBytes,openBytes,hq.totals,hq.leases]
  exact h.within

theorem own_le_openBytes (l : Ledger) (k : PeriodKey) (lease : LeaseKey) (h : inPeriod k lease) :
    max 0 (l.leaseBytes lease-l.consumed lease)≤l.openBytes k := by
  have hsplit := total_split l.leases (openRow k) lease
  rw [openRow_lookup l k lease h] at hsplit
  have hrest : 0≤Table.total (fun k' r => if k'=lease then 0 else openRow k k' r) l.leases := by
    apply total_nonneg
    intro k' r
    split_ifs
    · exact le_rfl
    · exact openRow_nonneg k k' r
  rw [openBytes]
  omega

theorem Budget.bill (hl : 0<limit) (hf : limit<2^63) (h : Budget l k limit)
    (hg : Resolved period report ∧ FitsLease k l server report)
    (hb : Billed l l' server report period) : Budget l' k limit := by
  refine ⟨h.inv.bill hl hg.1 hb,?_⟩
  by_cases hk : k=⟨report.userID,report.periodKey⟩
  · have hfit := hg.2 hb.start hk
    have hin : inPeriod k ⟨server,report.userID,report.periodKey⟩ := inPeriod_iff.mpr hk
    have hown := own_le_openBytes l k _ hin
    have hwithin := h.within
    obtain ⟨hpos,hused,-⟩ := hb.usage h.inv.checkpoint h.inv.totals hg.1 hk (.inr (by omega))
    have hopen := hb.openBytes hl h.inv hg.1 hk (by omega)
    omega
  · obtain ⟨hu,ho⟩ := hb.other hg.1 hk
    rw [hu,ho]
    exact h.within

theorem Budget.step (hl : 0<limit) (hf : limit<2^63)
    (hg : LeaseAllowed k limit l event ∧ NoOverrun k l event) (h : Budget l k limit) :
    Budget (l.leaseStep event).1 k limit := by
  have hcall {call} (hc : CallAllowed k limit l call) l'
      a (htx : l.ensureLeaseTx call=.ok (l',a)) : Budget l' k limit := by
    obtain ⟨hinv,hu,ho⟩ := h.inv.ensureTx hl hc htx
    have hwithin := h.within
    exact ⟨hinv,by omega⟩
  cases event with
  | commit batch =>
    refine commitStep_invariant (fun l _ => Budget l k limit) _ ?_ Budget.quiet
      (fun h hg hb => h.bill hl hf hg hb) (w := [])
      (fun l1 observed h1 => (batchResolved_guarded hg.1 l1 observed h1).and
        (hg.2 l1 observed h1)) h
    intro l l' _ h hl
    exact ⟨h.inv.users hl,hl ▸ h.within⟩
  | ensure call => exact leaseStep_call (.inl rfl) h (hcall hg.1)
  | ensureTx call => exact leaseStep_call (.inr rfl) h (hcall hg.1)
  | sweep now => exact ⟨h.inv.sweep now,openBytes_sweep l k ▸ h.within⟩

/-- Along every interleaving an allocation that raises a lease stays within the limit, and so does
the usage where no report overruns its lease. -/
theorem leases_never_overallocated (l : Ledger) (k : PeriodKey) (limit : Int) (hl : 0<limit)
    (hf : limit<2^63) (hs : LeaseStart l k) (events : List LeaseEvent)
    (hg : RunGuarded leaseStep (LeaseAllowed k limit) l events) :
    let s := (Runs.run leaseStep l events).1
    (∀call s' a,call.period=k → CallAllowed k limit s call →
      s.ensureTrafficLeaseAllocation call=.ok (s',a) ∨ s.ensureLeaseTx call=.ok (s',a) →
      s.leaseBytes call.lease<s'.leaseBytes call.lease →
      s'.usedBytes k+s'.openBytes k≤limit) ∧
    (RunGuarded leaseStep (NoOverrun k) l events → l.usedBytes k≤limit → s.usedBytes k≤limit) := by
  intro s
  have hinv : LeaseInv s k limit := run_invariant (fun l _ => LeaseInv l k limit)
    (LeaseAllowed k limit) (fun hg h => h.step hl hg) (w := []) hg (hs.inv hl)
  refine ⟨?_,?_⟩
  · intro call s' a hk hc hok hraise
    have htx : s.ensureLeaseTx call=.ok (s',a) := by
      rcases hok with hok | hok
      · rcases ensure_cases hok with rfl | htx
        · exact absurd hraise (lt_irrefl _)
        · exact htx
      · exact hok
    obtain ⟨-,-,⟨-,hsame⟩ | hbound⟩ := hinv.ensureTx hl hc htx
    · exact absurd (hsame hk) (ne_of_gt hraise)
    · exact hbound
  · intro hno hstart
    have hopen : l.openBytes k=0 := by simp [openBytes,hs.leases,Table.total]
    have hbudget : Budget s k limit := run_invariant (fun l _ => Budget l k limit) _
      (fun hg h => h.step hl hf hg) (w := []) (hg.and hno) ⟨hs.inv hl,by omega⟩
    have : 0≤ s.openBytes k := total_nonneg _ _ (openRow_nonneg k)
    have := hbudget.within
    omega

def smallCall (server used : Int) (h : Fits used) : EnsureCall :=
  ⟨server,1,"2025-01",100,used,0,0,false,0,0,⟨by decide,h⟩⟩

/-- An allocation, then a report that stays inside it. -/
theorem leases_never_overallocated_one_report :
    let events := [LeaseEvent.ensure (smallCall 1 0 (by decide)),
      .commit (oneReport "a" "2025-01" 0 40 0 0 (by decide))]
    let s := (Runs.run leaseStep oneUser events).1
    s.usedBytes ⟨1,"2025-01"⟩=40 ∧ s.usedBytes ⟨1,"2025-01"⟩≤100 := by
  intro events s
  refine ⟨by decide +kernel,(leases_never_overallocated oneUser ⟨1,"2025-01"⟩ 100 (by decide)
    (by decide) ⟨rfl,fun _ => le_rfl,le_rfl⟩ events ?_).2 ?_ (by decide)⟩
  · exact ⟨fun _ => ⟨rfl,.inl (by decide)⟩,oneReport_resolved _ _ _ _ _ _ _,trivial⟩
  refine ⟨trivial,?_,trivial⟩
  rintro m _ ⟨⟩
  exact ⟨fun _ _ => by decide +kernel,fun _ _ _ => trivial⟩

/-- Without a period row a negative usage counts as free quota: 150 bytes of a limit of 100. -/
theorem negative_usage_overallocates : let start : Ledger := {oneUser with servers := [1,2]}
    let s := (Runs.run leaseStep start [.ensure (smallCall 1 0 (by decide))]).1
    let s' := (s.leaseStep (.ensure (smallCall 2 (-50) (by decide)))).1
    s.leaseBytes ⟨2,1,"2025-01"⟩<s'.leaseBytes ⟨2,1,"2025-01"⟩ ∧
    s'.usedBytes ⟨1,"2025-01"⟩+s'.openBytes ⟨1,"2025-01"⟩=150 := by
  decide +kernel

end Ledger

end Oboard.Store
