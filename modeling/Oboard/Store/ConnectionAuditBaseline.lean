import Oboard.Store.ConnectionAuditRollup

namespace Oboard.Store

open GoText List Table

/-- A read of the baseline of one user. SQLite's `strftime` names the hour of a report. -/
structure BaselineRead where
  store : AuditStore
  userID : Int
  at_ : Time
  strftimeHour : Time → Time

def hasReport (s : AuditStore) (key : HourKey) : Bool :=
  s.reports.any (fun r => r.userID=key.1 && connectionAuditHour r.startedAt=key.2)

/-- An hour with a report has its row unless it is marked. -/
def RolledUp (s : AuditStore) : Prop :=
  ∀key,s.dirty.lookup key=none → hasReport s key →
    ∃row,s.hourly.lookup key=some row ∧ row.totals=hourAggregate (hourReports s.reports key)

def connectionAuditMaxRepairedHours : Nat := 48

def mergeAuditHourBuckets (buckets : List (Time×Int)) (hours : List Time)
    (repaired : List (Time×Int)) : List (Time×Int) :=
  (buckets.filter (·.1∉hours)++repaired.filter (·.2≠0)).mergeSort (fun a b => a.1≤b.1)

namespace BaselineRead

variable (q : BaselineRead)

/-- The 28 days of the baseline, compared as texts. -/
def covers (t : Time) : Bool :=
  formatRFC3339Nano (connectionAuditHour q.at_-28*24*hour)≤formatRFC3339Nano t &&
  formatRFC3339Nano t<formatRFC3339Nano (connectionAuditHour q.at_+hour)

/-- A group of the raw query. -/
def rawCount (h : Time) : Option Int :=
  let reports := q.store.reports.filter (fun r => q.covers r.startedAt && r.counts &&
    r.userID=q.userID && q.strftimeHour r.startedAt=h)
  if reports=[] then none else some (hourAggregate reports).connectionCount

def batchConnectionAuditRobustZBucketsRaw : List (Time×Int) :=
  (q.store.reports.map (fun r => q.strftimeHour r.startedAt)).dedup.filterMap
    (fun h => (q.rawCount h).map (h,·))

def loadConnectionAuditHourlyBuckets : List (Time×Int) :=
  (q.store.hourly.rows.filter (fun e => q.covers e.1.2 && e.1.1=q.userID)).map
    (fun e => (e.1.2,e.2.totals.connectionCount))

def connectionAuditHourlyDirtyHours : List Time :=
  (q.store.dirty.rows.filter (fun e => q.covers e.1.2 && e.1.1=q.userID)).map (·.1.2)

def hourCount (h : Time) : Int :=
  (hourAggregate (hourReports q.store.reports (q.userID,h))).connectionCount

/-- An hour that does not parse is skipped. -/
def connectionAuditRawHourBuckets (hours : List Time) : List (Time×Int) :=
  (hours.filter (·≠0)).map (fun h => (h,q.hourCount h))

/-- What is read while the rollup is the read path. -/
def batchConnectionAuditRobustZBuckets : List (Time×Int) :=
  let dirty := q.connectionAuditHourlyDirtyHours
  let hourly := q.loadConnectionAuditHourlyBuckets
  if connectionAuditMaxRepairedHours<dirty.length then q.batchConnectionAuditRobustZBucketsRaw
  else if dirty=[] then hourly
  else mergeAuditHourBuckets hourly dirty (q.connectionAuditRawHourBuckets dirty)

/-- The hours that the user's marks and reports name. -/
def hours : List Time :=
  (q.store.dirty.rows.filter (·.1.1=q.userID)).map (·.1.2)++
    q.store.reports.map (fun r => connectionAuditHour r.startedAt)

/-- Texts order like instants: a report is grouped, bounded and recounted by its own hour. -/
def HoursNamed : Prop :=
  ∀r∈q.store.reports,r.userID=q.userID →
    q.strftimeHour r.startedAt=connectionAuditHour r.startedAt ∧
    q.covers r.startedAt=q.covers (connectionAuditHour r.startedAt) ∧
    ∀h∈q.hours,r.startedIn h=decide (connectionAuditHour r.startedAt=h)

def counted (h : Time) : List ConnectionAuditReport :=
  q.store.reports.filter (fun r => r.userID=q.userID && r.counts && connectionAuditHour r.startedAt=h)

/-- What an hour may hold: reports that count and a sum in a marked hour, a report that counts
beside every other report, and no row without a report. -/
structure Plain (h : Time) : Prop where
  marked : (q.store.dirty.lookup (q.userID,h)).isSome → q.counted h≠[] →
    h≠0 ∧ ((q.counted h).map (·.connectionCount)).sum≠0
  reported : q.store.dirty.lookup (q.userID,h)=none → hasReport q.store (q.userID,h) → q.counted h≠[]
  bare : q.store.dirty.lookup (q.userID,h)=none → ¬hasReport q.store (q.userID,h) →
    q.store.hourly.lookup (q.userID,h)=none

/-- What the rollup answers for an hour. -/
def expectedCount (h : Time) : Option Int :=
  if !q.covers h then none
  else if (q.store.dirty.lookup (q.userID,h)).isSome then
    if h=0 ∨ q.hourCount h=0 then none else some (q.hourCount h)
  else if hasReport q.store (q.userID,h) then some (q.hourCount h)
  else (q.store.hourly.lookup (q.userID,h)).map (·.totals.connectionCount)

variable {q}

theorem mem_raw : (h,c)∈q.batchConnectionAuditRobustZBucketsRaw ↔ q.rawCount h=some c := by
  have hhour (hc : q.rawCount h=some c) :
      h∈q.store.reports.map (fun r => q.strftimeHour r.startedAt) := by
    simp only [rawCount] at hc
    split_ifs at hc with hnil
    obtain ⟨r,hr⟩ := exists_mem_of_ne_nil _ hnil
    simp only [mem_filter,Bool.and_eq_true,decide_eq_true_eq] at hr
    exact mem_map.mpr ⟨r,hr.1,hr.2.2⟩
  simp only [batchConnectionAuditRobustZBucketsRaw,mem_filterMap,mem_dedup,Option.map_eq_some_iff]
  constructor
  · rintro ⟨h,-,c,hc,⟨⟩⟩
    exact hc
  · exact fun hc => ⟨h,hhour hc,c,hc,rfl⟩

theorem mem_dirtyHours : h∈q.connectionAuditHourlyDirtyHours ↔
    q.covers h ∧ (q.store.dirty.lookup (q.userID,h)).isSome := by
  simp only [connectionAuditHourlyDirtyHours,mem_map,mem_filter,Bool.and_eq_true,
    decide_eq_true_eq,Option.isSome_iff_exists]
  constructor
  · rintro ⟨⟨⟨_,h⟩,t⟩,⟨hm,hb,rfl⟩,rfl⟩
    exact ⟨hb,t,mem_rows.mp hm⟩
  · rintro ⟨hb,t,ht⟩
    exact ⟨((q.userID,h),t),⟨mem_rows.mpr ht,hb,rfl⟩,rfl⟩

theorem mem_hourly : (h,c)∈q.loadConnectionAuditHourlyBuckets ↔ q.covers h ∧
    ∃row,q.store.hourly.lookup (q.userID,h)=some row ∧ row.totals.connectionCount=c := by
  simp only [loadConnectionAuditHourlyBuckets,mem_map,mem_filter,Bool.and_eq_true,
    decide_eq_true_eq]
  constructor
  · rintro ⟨⟨⟨_,h⟩,row⟩,⟨hm,hb,rfl⟩,⟨⟩⟩
    exact ⟨hb,row,mem_rows.mp hm,rfl⟩
  · rintro ⟨hb,row,hrow,rfl⟩
    exact ⟨((q.userID,h),row),⟨mem_rows.mpr hrow,hb,rfl⟩,rfl⟩

theorem mem_batch (hs : RolledUp q.store)
    (hfew : ¬connectionAuditMaxRepairedHours<q.connectionAuditHourlyDirtyHours.length) :
    (h,c)∈q.batchConnectionAuditRobustZBuckets ↔ q.expectedCount h=some c := by
  have hmem : (h,c)∈q.batchConnectionAuditRobustZBuckets ↔
      h∉q.connectionAuditHourlyDirtyHours ∧ (h,c)∈q.loadConnectionAuditHourlyBuckets ∨
      h∈q.connectionAuditHourlyDirtyHours ∧ h≠0 ∧ q.hourCount h=c ∧ c≠0 := by
    simp only [batchConnectionAuditRobustZBuckets,if_neg hfew]
    split_ifs with hnil
    · simp [hnil]
    simp only [mergeAuditHourBuckets,connectionAuditRawHourBuckets,mem_mergeSort,mem_append,
      mem_filter,mem_map,decide_eq_true_eq,Prod.mk.injEq]
    grind
  rw [hmem,mem_hourly,mem_dirtyHours,expectedCount]
  split_ifs with hin hdirty hzero hreport
  · simp_all
  · simp_all
    grind
  · simp_all
    grind
  · obtain ⟨row,hrow,htotals⟩ := hs (q.userID,h) (by simpa using hdirty) hreport
    simp_all [hourCount]
  · simp_all

section named

variable (hnamed : q.HoursNamed)
include hnamed

theorem rawCount_eq (h : Time) : q.rawCount h=if q.covers h ∧ q.counted h≠[] then
    some ((q.counted h).map (·.connectionCount)).sum else none := by
  have hfilter : q.store.reports.filter (fun r => q.covers r.startedAt && r.counts &&
      r.userID=q.userID && q.strftimeHour r.startedAt=h)=if q.covers h then q.counted h else [] := by
    rw [counted,← filter_false (l := q.store.reports),← apply_ite (filter · q.store.reports)]
    refine filter_congr fun r hr => ?_
    by_cases hu : r.userID=q.userID
    · obtain ⟨hname,hcover,-⟩ := hnamed r hr hu
      rw [hname,hcover]
      by_cases hh : connectionAuditHour r.startedAt=h
      · cases hcov : q.covers h <;> simp [hh,hcov,hu]
      · split_ifs <;> simp [hh]
    · split_ifs <;> simp [hu]
  rw [rawCount,hfilter]
  split_ifs <;> simp_all [hourAggregate]

theorem hourCount_eq (hh : h∈q.hours) :
    q.hourCount h=((q.counted h).map (·.connectionCount)).sum := by
  have hsame : hourReports q.store.reports (q.userID,h)=q.counted h := by
    refine filter_congr fun r hr => ?_
    by_cases hu : r.userID=q.userID
    · rw [(hnamed r hr hu).2.2 h hh,Bool.and_right_comm]
    · simp [hu]
  rw [hourCount,hsame,hourAggregate]

theorem counts_agree_iff (h : Time) :
    q.rawCount h=q.expectedCount h ↔ (q.covers h → q.Plain h) := by
  rw [rawCount_eq hnamed,expectedCount]
  by_cases hcov : q.covers h
  swap
  · simp [hcov]
  have hplain : (q.covers h → q.Plain h) ↔ q.Plain h := by simp [hcov]
  rw [hplain]
  cases hdirty : q.store.dirty.lookup (q.userID,h) with
  | some at_ =>
    have hh : h∈q.hours := mem_append_left _ (mem_map.mpr ⟨((q.userID,h),at_),
      mem_filter.mpr ⟨mem_rows.mpr hdirty,decide_eq_true rfl⟩,rfl⟩)
    rw [hourCount_eq hnamed hh]
    refine ⟨fun heq => ⟨fun _ hne => ?_,by simp [hdirty],by simp [hdirty]⟩,fun hp => ?_⟩
    · by_contra hzero
      simp_all
    · have := hp.marked (by simp [hdirty])
      simp only [hcov]
      split_ifs <;> simp_all
  | none =>
    by_cases hreport : hasReport q.store (q.userID,h)
    · obtain ⟨r,hr,hm⟩ := any_eq_true.mp hreport
      simp only [Bool.and_eq_true,decide_eq_true_eq] at hm
      have hh : h∈q.hours := mem_append_right _ (mem_map.mpr ⟨r,hr,hm.2⟩)
      rw [hourCount_eq hnamed hh]
      refine ⟨fun heq => ⟨by simp [hdirty],fun _ _ hnil => ?_,fun _ hn => absurd hreport hn⟩,
        fun hp => ?_⟩
      · simp [hcov,hreport,hnil] at heq
      · simp [hcov,hreport,hp.reported hdirty hreport]
    · have hnil : q.counted h=[] := by
        refine filter_eq_nil_iff.mpr fun r hr hm => hreport (any_eq_true.mpr ⟨r,hr,?_⟩)
        simp only [Bool.and_eq_true,decide_eq_true_eq] at hm ⊢
        exact ⟨hm.1.1,hm.2⟩
      refine ⟨fun heq => ⟨by simp [hdirty],fun _ hn => absurd hn hreport,fun _ _ => ?_⟩,fun hp => ?_⟩
      · simpa [hcov,hreport,hnil] using heq.symm
      · simp [hcov,hreport,hnil,hp.bare hdirty hreport]

end named

end BaselineRead

def oneHour (state : ProbeState) : AuditStore where
  reports := [{probeReport "a" 1 with probeState := state}]
  hourly := AList.insert (1,connectionAuditHour probeStart) (currentRow plainEnv
    [{probeReport "a" 1 with probeState := state}] (1,connectionAuditHour probeStart)) ∅

def oneHourRead (state : ProbeState) : BaselineRead :=
  ⟨oneHour state,1,probeStart,connectionAuditHour⟩

theorem oneHour_rolledUp : RolledUp (oneHour state) := by
  rintro ⟨u,h⟩ - hreport
  simp only [hasReport,oneHour,any_cons,any_nil,Bool.or_false,Bool.and_eq_true,
    decide_eq_true_eq] at hreport
  obtain ⟨rfl,rfl⟩ : u=1 ∧ h=connectionAuditHour probeStart := hreport.imp Eq.symm Eq.symm
  exact ⟨currentRow plainEnv _ _,AList.lookup_insert _,by rw [currentRow,oneHour]⟩

instance (q : BaselineRead) : Decidable q.HoursNamed :=
  inferInstanceAs (Decidable (∀r∈_,_ → _ ∧ _ ∧ ∀h∈_,_))

end Oboard.Store
