import Oboard.Store.TrafficPeriods

namespace Oboard.Store

open GoText Word64 Runs Table PeriodRow TrafficPeriodRequest Except

theorem periodState_eq_quotaExceeded :
    periodState used limit=.quotaExceeded ↔ 0<limit ∧ limit≤used := by
  unfold periodState
  split_ifs with h
  · exact iff_of_true rfl h
  · exact iff_of_false (by decide) h

variable {row : PeriodRow}

namespace PeriodRow

def usedBytes (row : PeriodRow) : Int := row.uploadBytes+row.downloadBytes

/-- The stored state says whether the stored usage has reached the stored limit. -/
def Truthful (row : PeriodRow) : Prop :=
  row.state=.quotaExceeded ↔ 0<row.trafficLimitBytes ∧ row.trafficLimitBytes≤row.usedBytes

/-- Byte columns count upwards from zero and the limit was a 64-bit integer. -/
def Counted (row : PeriodRow) : Prop :=
  0≤row.uploadBytes ∧ 0≤row.downloadBytes ∧ row.trafficLimitBytes<2^63

theorem truthful_of_unused (hs : row.state=.active) (hu : row.usedBytes=0) : row.Truthful := by
  unfold Truthful
  rw [hs]
  exact iff_of_false (by decide) (by omega)

theorem Counted.addUsage (h : row.Counted) (hup : 0≤up)
    (hdown : 0≤down) : (Ledger.addUsage up down row).Counted ∧
      (Ledger.addUsage up down row).Truthful := by
  obtain ⟨h1,h2,h3⟩ := h
  refine ⟨⟨sqlAdd_nonneg h1 hup,sqlAdd_nonneg h2 hdown,h3⟩,?_⟩
  unfold Truthful
  simp only [Ledger.addUsage,usedBytes,periodState_eq_quotaExceeded]
  rw [le_sqlAdd_sum h3 h1 h2 hup hdown]

end PeriodRow

namespace TrafficPeriodRequest

variable {request : TrafficPeriodRequest} {row : PeriodRow}

/-- With the new limit the row has a quota exactly if it had one, or the limit is not reached. -/
def SameQuota (request : TrafficPeriodRequest) (row : PeriodRow) : Prop :=
  row.usedBytes<request.limitBytes ∨ (0<row.trafficLimitBytes ↔ 0<request.limitBytes)

instance (request : TrafficPeriodRequest) (row : PeriodRow) : Decidable (request.SameQuota row) :=
  inferInstanceAs (Decidable (_ ∨ _))

section

variable (request : TrafficPeriodRequest)

theorem apply_counted (h : row.Counted) : (request.apply row).Counted :=
  ⟨h.1,h.2.1,request.int64.2⟩

theorem conflictState_eq (h : row.Counted) :
    trafficPeriodConflictState row request.limitBytes=.quotaExceeded ↔
      0<row.trafficLimitBytes ∧ request.limitBytes≤row.usedBytes := by
  have hle := le_sqlAdd request.int64.2 h.1 h.2.1
  unfold trafficPeriodConflictState
  split_ifs with hq
  · exact iff_of_true rfl ⟨hq.1,hle.mp hq.2⟩
  · exact iff_of_false (by decide) (fun hr => hq ⟨hr.1,hle.mpr hr.2⟩)

end

theorem apply_eq_self_iff : request.apply row=row ↔
    ¬(row.startedAt≠request.startedAt ∨ row.endsAt≠request.endsAt ∨
      row.trafficLimitBytes≠request.limitBytes ∨
      row.state≠trafficPeriodConflictState row request.limitBytes) := by
  push Not
  constructor
  · intro h
    exact ⟨(congrArg PeriodRow.startedAt h).symm,(congrArg PeriodRow.endsAt h).symm,
      (congrArg trafficLimitBytes h).symm,(congrArg state h).symm⟩
  rintro ⟨h1,h2,h3,h4⟩
  unfold apply
  rw [← h1,← h2,← h4,← h3]

theorem apply_newRow (request : TrafficPeriodRequest) : request.apply request.newRow=request.newRow := by
  have hstate : trafficPeriodConflictState request.newRow request.limitBytes=.active := by
    refine if_neg fun h => ?_
    have hle : request.limitBytes≤0+0 := (le_sqlAdd request.int64.2 le_rfl le_rfl).mp h.2
    have hlimit : 0<request.limitBytes := h.1
    omega
  unfold apply
  rw [hstate]
  rfl

theorem apply_truthful_iff (h : row.Counted) :
    (request.apply row).Truthful ↔ request.SameQuota row := by
  unfold PeriodRow.Truthful SameQuota
  change (trafficPeriodConflictState row request.limitBytes=_ ↔
    0<request.limitBytes ∧ request.limitBytes≤row.usedBytes) ↔ _
  rw [request.conflictState_eq h]
  by_cases hr : request.limitBytes≤row.usedBytes
  · simp [hr]
  · simp [not_le.mp hr]

theorem apply_apply_iff (h : row.Counted) :
    request.apply (request.apply row)=request.apply row ↔ request.SameQuota row := by
  rw [← apply_truthful_iff h]
  have htwice : request.apply (request.apply row)={request.apply row with
    state := trafficPeriodConflictState (request.apply row) request.limitBytes} := rfl
  have hstate := request.conflictState_eq (request.apply_counted h)
  change _ ↔ (_ ↔ 0<(request.apply row).trafficLimitBytes ∧
    request.limitBytes≤(request.apply row).usedBytes)
  rw [← hstate,htwice]
  generalize trafficPeriodConflictState (request.apply row) request.limitBytes=second
  constructor
  · intro heq
    have := congrArg state heq
    change second=_ at this
    rw [this]
  intro hiff
  have heq : second=(request.apply row).state := by
    cases second <;> cases hs : (request.apply row).state <;> simp_all
  rw [heq]

end TrafficPeriodRequest

namespace Ledger

/-- Every row is counted, and every row but a stale one is truthful. -/
structure StatesHold (l : Ledger) (stale : Option PeriodKey) : Prop where
  counted : ∀k row,l.periods.lookup k=some row → row.Counted
  truthful : ∀k row,l.periods.lookup k=some row → stale≠some k → row.Truthful
  checkpoints : ∀k,(0,0)≤l.checkpoint k

def TruthfulStates (l : Ledger) : Prop := ∀k row,l.periods.lookup k=some row → row.Truthful

variable {l l' : Ledger}

theorem StatesHold.truthfulStates (h : l.StatesHold none) : l.TruthfulStates :=
  fun k row hrow => h.truthful k row hrow (by simp)

theorem StatesHold.of_periods (h : l.StatesHold stale) (hp : l'.periods=l.periods)
    (hc : ∀k,(0,0)≤l'.checkpoint k) : l'.StatesHold stale :=
  ⟨hp ▸ h.counted,hp ▸ h.truthful,hc⟩

variable {k : PeriodKey}

theorem StatesHold.insert (h : l.StatesHold none)
    (hrow : row.Counted) : StatesHold {l with periods := l.periods.insert k row} (some k) := by
  refine ⟨forall_insert h.counted hrow,?_,h.checkpoints⟩
  exact forall_insert (P := fun k' row => some k≠some k' → row.Truthful)
    (fun k' row' hrow' _ => h.truthful k' row' hrow' (by simp)) (fun hne => absurd rfl hne)

theorem StatesHold.settle (h : l.StatesHold (some k))
    (hrow : ∀row,l.periods.lookup k=some row → row.Truthful) : l.StatesHold none := by
  refine ⟨h.counted,fun k' row hr _ => ?_,h.checkpoints⟩
  by_cases hk : k'=k
  · exact hrow row (hk ▸ hr)
  · exact h.truthful k' row hr (by simpa using Ne.symm hk)

theorem StatesHold.insert_truthful (h : l.StatesHold none) (hc : row.Counted) (ht : row.Truthful) :
    StatesHold {l with periods := l.periods.insert k row} none := by
  refine (h.insert hc).settle fun row' hrow' => ?_
  rw [AList.lookup_insert] at hrow'
  exact Option.some.inj hrow' ▸ ht

theorem StatesHold.modify (h : l.StatesHold stale)
    (hf : ∀row,row.Counted → (f row).Counted ∧ (f row).Truthful) :
    StatesHold {l with periods := l.periods.modify k f} (if stale=some k then none else stale) := by
  have hrows : ∀k' row,(l.periods.modify k f).lookup k'=some row →
      row.Counted ∧ ((if stale=some k then none else stale)≠some k' → row.Truthful) := by
    intro k' row hrow
    rw [lookup_modify] at hrow
    split_ifs at hrow with hk
    · obtain ⟨old,hold,rfl⟩ := Option.map_eq_some_iff.mp hrow
      exact ⟨(hf old (h.counted _ _ hold)).1,fun _ => (hf old (h.counted _ _ hold)).2⟩
    refine ⟨h.counted _ _ hrow,fun hne => h.truthful _ _ hrow ?_⟩
    intro hs
    rw [hs,if_neg (by simpa using hk)] at hne
    exact hne rfl
  exact ⟨fun k' row hr => (hrows k' row hr).1,fun k' row hr => (hrows k' row hr).2,h.checkpoints⟩

section Ensure

variable {request : TrafficPeriodRequest}

def EnsureKeeps (l : Ledger) (request : TrafficPeriodRequest) : Prop :=
  ∀row,l.periods.lookup request.key=some row → request.SameQuota row

section

variable (h : l.trafficPeriodUpsert request=.ok (l',u))
include h

/-- The window upsert inserts an unused row, rewrites the stored one or finds it up to date. -/
theorem trafficPeriodUpsert_cases : (l.periods.lookup request.key=none ∧
      l'={l with periods := l.periods.insert request.key request.newRow}) ∨
    ∃row,l.periods.lookup request.key=some row ∧
      (l'={l with periods := l.periods.insert request.key (request.apply row)} ∨
        (l'=l ∧ request.apply row=row)) := by
  unfold trafficPeriodUpsert at h
  split_ifs at h
  cases hrow : l.periods.lookup request.key with
  | none =>
    simp only [hrow,ok.injEq,Prod.mk.injEq] at h
    exact .inl ⟨rfl,h.1.symm⟩
  | some row =>
    simp only [hrow] at h
    split_ifs at h with hwrite
    · exact .inr ⟨row,rfl,.inl (Prod.mk.inj (ok.inj h)).1.symm⟩
    · exact .inr ⟨row,rfl,.inr ⟨(Prod.mk.inj (ok.inj h)).1.symm,
        apply_eq_self_iff.mpr hwrite⟩⟩

theorem upsert_users : l'.users=l.users := by
  rcases trafficPeriodUpsert_cases h with ⟨-,rfl⟩ | ⟨_,-,rfl | ⟨rfl,-⟩⟩
  · rfl
  · rfl
  · rfl

theorem lookup_upsert : l'.periods.lookup request.key=some
      ((l.periods.lookup request.key).elim request.newRow request.apply) := by
  rcases trafficPeriodUpsert_cases h with ⟨hrow,rfl⟩ | ⟨row,hrow,rfl | ⟨rfl,hsame⟩⟩
  · rw [hrow]
    exact AList.lookup_insert _
  · rw [hrow]
    exact AList.lookup_insert _
  · rw [hrow]
    exact congrArg some hsame.symm

theorem user_of_upsert : request.userID∈l'.users := by
  have hu : request.userID∈l.users := by
    unfold trafficPeriodUpsert at h
    split_ifs at h with hu
    exact hu
  rw [upsert_users h]
  exact hu

end

theorem upsert_same_iff (hu : request.userID∈l.users)
    (hrow : l.periods.lookup request.key=some row) :
    l.trafficPeriodUpsert request=.ok (l,()) ↔ request.apply row=row := by
  constructor
  · intro h
    have := lookup_upsert h
    rw [hrow] at this
    exact (Option.some.inj this).symm
  intro h
  unfold trafficPeriodUpsert
  rw [if_neg (not_not.mpr hu),hrow]
  dsimp only
  rw [if_neg (apply_eq_self_iff.mp h)]

theorem StatesHold.upsert (h : l.StatesHold none) (hkeep : l.EnsureKeeps request)
    (hup : l.trafficPeriodUpsert request=.ok (l',u)) : l'.StatesHold none := by
  rcases trafficPeriodUpsert_cases hup with ⟨-,rfl⟩ | ⟨row,hrow,rfl | ⟨rfl,-⟩⟩
  · exact h.insert_truthful ⟨le_rfl,le_rfl,request.int64.2⟩ (truthful_of_unused rfl (add_zero 0))
  · have hc := h.counted _ _ hrow
    exact h.insert_truthful (request.apply_counted hc)
      ((apply_truthful_iff hc).mpr (hkeep row hrow))
  · exact h

section

variable (h : l.StatesHold none) (hup : l.trafficPeriodUpsert request=.ok (l',u))
include h hup

theorem StatesHold.upsert_iff : l'.TruthfulStates ↔ l.EnsureKeeps request := by
  refine ⟨fun h' row hrow => ?_,fun hkeep => (h.upsert hkeep hup).truthfulStates⟩
  have := h' request.key _ (lookup_upsert hup)
  rw [hrow] at this
  exact (apply_truthful_iff (h.counted _ _ hrow)).mp this

theorem upsert_again_iff : l'.trafficPeriodUpsert request=.ok (l',()) ↔ l.EnsureKeeps request := by
  rw [upsert_same_iff (user_of_upsert hup) (lookup_upsert hup)]
  cases hrow : l.periods.lookup request.key with
  | none =>
    exact iff_of_true request.apply_newRow (fun row h => by simp [hrow] at h)
  | some row =>
    rw [Option.elim,apply_apply_iff (h.counted _ _ hrow)]
    unfold EnsureKeeps
    simp [hrow]

end

theorem upsert_ok (hu : request.userID∈l.users) : ∃l',l.trafficPeriodUpsert request=.ok (l',()) := by
  unfold trafficPeriodUpsert
  rw [if_neg (not_not.mpr hu)]
  cases l.periods.lookup request.key with
  | none => exact ⟨_,rfl⟩
  | some row =>
    dsimp only
    split_ifs
    · exact ⟨_,rfl⟩
    · exact ⟨_,rfl⟩

theorem ensureTrafficPeriod_of_upsert (h : l.trafficPeriodUpsert request=.ok (l',u)) :
    l.ensureTrafficPeriod request=(l',l'.getTrafficPeriod request.key) := by
  unfold ensureTrafficPeriod
  rw [h]

theorem StatesHold.ensure_iff (h : l.StatesHold none) (hu : request.userID∈l.users) :
    (l.ensureTrafficPeriod request).1.TruthfulStates ↔ l.EnsureKeeps request := by
  obtain ⟨l',hup⟩ := upsert_ok hu
  rw [ensureTrafficPeriod_of_upsert hup]
  exact h.upsert_iff hup

theorem StatesHold.ensure_twice_iff (h : l.StatesHold none) (hu : request.userID∈l.users) :
    (l.ensureTrafficPeriod request).1.ensureTrafficPeriod request=l.ensureTrafficPeriod request ↔
      l.EnsureKeeps request := by
  obtain ⟨l',hup⟩ := upsert_ok hu
  rw [ensureTrafficPeriod_of_upsert hup,← upsert_again_iff h hup]
  obtain ⟨l'',hagain⟩ := upsert_ok (user_of_upsert hup)
  rw [ensureTrafficPeriod_of_upsert hagain,hagain]
  constructor
  · intro heq
    rw [(Prod.mk.inj heq).1]
  · intro heq
    rw [(Prod.mk.inj (ok.inj heq)).1]

theorem StatesHold.ensure (h : l.StatesHold none) (hkeep : l.EnsureKeeps request) :
    (l.ensureTrafficPeriod request).1.StatesHold none := by
  unfold ensureTrafficPeriod
  cases hup : l.trafficPeriodUpsert request with
  | error e => exact h
  | ok p => exact h.upsert hkeep hup

def pendingRequests (l : Ledger) (requests : List TrafficPeriodRequest) :
    List TrafficPeriodRequest :=
  match l.loadTrafficPeriodsFor requests with
  | .error _ => []
  | .ok stored => (requests.foldl (settleRequest stored) (∅,[])).2

theorem StatesHold.ensureAll (h : l.StatesHold none)
    (hkeep : Guarded trafficPeriodUpsert EnsureKeeps l (l.pendingRequests requests)) :
    (l.ensureTrafficPeriods requests).1.StatesHold none := by
  unfold pendingRequests at hkeep
  unfold ensureTrafficPeriods
  cases hload : l.loadTrafficPeriodsFor requests with
  | error e => exact h
  | ok stored =>
    rw [hload] at hkeep
    dsimp only at hkeep ⊢
    cases hc : collect trafficPeriodUpsert l (requests.foldl (settleRequest stored) (∅,[])).2 with
    | error e => exact h
    | ok p =>
      refine collect_invariant (fun l _ => l.StatesHold none) _ (w := []) ?_ hkeep h hc
      intro s _ request s' u hk hs hstep
      exact hs.upsert hk hstep

end Ensure

section Reports

variable {period : TrafficPeriod} {report : UsageReport}

/-- The limit a report brings leaves the stored state right: the usage of the row stays on its
side of the quota, and a row that is new starts as active. -/
def LimitKeepsState (l : Ledger) (period : TrafficPeriod) : Prop :=
  (l.periods.lookup ⟨period.userID,period.periodKey⟩).elim
    (periodState (wrap (period.upload+period.download)) period.limit=.active)
    (fun row => periodState row.usedBytes row.trafficLimitBytes=
      periodState row.usedBytes period.limit)

theorem upsertPeriod_cases (h : l.upsertPeriod period=.ok l') : l'={l with periods := l'.periods} ∧
    ∃row,l'.periods=l.periods.insert ⟨period.userID,period.periodKey⟩ row ∧
      row.trafficLimitBytes=period.limit ∧
      match l.periods.lookup ⟨period.userID,period.periodKey⟩ with
      | none => row.uploadBytes=0 ∧ row.downloadBytes=0 ∧
          row.state=periodState (wrap (period.upload+period.download)) period.limit
      | some old => row.uploadBytes=old.uploadBytes ∧ row.downloadBytes=old.downloadBytes ∧
          row.state=old.state := by
  unfold upsertPeriod at h
  split_ifs at h
  obtain rfl := ok.inj h
  refine ⟨rfl,_,rfl,?_⟩
  cases l.periods.lookup ⟨period.userID,period.periodKey⟩ with
  | none => exact ⟨rfl,rfl,rfl,rfl⟩
  | some row => exact ⟨rfl,rfl,rfl,rfl⟩

/-- A window written with a report may leave its own row stale, as its state is not computed. -/
theorem StatesHold.window (h : l.StatesHold none) (hlimit : period.limit<2^63)
    (hup : l.upsertPeriod period=.ok l') :
    l'.StatesHold (some ⟨period.userID,period.periodKey⟩) := by
  obtain ⟨hl',row,hperiods,hrow,hcols⟩ := upsertPeriod_cases hup
  rw [hl',hperiods]
  refine h.insert ?_
  cases hold : l.periods.lookup ⟨period.userID,period.periodKey⟩ with
  | none =>
    rw [hold] at hcols
    exact ⟨hcols.1.ge,hcols.2.1.ge,hrow ▸ hlimit⟩
  | some old =>
    rw [hold] at hcols
    obtain ⟨hu,hd,-⟩ := h.counted _ _ hold
    exact ⟨hcols.1 ▸ hu,hcols.2.1 ▸ hd,hrow ▸ hlimit⟩

theorem StatesHold.window_keeps (h : l.StatesHold none) (hlimit : period.limit<2^63)
    (hkeep : l.LimitKeepsState period) (hup : l.upsertPeriod period=.ok l') :
    l'.StatesHold none := by
  refine (h.window hlimit hup).settle fun row' hrow' => ?_
  obtain ⟨-,row,hperiods,hrow,hcols⟩ := upsertPeriod_cases hup
  rw [hperiods,AList.lookup_insert] at hrow'
  obtain rfl := Option.some.inj hrow'
  unfold LimitKeepsState at hkeep
  cases hold : l.periods.lookup ⟨period.userID,period.periodKey⟩ with
  | none =>
    rw [hold] at hcols hkeep
    refine truthful_of_unused (hcols.2.2.trans hkeep) ?_
    rw [PeriodRow.usedBytes,hcols.1,hcols.2.1,add_zero]
  | some old =>
    rw [hold] at hcols hkeep
    have hold' := h.truthful _ _ hold (by simp)
    unfold PeriodRow.Truthful at hold' ⊢
    have hused : row.usedBytes=old.usedBytes := by
      rw [PeriodRow.usedBytes,hcols.1,hcols.2.1,PeriodRow.usedBytes]
    rw [hcols.2.2,hold',hused,hrow,← periodState_eq_quotaExceeded,← periodState_eq_quotaExceeded,
      show periodState old.usedBytes old.trafficLimitBytes=_ from hkeep]

theorem addTrafficReport_cases (h : l.addTrafficReport report=.ok (l',o)) :
    (l'=l ∧ (report.skipped ∨ report.reportID∈l.reports)) ∨
    (¬report.skipped ∧ l'.reports=l.reports.insert report.reportID report.row ∧
      l'.periods=l.periods.modify report.key (addUsage report.upload report.download) ∧
      l'.checkpoint=l.checkpoint) := by
  unfold addTrafficReport at h
  split_ifs at h with hskip hstored
  · exact .inl ⟨(Prod.mk.inj (ok.inj h)).1.symm,.inl hskip⟩
  · exact .inl ⟨(Prod.mk.inj (ok.inj h)).1.symm,.inr hstored⟩
  · cases hins : l.insertTrafficReport report.reportID report.row with
    | none => simp [hins] at h
    | some l1 =>
      simp only [hins,ok.injEq] at h
      obtain ⟨rfl,-⟩ := h
      rw [insertTrafficReport_spec hins]
      exact .inr ⟨hskip,rfl,rfl,rfl⟩

theorem StatesHold.charge (h : l.StatesHold stale) (hup : 0≤up)
    (hdown : 0≤down) (hp : l'.periods=l.periods.modify k (addUsage up down))
    (hc : ∀k,(0,0)≤l'.checkpoint k) : l'.StatesHold (if stale=some k then none else stale) :=
  (h.modify (k := k) (fun _ hrow => hrow.addUsage hup hdown)).of_periods hp hc

theorem StatesHold.unstale (h : l.StatesHold (if stale=some k then none else stale)) :
    l.StatesHold stale := by
  split_ifs at h with hs
  · exact ⟨h.counted,fun k row hrow _ => h.truthful k row hrow (by simp),h.checkpoints⟩
  · exact h

theorem StatesHold.addReport (h : l.StatesHold stale)
    (hadd : l.addTrafficReport report=.ok (l',o)) : l'.StatesHold stale := by
  rcases addTrafficReport_cases hadd with ⟨rfl,-⟩ | ⟨hskip,-,hp,hc⟩
  · exact h
  · simp only [UsageReport.skipped,not_or,not_lt] at hskip
    exact (h.charge hskip.2.2.1 hskip.2.2.2 hp (hc ▸ h.checkpoints)).unstale

variable {reports : List UsageReport}

theorem StatesHold.addReports (h : l.StatesHold stale)
    (hc : collect addTrafficReport l reports=.ok (l',os)) : l'.StatesHold stale :=
  collect_invariant (fun l _ => l.StatesHold stale) (fun _ _ => True) (w := [])
    (fun _ hs hstep => hs.addReport hstep) (guarded_of_forall _ (fun _ _ _ => trivial) _) h hc

/-- A report of the period is charged when the batch is processed: it is valid, not stored yet,
and no report before it in the batch has its id. -/
def CountsFor (l : Ledger) (reports : List UsageReport) (k : PeriodKey) : Prop :=
  ∃before report after,reports=before++report::after ∧ report.key=k ∧ ¬report.skipped ∧
    report.reportID∉l.reports ∧ ∀r∈before,r.reportID≠report.reportID

theorem StatesHold.counted_batch (h : l.StatesHold (some k)) (hcounts : l.CountsFor reports k)
    (hc : collect addTrafficReport l reports=.ok (l',os)) : l'.StatesHold none := by
  obtain ⟨before,report,after,rfl,rfl,hvalid,hnew,hbefore⟩ := hcounts
  induction before generalizing l os with
  | nil =>
    obtain ⟨l1,o,os1,h1,h2,-⟩ := collect_cons hc
    rcases addTrafficReport_cases h1 with ⟨-,hbad⟩ | ⟨-,-,hp,hcp⟩
    · exact absurd hbad (not_or.mpr ⟨hvalid,hnew⟩)
    simp only [UsageReport.skipped,not_or,not_lt] at hvalid
    have hl1 := h.charge hvalid.2.2.1 hvalid.2.2.2 hp (hcp ▸ h.checkpoints)
    rw [if_pos rfl] at hl1
    exact hl1.addReports h2
  | cons first before ih =>
    obtain ⟨l1,o,os1,h1,h2,-⟩ := collect_cons hc
    obtain ⟨hfirst,hbefore⟩ := List.forall_mem_cons.mp hbefore
    refine ih h2 (h.addReport h1) ?_ hbefore
    rcases addTrafficReport_cases h1 with ⟨rfl,-⟩ | ⟨-,hreports,-⟩
    · exact hnew
    · rw [hreports,AList.mem_insert]
      exact not_or.mpr ⟨hfirst.symm,hnew⟩

end Reports

end Ledger

end Oboard.Store
