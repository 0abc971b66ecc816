import Oboard.Store.PeriodStates
import Oboard.Store.MigrationRuns

namespace Oboard.Store.Ledger

open GoText Word64 Runs

variable {l l' : Ledger}

/-- The window of a report batch is recomputed by one of its reports or keeps its state. -/
def AddKeeps (l : Ledger) (reports : List UsageReport) (period : TrafficPeriod) : Prop :=
  period.limit<2^63 ∧
    (l.CountsFor reports ⟨period.userID,period.periodKey⟩ ∨ l.LimitKeepsState period)

theorem StatesHold.addTrafficReports (h : l.StatesHold none) {reports : List UsageReport} (hkeep : l.AddKeeps reports period) :
    StatesHold (keepOnError l ((l.addTrafficReports reports period).map Prod.fst)) none := by
  cases hadd : l.addTrafficReports reports period with
  | error e => exact h
  | ok p =>
    obtain ⟨l',accepted⟩ := p
    change l'.StatesHold none
    unfold Ledger.addTrafficReports at hadd
    split_ifs at hadd
    · exact (Prod.mk.inj (Except.ok.inj hadd)).1 ▸ h
    obtain ⟨l1,hup,hadd⟩ := bind_ok hadd
    obtain ⟨⟨l2,os⟩,hc,hadd⟩ := bind_ok hadd
    obtain ⟨⟨l3,u⟩,husers,hadd⟩ := bind_ok hadd
    have hl3 : l3={l2 with users := l3.users} := refreshUsedBytes_spec husers
    have hl2 : l2.StatesHold none := by
      rcases hkeep.2 with hcounts | hstate
      · refine (h.window hkeep.1 hup).counted_batch ?_ hc
        rw [CountsFor,(upsertPeriod_spec hup).1]
        exact hcounts
      · exact (h.window_keeps hkeep.1 hstate hup).addReports hc
    have hl' : l'=l3 := (Prod.mk.inj (Except.ok.inj hadd)).1.symm
    rw [hl',hl3]
    exact hl2.of_periods rfl hl2.checkpoints

section Commit

variable {report : TrafficReport} {period : TrafficPeriod}

def KnownTarget (l : Ledger) (report : TrafficReport) : Prop :=
  (∀i∈report.inboundID,i∈l.inbounds) ∧ (∀p∈report.pathID,p∈l.proxyPaths)

/-- A report recomputes the state of the window it is stored with, or that window keeps it. -/
def CommitKeeps (l : Ledger) (report : TrafficReport) (period : TrafficPeriod) : Prop :=
  period.limit<2^63 ∧ ((Resolved period report ∧ l.KnownTarget report) ∨
    l.LimitKeepsState (periodOrReport period report))

theorem periodOrReport_limit : (periodOrReport period report).limit=period.limit := by
  unfold periodOrReport
  dsimp only
  split_ifs <;> rfl

theorem load_known (h : l.loadOrCreateTrafficStreamTx server agent report=.ok (l',stream)) :
    server∈l.servers ∧ report.userID∈l.users := by
  unfold loadOrCreateTrafficStreamTx upsertTrafficStreamTxReturn at h
  dsimp only at h
  split_ifs at h with _ hknown
  exact not_or.mp hknown |>.imp not_not.mp not_not.mp

theorem WindowOnly.unknown (h : WindowOnly server agent report period l l') :
    ¬l.KnownTarget report := by
  rintro ⟨hin,hpath⟩
  obtain ⟨l1,stream,hload,hup⟩ := h.window
  obtain ⟨hserver,huser⟩ := load_known hload
  have hl' : l'={l with streams := l1.streams,periods := l'.periods} := by
    rw [(upsertPeriod_spec hup).1,(upsert_spec hload).1.others]
  have hrefused := h.refused
  unfold insertTrafficReport at hrefused
  split_ifs at hrefused with hbad
  rcases hbad with hid | ⟨-,hrange⟩ | hs | hu | ⟨i,hi,hnot⟩ | ⟨p,hp,hnot⟩
  · exact h.unseen.1 hid
  · exact absurd hrange (by simp [h.unseen.2])
  · exact hs (hl' ▸ hserver)
  · exact hu (hl' ▸ huser)
  · exact hnot (hl' ▸ hin i hi)
  · exact hnot (hl' ▸ hpath p hp)

theorem StatesHold.quiet
    (h : l.StatesHold stale) (hq : Quiet l l' k u) (hp : l'.periods=l.periods) :
    l'.StatesHold stale :=
  h.of_periods hp (fun k => le_trans (h.checkpoints k) (hq.checkpoint_le h.checkpoints k))

theorem StatesHold.observe (h : l.StatesHold stale)
    (hup : l.upsertTrafficStreamTxReturn server agent obs=.ok (l',stream)) : l'.StatesHold stale :=
  h.quiet (upsert_quiet hup) (by rw [(upsert_spec hup).1.others])

theorem Billed.deltas_nonneg (h : ∀k,(0,0)≤l.checkpoint k) (hb : Billed l l' server report period) :
    0≤uploadDelta report ∧ 0≤downloadDelta report := by
  obtain ⟨⟨-,hup⟩,-,hdown⟩ := hb.counters h
  rw [(hb.deltas h).1,(hb.deltas h).2]
  omega

theorem limitKeepsState_congr (hp : l'.periods=l.periods) :
    l'.LimitKeepsState period ↔ l.LimitKeepsState period := by
  unfold LimitKeepsState
  rw [hp]

theorem StatesHold.commitReport (h : l.StatesHold none) (hkeep : l.CommitKeeps report period)
    (hcommit : commitTrafficReportTx server agent report period l=.ok (l',a,c)) :
    l'.StatesHold none := by
  obtain ⟨hlimit,hkeep⟩ := hkeep
  rw [← periodOrReport_limit] at hlimit
  rcases commitTrafficReportTx_cases hcommit with ⟨-,hq,-,⟨hp,-⟩ | hw⟩ |
    ⟨ha,l1,stream,l2,l3,hload,-,hup,hins,hl'⟩
  · exact h.quiet hq hp
  · obtain ⟨l1,stream,hload,hup⟩ := hw.window
    have hkept := hkeep.resolve_left (fun hr => hw.unknown hr.2)
    have hsame : l1.periods=l.periods := by rw [(upsert_spec hload).1.others]
    exact (h.observe hload).window_keeps hlimit ((limitKeepsState_congr hsame).mpr hkept) hup
  · rcases commitTrafficReportTx_spec hcommit with ⟨hna,-⟩ | ⟨-,hb⟩
    · exact absurd ha hna
    obtain ⟨hdu,hdd⟩ := hb.deltas_nonneg h.checkpoints
    have hperiods : l'.periods=l2.periods.modify ⟨report.userID,report.periodKey⟩
        (addUsage (uploadDelta report) (downloadDelta report)) := by
      rw [hl',insertTrafficReport_spec hins]
      rfl
    have hcp := fun k => le_trans (h.checkpoints k) (hb.checkpoint_le h.checkpoints k)
    rcases hkeep with ⟨hr,-⟩ | hkept
    · have hl2 := (h.observe hload).window hlimit hup
      rw [(periodOrReport_key hr).1,(periodOrReport_key hr).2] at hl2
      have := hl2.charge hdu hdd hperiods hcp
      rwa [if_pos rfl] at this
    have hsame : l1.periods=l.periods := by rw [(upsert_spec hload).1.others]
    have hl2 := (h.observe hload).window_keeps hlimit ((limitKeepsState_congr hsame).mpr hkept) hup
    exact (hl2.charge hdu hdd hperiods hcp).unstale

theorem StatesHold.commit (h : l.StatesHold none)
    (hkeep : BatchGuarded (fun m _ report period => m.CommitKeeps report period) l batch) :
    (l.commitStep batch).1.StatesHold none := by
  refine commitStep_steps (fun l _ => l.StatesHold none) _ ?_ (fun hp hup => hp.observe hup)
    (fun hp hk hstep => hp.commitReport hk hstep) (w := []) hkeep h
  intro m m' _ hm hm'
  rw [hm']
  exact hm.of_periods rfl hm.checkpoints

end Commit

section Migrate

variable {m : TrafficPeriodMigration} {ts target : String}

/-- Where a migration opens its target period, the moved usage is a 64-bit integer. -/
def MigrateKeeps (l : Ledger) (m : TrafficPeriodMigration) (ts : String) : Prop :=
  m.trafficLimit<2^63 ∧
    ∀target,l.migrationTarget m ts=.ok target → l.periods.lookup ⟨m.userID,target⟩=none →
      (l.periodTotals ⟨m.userID,m.sourcePeriodKey⟩).1+
        (l.periodTotals ⟨m.userID,m.sourcePeriodKey⟩).2<2^63

theorem scanTotals_periodTotals (h : l.scanTotals k=.ok totals) :
    totals=l.periodTotals k ∧ Fits totals.1 ∧ Fits totals.2 := by
  obtain ⟨rfl,hfits⟩ := scanTotals_ok h
  refine ⟨?_,hfits⟩
  unfold periodColumn periodTotals
  cases l.periods.lookup k <;> rfl

section

variable (h : l.StatesHold none)
include h

theorem StatesHold.totals_nonneg (k) : 0≤(l.periodTotals k).1 ∧ 0≤(l.periodTotals k).2 := by
  unfold periodTotals
  cases hrow : l.periods.lookup k with
  | none => exact ⟨le_rfl,le_rfl⟩
  | some row => exact ⟨(h.counted k row hrow).1,(h.counted k row hrow).2.1⟩

theorem StatesHold.receive (hlimit : m.trafficLimit<2^63) (hup : 0≤up) (hdown : 0≤down)
    (hused : l.periods.lookup ⟨m.userID,target⟩=none → used=up+down) :
    (l.receiveUsage m target up down used).Counted ∧
      (l.receiveUsage m target up down used).Truthful := by
  unfold receiveUsage
  cases hrow : l.periods.lookup ⟨m.userID,target⟩ with
  | none =>
    rw [hused hrow]
    exact ⟨⟨hup,hdown,hlimit⟩,periodState_eq_quotaExceeded⟩
  | some row =>
    obtain ⟨hu,hd,-⟩ := h.counted _ _ hrow
    refine ⟨⟨sqlAdd_nonneg hu hup,sqlAdd_nonneg hd hdown,hlimit⟩,?_⟩
    unfold PeriodRow.Truthful
    simp only [PeriodRow.usedBytes,periodState_eq_quotaExceeded]
    rw [le_sqlAdd_sum hlimit hu hd hup hdown]

theorem StatesHold.migrates (hkeep : l.MigrateKeeps m ts)
    (hm : Migrates l l' m ts target) : l'.StatesHold none := by
  obtain ⟨moved,existing,hmoved,hexisting,hperiods⟩ := hm.periods
  obtain ⟨hmv,hfu,hfd⟩ := scanTotals_periodTotals hmoved
  obtain ⟨hup,hdown⟩ := h.totals_nonneg ⟨m.userID,m.sourcePeriodKey⟩
  rw [← hmv] at hup hdown
  have hused : l.periods.lookup ⟨m.userID,target⟩=none →
      wrap (wrap (existing.1+moved.1)+wrap (existing.2+moved.2))=moved.1+moved.2 := by
    intro hnone
    have hsum := hkeep.2 target hm.resolved hnone
    rw [← hmv] at hsum
    have hex : existing=(0,0) := by
      rw [(scanTotals_periodTotals hexisting).1,periodTotals,hnone]
      rfl
    rw [hex,zero_add,zero_add,wrap_of_fits hfu,wrap_of_fits hfd,
      wrap_of_fits (fits_of_bounds (add_nonneg hup hdown) le_rfl hsum)]
  obtain ⟨hc,ht⟩ := h.receive hkeep.1 hup hdown hused
  have hemptied : ∀row : PeriodRow,row.Counted →
      PeriodRow.Counted {row with uploadBytes := 0,downloadBytes := 0,state := .active} ∧
      PeriodRow.Truthful {row with uploadBytes := 0,downloadBytes := 0,state := .active} :=
    fun row hrow => ⟨⟨le_rfl,le_rfl,hrow.2.2⟩,PeriodRow.truthful_of_unused rfl (add_zero 0)⟩
  have hl' := (h.insert_truthful (k := ⟨m.userID,target⟩) hc ht).modify
    (k := ⟨m.userID,m.sourcePeriodKey⟩) (f := fun row =>
      {row with uploadBytes := 0,downloadBytes := 0,state := .active}) hemptied
  exact hl'.unstale.of_periods hperiods (hm.checkpoint ▸ h.checkpoints)

theorem StatesHold.migrate (hkeep : l.MigrateKeeps m ts) :
    (l.eventStep (.migrate m ts)).1.StatesHold none := by
  simp only [eventStep]
  cases hm : l.migrateTrafficPeriodTx m ts with
  | error e => exact h
  | ok l' =>
    rcases migrateTrafficPeriodTx_cases hm with rfl | ⟨target,hmoves⟩
    · exact h
    · exact h.migrates hkeep hmoves

end

end Migrate

/-- The condition under which a call leaves every state it writes right. -/
def CallKeeps (l : Ledger) : PeriodCall → Prop
  | .ensure request => l.EnsureKeeps request
  | .ensureAll requests => Guarded trafficPeriodUpsert EnsureKeeps l (l.pendingRequests requests)
  | .addReports reports period => l.AddKeeps reports period
  | .event (.commit batch) =>
    BatchGuarded (fun m _ report period => m.CommitKeeps report period) l batch
  | .event (.migrate m ts) => l.MigrateKeeps m ts

theorem StatesHold.step (h : l.StatesHold none) (hkeep : l.CallKeeps call) :
    (l.periodStep call).1.StatesHold none := by
  cases call with
  | ensure request => exact h.ensure hkeep
  | ensureAll requests => exact h.ensureAll hkeep
  | addReports reports period => exact h.addTrafficReports hkeep
  | event event =>
    cases event with
    | commit batch => exact h.commit hkeep
    | migrate m ts => exact h.migrate hkeep

theorem StatesHold.run (h : l.StatesHold none) (hg : RunGuarded periodStep CallKeeps l calls) :
    (run periodStep l calls).1.StatesHold none :=
  run_invariant (fun l _ => l.StatesHold none) CallKeeps (fun hk hs => hs.step hk) (w := []) hg h

theorem StatesHold.of_empty (hp : l.periods=∅) (hs : l.streams=∅) : l.StatesHold none := by
  refine ⟨?_,?_,?_⟩
  · intro k row hrow
    simp [hp] at hrow
  · intro k row hrow
    simp [hp] at hrow
  · intro k
    simp [checkpoint,hs]

/-- Calls that keep their quotas leave only truthful states, and writing a window does exactly if it
keeps the quota of its row. -/
theorem period_states_truthful (l : Ledger) (hp : l.periods=∅) (hs : l.streams=∅)
    (calls : List PeriodCall) (hg : RunGuarded periodStep CallKeeps l calls) (reached : Ledger)
    (hr : reached=(run periodStep l calls).1) : reached.TruthfulStates ∧
    ∀request : TrafficPeriodRequest,request.userID∈reached.users →
      ((reached.ensureTrafficPeriod request).1.TruthfulStates ↔ reached.EnsureKeeps request) ∧
      ((reached.ensureTrafficPeriod request).1.ensureTrafficPeriod request=
        reached.ensureTrafficPeriod request ↔ reached.EnsureKeeps request) := by
  have h : reached.StatesHold none := hr ▸ (StatesHold.of_empty hp hs).run hg
  exact ⟨h.truthfulStates,fun _ hu => ⟨h.ensure_iff hu,h.ensure_twice_iff hu⟩⟩

def january (limit : Int) (h : Fits limit) : TrafficPeriodRequest := ⟨1,"2025-01",0,0,limit,h⟩

def overQuota : PeriodCall :=
  .addReports [⟨"a",1,1,none,none,"2025-01",150,0⟩] ⟨1,"2025-01",0,0,0,0,100⟩

def quotaRun : List PeriodCall :=
  [.ensure (january 100 (by decide)),overQuota,.ensure (january 200 (by decide)),
    .event (.commit (oneReport "b" "2025-01" 0 10 0 0 (by decide))),
    .event (.migrate (moveUser "2025-01" "2025-02") "2025-01-15T00:00:00Z")]

private theorem quotaRun_keeps : RunGuarded periodStep CallKeeps oneUser quotaRun := by
  have hrow : AList.lookup ⟨1,"2025-01"⟩
      (run periodStep oneUser [.ensure (january 100 (by decide)),overQuota]).1.periods=
      some ⟨0,0,150,0,100,.quotaExceeded⟩ := by decide +kernel
  refine ⟨?_,⟨by decide,.inl ⟨[],_,[],rfl,rfl,by decide,by decide +kernel,by simp⟩⟩,?_,?_,?_,trivial⟩
  · intro row h
    cases h
  · intro row h
    obtain rfl := Option.some.inj (hrow.symm.trans h)
    decide
  · rintro m _ ⟨⟩
    exact ⟨⟨by decide,.inl ⟨.inl rfl,by simp [KnownTarget]⟩⟩,fun _ _ _ => trivial⟩
  · exact ⟨by decide,fun _ _ _ => by decide +kernel⟩

theorem quotaRun_truthful : (run periodStep oneUser quotaRun).1.periods.lookup ⟨1,"2025-02"⟩=
      some ⟨0,0,160,0,0,.active⟩ ∧
    TruthfulStates (run periodStep oneUser quotaRun).1 :=
  ⟨by decide +kernel,(period_states_truthful oneUser rfl rfl quotaRun quotaRun_keeps _ rfl).1⟩

/-- Lifting the limit of a used window stores an exceeded quota without a limit, and ensuring the
same window once more stores another row. -/
theorem lifted_limit_reads_exceeded :
    (run periodStep oneUser [.ensure (january 100 (by decide)),overQuota,
      .ensure (january 0 (by decide))]).1.periods.lookup ⟨1,"2025-01"⟩=
        some ⟨0,0,150,0,0,.quotaExceeded⟩ ∧
    (run periodStep oneUser [.ensure (january 100 (by decide)),overQuota,
      .ensure (january 0 (by decide)),.ensure (january 0 (by decide))]).1.periods.lookup
        ⟨1,"2025-01"⟩=some ⟨0,0,150,0,0,.active⟩ := by
  decide +kernel

end Oboard.Store.Ledger
