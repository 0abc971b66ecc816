import Oboard.Store.PeriodTransitions

namespace Oboard.Store

open Runs Word64 GoText Redirects List Table PeriodRow

namespace Ledger

/-- Transitions are one link long, and a period that has one holds no bytes. -/
structure Migrated (l : Ledger) : Prop where
  flat : ∀u,Flat (l.nextPeriod u)
  named : ∀u p q,l.nextPeriod u p=some q → q≠"" ∧ 0<u
  emptied : ∀u p row,(l.nextPeriod u p).isSome → l.periods.lookup ⟨u,p⟩=some row →
    row.uploadBytes=0 ∧ row.downloadBytes=0

variable {l : Ledger}

theorem Migrated.of_no_transitions (h : l.transitions=∅) : Migrated l := by
  have hnone : ∀u p,l.nextPeriod u p=none := by simp [nextPeriod,h]
  refine ⟨?_,?_,?_⟩
  · intro u a b hab
    rw [hnone] at hab
    cases hab
  · intro u p q hpq
    rw [hnone] at hpq
    cases hpq
  · intro u p row hp
    simp [hnone] at hp

section Step

variable {l l' : Ledger} {m : TrafficPeriodMigration} {ts target : String}

theorem Migrated.resolveTrafficPeriodKey (h : Migrated l) (u) (p) :
    l.resolveTrafficPeriodKey u p=.ok (finish (l.nextPeriod u) p,(l.nextPeriod u p).isSome) :=
  resolveChain_flat (h.flat u) (fun p q hpq => (h.named u p q hpq).1) 14 p

theorem Migrated.resolveTrafficPeriodKeyTx (h : Migrated l) (u) (p) :
    l.resolveTrafficPeriodKeyTx u p=.ok (finish (l.nextPeriod u) p) := by
  rw [resolveTrafficPeriodKeyTx_eq,h.resolveTrafficPeriodKey]
  rfl

def generatedKey (m : TrafficPeriodMigration) (ts : String) : String :=
  m.targetPeriodKey++"#migration-"++removeChars ['-',':','.','Z','+'] ts

/-- A generated key that no transition of the user mentions. -/
def NewGeneratedKey (l : Ledger) (m : TrafficPeriodMigration) (ts : String) : Prop :=
  l.resolveTrafficPeriodKeyTx m.userID m.targetPeriodKey=.ok m.sourcePeriodKey →
    ∀p q,l.nextPeriod m.userID p=some q → p≠generatedKey m ts ∧ q≠generatedKey m ts

theorem newGeneratedKey_iff :
    (l.resolveTrafficPeriodKeyTx m.userID m.targetPeriodKey=.ok m.sourcePeriodKey →
      ∀row∈l.transitions.rows,row.1.userID=m.userID →
        row.1.periodKey≠generatedKey m ts ∧ row.2.targetPeriodKey≠generatedKey m ts) ↔
    l.NewGeneratedKey m ts := by
  refine imp_congr_right fun _ => ⟨?_,?_⟩
  · intro h p q hpq
    obtain ⟨row,hrow,rfl⟩ := Option.map_eq_some_iff.mp hpq
    exact h (⟨m.userID,p⟩,row) (mem_rows.mpr hrow) rfl
  · rintro h ⟨⟨u,p⟩,row⟩ hrow rfl
    exact h p row.targetPeriodKey (by simp [Ledger.nextPeriod,mem_rows.mp hrow])

instance (l : Ledger) (m : TrafficPeriodMigration) (ts : String) :
    Decidable (l.NewGeneratedKey m ts) := decidable_of_iff _ newGeneratedKey_iff

theorem generatedKey_ne_empty : generatedKey m ts≠"" := by
  unfold generatedKey
  intro h
  have := congrArg String.length h
  simp [String.length_append] at this

theorem Migrates.target_cases (h : Migrated l) (hm : Migrates l l' m ts target) :
    (finish (l.nextPeriod m.userID) m.targetPeriodKey=m.sourcePeriodKey ∧
        target=generatedKey m ts) ∨
      (finish (l.nextPeriod m.userID) m.targetPeriodKey≠m.sourcePeriodKey ∧
        target=finish (l.nextPeriod m.userID) m.targetPeriodKey) := by
  have hr := hm.resolved
  unfold migrationTarget at hr
  rw [h.resolveTrafficPeriodKeyTx] at hr
  simp only [bind,Except.bind,pure] at hr
  split_ifs at hr with hback
  · exact .inl ⟨hback,(Except.ok.inj hr).symm⟩
  · exact .inr ⟨hback,(Except.ok.inj hr).symm⟩

theorem Migrates.target_free (h : Migrated l) (hnew : l.NewGeneratedKey m ts)
    (hm : Migrates l l' m ts target) :
    l.nextPeriod m.userID target=none ∧ target≠m.sourcePeriodKey ∧ target≠"" := by
  rcases hm.target_cases h with ⟨hback,rfl⟩ | ⟨hback,rfl⟩
  · have hnew := hnew (by rw [h.resolveTrafficPeriodKeyTx,hback])
    -- the target resolves to the source, so the source is the target of a transition
    have hnext : l.nextPeriod m.userID m.targetPeriodKey=some m.sourcePeriodKey := by
      cases hp : l.nextPeriod m.userID m.targetPeriodKey with
      | none => exact absurd (finish_of_none hp ▸ hback).symm hm.valid.2.2.2
      | some q => rw [← hback,finish_of_some hp]
    refine ⟨?_,(hnew _ _ hnext).2.symm,generatedKey_ne_empty⟩
    cases hgen : l.nextPeriod m.userID (generatedKey m ts) with
    | none => rfl
    | some q => exact absurd rfl (hnew _ _ hgen).1
  · refine ⟨(h.flat m.userID).finish_stays _,hback,?_⟩
    cases hp : l.nextPeriod m.userID m.targetPeriodKey with
    | none =>
      rw [finish_of_none hp]
      exact hm.valid.2.2.1
    | some q =>
      rw [finish_of_some hp]
      exact (h.named _ _ _ hp).1

variable {p q : String} {u : Int} {column : PeriodRow → Int}

private theorem mem_selected {candidates : List String} {g : String → String} :
    p∈((candidates.map (fun p => (p,g p))).filter (·.2=q)).map Prod.fst ↔ p∈candidates ∧ g p=q := by
  simp [mem_filter]

theorem mem_candidates : p∈(l.transitions.entries.filter (·.1.userID=u)).map (·.1.periodKey) ↔
      ∃q,l.nextPeriod u p=some q := by
  simp only [mem_map,mem_filter,decide_eq_true_eq,Ledger.nextPeriod, Option.map_eq_some_iff]
  constructor
  · rintro ⟨⟨⟨v,q⟩,row⟩,⟨he,rfl⟩,rfl⟩
    exact ⟨_,row,(mem_entries_iff _ _ _).mp he,rfl⟩
  · rintro ⟨q,row,hrow,-⟩
    exact ⟨⟨⟨u,p⟩,row⟩,⟨(mem_entries_iff _ _ _).mpr hrow,rfl⟩,rfl⟩

theorem Migrated.mem_aliases (h : Migrated l) {source : String}
    (ha : l.trafficPeriodAliasesTx u source=.ok aliases) :
    p∈aliases ↔ l.nextPeriod u p=some source := by
  simp only [trafficPeriodAliasesTx] at ha
  rw [collect_pure (g := fun p => (p,finish (l.nextPeriod u) p))
    (fun p => by rw [h.resolveTrafficPeriodKeyTx]; rfl)] at ha
  rw [← Except.ok.inj ha,mem_selected,mem_candidates]
  constructor
  · rintro ⟨⟨q,hq⟩,hfin⟩
    rw [hq,← hfin,finish_of_some hq]
  · intro hp
    exact ⟨⟨_,hp⟩,finish_of_some hp⟩

theorem Migrates.nextPeriod (h : Migrated l) (hm : Migrates l l' m ts target) (u)
    (p) : l'.nextPeriod u p=if u=m.userID then
      redirect (l.nextPeriod u) m.sourcePeriodKey target p else l.nextPeriod u p := by
  obtain ⟨aliases,ha,ht⟩ := hm.transitions
  have hmem := fun p => h.mem_aliases (p := p) ha
  have hlookup : l'.nextPeriod u p=((repointAliases (l.transitions.insert
      ⟨m.userID,m.sourcePeriodKey⟩ ⟨target,ts⟩) m.userID target aliases).lookup ⟨u,p⟩).map
        Transition.targetPeriodKey := by rw [Ledger.nextPeriod,ht]
  rw [hlookup,lookup_repointAliases,lookup_insert_eq]
  by_cases hu : u=m.userID
  · subst hu
    by_cases hp : p=m.sourcePeriodKey
    · subst hp
      simp [redirect]
    have hne : (⟨m.userID,p⟩ : PeriodKey)≠⟨m.userID,m.sourcePeriodKey⟩ := by
      rintro ⟨⟩
      exact hp rfl
    simp only [true_and,redirect,hp,false_or,hmem]
    split_ifs with hsource
    · obtain ⟨row,hrow,-⟩ := Option.map_eq_some_iff.mp hsource
      rw [hrow]
      rfl
    · rfl
  · have hne : (⟨u,p⟩ : PeriodKey)≠⟨m.userID,m.sourcePeriodKey⟩ := by
      rintro ⟨⟩
      exact hu rfl
    simp only [hu,if_neg hne]
    rfl

theorem Migrated.migrate (h : Migrated l) (hnew : l.NewGeneratedKey m ts)
    (hm : Migrates l l' m ts target) : Migrated l' := by
  obtain ⟨hfree,hne,hname⟩ := hm.target_free h hnew
  refine ⟨?_,?_,?_⟩
  · intro u
    have hnext := funext (hm.nextPeriod h u)
    by_cases hu : u=m.userID
    · subst hu
      simp only [if_true] at hnext
      exact hnext ▸ (h.flat m.userID).redirect hfree hne
    · simp only [if_neg hu] at hnext
      exact hnext ▸ h.flat u
  · intro u p q hpq
    rw [hm.nextPeriod h] at hpq
    split_ifs at hpq with hu
    · unfold redirect at hpq
      split_ifs at hpq with hp
      · cases hpq
        exact ⟨hname,hu ▸ hm.valid.1⟩
      · exact h.named u p q hpq
    · exact h.named u p q hpq
  · intro u p row hsome hrow
    obtain ⟨moved,existing,-,-,hperiods⟩ := hm.periods
    rw [hperiods,lookup_modify] at hrow
    split_ifs at hrow with hsource
    · obtain ⟨old,-,rfl⟩ := Option.map_eq_some_iff.mp hrow
      exact ⟨rfl,rfl⟩
    rw [lookup_insert_eq] at hrow
    split_ifs at hrow with htarget
    · cases htarget
      simp [hm.nextPeriod h,redirect,hfree,hne] at hsome
    refine h.emptied u p row ?_ hrow
    rw [hm.nextPeriod h] at hsome
    split_ifs at hsome with hu
    · subst hu
      have hp : p≠m.sourcePeriodKey := by
        rintro rfl
        exact hsource rfl
      unfold redirect at hsome
      split_ifs at hsome with hmoved
      · rw [hmoved.resolve_left hp]
        rfl
      · exact hsome
    · exact hsome

def userTotal (l : Ledger) (column : PeriodRow → Int) (u : Int) : Int :=
  l.periods.total (fun k row => if k.userID=u then column row else 0)

/-- Counters that never went negative and whose sum is an integer column. -/
structure CountersFit (l : Ledger) (u : Int) : Prop where
  nonneg : ∀p row,l.periods.lookup ⟨u,p⟩=some row → 0≤row.uploadBytes ∧ 0≤row.downloadBytes
  upload : l.userTotal uploadBytes u<2^63
  download : l.userTotal downloadBytes u<2^63

def periodColumn (l : Ledger) (column : PeriodRow → Int) (k : PeriodKey) : Int :=
  (l.periods.lookup k).elim 0 column

theorem scanTotals_ok (h : l.scanTotals k=.ok totals) :
    totals=(l.periodColumn uploadBytes k,l.periodColumn downloadBytes k) ∧
      Fits totals.1 ∧ Fits totals.2 := by
  unfold periodColumn
  unfold scanTotals at h
  cases hrow : l.periods.lookup k with
  | none =>
    rw [hrow] at h
    cases h
    exact ⟨rfl,by decide,by decide⟩
  | some row =>
    simp only [hrow] at h
    split_ifs at h with hfits
    cases h
    exact ⟨rfl,hfits⟩

theorem periodColumn_add_le (hne : p≠q)
    (hpos : ∀p row,l.periods.lookup ⟨u,p⟩=some row → 0≤column row) :
    l.periodColumn column ⟨u,p⟩+l.periodColumn column ⟨u,q⟩≤l.userTotal column u := by
  have hkeys : (⟨u,p⟩ : PeriodKey)≠⟨u,q⟩ := fun h => hne (PeriodKey.mk.inj h).2
  have hrows : ∀k row,l.periods.lookup k=some row → 0 ≤ if k.userID=u then column row else 0 := by
    rintro ⟨v,r⟩ row hrow
    by_cases hv : v=u
    · subst hv
      simpa using hpos r row hrow
    · simp [hv]
  simpa [periodColumn,userTotal] using add_le_total hkeys hrows

theorem userTotal_move (hne : target≠source)
    (hl : l'.periods=Table.modify ⟨u,source⟩ clear (l.periods.insert ⟨u,target⟩ row))
    (hclear : ∀r,column (clear r)=0)
    (hrow : column row=l.periodColumn column ⟨u,target⟩+l.periodColumn column ⟨u,source⟩) :
    l'.userTotal column v=l.userTotal column v := by
  unfold userTotal
  rw [hl]
  apply total_move
  · exact fun h => hne (PeriodKey.mk.inj h).2.symm
  · by_cases hv : u=v
    · subst hv
      simpa [periodColumn] using hrow
    · cases l.periods.lookup ⟨u,target⟩ <;> cases l.periods.lookup ⟨u,source⟩ <;> simp [hv]
  · simp [hclear]

theorem receiveUsage_exact (hup : Fits up) (hdown : Fits down)
    (hscan : ∃existing,l.scanTotals ⟨m.userID,target⟩=.ok existing)
    (hu : Fits (l.periodColumn uploadBytes ⟨m.userID,target⟩+up))
    (hd : Fits (l.periodColumn downloadBytes ⟨m.userID,target⟩+down)) :
    (l.receiveUsage m target up down used).uploadBytes=
        l.periodColumn uploadBytes ⟨m.userID,target⟩+up ∧
      (l.receiveUsage m target up down used).downloadBytes=
        l.periodColumn downloadBytes ⟨m.userID,target⟩+down := by
  obtain ⟨existing,hscan⟩ := hscan
  obtain ⟨rfl,hfu,hfd⟩ := scanTotals_ok hscan
  unfold receiveUsage
  unfold periodColumn at hfu hfd hu hd ⊢
  cases hrow : l.periods.lookup ⟨m.userID,target⟩ with
  | none => simp
  | some row =>
    simp only [hrow] at hfu hfd hu hd ⊢
    exact ⟨sqlAdd_of_fits hfu hup hu,sqlAdd_of_fits hfd hdown hd⟩

theorem periodColumn_nonneg (hpos : ∀p row,l.periods.lookup ⟨u,p⟩=some row → 0≤column row) : 0≤l.periodColumn column ⟨u,p⟩ := by
  unfold periodColumn
  cases hr : l.periods.lookup ⟨u,p⟩ with
  | none => exact le_rfl
  | some row => exact hpos p row hr

theorem CountersFit.column_nonneg (hfit : l.CountersFit u) (p) :
    0≤l.periodColumn uploadBytes ⟨u,p⟩ ∧ 0≤l.periodColumn downloadBytes ⟨u,p⟩ :=
  ⟨periodColumn_nonneg (fun p row hr => (hfit.nonneg p row hr).1),
    periodColumn_nonneg (fun p row hr => (hfit.nonneg p row hr).2)⟩

theorem sum_fits (hne : p≠q) (hpos : ∀p row,l.periods.lookup ⟨u,p⟩=some row → 0≤column row)
    (hlt : l.userTotal column u<2^63) :
    Fits (l.periodColumn column ⟨u,p⟩+l.periodColumn column ⟨u,q⟩) :=
  fits_of_bounds (Int.add_nonneg (periodColumn_nonneg hpos) (periodColumn_nonneg hpos))
    (periodColumn_add_le hne hpos) hlt

section

variable (h : Migrated l) (hnew : l.NewGeneratedKey m ts) (hm : Migrates l l' m ts target)
include h hnew hm

theorem Migrates.moves (hfit : l.CountersFit m.userID) :
    ∃row,l'.periods=Table.modify ⟨m.userID,m.sourcePeriodKey⟩
        (fun row => {row with uploadBytes := 0,downloadBytes := 0,state := .active})
        (l.periods.insert ⟨m.userID,target⟩ row) ∧
      row.uploadBytes=l.periodColumn uploadBytes ⟨m.userID,target⟩+
        l.periodColumn uploadBytes ⟨m.userID,m.sourcePeriodKey⟩ ∧
      row.downloadBytes=l.periodColumn downloadBytes ⟨m.userID,target⟩+
        l.periodColumn downloadBytes ⟨m.userID,m.sourcePeriodKey⟩ := by
  obtain ⟨-,hne,-⟩ := hm.target_free h hnew
  obtain ⟨moved,existing,hmoved,hexisting,hperiods⟩ := hm.periods
  obtain ⟨rfl,hmu,hmd⟩ := scanTotals_ok hmoved
  have hup := sum_fits hne (fun p row hr => (hfit.nonneg p row hr).1) hfit.upload
  have hdown := sum_fits hne (fun p row hr => (hfit.nonneg p row hr).2) hfit.download
  exact ⟨_,hperiods,receiveUsage_exact hmu hmd ⟨existing,hexisting⟩ hup hdown⟩

theorem Migrates.conserves (hfit : l.CountersFit m.userID) (u) :
    l'.userTotal uploadBytes u=l.userTotal uploadBytes u ∧
      l'.userTotal downloadBytes u=l.userTotal downloadBytes u := by
  obtain ⟨-,hne,-⟩ := hm.target_free h hnew
  obtain ⟨row,hperiods,hu,hd⟩ := hm.moves h hnew hfit
  exact ⟨userTotal_move hne hperiods (fun _ => rfl) hu,
    userTotal_move hne hperiods (fun _ => rfl) hd⟩

theorem CountersFit.migrate (hfit : ∀u,l.CountersFit u) (u) : l'.CountersFit u := by
  obtain ⟨hu,hd⟩ := hm.conserves h hnew (hfit m.userID) u
  refine ⟨?_,hu ▸ (hfit u).upload,hd ▸ (hfit u).download⟩
  intro p row hrow
  obtain ⟨received,hperiods,hup,hdown⟩ := hm.moves h hnew (hfit m.userID)
  rw [hperiods,lookup_modify] at hrow
  split_ifs at hrow with hsource
  · obtain ⟨old,-,rfl⟩ := Option.map_eq_some_iff.mp hrow
    exact ⟨le_rfl,le_rfl⟩
  rw [lookup_insert_eq] at hrow
  split_ifs at hrow with htarget
  · cases hrow
    rw [hup,hdown]
    have hcol := fun p => (hfit m.userID).column_nonneg p
    exact ⟨Int.add_nonneg (hcol _).1 (hcol _).1,Int.add_nonneg (hcol _).2 (hcol _).2⟩
  · exact (hfit u).nonneg p row hrow

end

end Step

def migrateStep (l : Ledger) (call : TrafficPeriodMigration×String) :
    Ledger×List (Int×TrafficReport) := l.eventStep (.migrate call.1 call.2)

theorem migrateStep_cases (l) (call) :
    (l.migrateStep call).1=l ∨ ∃target,Migrates l (l.migrateStep call).1 call.1 call.2 target := by
  cases hm : l.migrateTrafficPeriodTx call.1 call.2 with
  | error e => exact .inl (by simp only [migrateStep,eventStep,hm])
  | ok l' =>
    have hstep : (l.migrateStep call).1=l' := by simp only [migrateStep,eventStep,hm]
    rw [hstep]
    exact migrateTrafficPeriodTx_cases hm

/-- What the readers of the transitions rely on. -/
structure FlatTransitions (l : Ledger) : Prop where
  acyclic : ∀u p,¬Relation.TransGen (l.Points u) p p
  ends : ∀u p q,l.Points u p q → ∀r,¬l.Points u q r
  resolves : ∀u p,∃q changed,l.resolveTrafficPeriodKeyTx u p=.ok q ∧
    l.resolveTrafficPeriodKeyTx u q=.ok q ∧
    l.resolveTrafficPeriodKey u p=.ok (q,changed) ∧ l.resolveTrafficPeriodKey u q=.ok (q,false) ∧
    ∀userIDs,u∈userIDs → (l.transitionSet userIDs u).resolve p=.ok (q,changed) ∧
      (l.transitionSet userIDs u).resolve q=.ok (q,false)
  bytes : ∀u p row,l.periods.lookup ⟨u,p⟩=some row → row.uploadBytes≠0 ∨ row.downloadBytes≠0 →
    l.resolveTrafficPeriodKeyTx u p=.ok p

theorem points_iff : l.Points u p q ↔ l.nextPeriod u p=some q := by
  rw [nextPeriod,Option.map_eq_some_iff]
  rfl

theorem Migrated.flatTransitions (h : Migrated l) : FlatTransitions l := by
  have hpoints : ∀u,l.Points u=fun p q => l.nextPeriod u p=some q :=
    fun u => funext fun p => funext fun q => propext points_iff
  have hset : ∀{userIDs} {u},u∈userIDs → ∀p,
      (l.transitionSet userIDs u).resolve p=l.resolveTrafficPeriodKey u p :=
    fun {_ u} hu p => l.transitionSet_resolve hu (fun p q hpq => (h.named u p q hpq).2) p
  refine ⟨?_,?_,?_,?_⟩
  · intro u p
    rw [hpoints]
    exact (h.flat u).acyclic p
  · intro u p q hpq r hqr
    have hq := h.flat u (points_iff.mp hpq)
    rw [points_iff.mp hqr] at hq
    cases hq
  · intro u p
    have hend : l.nextPeriod u (finish (l.nextPeriod u) p)=none := (h.flat u).finish_stays p
    have hagain : l.resolveTrafficPeriodKey u (finish (l.nextPeriod u) p)=
        .ok (finish (l.nextPeriod u) p,false) := by
      rw [h.resolveTrafficPeriodKey,hend,finish_of_none hend]
      rfl
    refine ⟨_,_,h.resolveTrafficPeriodKeyTx u p,?_,h.resolveTrafficPeriodKey u p,hagain,
      fun userIDs hu => ⟨?_,?_⟩⟩
    · rw [resolveTrafficPeriodKeyTx_eq,hagain]
      rfl
    · rw [hset hu,h.resolveTrafficPeriodKey]
    · rw [hset hu,hagain]
  · intro u p row hrow hbytes
    have hnone : l.nextPeriod u p=none := by
      cases hp : l.nextPeriod u p with
      | none => rfl
      | some q =>
        obtain ⟨hu,hd⟩ := h.emptied u p row (by simp [hp]) hrow
        exact absurd hbytes (by simp [hu,hd])
    rw [h.resolveTrafficPeriodKeyTx,finish_of_none hnone]

/-- A run that has moved bytes between the periods of its users only. -/
structure Conserved (start l : Ledger) : Prop where
  migrated : Migrated l
  fit : ∀u,l.CountersFit u
  upload : ∀u,l.userTotal uploadBytes u=start.userTotal uploadBytes u
  download : ∀u,l.userTotal downloadBytes u=start.userTotal downloadBytes u

variable {call : TrafficPeriodMigration×String}

theorem Migrated.step
    (hnew : l.NewGeneratedKey call.1 call.2) (h : Migrated l) : Migrated (l.migrateStep call).1 := by
  rcases l.migrateStep_cases call with heq | ⟨target,hm⟩
  · rwa [heq]
  · exact h.migrate hnew hm

theorem Conserved.step (hnew : l.NewGeneratedKey call.1 call.2) (h : Conserved start l) :
    Conserved start (l.migrateStep call).1 := by
  rcases l.migrateStep_cases call with heq | ⟨target,hm⟩
  · rwa [heq]
  have hsum := hm.conserves h.migrated hnew (h.fit _)
  exact ⟨h.migrated.migrate hnew hm,CountersFit.migrate h.migrated hnew hm h.fit,
    fun u => (hsum u).1.trans (h.upload u),fun u => (hsum u).2.trans (h.download u)⟩

/-- Migrations from an empty transition table keep the transitions flat, and keep the bytes of
every user where the user's totals fit an integer column. -/
theorem migrations_stay_flat (l : Ledger) (hl : l.transitions=∅)
    (calls : List (TrafficPeriodMigration×String))
    (hnew : RunGuarded migrateStep (fun l call => l.NewGeneratedKey call.1 call.2) l calls) :
    FlatTransitions (run migrateStep l calls).1 ∧
    ((∀u,l.CountersFit u) → ∀u, (run migrateStep l calls).1.userTotal uploadBytes u=
        l.userTotal uploadBytes u ∧
      (run migrateStep l calls).1.userTotal downloadBytes u= l.userTotal downloadBytes u) := by
  have hstart := Migrated.of_no_transitions hl
  refine ⟨?_,fun hfit u => ?_⟩
  · have h := run_invariant (fun l _ => Migrated l) _ Migrated.step hnew (w := []) hstart
    exact h.flatTransitions
  have h := run_invariant (fun l' _ => Conserved l l') _ Conserved.step hnew (w := [])
    ⟨hstart,hfit,fun _ => rfl,fun _ => rfl⟩
  exact ⟨h.upload u,h.download u⟩

def usedPeriod : Ledger :=
  {oneUser with
    periods := (∅ : Table PeriodKey PeriodRow).insert ⟨1,"2025-01"⟩ ⟨0,0,100,20,0,.active⟩}

theorem usedPeriod_fits (u) : usedPeriod.CountersFit u := by
  refine ⟨?_,?_,?_⟩
  · intro p row hrow
    rw [usedPeriod,lookup_insert_eq] at hrow
    split_ifs at hrow
    · cases hrow
      decide
    · cases hrow
  all_goals
    by_cases hu : 1=u
    · subst hu
      decide +kernel
    · simp [userTotal,usedPeriod,Table.total,hu]

def thereAndBack : List (TrafficPeriodMigration×String) :=
  [(moveUser "2025-01" "2025-02","2025-01-15T00:00:00Z"),
    (moveUser "2025-02" "2025-01","2025-01-20T00:00:00Z")]

theorem flat_there_and_back :
    RunGuarded migrateStep (fun l call => l.NewGeneratedKey call.1 call.2) usedPeriod thereAndBack ∧
    (run migrateStep usedPeriod thereAndBack).1.nextPeriod 1 "2025-01"=
      some "2025-01#migration-20250120T000000" ∧
    FlatTransitions (run migrateStep usedPeriod thereAndBack).1 ∧
    (run migrateStep usedPeriod thereAndBack).1.userTotal uploadBytes 1=
      usedPeriod.userTotal uploadBytes 1 := by
  have hguard : RunGuarded migrateStep (fun l call => l.NewGeneratedKey call.1 call.2) usedPeriod
      thereAndBack := by decide +kernel
  obtain ⟨hflat,hsum⟩ := migrations_stay_flat usedPeriod rfl thereAndBack hguard
  exact ⟨hguard,by decide +kernel,hflat,(hsum usedPeriod_fits 1).1⟩

/-- Two periods whose uploads together leave the integer range: the sum is stored as a real. -/
theorem overflowing_periods_lose_bytes : ∃l : Ledger,l.transitions=∅ ∧
      RunGuarded migrateStep (fun l call => l.NewGeneratedKey call.1 call.2) l
        [(moveUser "2025-01" "2025-02","2025-01-15T00:00:00Z")] ∧
      l.userTotal uploadBytes 1=2^63+1 ∧
      (run migrateStep l [(moveUser "2025-01" "2025-02","2025-01-15T00:00:00Z")]).1.userTotal
        uploadBytes 1=2^63 := by
  refine ⟨{oneUser with periods := ((∅ : Table PeriodKey PeriodRow).insert ⟨1,"2025-01"⟩
    ⟨0,0,2^63-1,0,0,.active⟩).insert ⟨1,"2025-02"⟩ ⟨0,0,2,0,0,.active⟩},rfl,?_,?_,?_⟩
  · decide +kernel
  · decide +kernel
  · decide +kernel

end Ledger

end Oboard.Store
