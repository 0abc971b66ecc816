import Oboard.Store.TrafficBilling
import Oboard.Framework.Links

namespace Oboard.Store

open GoText Word64 Runs List Except

structure TrafficPeriodMigration where
  userID : Int
  sourcePeriodKey : String
  targetPeriodKey : String
  targetStart : Time
  targetEnd : Time
  trafficLimit : Int

namespace Ledger

def resolveHops (l : Ledger) (userID : Int) : Nat → String → Except TrafficError String
  | 0,_ => .error .transitionChainTooDeep
  | hops+1,current =>
    match l.transitions.lookup ⟨userID,current⟩ with
    | none => .ok current
    | some next =>
      if next.targetPeriodKey="" ∨ next.targetPeriodKey=current then .ok current
      else l.resolveHops userID hops next.targetPeriodKey

def resolveTrafficPeriodKeyTx (l : Ledger) (userID : Int) (periodKey : String) :
    Except TrafficError String := l.resolveHops userID 16 periodKey

def trafficPeriodAliasesTx (l : Ledger) (userID : Int) (targetPeriodKey : String) :
    Except TrafficError (List String) := do
  let candidates := (l.transitions.entries.filter (fun e => e.1.userID=userID)).map
    (fun e => e.1.periodKey)
  let (_,resolved) ← collect (fun (_ : Unit) source => do
    let key ← l.resolveTrafficPeriodKeyTx userID source
    return ((),(source,key))) () candidates
  return (resolved.filter (fun e => e.2=targetPeriodKey)).map Prod.fst

def migrationTarget (l : Ledger) (migration : TrafficPeriodMigration) (ts : String) :
    Except TrafficError String := do
  let targetKey ← l.resolveTrafficPeriodKeyTx migration.userID migration.targetPeriodKey
  if targetKey=migration.sourcePeriodKey then
    return migration.targetPeriodKey++"#migration-"++removeChars ['-',':','.','Z','+'] ts
  else return targetKey

def repointAliases (transitions : Table PeriodKey Transition) (userID : Int) (targetKey : String)
    (aliases : List String) : Table PeriodKey Transition :=
  aliases.foldl (fun t source => t.modify ⟨userID,source⟩
    (fun row => {row with targetPeriodKey := targetKey})) transitions

/-- A total that a Go integer can be read from. -/
def scanTotals (l : Ledger) (k : PeriodKey) : Except TrafficError (Int×Int) :=
  match l.periods.lookup k with
  | none => .ok (0,0)
  | some row =>
    if Fits row.uploadBytes ∧ Fits row.downloadBytes then .ok (row.uploadBytes,row.downloadBytes)
    else .error .columnNotInteger

section

variable (l : Ledger) (migration : TrafficPeriodMigration)

def receiveUsage (targetKey : String) (upload download used : Int) : PeriodRow :=
  let limit := migration.trafficLimit
  match l.periods.lookup ⟨migration.userID,targetKey⟩ with
  | none => ⟨migration.targetStart,migration.targetEnd,upload,download,limit,periodState used limit⟩
  | some row => {row with
      uploadBytes := sqlAdd row.uploadBytes upload
      downloadBytes := sqlAdd row.downloadBytes download
      trafficLimitBytes := limit
      state := periodState (sqlAdd (sqlAdd (sqlAdd row.uploadBytes row.downloadBytes) upload)
        download) limit}

def migrateTrafficPeriodTx (ts : String) : Except TrafficError Ledger :=
  let userID := migration.userID
  let source : PeriodKey := ⟨userID,migration.sourcePeriodKey⟩
  if userID≤0 ∨ migration.sourcePeriodKey="" ∨ migration.targetPeriodKey="" ∨
      migration.sourcePeriodKey=migration.targetPeriodKey then .ok l
  else do
    let targetKey ← l.migrationTarget migration ts
    let aliases ← l.trafficPeriodAliasesTx userID migration.sourcePeriodKey
    if source∈l.transitions then return l
    else if userID∉l.users then .error .constraintFailed
    else
    let transitions := l.transitions.insert source ⟨targetKey,ts⟩
    let l := {l with transitions := repointAliases transitions userID targetKey aliases}
    let (upload,download) ← l.scanTotals source
    let (existingUpload,existingDownload) ← l.scanTotals ⟨userID,targetKey⟩
    let used := wrap (wrap (existingUpload+upload)+wrap (existingDownload+download))
    let row := l.receiveUsage migration targetKey upload download used
    let emptied := fun row : PeriodRow =>
      {row with uploadBytes := 0,downloadBytes := 0,state := .active}
    let periods := Table.modify source emptied (l.periods.insert ⟨userID,targetKey⟩ row)
    return {l with periods := periods,users := l.users.modify userID (fun _ => used)}

end

inductive LedgerEvent where
  | commit (batch : TrafficLedgerCommit)
  | migrate (migration : TrafficPeriodMigration) (ts : String)

/-- One committed or rolled back transaction of a ledger with migrations. -/
def eventStep (l : Ledger) : LedgerEvent → Ledger×List (Int×TrafficReport)
  | .commit batch => l.commitStep batch
  | .migrate migration ts =>
    match l.migrateTrafficPeriodTx migration ts with
    | .error _ => (l,[])
    | .ok l' => (l',[])

def Points (l : Ledger) (u : Int) (p q : String) : Prop :=
  ∃row,l.transitions.lookup ⟨u,p⟩=some row ∧ row.targetPeriodKey=q

def Linked (l : Ledger) (u : Int) (p q : String) : Prop := Relation.EqvGen (l.Points u) p q

variable {l l' : Ledger} {u : Int} {p q ts : String} {m : TrafficPeriodMigration}
  {log : List (Int×TrafficReport)}

theorem linked_congr (h : l'.transitions=l.transitions) : l'.Linked=l.Linked := by
  unfold Linked Points
  rw [h]

theorem resolveHops_linked (h : l.resolveHops u hops p=.ok q) : l.Linked u p q := by
  induction hops generalizing p with
  | zero => simp [resolveHops] at h
  | succ hops ih =>
    unfold resolveHops at h
    cases hrow : l.transitions.lookup ⟨u,p⟩ with
    | none =>
      simp only [hrow,ok.injEq] at h
      exact h ▸ .refl p
    | some row =>
      simp only [hrow] at h
      split_ifs at h
      · exact ok.inj h ▸ .refl p
      · exact .trans _ _ _ (.rel _ _ ⟨row,hrow,rfl⟩) (ih h)

theorem aliases_linked
    (h : l.trafficPeriodAliasesTx u source=.ok aliases) : ∀p∈aliases,l.Linked u p source := by
  obtain ⟨⟨_,resolved⟩,hc,h⟩ := bind_ok h
  have hres := collect_forall (fun e => l.resolveTrafficPeriodKeyTx u e.1=.ok e.2) (by
    intro _ p _ o hstep
    obtain ⟨key,hkey,hret⟩ := bind_ok hstep
    obtain ⟨-,rfl⟩ := Prod.mk.inj (ok.inj hret)
    exact hkey) hc
  obtain rfl := ok.inj h
  intro p hp
  obtain ⟨e,he,rfl⟩ := mem_map.mp hp
  obtain ⟨hmem,hkey⟩ := mem_filter.mp he
  have := hres e hmem
  rw [of_decide_eq_true hkey] at this
  exact resolveHops_linked this

theorem lookup_repointAliases (t) (u) (target)
    (aliases) (k) : (repointAliases t u target aliases).lookup k=
      if k.userID=u ∧ k.periodKey∈aliases then
        (t.lookup k).map (fun row => {row with targetPeriodKey := target})
      else t.lookup k := by
  induction aliases generalizing t with
  | nil => simp [repointAliases]
  | cons p aliases ih =>
    have hstep : repointAliases t u target (p::aliases)=repointAliases (t.modify ⟨u,p⟩
      (fun row => {row with targetPeriodKey := target})) u target aliases := rfl
    rw [hstep,ih,Table.lookup_modify]
    by_cases hk : k=⟨u,p⟩
    · subst hk
      simp only [if_true]
      cases t.lookup ⟨u,p⟩ <;> simp
    have hp : ¬(k.userID=u ∧ k.periodKey=p) := fun h => hk (by cases k; simp_all)
    simp only [if_neg hk,mem_cons]
    by_cases h : k.userID=u ∧ k.periodKey∈aliases
    · rw [if_pos h,if_pos ⟨h.1,.inr h.2⟩]
    rw [if_neg h,if_neg]
    rintro ⟨hu,hmem | hmem⟩
    · exact hp ⟨hu,hmem⟩
    · exact h ⟨hu,hmem⟩

/-- A migration that takes effect. It redirects the source period, and all periods resolving to
it, to its target and moves the usage there. -/
structure Migrates (l l' : Ledger) (m : TrafficPeriodMigration) (ts target : String) : Prop where
  valid : 0 < m.userID ∧ m.sourcePeriodKey≠"" ∧ m.targetPeriodKey≠"" ∧
    m.sourcePeriodKey≠m.targetPeriodKey
  resolved : l.migrationTarget m ts=.ok target
  unmoved : l.transitions.lookup ⟨m.userID,m.sourcePeriodKey⟩=none
  transitions : ∃aliases,l.trafficPeriodAliasesTx m.userID m.sourcePeriodKey=.ok aliases ∧
    l'.transitions=repointAliases (l.transitions.insert ⟨m.userID,m.sourcePeriodKey⟩
      ⟨target,ts⟩) m.userID target aliases
  periods : ∃moved existing,l.scanTotals ⟨m.userID,m.sourcePeriodKey⟩=.ok moved ∧
    l.scanTotals ⟨m.userID,target⟩=.ok existing ∧
    l'.periods=Table.modify ⟨m.userID,m.sourcePeriodKey⟩
      (fun row => {row with uploadBytes := 0,downloadBytes := 0,state := .active})
      (l.periods.insert ⟨m.userID,target⟩ (l.receiveUsage m target moved.1 moved.2
        (wrap (wrap (existing.1+moved.1)+wrap (existing.2+moved.2)))))
  checkpoint : l'.checkpoint=l.checkpoint

theorem migrateTrafficPeriodTx_cases (h : l.migrateTrafficPeriodTx m ts=.ok l') :
    l'=l ∨ ∃target,Migrates l l' m ts target := by
  unfold migrateTrafficPeriodTx at h
  dsimp only at h
  split at h
  · exact .inl (ok.inj h).symm
  rename_i hvalid
  obtain ⟨target,htarget,h⟩ := bind_ok h
  obtain ⟨aliases,haliases,h⟩ := bind_ok h
  split_ifs at h with hsource
  · exact .inl (ok.inj h).symm
  obtain ⟨moved,hmoved,h⟩ := bind_ok h
  obtain ⟨existing,hexisting,h⟩ := bind_ok h
  obtain rfl := ok.inj h
  refine .inr ⟨target,?_,htarget,AList.lookup_eq_none.mpr hsource,⟨aliases,haliases,rfl⟩,
    ⟨moved,existing,hmoved,hexisting,rfl⟩,rfl⟩
  push Not at hvalid
  exact hvalid

theorem migrate_linked (ha : ∀p∈aliases,l.Linked m.userID p m.sourcePeriodKey)
    (ht : l'.transitions=repointAliases (l.transitions.insert ⟨m.userID,m.sourcePeriodKey⟩
      ⟨target,ts⟩) m.userID target aliases)
    (h : l'.Linked u p q) :
    l.Linked u p q ∨ (u=m.userID ∧ Links.Merged (l.Points u) m.sourcePeriodKey target p q) := by
  by_cases hu : u=m.userID
  · subst hu
    refine .inr ⟨rfl,Links.eqvGen_merged ?_ h⟩
    rintro x y ⟨row,hrow,rfl⟩
    rw [ht,lookup_repointAliases] at hrow
    split_ifs at hrow with hx
    · obtain ⟨old,-,rfl⟩ := Option.map_eq_some_iff.mp hrow
      exact .inr (.inl ⟨ha x hx.2,.refl _⟩)
    rcases Table.lookup_insert_cases hrow with ⟨⟨⟩,rfl⟩ | hrow
    · exact .inr (.inl ⟨.refl _,.refl _⟩)
    · exact .inl (.rel _ _ ⟨row,hrow,rfl⟩)
  · left
    refine Relation.EqvGen.mono ?_ _ _ h
    rintro x y ⟨row,hrow,rfl⟩
    have hne : (⟨u,x⟩ : PeriodKey)≠⟨m.userID,m.sourcePeriodKey⟩ := by
      rintro ⟨⟩
      exact hu rfl
    rw [ht,lookup_repointAliases,if_neg (fun h => hu h.1),AList.lookup_insert_ne hne] at hrow
    exact ⟨row,hrow,rfl⟩

/-- A transition into a period that was created after all others into it. -/
def LastInto (l : Ledger) (u : Int) (source target : String) : Prop :=
  ∃ts,l.transitions.lookup ⟨u,source⟩=some ⟨target,ts⟩ ∧ ∀p row,
    l.transitions.lookup ⟨u,p⟩=some row → row.targetPeriodKey=target → p=source ∨ row.createdAt<ts

/-- Of the linked periods the stream is furthest in the report's own one or, where that has no row
yet, in the one that was migrated into it last. -/
def Carried (l : Ledger) (server : Int) (report : TrafficReport) : Prop :=
  let k := reportKey server report
  ∀p,p≠report.periodKey → l.Linked report.userID p report.periodKey →
    l.checkpoint {k with periodKey := p}≤l.checkpoint k ∨
    (l.checkpoint k=(0,0) ∧ ∃source,trimSpace source≠"" ∧ source≠report.periodKey ∧
      l.LastInto report.userID source report.periodKey ∧
      l.checkpoint {k with periodKey := p}≤l.checkpoint {k with periodKey := source})

theorem newestSource_cases (hlast : ∀b∈sources,b=a ∨ b.2<a.2) : newestSource sources=some a ∨
    (a∉sources ∧ ∀b,newestSource sources=some b → b.2<a.2) := by
  induction sources with
  | nil => exact .inr ⟨not_mem_nil,nofun⟩
  | cons b rest ih =>
    have hb := hlast b mem_cons_self
    have ih := ih fun b hm => hlast b (mem_cons_of_mem _ hm)
    cases hrest : newestSource rest with
    | none => simp only [newestSource,hrest,mem_cons]; grind
    | some c =>
      simp only [newestSource,hrest,newer,mem_cons]
      grind

theorem LastInto.newestSource (h : l.LastInto u p q) :
    ∃ts,newestSource (l.sourcesOf u q)=some (p,ts) := by
  obtain ⟨ts,hrow,hlast⟩ := h
  refine ⟨ts,(newestSource_cases fun b hb => ?_).resolve_right fun hno => hno.1 ?_⟩
  · obtain ⟨⟨⟨user,source⟩,row⟩,he,rfl⟩ := mem_map.mp hb
    simp only [mem_filter,Bool.and_eq_true,decide_eq_true_eq] at he
    obtain ⟨he,rfl,htarget⟩ := he
    have hlookup := (Table.mem_entries_iff _ _ _).mp he
    rcases hlast source row hlookup htarget with rfl | hlt
    · obtain rfl := Option.some.inj (hrow.symm.trans hlookup)
      exact .inl rfl
    · exact .inr hlt
  · refine mem_map.mpr ⟨⟨⟨u,p⟩,⟨q,ts⟩⟩,mem_filter.mpr ⟨(Table.mem_entries_iff _ _ _).mpr hrow,?_⟩,rfl⟩
    simp

theorem Carried.le_startingPoint (h : l.Carried server report) (hn : ∀k,(0,0)≤l.checkpoint k)
    (hp : p≠report.periodKey) (hlinked : l.Linked report.userID p report.periodKey) :
    l.checkpoint {reportKey server report with periodKey := p}≤
      l.startingPoint (reportKey server report) report.userID := by
  rcases h p hp hlinked with hle | ⟨hzero,source,hblank,hne,hlast,hle⟩
  · exact hle.trans (startingPoint_bounds hn _ _).1
  obtain ⟨ts,hnewest⟩ := hlast.newestSource
  have hnewest : newestSource (l.sourcesOf report.userID (reportKey server report).periodKey)=
      some (source,ts) := hnewest
  rw [startingPoint,if_neg (not_not.mpr hzero),hnewest]
  simp only [reportKey,hblank,hne,or_self,if_false]
  exact hle

/-- No stream has a checkpoint both on the source side and on the target side of a migration. -/
def SeparateSides (l : Ledger) (m : TrafficPeriodMigration) (ts : String) : Prop :=
  ∀target,l.migrationTarget m ts=.ok target → ∀(k : StreamKey) (p q : String),p≠q →
    l.Linked m.userID p m.sourcePeriodKey → l.Linked m.userID target q →
    l.checkpoint {k with periodKey := p}=(0,0) ∨ l.checkpoint {k with periodKey := q}=(0,0)

def Continues (l : Ledger) : LedgerEvent → Prop
  | .commit batch => BatchGuarded (fun m server report _ => m.Carried server report) l batch
  | .migrate m ts => l.SeparateSides m ts

def sameStream (a b : Int×TrafficReport) : Prop :=
  reportKey a.1 a.2={reportKey b.1 b.2 with periodKey := a.2.periodKey}

/-- The ranges charged to linked periods lie one after the other. -/
structure Separated (l : Ledger) (log : List (Int×TrafficReport)) : Prop where
  nonneg : ∀k,(0,0)≤l.checkpoint k
  bounds : ∀e∈log,(0,0)≤rangeStart e.2 ∧ rangeStart e.2≤rangeEnd e.2 ∧
    ¬rangeEnd e.2≤rangeStart e.2 ∧ rangeEnd e.2≤l.checkpoint (reportKey e.1 e.2)
  apart : ∀a∈log,∀b∈log,sameStream a b → a.2.userID=b.2.userID → a.2.periodKey≠b.2.periodKey →
    l.Linked a.2.userID a.2.periodKey b.2.periodKey →
    rangeEnd a.2≤rangeStart b.2 ∨ rangeEnd b.2≤rangeStart a.2

theorem Fresh.separated (h : Fresh l) : Separated l [] := by
  refine ⟨?_,by simp,by simp⟩
  simp [Ledger.checkpoint,h.streams]

section

variable {k : StreamKey} {server : Int} {report : TrafficReport} {period : TrafficPeriod}
  (h : Separated l log)
include h

theorem Separated.grow (ht : l'.transitions=l.transitions)
    (hc : ∀k,l.checkpoint k≤l'.checkpoint k) : Separated l' log := by
  refine ⟨fun k => le_trans (h.nonneg k) (hc k),?_,?_⟩
  · intro e he
    obtain ⟨h0,h1,h2,h3⟩ := h.bounds e he
    exact ⟨h0,h1,h2,le_trans h3 (hc _)⟩
  · rw [linked_congr ht]
    exact h.apart

theorem Separated.quiet (hq : Quiet l l' k u) : Separated l' log :=
  h.grow hq.transitions (hq.checkpoint_le h.nonneg)

theorem Separated.bill (hg : l.Carried server report)
    (hb : Billed l l' server report period) : Separated l' (log++[(server,report)]) := by
  have hgrow := h.grow hb.transitions (hb.checkpoint_le h.nonneg)
  have hstart : (0,0)≤rangeStart report := hb.start ▸ (startingPoint_bounds h.nonneg _ _).2
  have hend : l'.checkpoint (reportKey server report)=rangeEnd report := by
    rw [hb.checkpoint,if_pos rfl]
  -- The new range starts after everything charged to another period of the same lineage.
  have hnew : ∀e∈log,sameStream e (server,report) → e.2.userID=report.userID →
      e.2.periodKey≠report.periodKey → l'.Linked report.userID e.2.periodKey report.periodKey →
      rangeEnd e.2≤rangeStart report := by
    intro e he hs _ hp hlinked
    rw [linked_congr hb.transitions] at hlinked
    have hle := hb.start ▸ hg.le_startingPoint h.nonneg hp hlinked
    have hkey : reportKey e.1 e.2={reportKey server report with periodKey := e.2.periodKey} := hs
    exact le_trans (h.bounds e he).2.2.2 (hkey ▸ hle)
  refine ⟨hgrow.nonneg,?_,?_⟩
  · intro e he
    rcases mem_append.mp he with he | he
    · exact hgrow.bounds e he
    · obtain rfl := mem_singleton.mp he
      exact ⟨hstart,hb.forward,hb.moved,hend.ge⟩
  · intro a ha b hb' hs hu hp hlinked
    rcases mem_append.mp ha with ha | ha <;> rcases mem_append.mp hb' with hb' | hb'
    · exact hgrow.apart a ha b hb' hs hu hp hlinked
    · obtain rfl := mem_singleton.mp hb'
      exact .inl (hnew a ha hs hu hp (hu ▸ hlinked))
    · obtain rfl := mem_singleton.mp ha
      refine .inr (hnew b hb' ?_ hu.symm (Ne.symm hp) (hlinked.symm _ _))
      simp only [sameStream,reportKey,StreamKey.mk.injEq] at hs ⊢
      tauto
    · obtain rfl := mem_singleton.mp ha
      obtain rfl := mem_singleton.mp hb'
      exact absurd rfl hp

theorem Separated.checkpoint_ne (he : e∈log) : l.checkpoint (reportKey e.1 e.2)≠(0,0) := by
  obtain ⟨h0,-,h2,h3⟩ := h.bounds e he
  intro hz
  exact h2 (le_trans (hz ▸ h3) h0)

theorem Separated.migrate (hg : l.SeparateSides m ts)
    (hm : l.migrateTrafficPeriodTx m ts=.ok l') : Separated l' log := by
  rcases migrateTrafficPeriodTx_cases hm with rfl | ⟨target,hmig⟩
  · exact h
  obtain ⟨aliases,haliases,ht⟩ := hmig.transitions
  have ha := aliases_linked haliases
  have htarget := hmig.resolved
  refine ⟨hmig.checkpoint ▸ h.nonneg,hmig.checkpoint ▸ h.bounds,?_⟩
  intro a ha' b hb hs hu hp hlinked
  have hkey : reportKey b.1 b.2={reportKey a.1 a.2 with periodKey := b.2.periodKey} := by
    simp only [sameStream,reportKey,StreamKey.mk.injEq] at hs ⊢
    tauto
  have hna := h.checkpoint_ne ha'
  have hnb := h.checkpoint_ne hb
  rw [hkey] at hnb
  rcases migrate_linked ha ht hlinked with hold | ⟨huser,hmerged⟩
  · exact h.apart a ha' b hb hs hu hp hold
  rw [huser] at hmerged
  rcases hmerged with hold | ⟨h1,h2⟩ | ⟨h1,h2⟩
  · exact h.apart a ha' b hb hs hu hp (huser ▸ hold)
  · rcases hg target htarget (reportKey a.1 a.2) _ _ hp h1 h2 with hz | hz
    · exact absurd hz hna
    · exact absurd hz hnb
  · rcases hg target htarget (reportKey a.1 a.2) _ _ (Ne.symm hp) (h2.symm _ _)
      (h1.symm _ _) with hz | hz
    · exact absurd hz hnb
    · exact absurd hz hna

theorem Separated.users (hl : l'={l with users := l'.users,policyRevision := l'.policyRevision}) :
    Separated l' log := by
  rw [hl]
  exact ⟨h.nonneg,h.bounds,h.apart⟩

end

theorem Separated.step (hg : l.Continues event) (h : Separated l log) :
    Separated (l.eventStep event).1 (log++(l.eventStep event).2) := by
  cases event with
  | commit batch =>
    exact commitStep_invariant Separated _ Separated.users Separated.quiet Separated.bill hg h
  | migrate m ts =>
    cases hm : l.migrateTrafficPeriodTx m ts with
    | error e => simpa [eventStep,hm] using h
    | ok l' => simpa [eventStep,hm] using h.migrate hg hm

def Overlap (a b : TrafficReport) : Prop :=
  max a.fromUploadBytes b.fromUploadBytes < min a.toUploadBytes b.toUploadBytes ∨
  max a.fromDownloadBytes b.fromDownloadBytes < min a.toDownloadBytes b.toDownloadBytes

theorem not_overlap_of_le (h : rangeEnd a≤rangeStart b) : ¬Overlap a b := by
  obtain ⟨hu,hd⟩ := h
  simp only [rangeEnd,rangeStart] at hu hd
  unfold Overlap
  omega

/-- No bytes of a stream are charged to two linked periods where the stored rows carry each stream
along the transitions and migrations join no two rows of it. -/
theorem no_double_billing_across_migrations (l : Ledger) (hl : Fresh l) (events : List LedgerEvent)
    (hg : RunGuarded eventStep Continues l events) : let out := Runs.run eventStep l events
    ∀a∈out.2,∀b∈out.2,sameStream a b → a.2.userID=b.2.userID → a.2.periodKey≠b.2.periodKey →
      out.1.Linked a.2.userID a.2.periodKey b.2.periodKey → ¬Overlap a.2 b.2 := by
  intro out a ha b hb hs hu hp hlinked
  have hsep := run_invariant Separated Continues Separated.step hg hl.separated
  rcases hsep.apart a ha b hb hs hu hp hlinked with h | h
  · exact not_overlap_of_le h
  intro ho
  apply not_overlap_of_le h
  rcases ho with ho | ho
  · exact .inl (by omega)
  · exact .inr (by omega)

theorem linked_of_no_transitions (h : l.transitions=∅) (hl : l.Linked u p q) : p=q := by
  induction hl with
  | rel p q hp =>
    obtain ⟨row,hrow,-⟩ := hp
    simp [h] at hrow
  | refl p => rfl
  | symm p q _ ih => exact ih.symm
  | trans p q r _ _ ih1 ih2 => exact ih1.trans ih2

def moveUser (source target : String) : TrafficPeriodMigration := ⟨1,source,target,0,0,0⟩

def oneMigration : List LedgerEvent :=
  [.commit (oneReport "a" "2025-01" 0 100 0 0 (by decide)),
    .migrate (moveUser "2025-01" "2025-02") "2025-01-15T00:00:00Z",
    .commit (oneReport "b" "2025-02" 100 150 0 0 (by decide))]

private theorem oneMigration_guarded : RunGuarded eventStep Continues oneUser oneMigration := by
  let l1 := (oneUser.eventStep (.commit (oneReport "a" "2025-01" 0 100 0 0 (by decide)))).1
  have ht : l1.transitions=∅ := AList.ext (by decide +kernel)
  have hs : l1.streams.keys=[⟨1,"core","s","e","2025-01"⟩] := by decide +kernel
  refine ⟨?_,?_,?_,trivial⟩
  · rintro m _ ⟨⟩
    refine ⟨?_,fun _ _ _ => trivial⟩
    intro p hp hlinked
    exact absurd (linked_of_no_transitions rfl hlinked) hp
  · intro target htarget k p q _ hp hq
    have htarget' : l1.migrationTarget (moveUser "2025-01" "2025-02") "2025-01-15T00:00:00Z"=
      .ok "2025-02" := by decide +kernel
    obtain rfl := ok.inj (htarget'.symm.trans htarget)
    obtain rfl := linked_of_no_transitions ht hq
    have hnone : ({k with periodKey := "2025-02"})∉l1.streams := by
      rw [AList.mem_keys,hs]
      simp
    exact .inr (by rw [checkpoint,AList.lookup_eq_none.mpr hnone]; rfl)
  · rintro m _ ⟨⟩
    refine ⟨?_,fun _ _ _ => trivial⟩
    intro p hp hlinked
    have htrans : (l1.eventStep (.migrate (moveUser "2025-01" "2025-02")
        "2025-01-15T00:00:00Z")).1.transitions=
      repointAliases (l1.transitions.insert ⟨1,"2025-01"⟩ ⟨"2025-02","2025-01-15T00:00:00Z"⟩) 1
        "2025-02" [] := AList.ext (by decide +kernel)
    have hzero : checkpoint (l1.eventStep (.migrate (moveUser "2025-01" "2025-02")
        "2025-01-15T00:00:00Z")).1 ⟨1,"core","s","e","2025-02"⟩=(0,0) := by decide +kernel
    have hrow : (l1.eventStep (.migrate (moveUser "2025-01" "2025-02")
        "2025-01-15T00:00:00Z")).1.transitions.lookup ⟨1,"2025-01"⟩=
      some ⟨"2025-02","2025-01-15T00:00:00Z"⟩ := by decide +kernel
    have hblank : trimSpace "2025-01"≠"" := by decide +kernel
    have hne : "2025-01"≠"2025-02" := by decide
    have hlast : LastInto (l1.eventStep (.migrate (moveUser "2025-01" "2025-02")
        "2025-01-15T00:00:00Z")).1 1 "2025-01" "2025-02" := by
      refine ⟨_,hrow,fun q row hq _ => ?_⟩
      rw [htrans,ht] at hq
      rcases Table.lookup_insert_cases hq with ⟨hkey,-⟩ | hq
      · exact .inl (PeriodKey.mk.inj hkey).2
      · simp at hq
    rcases migrate_linked (m := moveUser "2025-01" "2025-02") (by simp) htrans hlinked with
      h | ⟨-,h | ⟨h1,-⟩ | ⟨h1,h2⟩⟩
    · exact absurd (linked_of_no_transitions ht h) hp
    · exact absurd (linked_of_no_transitions ht h) hp
    · obtain rfl := linked_of_no_transitions ht h1
      exact .inr ⟨hzero,"2025-01",hblank,hne,hlast,le_rfl⟩
    · exact absurd (linked_of_no_transitions ht h1) hp

/-- A stream that reports in the target of its own period is charged twice in a row,
never for the same bytes. -/
theorem no_double_billing_after_one_migration : let out := Runs.run eventStep oneUser oneMigration
    out.2.length=2 ∧
    ∀a∈out.2,∀b∈out.2,sameStream a b → a.2.userID=b.2.userID → a.2.periodKey≠b.2.periodKey →
      out.1.Linked a.2.userID a.2.periodKey b.2.periodKey → ¬Overlap a.2 b.2 :=
  ⟨by decide +kernel,
    no_double_billing_across_migrations oneUser oneUser_fresh oneMigration oneMigration_guarded⟩

/-- A stream that is silent in the period between two migrations is charged again from zero. -/
theorem silent_period_billed_twice :
    let out := Runs.run eventStep oneUser [.commit (oneReport "a" "2025-01" 0 100 0 0 (by decide)),
        .migrate (moveUser "2025-01" "2025-02") "2025-01-15T00:00:00Z",
        .migrate (moveUser "2025-02" "2025-03") "2025-01-20T00:00:00Z",
        .commit (oneReport "b" "2025-03" 0 100 0 0 (by decide))]
    ∃a∈out.2,∃b∈out.2,sameStream a b ∧ a.2.userID=b.2.userID ∧
      a.2.periodKey="2025-01" ∧ b.2.periodKey="2025-03" ∧
      out.1.Linked a.2.userID a.2.periodKey b.2.periodKey ∧ Overlap a.2 b.2 := by
  intro out
  have hrow : out.1.transitions.lookup ⟨1,"2025-01"⟩=some ⟨"2025-03","2025-01-15T00:00:00Z"⟩ := by
    decide +kernel
  have hlog : out.2=[(1,⟨"a",1,none,none,"2025-01",0,0,"core","s","e",0,100,0,0,by decide⟩),
      (1,⟨"b",1,none,none,"2025-03",0,0,"core","s","e",0,100,0,0,by decide⟩)] := by
    decide +kernel
  rw [hlog]
  refine ⟨_,mem_cons_self,_,mem_cons_of_mem _ mem_cons_self,rfl,rfl,rfl,rfl,?_,?_⟩
  · exact .rel _ _ ⟨_,hrow,rfl⟩
  · exact .inl (by decide)

end Ledger

end Oboard.Store
