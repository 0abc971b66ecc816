import Oboard.Store.ConfigurationOperations

namespace Oboard.Store

open Runs OperationStore List Table Except SyncStore

/-- What a step does to a target: it succeeds only by a cause, and superseded is final. -/
structure TargetMove (won : Prop) (t t' : OperationTarget) : Prop where
  desired : t'.desiredRevision=t.desiredRevision
  superseded : t.state=.superseded → t'.state=.superseded
  succeeded : t'.state=.succeeded → t.state=.succeeded ∨ won

theorem TargetMove.refl (t) : TargetMove won t t :=
  ⟨rfl,id,.inl⟩

theorem TargetMove.trans (h : TargetMove won a b)
    (h' : TargetMove won b c) : TargetMove won a c where
  desired := h'.desired.trans h.desired
  superseded := fun hs => h'.superseded (h.superseded hs)
  succeeded := fun hs => (h'.succeeded hs).elim h.succeeded .inr

def Moved (won : TargetKey → Prop) (db db' : OperationStore) : Prop :=
  ∀k,Option.Rel (TargetMove (won k)) (db.targets.lookup k) (db'.targets.lookup k)

variable {k : TargetKey}

section moved

theorem Moved.of_targets (h : db'.targets=db.targets) : Moved won db db' := by
  intro k
  rw [h]
  cases db.targets.lookup k with
  | none => exact .none
  | some t => exact .some (.refl t)

section

variable (h : Moved won db db')
include h

theorem Moved.trans (h' : Moved won db' db'') : Moved won db db'' := by
  intro k
  have hk := h k
  have hk' := h' k
  generalize db.targets.lookup k=a at hk ⊢
  generalize db'.targets.lookup k=b at hk hk'
  generalize db''.targets.lookup k=c at hk' ⊢
  cases hk with
  | none =>
    cases hk'
    exact .none
  | some hm =>
    cases hk' with
    | some hm' => exact .some (hm.trans hm')

theorem Moved.mono (hwon : ∀k,won k → won' k) : Moved won' db db' := by
  intro k
  have hk := h k
  generalize db.targets.lookup k=a at hk ⊢
  generalize db'.targets.lookup k=b at hk ⊢
  cases hk with
  | none => exact .none
  | some hm => exact .some ⟨hm.desired,hm.superseded,fun hs => (hm.succeeded hs).imp_right (hwon k)⟩

theorem Moved.old
    (ht : db.targets.lookup k=some t) : ∃t',db'.targets.lookup k=some t' ∧ TargetMove (won k) t t' := by
  have hk := h k
  rw [ht] at hk
  generalize db'.targets.lookup k=b at hk
  cases hk with
  | some hm => exact ⟨_,rfl,hm⟩

theorem Moved.new
    (ht : db'.targets.lookup k=some t') : ∃t,db.targets.lookup k=some t ∧ TargetMove (won k) t t' := by
  have hk := h k
  rw [ht] at hk
  generalize db.targets.lookup k=a at hk
  cases hk with
  | some hm => exact ⟨_,rfl,hm⟩

end

theorem moved_mapRows {f : TargetKey → OperationTarget → OperationTarget}
    (htargets : db'.targets=db.targets.mapRows f)
    (hf : ∀k t,db.targets.lookup k=some t → TargetMove (won k) t (f k t)) : Moved won db db' := by
  intro k
  rw [htargets,lookup_mapRows]
  cases ht : db.targets.lookup k with
  | none => exact .none
  | some t => exact .some (hf k t ht)

theorem moved_updateTargets
    (hsuperseded : ∀k t,p k t=true → t.state=.superseded → f k t=.superseded)
    (hsucceeded : ∀k t,p k t=true → f k t=.succeeded → won k) :
    Moved won db (db.updateTargets p f) := by
  refine moved_mapRows (f := fun k t => if p k t then {t with state := f k t} else t) rfl
    fun k t _ => ?_
  split_ifs with hp
  · exact ⟨rfl,hsuperseded k t hp,fun hs => .inr (hsucceeded k t hp hs)⟩
  · exact .refl t

end moved

section fires

variable {db db' : OperationStore} {u : RowUpdate}

/-- A deployment that the row waited for made the row synced, and an attempt carried it. -/
def WonBy (db : OperationStore) (u : RowUpdate) (k : TargetKey) : Prop :=
  u.old.inFlight=true ∧ u.new.state=.synced ∧ u.new.syncStrategy≠some .semanticNoop ∧
    u.new.lastConfigVersion=u.old.lastConfigVersion ∧ u.new.wantedRevision=u.old.wantedRevision ∧
    k.2=u.serverID ∧ ∃n a,db.attempts.lookup (k,n)=some a ∧
      a.configVersion=u.new.lastConfigVersion ∧ a.actualRevision=u.new.wantedRevision

theorem mem_attemptsOf (h : (k,n)∈db.attemptsOf s row) :
    k.2=s ∧ ∃a,db.attempts.lookup (k,n)=some a ∧
      a.configVersion=row.lastConfigVersion ∧ a.actualRevision=row.wantedRevision := by
  obtain ⟨⟨key,a⟩,hmem,rfl⟩ := mem_map.mp h
  rw [mem_filter] at hmem
  simp only [Bool.and_eq_true,decide_eq_true_eq] at hmem
  exact ⟨hmem.2.1.1,a,mem_rows.mp hmem.1,hmem.2.1.2,hmem.2.2⟩

theorem latestAttempt_link (h : db.latestAttempt k=some n) : ∃l,db.links.lookup (k,n)=some l := by
  have hmem := max?_mem h
  obtain ⟨⟨⟨key,m⟩,l⟩,hrow,rfl⟩ := mem_map.mp hmem
  rw [mem_filter] at hrow
  obtain rfl := of_decide_eq_true hrow.2
  exact ⟨l,mem_rows.mp hrow.1⟩

theorem latestLinkState_hit (hlatest : (db.setLinks hit state).latestAttempt k=some n)
    (hmem : (k,n)∈hit) : (db.setLinks hit state).latestLinkState k=some state := by
  obtain ⟨l,hl⟩ := latestAttempt_link hlatest
  have hstate : l.state=state := by
    simp only [setLinks,lookup_mapRows,Option.map_eq_some_iff] at hl
    obtain ⟨old,-,rfl⟩ := hl
    rw [if_pos hmem]
  simp only [latestLinkState,hlatest,Option.bind_some,hl,Option.map_some,hstate]

theorem moved_syncResult : Moved (WonBy db u) db (db.syncResult u) := by
  unfold syncResult
  split_ifs with hwhen
  · simp only [Bool.and_eq_true,decide_eq_true_eq] at hwhen
    obtain ⟨⟨⟨⟨hflight,hstate⟩,hstrategy⟩,hversion⟩,hrevision⟩ := hwhen
    refine Moved.trans (.of_targets rfl) (moved_updateTargets ?_ ?_)
    · intro k t hp hs
      simp only [hs,ne_eq,not_true_eq_false,decide_false,Bool.false_and,Bool.false_eq_true] at hp
    intro k t hp hs
    simp only [Bool.and_eq_true,any_eq_true,decide_eq_true_eq] at hp
    obtain ⟨-,⟨key,n⟩,hmem,rfl,hlatest⟩ := hp
    rw [latestLinkState_hit hlatest hmem] at hs
    have hsynced : u.new.state=.synced := by
      by_contra hne
      simp [resultOutcome,hne] at hs
    obtain ⟨hserver,a,ha,hmatch⟩ := mem_attemptsOf hmem
    exact ⟨hflight,hsynced,hstrategy,hversion,hrevision,hserver,n,a,ha,hmatch⟩
  · exact .of_targets rfl

theorem moved_preparationFailure : Moved won db (db.preparationFailure u) := by
  unfold preparationFailure
  split_ifs
  · refine moved_updateTargets (fun k t hp hs => ?_) nofun
    simp [hs] at hp
  · exact .of_targets rfl

theorem moved_supersededResult : Moved won db (db.supersededResult u) := by
  unfold supersededResult
  split_ifs
  · refine Moved.trans (.of_targets rfl) (moved_updateTargets (fun k t hp hs => ?_) nofun)
    simp [hs] at hp
  · exact .of_targets rfl

theorem moved_semanticNoop : Moved won db (db.semanticNoop u) := by
  unfold semanticNoop
  split_ifs
  · refine moved_updateTargets (fun k t hp hs => ?_) nofun
    simp [hs] at hp
  · exact .of_targets rfl

structure SameOperations (db db' : OperationStore) : Prop where
  operations : db'.operations=db.operations
  fields : db'.fields=db.fields
  attempts : db'.attempts=db.attempts
  links : ∀kn,(db'.links.lookup kn).isSome=(db.links.lookup kn).isSome

/-- The tables that no trigger writes. -/
structure Untriggered (db db' : OperationStore) : Prop extends SameOperations db db' where
  sync : db'.sync=db.sync
  servers : db'.servers=db.servers

theorem Untriggered.refl (db) : Untriggered db db :=
  ⟨⟨rfl,rfl,rfl,fun _ => rfl⟩,rfl,rfl⟩

theorem Untriggered.trans (h : Untriggered a b) (h' : Untriggered b c) : Untriggered a c :=
  ⟨⟨h'.operations.trans h.operations,h'.fields.trans h.fields,h'.attempts.trans h.attempts,
    fun kn => (h'.links kn).trans (h.links kn)⟩,h'.sync.trans h.sync,h'.servers.trans h.servers⟩

theorem untriggered_updateTargets : Untriggered db (db.updateTargets p f) :=
  ⟨⟨rfl,rfl,rfl,fun _ => rfl⟩,rfl,rfl⟩

theorem untriggered_setLinks : Untriggered db (db.setLinks hit state) := by
  refine ⟨⟨rfl,rfl,rfl,fun kn => ?_⟩,rfl,rfl⟩
  rw [setLinks,lookup_mapRows,Option.isSome_map]

theorem untriggered_fire : Untriggered db (db.fire u) := by
  have h1 : Untriggered db (db.syncResult u) := by
    unfold syncResult
    split_ifs
    · exact untriggered_setLinks.trans untriggered_updateTargets
    · exact .refl _
  have h2 db : Untriggered db (db.preparationFailure u) := by
    unfold preparationFailure
    split_ifs
    · exact untriggered_updateTargets
    · exact .refl _
  have h3 db : Untriggered db (db.supersededResult u) := by
    unfold supersededResult
    split_ifs
    · exact untriggered_setLinks.trans untriggered_updateTargets
    · exact .refl _
  have h4 db : Untriggered db (db.semanticNoop u) := by
    unfold semanticNoop
    split_ifs
    · exact untriggered_updateTargets
    · exact .refl _
  exact h1.trans ((h2 _).trans ((h3 _).trans (h4 _)))

theorem moved_fire : Moved (WonBy db u) db (db.fire u) :=
  moved_syncResult.trans (moved_preparationFailure.trans
    (moved_supersededResult.trans moved_semanticNoop))

theorem WonBy.congr (h : WonBy db' u k) (hattempts : db'.attempts=db.attempts) : WonBy db u k := by
  unfold WonBy at *
  rwa [hattempts] at h

theorem foldl_fire (db : OperationStore) (us : List RowUpdate) : Untriggered db (us.foldl fire db) ∧
    Moved (fun k => ∃u∈us,WonBy db u k) db (us.foldl fire db) := by
  induction us generalizing db with
  | nil => exact ⟨.refl db,.of_targets rfl⟩
  | cons u us ih =>
    obtain ⟨hsame,hmoved⟩ := ih (db.fire u)
    have hfire : Untriggered db (db.fire u) := untriggered_fire
    refine ⟨hfire.trans hsame,?_⟩
    refine (moved_fire.mono fun k h => ⟨u,mem_cons_self,h⟩).trans (hmoved.mono ?_)
    rintro k ⟨v,hv,hwon⟩
    exact ⟨v,mem_cons_of_mem _ hv,hwon.congr hfire.attempts⟩

theorem noop_strategy
    (hrow : σ.states.lookup s=some row) (hflight : row.inFlight=true) (hsynced : row'.state=.synced)
    (hrow' : (syncStep σ (.noop s row.wantedRevision digest)).1.states.lookup s=some row') :
    row'.syncStrategy=some .semanticNoop := by
  simp only [syncStep,markConfigurationSyncNoop] at hrow'
  split_ifs at hrow'
  · rw [keepOnError,hrow,Option.some.injEq] at hrow'
    rw [← hrow'] at hsynced
    simp [ConfigurationSyncState.inFlight,hsynced] at hflight
  rw [keepOnError,lookup_updateRow,if_pos rfl,hrow,Option.map_some,
    if_pos (decide_eq_true rfl),Option.some.injEq] at hrow'
  rw [← hrow']

theorem won_deployed (hu : u∈rowUpdates db.sync call)
    (h : WonBy db u k) : ∃version resultError now row row',
      call=.result k.2 version true resultError now ∧
      db.sync.states.lookup k.2=some row ∧ awaits version row=true ∧
      (syncStep db.sync call).1.states.lookup k.2=some row' ∧ row'.state=.synced ∧
      ∃n a,db.attempts.lookup (k,n)=some a ∧ a.configVersion=version ∧
        a.actualRevision=row.wantedRevision := by
  obtain ⟨hflight,hsynced,hstrategy,hversion,hrevision,hserver,n,a,ha,hav,har⟩ := h
  obtain ⟨⟨s,row⟩,hrow,hnew⟩ := mem_filterMap.mp hu
  rw [mem_rows] at hrow
  split_ifs at hnew
  obtain ⟨row',hrow',rfl⟩ := Option.map_eq_some_iff.mp hnew
  subst hserver
  obtain ⟨row2,hrow2,hmove⟩ := (statesMove_step db.sync call).old k.2 row hrow
  obtain rfl := Option.some.inj (hrow'.symm.trans hrow2)
  rcases hmove.syncsOnlyBy hsynced with hwas | ⟨digest,rfl⟩ | ⟨version,resultError,now,rfl,hlast,-⟩
  · simp [ConfigurationSyncState.inFlight,hwas] at hflight
  · exact absurd (noop_strategy hrow hflight hsynced hrow') hstrategy
  · refine ⟨version,resultError,now,row,row',rfl,hrow,?_,hrow',hsynced,n,a,ha,?_,har.trans hrevision⟩
    · simp [awaits,hlast,hflight]
    · rw [hav,hversion,hlast]

end fires

section bindings

variable {hash : String → String} {db db' db'' : OperationStore}
  {serverID version taskID previousTaskID : Int} {revision : Nat}

def Linked (db : OperationStore) : Prop :=
  ∀kn,(db.attempts.lookup kn).isSome → (db.links.lookup kn).isSome

/-- A binding adds attempts of one version and revision to some targets. -/
structure Bound (keys : List TargetKey) (version : Int) (revision : Nat) (db db' : OperationStore) :
    Prop where
  sync : db'.sync=db.sync
  servers : db'.servers=db.servers
  operations : db'.operations=db.operations
  fields : db'.fields=db.fields
  linked : Linked db'
  kept : ∀kn a,db.attempts.lookup kn=some a → db'.attempts.lookup kn=some a
  added : ∀kn a,db'.attempts.lookup kn=some a → db.attempts.lookup kn=some a ∨
    db.attempts.lookup kn=none ∧ kn.1∈keys ∧ a.configVersion=version ∧ a.actualRevision=revision
  moved : Moved (fun _ => False) db db'

variable {keys : List TargetKey} {k : TargetKey}

theorem Bound.refl (h : Linked db) : Bound keys version revision db db :=
  ⟨rfl,rfl,rfl,rfl,h,fun _ _ h => h,fun _ _ h => .inl h,.of_targets rfl⟩

theorem Bound.trans (h : Bound keys version revision db db')
    (h' : Bound keys version revision db' db'') : Bound keys version revision db db'' where
  sync := h'.sync.trans h.sync
  servers := h'.servers.trans h.servers
  operations := h'.operations.trans h.operations
  fields := h'.fields.trans h.fields
  linked := h'.linked
  kept := fun kn a ha => h'.kept kn a (h.kept kn a ha)
  added := by
    intro kn a ha
    rcases h'.added kn a ha with hold | ⟨hnone,hnew⟩
    · exact h.added kn a hold
    refine .inr ⟨?_,hnew⟩
    cases hlook : db.attempts.lookup kn with
    | none => rfl
    | some b => exact absurd (h.kept kn b hlook) (by rw [hnone]; nofun)
  moved := h.moved.trans h'.moved

theorem links_latest : db.links.lookup (k,(db.latestAttempt k).getD 0+1)=none := by
  cases hlook : db.links.lookup (k,(db.latestAttempt k).getD 0+1) with
  | none => rfl
  | some l =>
    have hmem : (db.latestAttempt k).getD 0+1∈ (db.links.rows.filter (·.1.1=k)).map (·.1.2) :=
      mem_map.mpr ⟨((k,_),l),mem_filter.mpr ⟨mem_rows.mpr hlook,decide_eq_true rfl⟩,rfl⟩
    cases hmax : db.latestAttempt k with
    | none =>
      rw [latestAttempt,max?_eq_none_iff] at hmax
      simp [hmax] at hmem
    | some n =>
      have hle := (max?_eq_some_iff.mp hmax).2 _ hmem
      rw [hmax,Option.getD_some] at hle
      omega

theorem bound_bindOperation (h : Linked db) (hk : k∈keys) :
    Bound keys version revision db (bindOperation revision version taskID db k) := by
  unfold bindOperation
  split_ifs
  · exact .refl h
  have hfresh : db.attempts.lookup (k,(db.latestAttempt k).getD 0+1)=none := by
    cases hlook : db.attempts.lookup (k,(db.latestAttempt k).getD 0+1) with
    | none => rfl
    | some a => exact absurd (h _ (by rw [hlook]; rfl)) (by rw [links_latest]; nofun)
  refine ⟨rfl,rfl,rfl,rfl,fun kn hkn => ?_,fun kn a ha => ?_,fun kn a ha => ?_,fun k' => ?_⟩
  · rw [lookup_insert_eq] at hkn ⊢
    split_ifs at hkn ⊢
    · rfl
    · exact h kn hkn
  · rw [lookup_insert_eq,if_neg (by rintro rfl; rw [hfresh] at ha; cases ha)]
    exact ha
  · rcases lookup_insert_cases ha with ⟨rfl,rfl⟩ | hold
    · exact .inr ⟨hfresh,hk,rfl,rfl⟩
    · exact .inl hold
  · rw [lookup_modify]
    split_ifs with heq
    · subst heq
      cases db.targets.lookup k' with
      | none => exact .none
      | some t =>
        refine .some ?_
        dsimp only
        split_ifs with hs
        · exact ⟨rfl,fun h => absurd h hs,nofun⟩
        · exact .refl t
    · cases db.targets.lookup k' with
      | none => exact .none
      | some t => exact .some (.refl t)

theorem bound_foldl {done : List TargetKey} (hdone : ∀k∈done,k∈keys) (h : Linked db) :
    Bound keys version revision db (done.foldl (bindOperation revision version taskID) db) := by
  induction done generalizing db with
  | nil => exact .refl h
  | cons k ks ih =>
    have hone : Bound keys version revision db (bindOperation revision version taskID db k) :=
      bound_bindOperation h (hdone k mem_cons_self)
    exact hone.trans (ih (fun k' hk' => hdone k' (mem_cons_of_mem _ hk')) hone.linked)

/-- The settings of the server meet what the operation of a target recorded. -/
def Meets (hash : String → String) (db : OperationStore) (k : TargetKey) (revision : Nat)
    (v : ServerSettings) : Prop :=
  (∃t,db.targets.lookup k=some t ∧ t.desiredRevision≤revision) ∧
    ∀field h,db.fields.lookup (k.1,field)=some h → hash (v.value field)=h

theorem mem_bindCandidates (h : k∈db.bindCandidates hash serverID revision fresh previousTaskID v) :
    k.2=serverID ∧ Meets hash db k revision v := by
  obtain ⟨⟨key,t⟩,hrow,rfl⟩ := mem_map.mp h
  rw [mem_filter,mem_rows] at hrow
  simp only [Bool.and_eq_true,decide_eq_true_eq] at hrow
  obtain ⟨ht,⟨⟨⟨⟨hserver,hrevision⟩,-⟩,-⟩,-⟩,hfields⟩ := hrow
  refine ⟨hserver,⟨t,ht,hrevision⟩,fun field value hvalue => ?_⟩
  simp only [fieldsMatch,Bool.and_eq_true,all_eq_true,decide_eq_true_eq] at hfields
  exact hfields.2 ((key.1,field),value) (mem_filter.mpr ⟨mem_rows.mpr hvalue,decide_eq_true rfl⟩)

theorem bindConfigurationOperations_spec (hlinked : Linked db)
    (h : db.bindConfigurationOperations hash serverID revision version taskID fresh previousTaskID=
      .ok db') : ∃keys,Bound keys version revision db db' ∧
        ∀k∈keys,∃v,db.servers.lookup k.2=some v ∧ Meets hash db k revision v := by
  have hnothing (heq : db'=db) : ∃keys,Bound keys version revision db db' ∧
      ∀k∈keys,∃v,db.servers.lookup k.2=some v ∧ Meets hash db k revision v :=
    ⟨[],by rw [heq]; exact .refl hlinked,nofun⟩
  cases hv : db.servers.lookup serverID with
  | none =>
    simp only [bindConfigurationOperations,hv] at h
    split_ifs at h
    · exact hnothing (ok.inj h).symm
    · exact hnothing (ok.inj h).symm
  | some v =>
    simp only [bindConfigurationOperations,hv] at h
    split_ifs at h
    · exact hnothing (ok.inj h).symm
    · exact hnothing (ok.inj h).symm
    · obtain rfl := ok.inj h
      refine ⟨_,bound_foldl (fun k hk => hk) hlinked,fun k hk => ?_⟩
      obtain ⟨rfl,hmeets⟩ := mem_bindCandidates hk
      exact ⟨v,hv,hmeets⟩

end bindings

section intents

variable {hash : String → String} {db db' : OperationStore} {id : String}

/-- Recording an intent touches the targets and the fields of the new operation only. -/
structure Recorded (id : String) (db db' : OperationStore) : Prop where
  operations : db'.operations=db.operations
  attempts : db'.attempts=db.attempts
  links : db'.links=db.links
  fields : ∀k,k.1≠id → db'.fields.lookup k=db.fields.lookup k
  known : ∀k h,db'.fields.lookup k=some h → k.1=id ∨ db.fields.lookup k=some h
  moved : Moved (fun _ => False) db db'

theorem recorded_trackField : Recorded id db (trackField id serverID db field) := by
  refine ⟨rfl,rfl,rfl,fun k hk => ?_,fun k h hk => ?_,?_⟩
  · simp only [trackField]
    rw [lookup_insert_eq,if_neg (fun heq => hk (by rw [heq]))]
    rfl
  · exact (lookup_insert_cases hk).imp_left fun hnew => congrArg Prod.fst hnew.1
  · have hsupersede : Moved (fun _ => False) db (supersedeConflicting serverID db field) :=
      moved_updateTargets (fun _ _ _ _ => rfl) nofun
    exact hsupersede.trans (.of_targets rfl)

theorem recorded_foldl (tracked : List (TrackedField×String)) (db : OperationStore) :
    Recorded id db (tracked.foldl (trackField id serverID) db) := by
  induction tracked generalizing db with
  | nil => exact ⟨rfl,rfl,rfl,fun _ _ => rfl,fun _ _ h => .inr h,.of_targets rfl⟩
  | cons field fields ih =>
    have hone : Recorded id db (trackField id serverID db field) := recorded_trackField
    have hrest := ih (trackField id serverID db field)
    refine ⟨hrest.operations.trans hone.operations,hrest.attempts.trans hone.attempts,
      hrest.links.trans hone.links,fun k hk => (hrest.fields k hk).trans (hone.fields k hk),
      fun k h hk => ?_,hone.moved.trans hrest.moved⟩
    exact (hrest.known k h hk).elim .inl (hone.known k h)

/-- The fold stores the hash of every tracked field. -/
theorem fields_foldl {g : TrackedField → String} {tracked : List (TrackedField×String)}
    (htracked : ∀p∈tracked,p.2=g p.1)
    (h : db.fields.lookup (id,f)=some (g f) ∨ ∃p∈tracked,p.1=f) :
    (tracked.foldl (trackField id serverID) db).fields.lookup (id,f)=some (g f) := by
  induction tracked generalizing db with
  | nil => simpa using h
  | cons p rest ih =>
    refine ih (fun q hq => htracked q (mem_cons_of_mem _ hq)) ?_
    have hp := htracked p mem_cons_self
    simp only [trackField,lookup_insert_eq,Prod.mk.injEq,true_and]
    by_cases hf : f=p.1
    · simp [hf,hp]
    · rw [if_neg hf]
      refine h.imp_right ?_
      rintro ⟨q,hq,rfl⟩
      exact ⟨q,(mem_cons.mp hq).resolve_left (fun h => hf (h ▸ rfl)),rfl⟩

theorem intentState_not_succeeded :
    (db.intentState hash serverID previous tracked isPartial).1≠.succeeded := by
  simp only [intentState]
  repeat' split
  all_goals nofun

end intents

section invariant

variable {hash : String → String} {db db' : OperationStore}
  {log events : List OperationEvent}

/-- The version and revision of a bound attempt were reported synced after the binding. -/
def Reported (log : List OperationEvent) (k : TargetKey) (n : Nat) (a : OperationAttempt)
    (v : ServerSettings) : Prop :=
  ∃before after,log=before++.deployed k.2 a.configVersion a.actualRevision::after ∧
    .bound k n a.configVersion a.actualRevision v∈before

def Silent (events : List OperationEvent) : Prop :=
  ∀k fields w r,OperationEvent.intended k fields w r∉events

structure Evidence (hash : String → String) (db : OperationStore) (log : List OperationEvent) :
    Prop where
  intended : ∀k t,db.targets.lookup k=some t → ∃fields w,.intended k fields w t.desiredRevision∈log
  recorded : ∀k fields w r,.intended k fields w r∈log →
    (∃t,db.targets.lookup k=some t ∧ t.desiredRevision=r) ∧
    ∀f∈fields.filterMap TrackedField.parse,db.fields.lookup (k.1,f)=some (hash (w.value f))
  known : ∀k t,db.targets.lookup k=some t → k.1∈db.operations
  fields : ∀k h,db.fields.lookup k=some h → k.1∈db.operations
  linked : Linked db
  attempted : ∀k n a,db.attempts.lookup (k,n)=some a → ∃v,Meets hash db k a.actualRevision v ∧
    .bound k n a.configVersion a.actualRevision v∈log
  succeeded : ∀k t,db.targets.lookup k=some t → t.state=.succeeded →
    ∃n a v,db.attempts.lookup (k,n)=some a ∧ Meets hash db k a.actualRevision v ∧ Reported log k n a v

theorem evidence_empty : Evidence hash {} [] :=
  ⟨nofun,nofun,nofun,nofun,nofun,nofun,nofun⟩

variable {revision : Nat}

theorem silent_nil : Silent [] := nofun

theorem Silent.append (h : Silent a) (h' : Silent b) : Silent (a++b) :=
  fun k fields w r hmem => (mem_append.mp hmem).elim (h k fields w r) (h' k fields w r)

theorem silent_bound : Silent (boundEvents db db') := by
  intro k fields w r h
  obtain ⟨_,-,h⟩ := mem_map.mp h
  cases h

theorem silent_deployed : Silent (deployedEvents db db' call) := by
  intro k fields w r h
  unfold deployedEvents at h
  repeat' split at h
  all_goals simp at h

/-- What the log says of the intents stays true while targets keep their revisions. -/
theorem Evidence.intents (h : Evidence hash db log) (hmoved : Moved won db db')
    (hfields : db'.fields=db.fields) (hevents : Silent events) :
    (∀k t,db'.targets.lookup k=some t → ∃fields w,.intended k fields w t.desiredRevision∈log++events) ∧
    ∀k fields w r,.intended k fields w r∈log++events →
      (∃t,db'.targets.lookup k=some t ∧ t.desiredRevision=r) ∧
      ∀f∈fields.filterMap TrackedField.parse,db'.fields.lookup (k.1,f)=some (hash (w.value f)) := by
  refine ⟨fun k t' ht' => ?_,fun k fields w r hmem => ?_⟩
  · obtain ⟨t,ht,hmove⟩ := hmoved.new ht'
    obtain ⟨fields,w,hmem⟩ := h.intended k t ht
    exact ⟨fields,w,mem_append_left _ (hmove.desired ▸ hmem)⟩
  · obtain ⟨⟨t,ht,hr⟩,hvalues⟩ :=
      h.recorded k fields w r ((mem_append.mp hmem).resolve_right (hevents k fields w r))
    obtain ⟨t',ht',hmove⟩ := hmoved.old ht
    exact ⟨⟨t',ht',hmove.desired.trans hr⟩,hfields ▸ hvalues⟩

theorem Meets.transfer (h : Meets hash db k revision v) (hmoved : Moved won db db')
    (hfields : ∀field,db'.fields.lookup (k.1,field)=db.fields.lookup (k.1,field)) :
    Meets hash db' k revision v := by
  obtain ⟨⟨t,ht,hrevision⟩,hvalues⟩ := h
  obtain ⟨t',ht',hmove⟩ := hmoved.old ht
  exact ⟨⟨t',ht',hmove.desired ▸ hrevision⟩,fun field value hv => hvalues field value (hfields field ▸ hv)⟩

theorem Reported.append (h : Reported log k n a v) : Reported (log++events) k n a v := by
  obtain ⟨before,after,rfl,hbound⟩ := h
  exact ⟨before,after++events,by simp,hbound⟩

theorem Evidence.quiet (h : Evidence hash db log) (hsame : SameOperations db db')
    (hevents : Silent events) (hmoved : Moved won db db') (hwon : ∀k,won k → ∃n a,db.attempts.lookup (k,n)=some a ∧
      .deployed k.2 a.configVersion a.actualRevision∈events) : Evidence hash db' (log++events) where
  intended := (h.intents hmoved hsame.fields hevents).1
  recorded := (h.intents hmoved hsame.fields hevents).2
  known := by
    intro k t' ht'
    obtain ⟨t,ht,-⟩ := hmoved.new ht'
    rw [hsame.operations]
    exact h.known k t ht
  fields := by
    rw [hsame.fields,hsame.operations]
    exact h.fields
  linked := by
    intro kn hkn
    rw [hsame.links]
    rw [hsame.attempts] at hkn
    exact h.linked kn hkn
  attempted := by
    intro k n a ha
    rw [hsame.attempts] at ha
    obtain ⟨v,hmeets,hbound⟩ := h.attempted k n a ha
    exact ⟨v,hmeets.transfer hmoved (fun _ => by rw [hsame.fields]),mem_append_left _ hbound⟩
  succeeded := by
    intro k t' ht' hs
    obtain ⟨t,ht,hmove⟩ := hmoved.new ht'
    rw [hsame.attempts]
    rcases hmove.succeeded hs with hold | hnew
    · obtain ⟨n,a,v,ha,hmeets,hreported⟩ := h.succeeded k t ht hold
      exact ⟨n,a,v,ha,hmeets.transfer hmoved (fun _ => by rw [hsame.fields]),hreported.append⟩
    obtain ⟨n,a,ha,hdeployed⟩ := hwon k hnew
    obtain ⟨v,hmeets,hbound⟩ := h.attempted k n a ha
    obtain ⟨before,after,rfl⟩ := append_of_mem hdeployed
    exact ⟨n,a,v,ha,hmeets.transfer hmoved (fun _ => by rw [hsame.fields]),log++before,after,
      by simp,mem_append_left _ hbound⟩

theorem Evidence.bind {keys : List TargetKey} (h : Evidence hash db log)
    (hbound : Bound keys version revision db db')
    (hmeets : ∀k∈keys,∃v,db.servers.lookup k.2=some v ∧ Meets hash db k revision v) :
    Evidence hash db' (log++boundEvents db db') where
  intended := (h.intents hbound.moved hbound.fields silent_bound).1
  recorded := (h.intents hbound.moved hbound.fields silent_bound).2
  known := by
    intro k t' ht'
    obtain ⟨t,ht,-⟩ := hbound.moved.new ht'
    rw [hbound.operations]
    exact h.known k t ht
  fields := by
    rw [hbound.fields,hbound.operations]
    exact h.fields
  linked := hbound.linked
  attempted := by
    intro k n a ha
    have hfields field : db'.fields.lookup (k.1,field)=db.fields.lookup (k.1,field) := by
      rw [hbound.fields]
    rcases hbound.added (k,n) a ha with hold | ⟨hnone,hk,-,hrevision⟩
    · obtain ⟨v,hv,hmem⟩ := h.attempted k n a hold
      exact ⟨v,hv.transfer hbound.moved hfields,mem_append_left _ hmem⟩
    obtain ⟨v,hserver,hv⟩ := hmeets k hk
    refine ⟨v,hrevision ▸ hv.transfer hbound.moved hfields,mem_append_right _ ?_⟩
    refine mem_map.mpr ⟨((k,n),a),mem_filter.mpr ⟨mem_rows.mpr ha,?_⟩,?_⟩
    · rw [hnone]
      rfl
    · rw [hserver]
      rfl
  succeeded := by
    intro k t' ht' hs
    obtain ⟨t,ht,hmove⟩ := hbound.moved.new ht'
    obtain ⟨n,a,v,ha,hv,hreported⟩ := h.succeeded k t ht ((hmove.succeeded hs).resolve_right id)
    exact ⟨n,a,v,hbound.kept _ a ha,hv.transfer hbound.moved (fun _ => by rw [hbound.fields]),
      hreported.append⟩

/-- The targets that were there move on, and no superseded one comes back. -/
def StaysSuperseded (db db' : OperationStore) : Prop := ∀k t,db.targets.lookup k=some t →
  t.state=.superseded → ∃t',db'.targets.lookup k=some t' ∧ t'.state=.superseded

theorem Moved.staysSuperseded (h : Moved won db db') : StaysSuperseded db db' := by
  intro k t ht hs
  obtain ⟨t',ht',hmove⟩ := h.old ht
  exact ⟨t',ht',hmove.superseded hs⟩

section

variable (h : Evidence hash db log)
include h

theorem Evidence.record {id : String} (fields : List String) (w : ServerSettings)
    (hid : id∉db.operations) (hrec : Recorded id (db.openOperation id serverID target) db')
    (hstate : target.state≠.succeeded)
    (hvalues : ∀f∈fields.filterMap TrackedField.parse,
      db'.fields.lookup (id,f)=some (hash (w.value f)))
    (hevents : ∀k (named : List String) w' r,.intended k named w' r∈events ↔
      k=(id,serverID) ∧ named=fields ∧ w'=w ∧ r=target.desiredRevision) :
    Evidence hash db' (log++events) ∧ StaysSuperseded db db' := by
  have hold {k} {t} (ht : db.targets.lookup k=some t) :
      k.1≠id ∧ ∃t',db'.targets.lookup k=some t' ∧ TargetMove False t t' := by
    have hne : k.1≠id := fun heq => hid (heq ▸ h.known k t ht)
    refine ⟨hne,hrec.moved.old ?_⟩
    rw [openOperation,AList.lookup_insert_ne (fun heq => hne (by rw [heq]))]
    exact ht
  have hmeets {k} {revision} {v}
      (hv : Meets hash db k revision v) : Meets hash db' k revision v := by
    obtain ⟨⟨t,ht,hrevision⟩,hvalues⟩ := hv
    obtain ⟨hne,t',ht',hmove⟩ := hold ht
    refine ⟨⟨t',ht',hmove.desired ▸ hrevision⟩,fun field value hv => ?_⟩
    rw [hrec.fields _ hne] at hv
    exact hvalues field value hv
  have hnew {k} {t'} (ht' : db'.targets.lookup k=some t') :
      ∃t,(k=(id,serverID) ∧ t=target ∨ db.targets.lookup k=some t) ∧ TargetMove False t t' := by
    obtain ⟨t,ht,hmove⟩ := hrec.moved.new ht'
    exact ⟨t,lookup_insert_cases ht,hmove⟩
  refine ⟨⟨?_,?_,?_,?_,?_,?_,?_⟩,fun k t ht hs => ?_⟩
  · intro k t' ht'
    obtain ⟨t,⟨rfl,rfl⟩ | ht,hmove⟩ := hnew ht'
    · exact ⟨fields,w,mem_append_right _ ((hevents _ _ _ _).mpr ⟨rfl,rfl,rfl,hmove.desired⟩)⟩
    · obtain ⟨named,w',hmem⟩ := h.intended k t ht
      exact ⟨named,w',mem_append_left _ (hmove.desired ▸ hmem)⟩
  · intro k named w' r hmem
    rcases mem_append.mp hmem with hmem | hmem
    · obtain ⟨⟨t,ht,hr⟩,hstored⟩ := h.recorded k named w' r hmem
      obtain ⟨hne,t',ht',hmove⟩ := hold ht
      exact ⟨⟨t',ht',hmove.desired.trans hr⟩,fun f hf => (hrec.fields _ hne).trans (hstored f hf)⟩
    · obtain ⟨rfl,rfl,rfl,rfl⟩ := (hevents _ _ _ _).mp hmem
      obtain ⟨t',ht',hmove⟩ := hrec.moved.old (AList.lookup_insert _)
      exact ⟨⟨t',ht',hmove.desired⟩,hvalues⟩
  · intro k t' ht'
    rw [hrec.operations]
    obtain ⟨t,⟨rfl,-⟩ | ht,-⟩ := hnew ht'
    · exact mem_cons_self
    · exact mem_cons_of_mem _ (h.known k t ht)
  · intro k value hk
    rw [hrec.operations]
    rcases hrec.known k value hk with rfl | hk
    · exact mem_cons_self
    · exact mem_cons_of_mem _ (h.fields k value hk)
  · intro kn hkn
    rw [hrec.links]
    rw [hrec.attempts] at hkn
    exact h.linked kn hkn
  · intro k n a ha
    rw [hrec.attempts] at ha
    obtain ⟨v,hv,hbound⟩ := h.attempted k n a ha
    exact ⟨v,hmeets hv,mem_append_left _ hbound⟩
  · intro k t' ht' hs
    rw [hrec.attempts]
    obtain ⟨t,hcase,hmove⟩ := hnew ht'
    have hbefore := (hmove.succeeded hs).resolve_right not_false
    rcases hcase with ⟨-,rfl⟩ | ht
    · exact absurd hbefore hstate
    · obtain ⟨n,a,v,ha,hv,hreported⟩ := h.succeeded k t ht hbefore
      exact ⟨n,a,v,ha,hmeets hv,hreported.append⟩
  · obtain ⟨-,t',ht',hmove⟩ := hold ht
    exact ⟨t',ht',hmove.superseded hs⟩

theorem Evidence.edited (hsame : SameOperations db db')
    (htargets : db'.targets=db.targets) (hevents : Silent events) : Evidence hash db' (log++events) :=
  h.quiet hsame hevents (.of_targets htargets : Moved (fun _ => False) db db') (fun _ hwon => hwon.elim)

theorem Evidence.updateServer {id : String}
    (hok : db.updateServer hash serverID v revision intent id=.ok db') :
    let events := db.intendedEvents hash (.updateServer serverID v revision intent id)
    Evidence hash db' (log++(events++boundEvents db db')) ∧ StaysSuperseded db db' := by
  cases intent with
  | none =>
    unfold OperationStore.updateServer at hok
    split at hok
    · cases hok
    obtain rfl := ok.inj hok
    have hmoved : Moved (fun _ => False) db _ := .of_targets rfl
    exact ⟨h.edited ⟨rfl,rfl,rfl,fun _ => rfl⟩ rfl (silent_nil.append silent_bound),
      hmoved.staysSuperseded⟩
  | some intent =>
    simp only [intendedEvents,hok,Except.isOk,Except.toBool,if_true]
    unfold OperationStore.updateServer at hok
    split at hok
    · cases hok
    simp only [recordServerConfigurationIntent] at hok
    split_ifs at hok with hinvalid hid
    obtain rfl := ok.inj hok
    have hedited : Evidence hash (db.editServer serverID v revision) (log++[]) :=
      h.edited ⟨rfl,rfl,rfl,fun _ => rfl⟩ rfl silent_nil
    rw [append_nil] at hedited
    refine hedited.record intent.fields v hid (recorded_foldl _ _)
      intentState_not_succeeded (fun f hf => ?_) (fun k fields w r => ?_)
    · refine fields_foldl (g := fun f => hash (v.value f)) (fun p hp => ?_) (.inr ?_)
      · obtain ⟨f',-,rfl⟩ := mem_map.mp hp
        rfl
      · exact ⟨_,mem_map.mpr ⟨f,mem_dedup.mpr hf,rfl⟩,rfl⟩
    · rw [mem_append,or_iff_left (silent_bound k fields w r),mem_singleton,
        OperationEvent.intended.injEq]
      rfl

theorem Evidence.releaseServer (hevents : Silent events) :
    Evidence hash (db.releaseServer serverID) (log++events) ∧
      StaysSuperseded db (db.releaseServer serverID) := by
  have hmoved : Moved (fun _ => False) db (db.releaseServer serverID) := by
    refine moved_mapRows (f := releaseTarget serverID) rfl fun k t _ => ?_
    simp only [releaseTarget]
    split_ifs
    · exact ⟨rfl,id,.inl⟩
    · exact ⟨rfl,fun _ => rfl,nofun⟩
    · exact .refl t
  exact ⟨h.quiet ⟨rfl,rfl,rfl,fun _ => rfl⟩ hevents hmoved (fun _ hwon => hwon.elim),hmoved.staysSuperseded⟩

end

theorem fired_sync (call : SyncCall) : (db.fired call).sync=(syncStep db.sync call).1 :=
  (foldl_fire {db with sync := (syncStep db.sync call).1} (rowUpdates db.sync call)).1.sync

theorem Evidence.fired (h : Evidence hash db log) (call : SyncCall) (events : List OperationEvent)
    (hevents : ∀s version row row',db.sync.states.lookup s=some row →
      awaits version row=true → row'.state=.synced →
      (syncStep db.sync call).1.states.lookup s=some row' →
      (∃resultError now,call=.result s version true resultError now) →
      .deployed s version row.wantedRevision∈events) (hsilent : Silent events) :
    Evidence hash (db.fired call) (log++events) ∧ StaysSuperseded db (db.fired call) ∧
      Untriggered {db with sync := (syncStep db.sync call).1} (db.fired call) := by
  have hmoved := foldl_fire {db with sync := (syncStep db.sync call).1} (rowUpdates db.sync call)
  have hstart : Evidence hash {db with sync := (syncStep db.sync call).1} (log++[]) :=
    h.edited ⟨rfl,rfl,rfl,fun _ => rfl⟩ rfl silent_nil
  rw [append_nil] at hstart
  refine ⟨hstart.quiet hmoved.1.toSameOperations hsilent hmoved.2 ?_,hmoved.2.staysSuperseded,hmoved.1⟩
  rintro k ⟨u,hu,hwon⟩
  obtain ⟨version,resultError,now,row,row',hcall,hrow,hawaits,hrow',hsynced,n,a,ha,rfl,har⟩ :=
    won_deployed hu (hwon.congr rfl)
  refine ⟨n,a,ha,?_⟩
  rw [har]
  exact hevents k.2 _ row row' hrow hawaits hsynced hrow' ⟨resultError,now,hcall⟩

theorem StaysSuperseded.trans (h : StaysSuperseded db db')
    (h' : StaysSuperseded db' db'') : StaysSuperseded db db'' := by
  intro k t ht hs
  obtain ⟨t',ht',hs'⟩ := h k t ht hs
  exact h' k t' ht' hs'

theorem Evidence.markQueued {version taskID previousTaskID : Int} (h : Evidence hash db log)
    (hok : db.markQueued hash (.queued serverID revision version taskID digest prepared previousTaskID)
      serverID revision version taskID prepared previousTaskID=.ok db') :
    Evidence hash db' (log++boundEvents db db') ∧ StaysSuperseded db db' := by
  unfold OperationStore.markQueued at hok
  generalize hcall : SyncCall.queued serverID revision version taskID digest prepared previousTaskID=
    call at hok
  have hquiet events := h.fired call events (by
    rintro s version' row row' - - - - ⟨resultError,now,hresult⟩
    rw [← hcall] at hresult
    cases hresult)
  split_ifs at hok
  · obtain ⟨hfired,hstays,hsame⟩ := hquiet [] silent_nil
    rw [append_nil] at hfired
    obtain ⟨keys,hbound,hmeets⟩ := bindConfigurationOperations_spec hfired.linked hok
    have hevents : boundEvents (db.fired call) db'=boundEvents db db' := by
      rw [boundEvents,hsame.attempts,hsame.servers,boundEvents]
    rw [← hevents]
    exact ⟨hfired.bind hbound hmeets,hstays.trans hbound.moved.staysSuperseded⟩
  · obtain rfl := ok.inj hok
    obtain ⟨hfired,hstays,-⟩ := hquiet (boundEvents db (db.fired call)) silent_bound
    exact ⟨hfired,hstays⟩

theorem Evidence.syncCall (h : Evidence hash db log) (call) :
    Evidence hash (db.syncCall hash call) (log++(boundEvents db (db.syncCall hash call)++
      deployedEvents db (db.syncCall hash call) call)) ∧
      StaysSuperseded db (db.syncCall hash call) := by
  by_cases hmove : db.syncCall hash call=db.fired call
  · rw [hmove]
    obtain ⟨hevidence,hstays,-⟩ := h.fired call
      (boundEvents db (db.fired call)++deployedEvents db (db.fired call) call) (by
        rintro s version row row' hrow hawaits hsynced hrow' ⟨resultError,now,rfl⟩
        refine mem_append_right _ ?_
        simp only [deployedEvents,fired_sync,hrow,hrow',hawaits,hsynced,and_self,if_true,
          mem_singleton]) (silent_bound.append silent_deployed)
    exact ⟨hevidence,hstays⟩
  -- only a queued task takes its batch into the transaction
  cases call with
  | queued serverID revision version taskID digest prepared previousTaskID =>
    simp only [OperationStore.syncCall,deployedEvents,append_nil]
    cases hok : db.markQueued hash
        (.queued serverID revision version taskID digest prepared previousTaskID)
        serverID revision version taskID prepared previousTaskID with
    | error e =>
      exact ⟨h.edited ⟨rfl,rfl,rfl,fun _ => rfl⟩ rfl silent_bound,fun k t ht hs => ⟨t,ht,hs⟩⟩
    | ok db' => exact h.markQueued hok
  | _ => exact absurd rfl hmove

theorem Evidence.step (h : Evidence hash db log) (m) :
    Evidence hash (operationStep hash db m).1 (log++(operationStep hash db m).2) ∧
      StaysSuperseded db (operationStep hash db m).1 := by
  cases m with
  | updateServer serverID v revision intent id =>
    simp only [operationStep,append_nil,move]
    cases hok : db.updateServer hash serverID v revision intent id with
    | error e =>
      have hsilent : Silent (db.intendedEvents hash (.updateServer serverID v revision intent id)) := by
        cases intent with
        | none => exact silent_nil
        | some intent =>
          simp only [intendedEvents,hok]
          exact silent_nil
      exact ⟨h.edited ⟨rfl,rfl,rfl,fun _ => rfl⟩ rfl (hsilent.append silent_bound),
        fun k t ht hs => ⟨t,ht,hs⟩⟩
    | ok db' => exact h.updateServer hok
  | sync call => exact h.syncCall call
  | releaseServer serverID => exact h.releaseServer (silent_bound.append silent_nil)
  | otherTables servers payloads revision =>
    exact ⟨h.edited ⟨rfl,rfl,rfl,fun _ => rfl⟩ rfl (silent_bound.append silent_nil),
      fun k t ht hs => ⟨t,ht,hs⟩⟩

theorem evidence_run (hash : String → String) (moves) :
    Evidence hash (run (operationStep hash) {} moves).1 (run (operationStep hash) {} moves).2 := by
  have hguard : RunGuarded (operationStep hash) (fun _ _ => True) {} moves :=
    runGuarded_of_forall _ (fun _ _ _ => trivial) _
  have h := run_invariant (Evidence hash) _ (fun {_ _ m} _ hi => (hi.step m).1) hguard evidence_empty
  rwa [nil_append] at h

theorem superseded_run (h : Evidence hash db log) (moves) :
    StaysSuperseded db (run (operationStep hash) db moves).1 := by
  induction moves generalizing db log with
  | nil => exact fun k t ht hs => ⟨t,ht,hs⟩
  | cons m moves ih =>
    obtain ⟨hnext,hstays⟩ := h.step m
    exact hstays.trans (ih hnext)

end invariant

/-- A successful operation has an attempt bound to settings that carry what its intent asked for,
not before the revision of the intent and deployed afterwards; superseded is final. -/
theorem operations_succeed_on_evidence (hash : String → String) (before after : List OperationMove) :
    (∀k t,(run (operationStep hash) {} (before++after)).1.targets.lookup k=some t →
      t.state=.succeeded → ∃n a v,
        (run (operationStep hash) {} (before++after)).1.attempts.lookup (k,n)=some a ∧
        (∃fields w r,.intended k fields w r∈(run (operationStep hash) {} (before++after)).2) ∧
        (∀fields w r,.intended k fields w r∈(run (operationStep hash) {} (before++after)).2 →
          r≤a.actualRevision ∧ ∀f∈fields.filterMap TrackedField.parse,
            hash (v.value f)=hash (w.value f)) ∧
        ∃log rest,(run (operationStep hash) {} (before++after)).2=
            log++.deployed k.2 a.configVersion a.actualRevision::rest ∧
          .bound k n a.configVersion a.actualRevision v∈log) ∧
    ∀k t,(run (operationStep hash) {} before).1.targets.lookup k=some t → t.state=.superseded →
      ∃t',(run (operationStep hash) {} (before++after)).1.targets.lookup k=some t' ∧
        t'.state=.superseded := by
  constructor
  · intro k t ht hs
    have h := evidence_run hash (before++after)
    obtain ⟨n,a,v,ha,⟨⟨t',ht',hrevision⟩,hvalues⟩,hreported⟩ := h.succeeded k t ht hs
    obtain ⟨fields,w,hmem⟩ := h.intended k t ht
    refine ⟨n,a,v,ha,⟨fields,w,_,hmem⟩,fun fields w r hmem => ?_,hreported⟩
    obtain ⟨⟨t'',ht'',rfl⟩,hstored⟩ := h.recorded k fields w r hmem
    obtain rfl := Option.some.inj (ht'.symm.trans ht'')
    exact ⟨hrevision,fun f hf => hvalues f _ (hstored f hf)⟩
  · rw [run_append]
    exact superseded_run (evidence_run hash before) after

/-- Every attempt was bound to settings that carry what its operation recorded, and is linked. -/
theorem attempts_carry_recorded_fields (hash : String → String) (moves : List OperationMove) :
    let reached := run (operationStep hash) {} moves
    (∀k n a,reached.1.attempts.lookup (k,n)=some a → ∃v,Meets hash reached.1 k a.actualRevision v ∧
      .bound k n a.configVersion a.actualRevision v∈reached.2) ∧
    Linked reached.1 ∧ ∀k t,reached.1.targets.lookup k=some t → k.1∈reached.1.operations :=
  have h := evidence_run hash moves
  ⟨h.attempted,h.linked,h.known⟩

end Oboard.Store
