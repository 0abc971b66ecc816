import Oboard.Store.ConfigurationScope
import Mathlib.Tactic.Tauto

namespace Oboard.Store

open List Table TopologyDb AList

variable {id : Int}

namespace IntentTable

variable {t : IntentTable} {s : Int} {source stamp : String}

/-- No intent is ahead of the configuration revision. -/
def Below (t : IntentTable) : Prop :=
  ∀key row,t.intents.lookup key=some row → row.revision≤t.revision

def HasIntent (t : IntentTable) (s : Int) : Prop :=
  ∃source row,t.intents.lookup ⟨source,.explicitIDs,s⟩=some row ∧ row.revision=t.revision

theorem writeIntent_revision (t : IntentTable) (key : IntentKey) (stamp) :
    (t.writeIntent key stamp).revision=t.revision := by
  unfold writeIntent
  split_ifs <;> rfl

theorem Below.writeIntent (h : t.Below) (key) (stamp) : (t.writeIntent key stamp).Below := by
  unfold IntentTable.writeIntent
  split_ifs
  · intro other row hrow
    rcases lookup_insert_cases hrow with ⟨-,rfl⟩|hrow
    · exact (intentRow_revision t key stamp).le
    · exact h other row hrow
  · exact h

theorem hasIntent_writeIntent (hid : 0 < id) (hr : 0<t.revision) :
    (t.writeIntent ⟨source,.explicitIDs,id⟩ stamp).HasIntent s ↔ t.HasIntent s ∨ s=id := by
  have hw : t.writable ⟨source,.explicitIDs,id⟩=true := by simp [writable,IntentKey.valid,hid,hr]
  unfold HasIntent IntentTable.writeIntent
  rw [if_pos hw]
  constructor
  · rintro ⟨source',row,hrow,hrev⟩
    rcases lookup_insert_cases hrow with ⟨hkey,-⟩|hrow
    · exact .inr (IntentKey.mk.inj hkey).2.2
    · exact .inl ⟨source',row,hrow,hrev⟩
  rintro (⟨source',row,hrow,hrev⟩|rfl)
  · simp only [lookup_insert_eq]
    by_cases hkey : (⟨source',.explicitIDs,s⟩ : IntentKey)=⟨source,.explicitIDs,id⟩
    · exact ⟨source',_,if_pos hkey,intentRow_revision _ _ _⟩
    · exact ⟨source',row,by rw [if_neg hkey,hrow],hrev⟩
  · exact ⟨source,_,lookup_insert _,intentRow_revision _ _ _⟩

end IntentTable

namespace TopologyDb

variable {db : TopologyDb} {s path : Int}

section record

open IntentTable

theorem recordScope_revision (t : IntentTable) (servers) :
    (recordScope source stamp t servers).revision=t.revision := by
  unfold recordScope
  induction servers.filter (0 < ·) generalizing t with
  | nil => rfl
  | cons id rest ih => rw [foldl_cons,ih,writeIntent_revision]

theorem recordScope_below (h : t.Below) (servers) : (recordScope source stamp t servers).Below := by
  unfold recordScope
  induction servers.filter (0 < ·) generalizing t with
  | nil => exact h
  | cons id rest ih => exact ih (h.writeIntent _ _)

theorem hasIntent_recordScope (hr : 0<t.revision) (servers) :
    (recordScope source stamp t servers).HasIntent s ↔ t.HasIntent s ∨ (0 < s ∧ s∈servers) := by
  have hfold (ids : List Int) (t : IntentTable) (hr : 0<t.revision) (hpos : ∀id∈ids,0 < id) :
      (ids.foldl (fun t id => t.writeIntent ⟨source,.explicitIDs,id⟩ stamp) t).HasIntent s ↔
        t.HasIntent s ∨ s∈ids := by
    induction ids generalizing t with
    | nil => simp
    | cons id rest ih =>
      obtain ⟨hid,hrest⟩ := forall_mem_cons.mp hpos
      rw [foldl_cons,ih _ (by rwa [writeIntent_revision]) hrest,
        hasIntent_writeIntent hid hr,mem_cons,or_assoc]
  rw [recordScope,hfold _ t hr (by simp)]
  simp [and_comm]

theorem recordScopes_below (h : t.Below) : (db.recordScopes source stamp t images).Below := by
  induction images generalizing t with
  | nil => exact h
  | cons seeds rest ih => exact ih (recordScope_below h _)

theorem hasIntent_recordScopes (hr : 0<t.revision) :
    (db.recordScopes source stamp t images).HasIntent s ↔
      t.HasIntent s ∨ (0 < s ∧ ∃seeds∈images,s∈db.configurationScopeServerSelect seeds) := by
  unfold recordScopes
  induction images generalizing t with
  | nil => simp
  | cons seeds rest ih =>
    rw [foldl_cons,ih (by rwa [recordScope_revision]),hasIntent_recordScope hr]
    simp only [exists_mem_cons_iff]
    tauto

end record

variable {images : List ConfigurationScopeSeeds}

theorem fire_below (h : db.toIntentTable.Below) :
    (db.fire table event stamp images).toIntentTable.Below := by
  have hmoved : ({db.toIntentTable with revision := db.revision+1}).Below :=
    fun key row hrow => (h key row hrow).trans (Nat.le_succ _)
  exact recordScopes_below hmoved

theorem hasIntent_fire (h : db.toIntentTable.Below) :
    (db.fire table event stamp images).HasIntent s ↔
      0 < s ∧ ∃seeds∈images,s∈db.configurationScopeServerSelect seeds := by
  have hnone : ¬({db.toIntentTable with revision := db.revision+1}).HasIntent s := by
    rintro ⟨source,row,hrow,hrev⟩
    have hle := h _ row hrow
    have hrev : row.revision=db.revision+1 := hrev
    omega
  rw [fire,hasIntent_recordScopes (Nat.succ_pos _)]
  simp [hnone]

variable {row : StepRow}

section scope

section

variable (db : TopologyDb) (path s : Int)

def HostsStep : Prop :=
  ∃id row,db.steps.lookup id=some row ∧ row.pathID=path ∧
    (row.serverID=some s ∨ row.inboundID.bind db.hostOf=some s)

def HostsRoot : Prop :=
  ∃row,db.paths.lookup path=some row ∧ row.inboundID.bind db.hostOf=some s

def Hosts : Prop := db.HostsStep path s ∨ db.HostsRoot path s

end

def Touches (db : TopologyDb) (inboundID path : Int) : Prop :=
  (∃row,db.paths.lookup path=some row ∧ row.inboundID=some inboundID) ∨
    ∃id row,db.steps.lookup id=some row ∧ row.pathID=path ∧ row.inboundID=some inboundID

theorem mem_chainServersOfPaths {paths : List Int} :
    s∈db.chainServersOfPaths paths ↔ ∃p∈paths,db.Hosts p s := by
  simp only [chainServersOfPaths,mem_append,mem_filterMap,Prod.exists,mem_rows,
    Option.ite_none_right_eq_some]
  constructor
  · rintro ((⟨id,row,hrow,hp,hs⟩|⟨id,row,hrow,hp,hs⟩)|⟨id,row,hrow,hp,hs⟩)
    · exact ⟨_,hp,.inl ⟨id,row,hrow,rfl,.inl hs⟩⟩
    · exact ⟨_,hp,.inl ⟨id,row,hrow,rfl,.inr hs⟩⟩
    · exact ⟨_,hp,.inr ⟨row,hrow,hs⟩⟩
  rintro ⟨p,hp,⟨id,row,hrow,rfl,hs|hs⟩|⟨row,hrow,hs⟩⟩
  · exact .inl (.inl ⟨id,row,hrow,hp,hs⟩)
  · exact .inl (.inr ⟨id,row,hrow,hp,hs⟩)
  · exact .inr ⟨p,row,hrow,hp,hs⟩

theorem mem_pathsThrough {inbounds : List Int} :
    path∈db.pathsThrough inbounds ↔ ∃i∈inbounds,db.Touches i path := by
  simp only [pathsThrough,mem_append,mem_filterMap,Prod.exists,mem_rows,
    Option.ite_none_right_eq_some,Option.some.injEq,Option.any_eq_true,contains_iff_mem]
  constructor
  · rintro (⟨id,row,hrow,⟨i,hi,hm⟩,rfl⟩|⟨id,row,hrow,⟨i,hi,hm⟩,rfl⟩)
    · exact ⟨i,hm,.inl ⟨row,hrow,hi⟩⟩
    · exact ⟨i,hm,.inr ⟨id,row,hrow,rfl,hi⟩⟩
  rintro ⟨i,hm,⟨row,hrow,hi⟩|⟨id,row,hrow,rfl,hi⟩⟩
  · exact .inl ⟨path,row,hrow,⟨i,hi,hm⟩,rfl⟩
  · exact .inr ⟨id,row,hrow,⟨i,hi,hm⟩,rfl⟩

theorem mem_inboundScope : s∈db.configurationScopeServerSelect (inboundSeeds id) ↔
    db.hostOf id=some s ∨ ∃p,db.Touches id p ∧ db.Hosts p s := by
  simp [configurationScopeServerSelect,inboundSeeds,mem_chainServersOfPaths,mem_pathsThrough]

theorem mem_pathScope : s∈db.configurationScopeServerSelect (pathSeeds id) ↔ db.Hosts id s := by
  simp [configurationScopeServerSelect,pathSeeds,mem_chainServersOfPaths,mem_pathsThrough]

theorem mem_stepScope (h : row.serverID=some s ∨
    row.inboundID.bind db.hostOf=some s ∨ db.Hosts row.pathID s) :
    s∈db.configurationScopeServerSelect (stepSeeds row) := by
  simp only [configurationScopeServerSelect,stepSeeds,mem_append]
  rcases h with h|h|h
  · exact .inl (.inl (.inl (by simp [h])))
  · obtain ⟨i,hi,hs⟩ := Option.bind_eq_some_iff.mp h
    exact .inl (.inl (.inr (by simp [hi,hs])))
  · exact .inr (mem_chainServersOfPaths.mpr ⟨row.pathID,by simp,h⟩)

end scope

section references

section

variable (h : db.references=true)
include h

theorem references_inbound (hs : db.hostOf id=some s) : s∈db.servers := by
  simp only [references,Bool.and_eq_true] at h
  obtain ⟨row,hrow,rfl⟩ := Option.map_eq_some_iff.mp hs
  have := all_eq_true.mp h.1.1.1 _ (mem_rows.mpr hrow)
  simpa using this

theorem references_path {row : PathRow} (hrow : db.paths.lookup path=some row)
    (hi : row.inboundID=some i) : (db.inbounds.lookup i).isSome := by
  simp only [references,Bool.and_eq_true] at h
  have := all_eq_true.mp h.1.1.2 _ (mem_rows.mpr hrow)
  simp only [hi,Bool.and_eq_true] at this
  exact this.1

theorem references_step (hrow : db.steps.lookup id=some row) : (db.paths.lookup row.pathID).isSome ∧
      (∀s,row.serverID=some s → s∈db.servers) ∧
      ∀i,row.inboundID=some i → (db.inbounds.lookup i).isSome := by
  simp only [references,Bool.and_eq_true] at h
  have := all_eq_true.mp h.1.2 _ (mem_rows.mpr hrow)
  simp only [Bool.and_eq_true,Option.all_eq_true,contains_iff_mem] at this
  exact ⟨this.1.1,this.1.2,this.2⟩

theorem references_hosts (hs : db.Hosts path s) : s∈db.servers := by
  rcases hs with ⟨id,row,hrow,-,hs|hs⟩|⟨row,hrow,hs⟩
  · exact (references_step h hrow).2.1 s hs
  · obtain ⟨i,-,hs⟩ := Option.bind_eq_some_iff.mp hs
    exact references_inbound h hs
  · obtain ⟨i,-,hs⟩ := Option.bind_eq_some_iff.mp hs
    exact references_inbound h hs

theorem not_touches (hi : db.inbounds.lookup i=none) : ¬db.Touches i path := by
  rintro (⟨row,hrow,hid⟩|⟨id,row,hrow,-,hid⟩)
  · simpa [hi] using references_path h hrow hid
  · simpa [hi] using (references_step h hrow).2.2 i hid

theorem not_hosts (hp : db.paths.lookup path=none) : ¬db.Hosts path s := by
  rintro (⟨id,row,hrow,rfl,-⟩|⟨row,hrow,-⟩)
  · simpa [hp] using (references_step h hrow).1
  · rw [hp] at hrow
    cases hrow

end

end references

section actions

/-- What every foreign key action leaves alone. -/
structure Shrinks (db db' : TopologyDb) : Prop where
  servers : db'.servers=db.servers
  inbounds : db'.inbounds=db.inbounds
  paths : ∀p,db.paths.lookup p=none → db'.paths.lookup p=none
  below : db.toIntentTable.Below → db'.toIntentTable.Below

/-- The actions of a step that is gone also keep the other steps and the roots of the paths. -/
structure Keeps (db db' : TopologyDb) : Prop extends Shrinks db db' where
  steps : db'.steps=db.steps
  roots : ∀p,(db'.paths.lookup p).map (fun row => row.inboundID)=
    (db.paths.lookup p).map (fun row => row.inboundID)

theorem Shrinks.refl (db) : Shrinks db db := ⟨rfl,rfl,fun _ h => h,id⟩

theorem Shrinks.trans (h : Shrinks a b) (h' : Shrinks b c) : Shrinks a c :=
  ⟨h'.servers.trans h.servers,h'.inbounds.trans h.inbounds,fun p hp => h'.paths p (h.paths p hp),
    fun hb => h'.below (h.below hb)⟩

theorem Keeps.refl (db) : Keeps db db := ⟨Shrinks.refl db,rfl,fun _ => rfl⟩

theorem Keeps.trans (h : Keeps a b) (h' : Keeps b c) : Keeps a c :=
  ⟨h.toShrinks.trans h'.toShrinks,h'.steps.trans h.steps,fun p => (h'.roots p).trans (h.roots p)⟩

theorem keeps_fire : Keeps db (db.fire table event stamp images) :=
  ⟨⟨rfl,rfl,fun _ h => h,fire_below⟩,rfl,fun _ => rfl⟩

variable (stamp : String)

theorem keeps_deleteRule (db) (id) : Keeps db (db.deleteRule stamp id) := by
  unfold deleteRule
  split
  · exact Keeps.refl db
  have herase : Keeps db {db with rules := db.rules.erase id} :=
    ⟨⟨rfl,rfl,fun _ h => h,fun h => h⟩,rfl,fun _ => rfl⟩
  exact herase.trans keeps_fire

theorem keeps_clearBranch (db) (id) : Keeps db (db.clearBranch stamp id) := by
  unfold clearBranch
  split
  · exact Keeps.refl db
  next row hrow =>
  have hclear : Keeps db
      {db with paths := db.paths.insert id {row with branchSourceStepID := none}} := by
    refine ⟨⟨rfl,rfl,fun p hp => ?_,fun h => h⟩,rfl,fun p => ?_⟩
    · have hne : p≠id := fun he => by rw [he,hrow] at hp; cases hp
      rw [lookup_insert_eq,if_neg hne,hp]
    rw [lookup_insert_eq]
    split_ifs with he
    · rw [he,hrow]
      rfl
    · rfl
  split_ifs
  · exact hclear.trans keeps_fire
  · exact hclear

theorem keeps_stepActions (db) (order) (id) : Keeps db (db.stepActions stamp order id) := by
  have hrules db p : Keeps db (db.deleteRules stamp p) :=
    Runs.foldl_related Keeps.refl Keeps.trans (keeps_deleteRule stamp) _ db
  have hbranches db : Keeps db (db.clearBranches stamp id) :=
    Runs.foldl_related Keeps.refl Keeps.trans (keeps_clearBranch stamp) _ db
  unfold stepActions
  split_ifs
  · exact (hbranches db).trans (hrules _ _)
  · exact (hrules db _).trans (hbranches _)

theorem shrinks_deleteStep (order) (db) (id) : Shrinks db (db.deleteStep stamp order id) := by
  unfold deleteStep
  split
  · exact Shrinks.refl db
  have herase : Shrinks db {db with steps := db.steps.erase id} :=
    ⟨rfl,rfl,fun _ h => h,fun h => h⟩
  have hactions := herase.trans (keeps_stepActions stamp _ order id).toShrinks
  dsimp only
  split_ifs
  · exact hactions.trans keeps_fire.toShrinks
  · exact hactions

theorem shrinks_pathActions (db) (order) (id) : Shrinks db (db.pathActions stamp order id) := by
  have hrules db : Shrinks db (db.deletePathRules stamp id) :=
    Runs.foldl_related Shrinks.refl Shrinks.trans
      (fun db rule => (keeps_deleteRule stamp db rule).toShrinks) _ db
  have hsteps db : Shrinks db (db.deleteSteps stamp order id) :=
    Runs.foldl_related Shrinks.refl Shrinks.trans (shrinks_deleteStep stamp order) _ db
  unfold pathActions
  split_ifs
  · exact (hsteps db).trans (hrules _)
  · exact (hrules db).trans (hsteps _)

theorem shrinks_deletePath (order) (db) (id) : Shrinks db (db.deletePath stamp order id) := by
  unfold deletePath
  split
  · exact Shrinks.refl db
  have herase : Shrinks db {db with paths := db.paths.erase id} := by
    refine ⟨rfl,rfl,fun p hp => ?_,fun h => h⟩
    by_cases he : p=id
    · subst he
      exact lookup_erase _ _
    · rw [lookup_erase_ne he,hp]
  have hactions := herase.trans (shrinks_pathActions stamp _ order id)
  split_ifs
  · exact hactions.trans keeps_fire.toShrinks
  · exact hactions

theorem shrinks_clearTarget (db) (id) : Shrinks db (db.clearTarget stamp id) := by
  unfold clearTarget
  split
  · exact Shrinks.refl db
  next row _ =>
  have hclear : Shrinks db {db with steps := db.steps.insert id {row with inboundID := none}} :=
    ⟨rfl,rfl,fun _ h => h,fun h => h⟩
  dsimp only
  split_ifs
  · exact hclear.trans keeps_fire.toShrinks
  · exact hclear

theorem shrinks_inboundActions (db) (order)
    (id) : Shrinks db (db.inboundActions stamp order id) := by
  have hpaths db : Shrinks db (db.deletePaths stamp order id) :=
    Runs.foldl_related Shrinks.refl Shrinks.trans (shrinks_deletePath stamp order) _ db
  have htargets db : Shrinks db (db.clearTargets stamp id) :=
    Runs.foldl_related Shrinks.refl Shrinks.trans (shrinks_clearTarget stamp) _ db
  unfold inboundActions
  split_ifs
  · exact (hpaths db).trans (htargets _)
  · exact (htargets db).trans (hpaths _)

end actions

section statements

def changedInbounds : TopologyStatement → List Int
  | .insertInbound id _ => [id]
  | .updateInbound id newID _ => [id,newID]
  | .deleteInbound id => [id]
  | _ => []

/-- The changed path, or the paths of a changed step before and after. -/
def changedPaths (db : TopologyDb) : TopologyStatement → List Int
  | .insertPath id _ => [id]
  | .updatePath id newID _ => [id,newID]
  | .deletePath id => [id]
  | .insertStep _ row => [row.pathID]
  | .updateStep id _ row => row.pathID::((db.steps.lookup id).map (·.pathID)).toList
  | .deleteStep id => ((db.steps.lookup id).map (·.pathID)).toList
  | _ => []

section

variable (db db' : TopologyDb) (stmt : TopologyStatement)

def Affected (path : Int) : Prop :=
  path∈db.changedPaths stmt ∨ ∃i∈changedInbounds stmt,db.Touches i path ∨ db'.Touches i path

/-- The server held the changed inbound or something of an affected path, before or after. -/
def Concerned (s : Int) : Prop :=
  (∃i∈changedInbounds stmt,db.hostOf i=some s ∨ db'.hostOf i=some s) ∨
    ∃path,Affected db db' stmt path ∧ (db.Hosts path s ∨ db'.Hosts path s)

end

/-- The server holds something of the path besides the inbound. -/
def HostsBeside (db : TopologyDb) (inboundID path s : Int) : Prop :=
  (∃id row,db.steps.lookup id=some row ∧ row.pathID=path ∧
    (row.serverID=some s ∨ ∃j,row.inboundID=some j ∧ j≠inboundID ∧ db.hostOf j=some s)) ∨
  ∃row j,db.paths.lookup path=some row ∧ row.inboundID=some j ∧ j≠inboundID ∧ db.hostOf j=some s

def MissesNone (db : TopologyDb) : TopologyStatement → Prop
  | .updateInbound id _ row => ∀old,db.inbounds.lookup id=some old →
      row.serverID=old.serverID ∨ ∃path,db.Touches id path ∧ db.HostsBeside id path old.serverID
  | .deleteInbound _ => False
  | .updatePath id _ row => ∀s,db.HostsRoot id s →
      row.inboundID.bind db.hostOf=some s ∨ db.HostsStep id s
  | .deletePath id => ∀s,¬db.Hosts id s
  | _ => True

theorem inserted_some {t t' : Table Int ρ} {row : ρ}
    (h : inserted t id row=some t') : t.lookup id=none ∧ t'=t.insert id row := by
  unfold inserted at h
  split_ifs at h with hid
  exact ⟨by simpa using hid,(Option.some.inj h).symm⟩

theorem replaced_some {t t' : Table Int ρ} {newID : Int} {row : ρ}
    (h : replaced t id newID row=some t') : ∃old,t.lookup id=some old ∧
      (newID≠id → t.lookup newID=none) ∧ ∀k,t'.lookup k=
        if k=newID then some row else if k=id then none else t.lookup k := by
  unfold replaced at h
  split_ifs at h with hbad
  obtain ⟨hid,hnew⟩ := not_or.mp hbad
  obtain ⟨old,hold⟩ := Option.ne_none_iff_exists'.mp (by simpa using hid)
  refine ⟨old,hold,fun hne => by simpa [hne] using hnew,fun k => ?_⟩
  rw [← Option.some.inj h,lookup_insert_eq]
  by_cases hk : k=id
  · rw [hk,lookup_erase,if_pos rfl]
  · rw [lookup_erase_ne hk,if_neg hk]

theorem erased_some {t t' : Table Int ρ} (h : erased t id=some t') :
    ∃old,t.lookup id=some old ∧ t'.lookup id=none ∧ ∀k,k≠id → t'.lookup k=t.lookup k := by
  unfold erased at h
  split_ifs at h with hid
  obtain ⟨old,hold⟩ := Option.isSome_iff_exists.mp hid
  rw [← Option.some.inj h]
  exact ⟨old,hold,lookup_erase _ _,fun k hk => lookup_erase_ne hk⟩

def Covers (db after : TopologyDb) (stmt : TopologyStatement)
    (images : List ConfigurationScopeSeeds) : Prop :=
  ∀s,Concerned db after stmt s → ∃seeds∈images,s∈after.configurationScopeServerSelect seeds

section covers

variable {db after : TopologyDb}

theorem hosts_mono (hhost : ∀j s,db.hostOf j=some s → after.hostOf j=some s)
    (hsteps : ∀k row,db.steps.lookup k=some row → after.steps.lookup k=some row)
    (hpaths : ∀k row,db.paths.lookup k=some row → after.paths.lookup k=some row)
    (h : db.Hosts path s) : after.Hosts path s := by
  have hbind (o : Option Int) (ho : o.bind db.hostOf=some s) : o.bind after.hostOf=some s := by
    obtain ⟨j,rfl,hj⟩ := Option.bind_eq_some_iff.mp ho
    exact hhost j s hj
  rcases h with ⟨k,row,hrow,hp,hs⟩|⟨row,hrow,hs⟩
  · exact .inl ⟨k,row,hsteps k row hrow,hp,hs.imp_right (hbind _)⟩
  · exact .inr ⟨row,hpaths _ row hrow,hbind _ hs⟩

theorem lookup_insert_mono {t : Table Int ρ} {row : ρ} (hid : t.lookup id=none) :
    ∀k r,t.lookup k=some r → (t.insert id row).lookup k=some r := by
  intro k r hk
  have hne : k≠id := fun he => by rw [he,hid] at hk; cases hk
  rw [lookup_insert_eq,if_neg hne,hk]

theorem covers_insertInbound {row : InboundRow} (hid : db.inbounds.lookup id=none) :
    Covers db {db with inbounds := db.inbounds.insert id row} (.insertInbound id row)
      [inboundSeeds id] := by
  have hhost j s (hj : db.hostOf j=some s) :
      ({db with inbounds := db.inbounds.insert id row}).hostOf j=some s := by
    obtain ⟨r,hr,rfl⟩ := Option.map_eq_some_iff.mp hj
    rw [hostOf,lookup_insert_mono hid j r hr]
    rfl
  intro s hs
  refine ⟨_,mem_singleton_self _,mem_inboundScope.mpr ?_⟩
  simp only [Concerned,Affected,changedInbounds,changedPaths,mem_singleton,not_mem_nil,
    false_or,exists_eq_left] at hs
  rcases hs with hs|⟨p,htouch,hs⟩
  · exact .inl (hs.elim (hhost _ _) (fun h => h))
  · refine .inr ⟨p,htouch.elim (fun h => h) (fun h => h),?_⟩
    exact hs.elim (hosts_mono hhost (fun _ _ h => h) (fun _ _ h => h)) (fun h => h)

theorem covers_insertPath {row : PathRow} (hdb : db.references=true)
    (hid : db.paths.lookup id=none) :
    Covers db {db with paths := db.paths.insert id row} (.insertPath id row) [pathSeeds id] := by
  intro s hs
  refine ⟨_,mem_singleton_self _,mem_pathScope.mpr ?_⟩
  simp only [Concerned,Affected,changedInbounds,changedPaths,mem_singleton,not_mem_nil,
    false_and,exists_false,false_or,or_false,exists_eq_left] at hs
  exact hs.elim (fun h => absurd h (not_hosts hdb hid)) (fun h => h)

theorem covers_insertStep (hid : db.steps.lookup id=none) :
    Covers db {db with steps := db.steps.insert id row} (.insertStep id row) [stepSeeds row] := by
  intro s hs
  refine ⟨_,mem_singleton_self _,mem_stepScope (.inr (.inr ?_))⟩
  simp only [Concerned,Affected,changedInbounds,changedPaths,mem_singleton,not_mem_nil,
    false_and,exists_false,false_or,or_false,exists_eq_left] at hs
  exact hs.elim (hosts_mono (fun _ _ h => h) (lookup_insert_mono hid) (fun _ _ h => h)) (fun h => h)

theorem covers_deletePath_iff (hafter : after.references=true) (hid : after.paths.lookup id=none) :
    Covers db after (.deletePath id) [pathSeeds id] ↔ ∀s,¬db.Hosts id s := by
  simp only [Covers,Concerned,Affected,changedInbounds,changedPaths,mem_singleton,
    not_mem_nil,false_and,exists_false,false_or,or_false,exists_eq_left,mem_pathScope]
  refine forall_congr' fun s => ⟨fun h hs => not_hosts hafter hid (h (.inl hs)),fun h hs => ?_⟩
  exact hs.elim (fun hs => absurd hs h) (fun hs => hs)

theorem not_covers_deleteInbound (hold : db.inbounds.lookup id=some old)
    (hafter : after.references=true) (hid : after.inbounds.lookup id=none) :
    ¬Covers db after (.deleteInbound id) [inboundSeeds id] := by
  intro h
  obtain ⟨seeds,hseeds,hs⟩ := h old.serverID
    (.inl ⟨id,mem_singleton_self _,.inl (by simp [hostOf,hold])⟩)
  rw [mem_singleton.mp hseeds,mem_inboundScope] at hs
  rcases hs with hs|⟨p,htouch,-⟩
  · simp [hostOf,hid] at hs
  · exact not_touches hafter hid htouch

section steps

variable (hold : db.steps.lookup id=some old) (hhost : after.hostOf=db.hostOf)
  (hroots : ∀p,(after.paths.lookup p).map (fun row => row.inboundID)=
    (db.paths.lookup p).map (fun row => row.inboundID))
include hold hhost hroots

theorem hosts_without_step
    (hsteps : ∀k,k≠id → ∀row,db.steps.lookup k=some row → after.steps.lookup k=some row)
    (h : db.Hosts path s) : after.Hosts path s ∨ (path=old.pathID ∧
      (old.serverID=some s ∨ old.inboundID.bind after.hostOf=some s)) := by
  rw [hhost]
  rcases h with ⟨k,row,hrow,hp,hs⟩|⟨row,hrow,hs⟩
  · by_cases hk : k=id
    · subst hk
      cases hold.symm.trans hrow
      exact .inr ⟨hp.symm,hs⟩
    · exact .inl (.inl ⟨k,row,hsteps k hk row hrow,hp,by rwa [hhost]⟩)
  · have hroot := hroots path
    rw [hrow] at hroot
    obtain ⟨row',hrow',hid⟩ := Option.map_eq_some_iff.mp hroot
    exact .inl (.inr ⟨row',hrow',by rwa [hid,hhost]⟩)

theorem covers_deleteStep (hsteps : ∀k,k≠id → after.steps.lookup k=db.steps.lookup k) :
    Covers db after (.deleteStep id) [stepSeeds old] := by
  intro s hs
  refine ⟨_,mem_singleton_self _,mem_stepScope ?_⟩
  simp only [Concerned,Affected,changedInbounds,changedPaths,hold,Option.map_some,
    Option.toList_some,mem_singleton,not_mem_nil,false_and,exists_false,false_or,
    or_false,exists_eq_left] at hs
  rcases hs with hs|hs
  · rcases hosts_without_step hold hhost hroots (fun k hk row hrow => (hsteps k hk).trans hrow) hs
      with hs|⟨-,hs|hs⟩
    · exact .inr (.inr hs)
    · exact .inl hs
    · exact .inr (.inl hs)
  · exact .inr (.inr hs)

end steps

theorem covers_updateStep {old : StepRow} {t : Table Int StepRow}
    (hold : db.steps.lookup id=some old) (hnew : newID≠id → db.steps.lookup newID=none)
    (ht : ∀k,t.lookup k=
      if k=newID then some row else if k=id then none else db.steps.lookup k) :
    Covers db {db with steps := t} (.updateStep id newID row) [stepSeeds old,stepSeeds row] := by
  have hsteps k (hk : k≠id) r (hr : db.steps.lookup k=some r) : t.lookup k=some r := by
    have hne : k≠newID := fun he => by
      rw [he,hnew (he ▸ hk)] at hr
      cases hr
    rw [ht,if_neg hne,if_neg hk,hr]
  intro s hs
  simp only [Concerned,Affected,changedInbounds,changedPaths,hold,Option.map_some,
    Option.toList_some,mem_cons,not_mem_nil,false_and,exists_false,false_or,
    or_false] at hs
  obtain ⟨p,hp,hs⟩ := hs
  simp only [mem_cons,not_mem_nil,or_false,exists_eq_or_imp,exists_eq_left]
  have hhosts (hs : ({db with steps := t}).Hosts p s) :
      s∈({db with steps := t}).configurationScopeServerSelect (stepSeeds old) ∨
      s∈({db with steps := t}).configurationScopeServerSelect (stepSeeds row) := by
    rcases hp with rfl|rfl
    · exact .inr (mem_stepScope (.inr (.inr hs)))
    · exact .inl (mem_stepScope (.inr (.inr hs)))
  rcases hs with hs|hs
  · have hleft : ({db with steps := t}).Hosts p s ∨ (p=old.pathID ∧
        (old.serverID=some s ∨ old.inboundID.bind db.hostOf=some s)) :=
      hosts_without_step hold rfl (fun _ => rfl) hsteps hs
    rcases hleft with hs|⟨-,hs|hs⟩
    · exact hhosts hs
    · exact .inl (mem_stepScope (.inl hs))
    · exact .inl (mem_stepScope (.inr (.inl hs)))
  · exact hhosts hs

theorem covers_updatePath_iff {row : PathRow} {t : Table Int PathRow} (hdb : db.references=true)
    (hnew : newID≠id → db.paths.lookup newID=none)
    (ht : ∀k,t.lookup k=if k=newID then some row else if k=id then none else db.paths.lookup k) :
    Covers db {db with paths := t} (.updatePath id newID row) [pathSeeds id,pathSeeds newID] ↔
      db.MissesNone (.updatePath id newID row) := by
  have hrow : t.lookup newID=some row := by rw [ht,if_pos rfl]
  have hfresh hne s : ¬db.Hosts newID s := not_hosts hdb (hnew hne)
  simp only [Covers,Concerned,Affected,changedInbounds,changedPaths,mem_cons,
    not_mem_nil,false_and,exists_false,false_or,or_false,exists_eq_or_imp,exists_eq_left,
    mem_pathScope]
  constructor
  · intro h s hroot
    have hnewRow r (hr : t.lookup id=some r) : r=row := by
      rw [ht,if_pos rfl] at hr
      split_ifs at hr
      exact (Option.some.inj hr).symm
    rcases h s (.inl (.inl (.inr hroot))) with (hs|⟨r,hr,hs⟩)|(hs|⟨r,hr,hs⟩)
    · exact .inr hs
    · exact .inl (hnewRow r hr ▸ hs)
    · by_cases hne : newID=id
      · exact .inr (hne ▸ hs)
      · exact absurd (.inl hs) (hfresh hne s)
    · cases hrow.symm.trans hr
      exact .inl hs
  · intro h s hs
    have hbefore (hs : db.Hosts id s) : ({db with paths := t}).Hosts id s ∨
        ({db with paths := t}).Hosts newID s := by
      rcases hs with hs|hroot
      · exact .inl (.inl hs)
      rcases h s hroot with hs|hs
      · exact .inr (.inr ⟨row,hrow,hs⟩)
      · exact .inl (.inl hs)
    rcases hs with (hs|hs)|(hs|hs)
    · exact hbefore hs
    · exact .inl hs
    · by_cases hne : newID=id
      · exact hbefore (hne ▸ hs)
      · exact absurd hs (hfresh hne s)
    · exact .inr hs

theorem hosts_after_move (path s) {row : InboundRow}
    (hold : db.inbounds.lookup id=some old) (hnew : newID≠id → db.inbounds.lookup newID=none)
    (ht : ∀k,t.lookup k=
      if k=newID then some row else if k=id then none else db.inbounds.lookup k) :
    (db.HostsBeside id path s → ({db with inbounds := t} : TopologyDb).Hosts path s) ∧
    (({db with inbounds := t} : TopologyDb).Hosts path s →
      s=row.serverID ∨ db.HostsBeside id path s) ∧
    (db.Hosts path s → s=old.serverID ∨ db.HostsBeside id path s) := by
  let db' : TopologyDb := {db with inbounds := t}
  have hstays j (hj : j≠id) (hs : db.hostOf j=some s) : db'.hostOf j=some s := by
    have hne : j≠newID := fun he => by
      rw [hostOf,he,hnew (he ▸ hj)] at hs
      cases hs
    rw [hostOf,ht,if_neg hne,if_neg hj]
    exact hs
  have hcame o (ho : o.bind db'.hostOf=some s) :
      s=row.serverID ∨ ∃j,o=some j ∧ j≠id ∧ db.hostOf j=some s := by
    obtain ⟨j,rfl,hj⟩ := Option.bind_eq_some_iff.mp ho
    rw [hostOf,ht] at hj
    split_ifs at hj with h1 h2
    · exact .inl (Option.some.inj hj).symm
    · cases hj
    · exact .inr ⟨j,rfl,h2,hj⟩
  have hwas o (ho : o.bind db.hostOf=some s) :
      s=old.serverID ∨ ∃j,o=some j ∧ j≠id ∧ db.hostOf j=some s := by
    obtain ⟨j,rfl,hj⟩ := Option.bind_eq_some_iff.mp ho
    by_cases h : j=id
    · rw [hostOf,h,hold] at hj
      exact .inl (Option.some.inj hj).symm
    · exact .inr ⟨j,rfl,h,hj⟩
  refine ⟨?_,?_,?_⟩
  · rintro (⟨k,r,hr,hp,hs|⟨j,hj,hne,hs⟩⟩|⟨r,j,hr,hj,hne,hs⟩)
    · exact .inl ⟨k,r,hr,hp,.inl hs⟩
    · exact .inl ⟨k,r,hr,hp,.inr (by rw [hj]; exact hstays j hne hs)⟩
    · exact .inr ⟨r,hr,by rw [hj]; exact hstays j hne hs⟩
  · rintro (⟨k,r,hr,hp,hs|hs⟩|⟨r,hr,hs⟩)
    · exact .inr (.inl ⟨k,r,hr,hp,.inl hs⟩)
    · exact (hcame _ hs).imp_right fun hs => .inl ⟨k,r,hr,hp,.inr hs⟩
    · exact (hcame _ hs).imp_right fun ⟨j,hj,hne,hs⟩ => .inr ⟨r,j,hr,hj,hne,hs⟩
  · rintro (⟨k,r,hr,hp,hs|hs⟩|⟨r,hr,hs⟩)
    · exact .inr (.inl ⟨k,r,hr,hp,.inl hs⟩)
    · exact (hwas _ hs).imp_right fun hs => .inl ⟨k,r,hr,hp,.inr hs⟩
    · exact (hwas _ hs).imp_right fun ⟨j,hj,hne,hs⟩ => .inr ⟨r,j,hr,hj,hne,hs⟩

theorem covers_updateInbound_iff {row : InboundRow}
    (hdb : db.references=true) (hold : db.inbounds.lookup id=some old)
    (hnew : newID≠id → db.inbounds.lookup newID=none)
    (ht : ∀k,t.lookup k=
      if k=newID then some row else if k=id then none else db.inbounds.lookup k) :
    Covers db {db with inbounds := t} (.updateInbound id newID row)
      [inboundSeeds id,inboundSeeds newID] ↔ db.MissesNone (.updateInbound id newID row) := by
  let db' : TopologyDb := {db with inbounds := t}
  have hmove {path s} := hosts_after_move path s hold hnew ht
  have hhost : db'.hostOf newID=some row.serverID := by
    rw [hostOf,ht,if_pos rfl]
    rfl
  simp only [Covers,Concerned,Affected,changedInbounds,changedPaths,mem_cons,
    not_mem_nil,false_or,or_false,exists_eq_or_imp,exists_eq_left,mem_inboundScope]
  constructor
  · intro h old' hold'
    cases hold.symm.trans hold'
    have hseen p htouch hs :
        row.serverID=old.serverID ∨ ∃path,db.Touches id path ∧
          db.HostsBeside id path old.serverID :=
      (hmove.2.1 hs).imp Eq.symm (fun hs => ⟨p,htouch,hs⟩)
    have hcover := h old.serverID (.inl (.inl (.inl (by rw [hostOf,hold]; rfl))))
    by_cases hne : newID=id
    · subst hne
      rw [or_self] at hcover
      rcases hcover with hs|⟨p,htouch,hs⟩
      · exact .inl (Option.some.inj (hhost.symm.trans hs))
      · exact hseen p htouch hs
    · rcases hcover with (hs|⟨p,htouch,hs⟩)|(hs|⟨p,htouch,hs⟩)
      · rw [hostOf,ht,if_neg (Ne.symm hne),if_pos rfl] at hs
        cases hs
      · exact hseen p htouch hs
      · exact .inl (Option.some.inj (hhost.symm.trans hs))
      -- a new id was free, so nothing refers to it yet
      · exact absurd htouch (not_touches hdb (hnew hne))
  · intro h s hs
    have hrescued (hs : s=old.serverID) :
        db'.hostOf newID=some s ∨ ∃p,db.Touches id p ∧ db'.Hosts p s := by
      subst hs
      rcases h old hold with hsame|⟨p,htouch,hs⟩
      · exact .inl (hsame ▸ hhost)
      · exact .inr ⟨p,htouch,hmove.1 hs⟩
    have hleft (hs : db.hostOf id=some s) :
        db'.hostOf newID=some s ∨ ∃p,db.Touches id p ∧ db'.Hosts p s := by
      rw [hostOf,hold] at hs
      exact hrescued (Option.some.inj hs).symm
    rcases hs with ((hs|hs)|(hs|hs))|⟨p,htouch,hs⟩
    · exact (hleft hs).elim (fun h => .inr (.inl h)) (fun h => .inl (.inr h))
    · exact .inl (.inl hs)
    · by_cases hne : newID=id
      · rw [hne] at hs
        exact (hleft hs).elim (fun h => .inr (.inl h)) (fun h => .inl (.inr h))
      · rw [hostOf,hnew hne] at hs
        cases hs
    · exact .inr (.inl hs)
    · have hs : s=old.serverID ∨ db'.Hosts p s :=
        hs.elim (fun hs => hmove.2.2 hs |>.imp_right hmove.1) .inr
      rcases hs with hs|hs
      · exact (hrescued hs).elim (fun h => .inr (.inl h)) (fun h => .inl (.inr h))
      · exact htouch.imp (.inr ⟨p,or_self_iff.mp ·,hs⟩) (.inr ⟨p,or_self_iff.mp ·,hs⟩)

end covers

end statements

end TopologyDb

/-- A committed database: server ids are assigned by the database, references hold and intents
carry revisions of the past. -/
structure StoredTopology extends TopologyDb where
  positive : ∀s∈servers,0 < s
  consistent : toTopologyDb.references=true
  below : toIntentTable.Below

namespace TopologyDb

theorem exec_inv {db db' : TopologyDb} (hexec : db.exec order stamp stmt=some db')
    (hfires : (db.trigger db' stmt).isSome) : ∃after table event images,
      db.applied order stamp stmt=some after ∧ after.references=true ∧
      db.trigger after stmt=some (table,event,images) ∧
      db'=after.fire table event stamp images := by
  unfold exec at hexec
  split at hexec
  · cases hexec
  next after happlied =>
  split at hexec
  · cases hexec
  next hrefs =>
  split at hexec
  · next hnone =>
    cases hexec
    rw [hnone] at hfires
    cases hfires
  next table event images htrigger =>
  exact ⟨after,table,event,images,happlied,by simpa using hrefs,htrigger,
    (Option.some.inj hexec).symm⟩

theorem applied_keeps {db after : TopologyDb} (h : db.applied order stamp stmt=some after) :
    after.servers=db.servers ∧ (db.toIntentTable.Below → after.toIntentTable.Below) := by
  cases stmt
  all_goals
    obtain ⟨t,-,rfl⟩ := Option.map_eq_some_iff.mp h
  case deleteInbound id =>
    have := shrinks_inboundActions stamp {db with inbounds := t} order id
    exact ⟨this.servers,this.below⟩
  case deletePath id =>
    have := shrinks_pathActions stamp {db with paths := t} order id
    exact ⟨this.servers,this.below⟩
  case deleteStep id =>
    have := (keeps_stepActions stamp {db with steps := t} order id).toShrinks
    exact ⟨this.servers,this.below⟩
  all_goals exact ⟨rfl,id⟩

theorem covers_iff {db after : TopologyDb} {table : String} {event : RowEvent}
    {images : List ConfigurationScopeSeeds} (hdb : db.references=true)
    (happlied : db.applied order stamp stmt=some after) (hafter : after.references=true)
    (htrigger : db.trigger after stmt=some (table,event,images)) :
    Covers db after stmt images ↔ db.MissesNone stmt := by
  cases stmt
  all_goals obtain ⟨t,ht,rfl⟩ := Option.map_eq_some_iff.mp happlied
  case insertInbound id row =>
    obtain ⟨hid,rfl⟩ := inserted_some ht
    cases htrigger
    exact ⟨fun _ => trivial,fun _ => covers_insertInbound hid⟩
  case updateInbound id newID row =>
    obtain ⟨old,hold,hnew,hlookup⟩ := replaced_some ht
    simp only [trigger] at htrigger
    split_ifs at htrigger
    cases htrigger
    exact covers_updateInbound_iff hdb hold hnew hlookup
  case deleteInbound id =>
    obtain ⟨old,hold,hid,-⟩ := erased_some ht
    cases htrigger
    refine ⟨fun h => not_covers_deleteInbound hold hafter ?_ h,fun h => h.elim⟩
    rw [(shrinks_inboundActions stamp _ order id).inbounds]
    exact hid
  case insertPath id row =>
    obtain ⟨hid,rfl⟩ := inserted_some ht
    simp only [trigger] at htrigger
    split_ifs at htrigger
    cases htrigger
    exact ⟨fun _ => trivial,fun _ => covers_insertPath hdb hid⟩
  case updatePath id newID row =>
    obtain ⟨old,hold,hnew,hlookup⟩ := replaced_some ht
    simp only [trigger] at htrigger
    split_ifs at htrigger
    cases htrigger
    exact covers_updatePath_iff hdb hnew hlookup
  case deletePath id =>
    obtain ⟨old,hold,hid,-⟩ := erased_some ht
    simp only [trigger] at htrigger
    split_ifs at htrigger
    cases htrigger
    exact covers_deletePath_iff hafter ((shrinks_pathActions stamp _ order id).paths id hid)
  case insertStep id row =>
    obtain ⟨hid,rfl⟩ := inserted_some ht
    simp only [trigger] at htrigger
    split_ifs at htrigger
    cases htrigger
    exact ⟨fun _ => trivial,fun _ => covers_insertStep hid⟩
  case updateStep id newID row =>
    obtain ⟨old,hold,hnew,hlookup⟩ := replaced_some ht
    simp only [trigger,hold] at htrigger
    split_ifs at htrigger
    cases htrigger
    exact ⟨fun _ => trivial,fun _ => covers_updateStep hold hnew hlookup⟩
  case deleteStep id =>
    obtain ⟨old,hold,-,hlookup⟩ := erased_some ht
    simp only [trigger,hold] at htrigger
    split_ifs at htrigger
    cases htrigger
    have hkeeps := keeps_stepActions stamp {db with steps := t} order id
    refine ⟨fun _ => trivial,fun _ => covers_deleteStep hold ?_ hkeeps.roots fun k hk => ?_⟩
    · funext j
      rw [hostOf,hkeeps.inbounds]
      rfl
    · rw [hkeeps.steps]
      exact hlookup k hk

theorem concerned_mem {db after : TopologyDb} (hdb : db.references=true)
    (hafter : after.references=true) (hservers : after.servers=db.servers)
    (h : Concerned db after stmt s) : s∈db.servers := by
  rcases h with ⟨i,-,hs|hs⟩|⟨p,-,hs|hs⟩
  · exact references_inbound hdb hs
  · exact hservers ▸ references_inbound hafter hs
  · exact references_hosts hdb hs
  · exact hservers ▸ references_hosts hafter hs

end TopologyDb

/-- A statement whose trigger fires gives an intent to every server it concerns exactly where its
scope misses none. -/
theorem change_reaches_its_servers_iff (order : ActionOrder) (stamp : String) (db : StoredTopology)
    (stmt : TopologyStatement) (db' : TopologyDb) (hexec : db.exec order stamp stmt=some db')
    (hfires : (db.trigger db' stmt).isSome) :
    (∀s,TopologyDb.Concerned db.toTopologyDb db' stmt s → db'.HasIntent s) ↔
      db.MissesNone stmt := by
  obtain ⟨after,table,event,images,happlied,hafter,htrigger,rfl⟩ :=
    exec_inv hexec hfires
  obtain ⟨hservers,hbelow⟩ := applied_keeps happlied
  rw [← covers_iff db.consistent happlied hafter htrigger]
  refine forall_congr' fun s => ⟨fun h hs => ?_,fun h hs => ?_⟩
  · exact ((hasIntent_fire (hbelow db.below)).mp (h hs)).2
  · exact (hasIntent_fire (hbelow db.below)).mpr
      ⟨db.positive s (concerned_mem db.consistent hafter hservers hs),h hs⟩

def relayedDb : TopologyDb where
  revision := 4
  servers := [1,2,3]
  inbounds := singleton 1 {serverID := 1}
  paths := singleton 1 {inboundID := some 1,enabled := true}
  steps := singleton 1 {pathID := 1,serverID := some 2,inboundID := none}

def relayedTopology : StoredTopology where
  toTopologyDb := relayedDb
  positive := by decide
  consistent := by decide
  below := fun _ _ h => by cases h

def anyOrder : ActionOrder := ⟨true,true,true⟩

def stepToThird : TopologyStatement :=
  .updateStep 1 1 {pathID := 1,serverID := some 3,inboundID := none}

/-- A step that moves from the second server to the third reaches all three. -/
theorem moved_step_reaches_all : ∃db',relayedTopology.exec anyOrder "" stepToThird=some db' ∧
    ∀s,TopologyDb.Concerned relayedDb db' stepToThird s → db'.HasIntent s :=
  ⟨_,rfl,(change_reaches_its_servers_iff anyOrder "" relayedTopology stepToThird _ rfl (by decide)).mpr
    trivial⟩

def inboundToSecond : TopologyStatement := .updateInbound 1 1 {serverID := 2}

/-- An inbound that moves to the second server leaves the first without an intent. -/
theorem left_server_gets_no_intent : ∃db',
    relayedTopology.exec anyOrder "" inboundToSecond=some db' ∧
    (relayedDb.trigger db' inboundToSecond).isSome ∧
    TopologyDb.Concerned relayedDb db' inboundToSecond 1 ∧
    ¬db'.HasIntent 1 := by
  refine ⟨_,rfl,by decide,.inl ⟨1,by decide,.inl (by decide)⟩,?_⟩
  rintro ⟨source,row,hrow,-⟩
  have hserver := mem_map_of_mem (f := fun row => row.1.serverID) (mem_rows.mpr hrow)
  change 1∈_ at hserver
  revert hserver
  decide

end Oboard.Store
