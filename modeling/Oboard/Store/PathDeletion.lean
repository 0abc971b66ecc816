import Mathlib.Data.Finset.Card
import Mathlib.Logic.Relation
import Oboard.Framework.Runs
import Oboard.Store.ConfigurationScope

namespace Oboard.Store

open List Relation Runs Table TopologyDb

structure BranchTables where
  paths : Table Int PathRow
  steps : Table Int StepRow

namespace BranchTables

variable (t : BranchTables)

def stepsOf (ids : List Int) : List Int := keysWhere t.steps (·.pathID∈ids)

/-- One round of the worklist: the unseen paths that branch from its steps. -/
def newBranches (seen steps : List Int) : List Int :=
  (keysWhere t.paths (·.branchSourceStepID.any (·∈steps))).filter (·∉seen)

theorem mem_keysWhere : k∈keysWhere s p ↔ ∃row,s.lookup k=some row ∧ p row := by
  simp [keysWhere,mem_rows]

def branchClosure (seen steps : List Int) : List Int :=
  match _h : t.newBranches seen steps with
  | [] => seen
  | child::rest => branchClosure (seen++child::rest) (t.stepsOf (child::rest))
  termination_by (t.paths.keys.toFinset\seen.toFinset).card
  decreasing_by
    have hc : child∈t.newBranches seen steps := by simp [_h]
    obtain ⟨hk,hs⟩ := mem_filter.mp hc
    obtain ⟨row,hrow,-⟩ := mem_keysWhere.mp hk
    have : child∈t.paths.keys := AList.mem_keys.mp (AList.lookup_isSome.mp (by simp [hrow]))
    apply Finset.card_lt_card
    rw [Finset.ssubset_iff_of_subset (by grind [mem_toFinset])]
    exact ⟨child,by grind [mem_toFinset]⟩

/-- Deleting the steps clears the branches that name them (`on delete set null`). -/
def deletePath (id : Int) : BranchTables where
  paths := (t.paths.mapRows fun _ row => if row.branchSourceStepID.any (·∈t.stepsOf [id]) then
    {row with branchSourceStepID := none} else row).erase id
  steps := t.steps.deleteRows fun _ row => row.pathID=id

section

variable {ε : Type} (removeAssignableNodeFromPlans : List Int → Except ε Unit)

/-- The plans are cleaned of the collected paths first; a plan whose version is still applying
refuses, and nothing is deleted. -/
def cascadeDeleteProxyPathBranches (deletedStepIDs deletedPathIDs : List Int) :
    Except ε BranchTables := do
  let paths := t.branchClosure (deletedPathIDs.filter (0<·)) (deletedStepIDs.filter (0<·))
  removeAssignableNodeFromPlans paths
  return paths.foldl deletePath t

/-- One transaction: the tables it leaves, and the error it rolls back with. -/
def deleteProxyPath (id : Int) : BranchTables×Except ε Unit :=
  let tx := t.cascadeDeleteProxyPathBranches removeAssignableNodeFromPlans (t.stepsOf [id]) [id]
  (keepOnError t tx,tx.map fun _ => ())

end

def Branches (q p : Int) : Prop :=
  ∃row s step,t.paths.lookup p=some row ∧ row.branchSourceStepID=some s ∧
    t.steps.lookup s=some step ∧ step.pathID=q

/-- The path and, step by step, what branches from it. -/
abbrev Subtree (id : Int) : Int → Prop := ReflTransGen t.Branches id

variable {t} {id : Int} {ids : List Int}

theorem mem_newBranches {seen front : List Int} {p : Int} :
    p∈t.newBranches seen (t.stepsOf front) ↔ (∃q∈front,t.Branches q p) ∧ p∉seen := by
  simp only [newBranches,stepsOf,mem_filter,mem_keysWhere,Branches,Option.any_eq_true]
  grind

/-- Seen paths are reachable, and only the front's branches may be unseen. -/
theorem mem_branchClosure (hseen : ∀p∈seen,t.Subtree id p) (hid : id∈seen)
    (hfront : front⊆seen) (hclosed : ∀q∈seen,∀p,t.Branches q p → p∈seen ∨ q∈front) :
    p∈t.branchClosure seen (t.stepsOf front) ↔ t.Subtree id p := by
  generalize hs : t.stepsOf front=steps
  fun_induction branchClosure t seen steps generalizing front with
  | case1 seen steps h =>
    refine ⟨hseen p,fun hp => ?_⟩
    induction hp with
    | refl => exact hid
    | tail _ hb hq =>
      by_contra hp
      have := mem_newBranches.mpr ⟨⟨_,((hclosed _ hq _ hb).resolve_left hp),hb⟩,hp⟩
      simp [hs,h] at this
  | case2 seen steps child rest h ih =>
    have hnew {p} : p∈t.newBranches seen (t.stepsOf front) ↔ _ := mem_newBranches
    rw [hs,h] at hnew
    refine ih ?_ (by simp [hid]) (by simp) ?_ rfl
    · intro p hp
      rcases mem_append.mp hp with hp | hp
      · exact hseen p hp
      · obtain ⟨⟨q,hq,hb⟩,-⟩ := hnew.mp hp
        exact (hseen q (hfront hq)).tail hb
    · grind

theorem steps_foldl_deletePath : (ids.foldl deletePath t).steps.lookup s=some step ↔
    t.steps.lookup s=some step ∧ step.pathID∉ids := by
  induction ids generalizing t with
  | nil => simp
  | cons q rest ih => simp [ih,deletePath,lookup_deleteRows,Option.filter_eq_some_iff,and_assoc]

theorem paths_foldl_deletePath (h : ((ids.foldl deletePath t).paths.lookup p).isSome) :
    p∉ids ∧ (t.paths.lookup p).isSome := by
  induction ids generalizing t with
  | nil => exact ⟨by simp,h⟩
  | cons q rest ih =>
    obtain ⟨hp,h⟩ := ih h
    have hq : p≠q := by
      rintro rfl
      simp [deletePath] at h
    rw [deletePath,AList.lookup_erase_ne hq,lookup_mapRows,Option.isSome_map] at h
    exact ⟨by simp [hp,hq],h⟩

theorem survivor_foldl_deletePath (hp : p∉ids) (hb : ∀q∈ids,¬t.Branches q p) :
    (ids.foldl deletePath t).paths.lookup p=t.paths.lookup p := by
  induction ids generalizing t with
  | nil => rfl
  | cons q rest ih =>
    rw [mem_cons,not_or] at hp
    have h : (t.deletePath q).paths.lookup p=t.paths.lookup p := by
      rw [deletePath,AList.lookup_erase_ne hp.1,lookup_mapRows]
      cases hrow : t.paths.lookup p with
      | none => rfl
      | some row =>
        have hq := hb q mem_cons_self
        simp only [Option.map_some,stepsOf,Option.any_eq_true,decide_eq_true_eq,mem_keysWhere,
          mem_singleton]
        rw [if_neg]
        rintro ⟨s,hs,step,hstep,rfl⟩
        exact hq ⟨row,s,step,hrow,hs,hstep,rfl⟩
    rw [foldl_cons,ih hp.2,h]
    rintro r hr ⟨row,s,step,hrow,hs,hstep,rfl⟩
    rw [deletePath,lookup_deleteRows,Option.filter_eq_some_iff] at hstep
    exact hb _ (mem_cons_of_mem q hr) ⟨row,s,step,h▸hrow,hs,hstep.1,rfl⟩

end BranchTables

/-- Row ids count up from one. -/
structure StoredBranches extends BranchTables where
  pathIDs : ∀id,(paths.lookup id).isSome → 0< id
  stepIDs : ∀id,(steps.lookup id).isSome → 0< id

/-- What deleting one path leaves: exactly the paths outside its subtree, exactly their steps,
and every branch step of a survivor. -/
structure SubtreeRemoved (t after : BranchTables) (id : Int) : Prop where
  removed : ∀p,t.Subtree id p → after.paths.lookup p=none
  kept : ∀p,¬t.Subtree id p → after.paths.lookup p=t.paths.lookup p
  steps : ∀s step,after.steps.lookup s=some step ↔
    t.steps.lookup s=some step ∧ ¬t.Subtree id step.pathID
  sources : ∀p row s,after.paths.lookup p=some row → row.branchSourceStepID=some s →
    after.steps.lookup s=t.steps.lookup s

open BranchTables

namespace StoredBranches

variable (t : StoredBranches) {id : Int}

theorem mem_removed (id p : Int) : p∈t.branchClosure [id] (t.stepsOf [id]) ↔ t.Subtree id p :=
  mem_branchClosure (by simp [ReflTransGen.refl]) (by simp) (by simp) (by simp)

theorem cascade_eq (removeAssignableNodeFromPlans : List Int → Except ε Unit)
    (hid : (t.paths.lookup id).isSome) :
    t.cascadeDeleteProxyPathBranches removeAssignableNodeFromPlans (t.stepsOf [id]) [id]=do
      removeAssignableNodeFromPlans (t.branchClosure [id] (t.stepsOf [id]))
      return (t.branchClosure [id] (t.stepsOf [id])).foldl BranchTables.deletePath t.toBranchTables := by
  have hsteps : (t.stepsOf [id]).filter (0<·)=t.stepsOf [id] := by
    refine filter_eq_self.mpr fun s hs => ?_
    obtain ⟨row,hrow,-⟩ := mem_keysWhere.mp hs
    simp [t.stepIDs s (by simp [hrow])]
  simp [cascadeDeleteProxyPathBranches,hsteps,t.pathIDs id hid]

theorem subtreeRemoved : SubtreeRemoved t.toBranchTables
    ((t.branchClosure [id] (t.stepsOf [id])).foldl BranchTables.deletePath t.toBranchTables) id := by
  have hmem := t.mem_removed id
  generalize t.branchClosure [id] (t.stepsOf [id])=ids at hmem
  have hgone p : t.Subtree id p → (ids.foldl BranchTables.deletePath t.toBranchTables).paths.lookup p=none := by
    rw [← hmem,← Option.not_isSome_iff_eq_none]
    exact fun hp h => (paths_foldl_deletePath h).1 hp
  have hkept p (h : ¬t.Subtree id p) :
      (ids.foldl BranchTables.deletePath t.toBranchTables).paths.lookup p=t.paths.lookup p := by
    rw [survivor_foldl_deletePath (mt (hmem p).mp h)]
    exact fun q hq hb => h (((hmem q).mp hq).tail hb)
  have hstep s step : (ids.foldl BranchTables.deletePath t.toBranchTables).steps.lookup s=some step ↔
      t.steps.lookup s=some step ∧ ¬t.Subtree id step.pathID := by
    rw [steps_foldl_deletePath,hmem]
  refine ⟨hgone,hkept,hstep,fun p row s hrow hs => Option.ext fun step => ?_⟩
  rw [hstep,and_iff_left_iff_imp]
  intro h hq
  have hp : ¬t.Subtree id p := fun hp => by simp [hgone p hp] at hrow
  exact hp (hq.tail ⟨row,s,step,hkept p hp▸hrow,hs,h,rfl⟩)

end StoredBranches

/-- Deleting a stored path asks the plans about its whole subtree; unless they refuse, exactly
the subtree and its steps are gone, and a refusal leaves both tables as they were. -/
theorem path_deletion_removes_its_branches
    (removeAssignableNodeFromPlans : List Int → Except ε Unit) (t : StoredBranches)
    (path : {id // (t.paths.lookup id).isSome}) :
    ∃asked,(∀p,p∈asked ↔ t.Subtree path p) ∧
      match removeAssignableNodeFromPlans asked with
      | .error e => t.deleteProxyPath removeAssignableNodeFromPlans path=(t.toBranchTables,.error e)
      | .ok () => ∃after,t.deleteProxyPath removeAssignableNodeFromPlans path=(after,.ok ()) ∧
          SubtreeRemoved t.toBranchTables after path := by
  refine ⟨_,t.mem_removed path,?_⟩
  unfold deleteProxyPath
  rw [t.cascade_eq _ path.2]
  cases removeAssignableNodeFromPlans (t.branchClosure [path.1] (t.stepsOf [path.1])) with
  | error e => rfl
  | ok _ => exact ⟨_,rfl,t.subtreeRemoved⟩

theorem positive_of_keys {s : Table Int ρ} (h : ∀id∈s.keys,0< id) (id : Int)
    (hid : (s.lookup id).isSome) : 0< id :=
  h id (AList.mem_keys.mp (AList.lookup_isSome.mp hid))

/-- Paths 1 and 2 branch from each other's step, path 3 stands alone. -/
def branchCycle : StoredBranches where
  paths := putAll ∅ [(1,⟨none,true,some 12⟩),(2,⟨none,true,some 11⟩),(3,⟨none,true,none⟩)]
  steps := putAll ∅ [(11,⟨1,none,none⟩),(12,⟨2,none,none⟩)]
  pathIDs := positive_of_keys (by decide)
  stepIDs := positive_of_keys (by decide)

theorem branch_cycle_is_removed :
    branchCycle.Branches 1 2 ∧ branchCycle.Branches 2 1 ∧
    ∃after,branchCycle.deleteProxyPath (fun _ => (.ok () : Except String Unit)) 1=(after,.ok ()) ∧
      SubtreeRemoved branchCycle.toBranchTables after 1 := by
  obtain ⟨asked,-,h⟩ := path_deletion_removes_its_branches
    (fun _ => (.ok () : Except String Unit)) branchCycle ⟨1,by decide⟩
  exact ⟨⟨_,11,_,rfl,rfl,rfl,rfl⟩,⟨_,12,_,rfl,rfl,rfl,rfl⟩,h⟩

end Oboard.Store
