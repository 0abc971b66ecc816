import Oboard.Core.EffectiveAccess

namespace Oboard.Core

open List Table

structure AccessProjection where
  inboundUsers : Table Int (List Int)
  proxyPathUsers : Table Int (List Int)
  userPolicies : Table Int EffectiveUserPolicy
  pathInboundIDs : Table Int Int

def EffectiveAccessSnapshot.projection (s : EffectiveAccessSnapshot) : AccessProjection :=
  ⟨s.inboundUsers,s.proxyPathUsers,s.userPolicies,s.pathInboundIDs⟩

def mergeUserIDs (a b : List Int) : List Int :=
  (b.foldl (fun merged userID => if userID∈merged then merged else merged++[userID]) a).insertionSort
    (· ≤ ·)

def mergeUserIDMaps (a b : Table Int (List Int)) : Table Int (List Int) :=
  b.rows.foldl (fun out row => out.insert row.1 (mergeUserIDs ((out.lookup row.1).getD []) row.2)) a

/-- The union of two projections. Policies prefer the right side. -/
def mergeProjections (a b : AccessProjection) : AccessProjection where
  inboundUsers := mergeUserIDMaps a.inboundUsers b.inboundUsers
  proxyPathUsers := mergeUserIDMaps a.proxyPathUsers b.proxyPathUsers
  userPolicies := Table.putAll a.userPolicies b.userPolicies.rows
  pathInboundIDs := Table.putAll a.pathInboundIDs b.pathInboundIDs.rows

theorem mem_mergeUserIDs : u∈mergeUserIDs a b ↔ u∈a ∨ u∈b := by
  rw [mergeUserIDs,mem_insertionSort]
  induction b generalizing a with
  | nil => simp
  | cons v b ih =>
    rw [foldl_cons,ih]
    split_ifs with h
    · rw [mem_cons]
      by_cases hu : u=v
      · subst hu
        simp [h]
      · simp [hu]
    · rw [mem_append,mem_singleton,mem_cons,or_assoc]

theorem mem_foldl_mergeUsers {rows : List (Int×List Int)} : u∈usersIn (rows.foldl (fun out row =>
        out.insert row.1 (mergeUserIDs ((out.lookup row.1).getD []) row.2)) a) k ↔
      u∈usersIn a k ∨ ∃list,(k,list)∈rows ∧ u∈list := by
  induction rows generalizing a with
  | nil => simp
  | cons row rows ih =>
    obtain ⟨j,list⟩ := row
    rw [foldl_cons,ih,usersIn,lookup_insert_eq]
    by_cases hk : k=j
    · subst hk
      simp only [if_pos,Option.getD_some,mem_mergeUserIDs,mem_cons,Prod.mk.injEq,true_and,
        or_and_right,exists_or,exists_eq_left,or_assoc]
      rfl
    · simp [hk,usersIn]

theorem mem_mergeUserIDMaps {a b : Table Int (List Int)} :
    u∈usersIn (mergeUserIDMaps a b) k ↔ u∈usersIn a k ∨ u∈usersIn b k := by
  rw [mergeUserIDMaps,mem_foldl_mergeUsers]
  refine or_congr_right ?_
  simp only [mem_rows,usersIn]
  cases b.lookup k <;> simp

/-- Whether a projection lets a user reach a node. External outbounds are not part of it. -/
def AccessProjection.Grants (p : AccessProjection) (node : NodeKey) (userID : Int) : Prop :=
  match node.1 with
  | .inbound => userID∈usersIn p.inboundUsers node.2
  | .proxyPath => userID∈usersIn p.proxyPathUsers node.2
  | .externalOutbound => False

inductive AccessChangeKind where
  | grant
  | revoke
  | migration
  deriving DecidableEq

def gainsUser (old current : Table Int (List Int)) : Bool :=
  current.rows.any (fun row => row.2.any (fun userID => !(usersIn old row.1).contains userID))

def classifyProjectionChange (before after : AccessProjection) : AccessChangeKind :=
  let added := gainsUser before.inboundUsers after.inboundUsers ||
    gainsUser before.proxyPathUsers after.proxyPathUsers
  let removed := gainsUser after.inboundUsers before.inboundUsers ||
    gainsUser after.proxyPathUsers before.proxyPathUsers
  if removed && added then .migration else if removed then .revoke else .grant

def Gains (before after : AccessProjection) : Prop :=
  ∃node userID,after.Grants node userID ∧ ¬before.Grants node userID

theorem gainsUser_iff :
    gainsUser old current=true ↔ ∃k u,u∈usersIn current k ∧ u∉usersIn old k := by
  simp only [gainsUser,any_eq_true,Bool.not_eq_true',contains_eq_mem,
    decide_eq_false_iff_not]
  constructor
  · rintro ⟨⟨k,users⟩,hrow,u,hu,hn⟩
    refine ⟨k,u,?_,hn⟩
    simpa [usersIn,mem_rows.mp hrow] using hu
  rintro ⟨k,u,hu,hn⟩
  cases hl : current.lookup k with
  | none => simp [usersIn,hl] at hu
  | some users => exact ⟨(k,users),mem_rows.mpr hl,u,by simpa [usersIn,hl] using hu,hn⟩

theorem gains_iff {before after : AccessProjection} : Gains before after ↔
    (gainsUser before.inboundUsers after.inboundUsers ||
      gainsUser before.proxyPathUsers after.proxyPathUsers)=true := by
  rw [Bool.or_eq_true,gainsUser_iff,gainsUser_iff]
  constructor
  · rintro ⟨⟨type,k⟩,u,hu,hn⟩
    cases type with
    | inbound => exact .inl ⟨k,u,hu,hn⟩
    | proxyPath => exact .inr ⟨k,u,hu,hn⟩
    | externalOutbound => exact hu.elim
  · rintro (⟨k,u,hu,hn⟩ | ⟨k,u,hu,hn⟩)
    · exact ⟨(.inbound,k),u,hu,hn⟩
    · exact ⟨(.proxyPath,k),u,hu,hn⟩

section kinds

variable {before after : AccessProjection}

theorem classify_grant_iff : classifyProjectionChange before after=.grant ↔ ¬Gains after before := by
  rw [gains_iff]
  unfold classifyProjectionChange
  simp only
  split_ifs with hm hr <;> simp_all

theorem classify_revoke_iff : classifyProjectionChange before after=.revoke ↔
    Gains after before ∧ ¬Gains before after := by
  rw [gains_iff,gains_iff]
  unfold classifyProjectionChange
  simp only
  split_ifs with hm hr <;> simp_all

theorem classify_migration_iff : classifyProjectionChange before after=.migration ↔
    Gains before after ∧ Gains after before := by
  rw [gains_iff,gains_iff]
  unfold classifyProjectionChange
  simp only
  split_ifs with hm hr <;> simp_all

end kinds

theorem grants_mergeProjections {before after : AccessProjection} (node) (userID) :
    (mergeProjections before after).Grants node userID ↔
      before.Grants node userID ∨ after.Grants node userID := by
  obtain ⟨type,k⟩ := node
  cases type with
  | inbound => exact mem_mergeUserIDMaps
  | proxyPath => exact mem_mergeUserIDMaps
  | externalOutbound => exact (or_self_iff).symm

theorem gains_mergeProjections (before after) :
    ¬Gains (mergeProjections before after) before ∧ ¬Gains (mergeProjections before after) after ∧
      (Gains after (mergeProjections before after) ↔ Gains after before) := by
  simp only [Gains,grants_mergeProjections]
  refine ⟨?_,?_,?_⟩
  · rintro ⟨node,u,hu,hn⟩
    exact hn (.inl hu)
  · rintro ⟨node,u,hu,hn⟩
    exact hn (.inr hu)
  · constructor
    · rintro ⟨node,u,hu | hu,hn⟩
      · exact ⟨node,u,hu,hn⟩
      · exact absurd hu hn
    · rintro ⟨node,u,hu,hn⟩
      exact ⟨node,u,.inl hu,hn⟩

/-- The prepared scope grants what either side grants, and the kind of a change says what it adds and
removes. -/
theorem access_changes_stage_without_gap (before after : AccessProjection) :
    (∀node userID,(mergeProjections before after).Grants node userID ↔
      before.Grants node userID ∨ after.Grants node userID) ∧
    classifyProjectionChange before (mergeProjections before after)=.grant ∧
    classifyProjectionChange (mergeProjections before after) after=
      (if classifyProjectionChange before after=.grant then .grant else .revoke) ∧
    (classifyProjectionChange before after=.grant ↔ ¬Gains after before) ∧
    (classifyProjectionChange before after=.migration ↔ Gains before after ∧ Gains after before) ∧
    (classifyProjectionChange before after=.revoke ↔ Gains after before ∧ ¬Gains before after) := by
  obtain ⟨hbefore,hafter,hremoved⟩ := gains_mergeProjections before after
  refine ⟨grants_mergeProjections,classify_grant_iff.mpr hbefore,?_,classify_grant_iff,
    classify_migration_iff,classify_revoke_iff⟩
  split_ifs with hgrant
  · exact classify_grant_iff.mpr (fun h => classify_grant_iff.mp hgrant (hremoved.mp h))
  · rw [classify_grant_iff,not_not] at hgrant
    exact classify_revoke_iff.mpr ⟨hremoved.mpr hgrant,hafter⟩

end Oboard.Core
