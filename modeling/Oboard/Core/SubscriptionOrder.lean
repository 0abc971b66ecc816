import Mathlib.Data.List.Chain
import Mathlib.Data.List.TakeWhile

namespace Oboard.Core

open List

structure SubscriptionOrderRank where
  exitRegionCode : String
  landingKey : String

structure RankedSubscriptionNode (ν : Type) where
  node : ν
  rank : SubscriptionOrderRank

abbrev Block (ν : Type) := List (RankedSubscriptionNode ν)

variable {ν : Type}

def RankedSubscriptionNode.landing (item : RankedSubscriptionNode ν) : String := item.rank.landingKey

/-- A node joins the bucket of its landing. Without a landing, and as the first of one, it opens a
bucket. The map of the source finds the bucket whose first node has the landing. -/
def bucketed : List (Block ν) → RankedSubscriptionNode ν → List (Block ν)
  | [],item => [[item]]
  | bucket::buckets,item =>
    if item.landing≠"" ∧ bucket.head?.map (·.landing)=some item.landing then
      (bucket++[item])::buckets
    else bucket::bucketed buckets item

/-- The regions one after another. -/
def groupRankedByLanding : Block ν → Block ν
  | [] => []
  | first::rest =>
    let same (item : RankedSubscriptionNode ν) : Bool :=
      item.rank.exitRegionCode=first.rank.exitRegionCode
    ((first::rest.takeWhile same).foldl bucketed []).flatten++
      groupRankedByLanding (rest.dropWhile same)
termination_by ranked => ranked.length
decreasing_by exact Nat.lt_succ_of_le (dropWhile_sublist same).length_le

/-- All nodes of the landing of a node, in their order. -/
def landingGroup (block : Block ν) (item : RankedSubscriptionNode ν) : Block ν :=
  if item.landing="" then [item] else block.filter (fun other => other.landing=item.landing)

/-- The nodes without a landing and the first ones of each landing. -/
def firstMembers (block : Block ν) : Block ν :=
  block.foldl (fun firsts item =>
    if item.landing="" ∨ ∀first∈firsts,first.landing≠item.landing then firsts++[item] else firsts) []

variable {done : Block ν} {item : RankedSubscriptionNode ν}

theorem flatten_bucketed (buckets : List (Block ν))
    (item : RankedSubscriptionNode ν) : (bucketed buckets item).flatten ~ buckets.flatten++[item] := by
  induction buckets with
  | nil => simp [bucketed]
  | cons bucket buckets ih =>
    unfold bucketed
    split_ifs
    · rw [flatten_cons,flatten_cons,append_assoc,append_assoc]
      exact perm_append_comm.append_left bucket
    · rw [flatten_cons,flatten_cons,append_assoc]
      exact ih.append_left bucket

theorem perm_foldl_bucketed (block : Block ν) : (block.foldl bucketed []).flatten ~ block := by
  induction block using reverseRecOn with
  | nil => rfl
  | append_singleton done item ih =>
    rw [foldl_append]
    exact (flatten_bucketed _ item).trans (ih.append_right _)

/-- The first members stand for every landing, each landing once. -/
structure Firsts (done firsts : Block ν) : Prop where
  mem : firsts⊆done
  covers : ∀other∈done,other.landing≠"" → ∃first∈firsts,first.landing=other.landing
  once : firsts.Pairwise (fun first other => first.landing≠"" → first.landing≠other.landing)

theorem firstMembers_snoc (done : Block ν) (item : RankedSubscriptionNode ν) :
    firstMembers (done++[item])=
    if item.landing="" ∨ ∀first∈firstMembers done,first.landing≠item.landing then
      firstMembers done++[item] else firstMembers done := by
  rw [firstMembers,foldl_append]
  rfl

theorem firsts_firstMembers (block : Block ν) : Firsts block (firstMembers block) := by
  induction block using reverseRecOn with
  | nil => exact ⟨nofun,nofun,.nil⟩
  | append_singleton done item ih =>
    obtain ⟨hmem,hcovers,honce⟩ := ih
    rw [firstMembers_snoc]
    split_ifs with hnew
    · refine ⟨by grind,by grind,pairwise_append.mpr ⟨honce,pairwise_singleton _ _,?_⟩⟩
      intro first hfirst other hother hne
      rw [mem_singleton.mp hother]
      rcases hnew with hempty | hnew
      · rwa [hempty]
      · exact hnew first hfirst
    · exact ⟨by grind,by grind,honce⟩

theorem landingGroup_snoc : landingGroup (done++[item]) first=
    if item.landing≠"" ∧ first.landing=item.landing then landingGroup done first++[item]
    else landingGroup done first := by
  unfold landingGroup
  rw [filter_append,filter_singleton]
  grind

theorem head_landingGroup (h : first∈done) :
    (landingGroup done first).head?.map (·.landing)=some first.landing := by
  unfold landingGroup
  split_ifs
  · rfl
  cases hhead : (done.filter (·.landing=first.landing)).head? with
  | none =>
    rw [head?_eq_none_iff,filter_eq_nil_iff] at hhead
    exact absurd (hhead first h) (by simp)
  | some other => simpa using (mem_filter.mp (mem_of_mem_head? hhead)).2

theorem bucketed_firsts (h : Firsts done firsts) : bucketed (firsts.map (landingGroup done)) item=
      (if item.landing="" ∨ ∀first∈firsts,first.landing≠item.landing then firsts++[item]
        else firsts).map (landingGroup (done++[item])) := by
  obtain ⟨hmem,hcovers,honce⟩ := h
  have hnew : item.landing≠"" → (∀first∈firsts,first.landing≠item.landing) →
      ∀other∈done,other.landing≠item.landing := by grind
  clear * - hmem hnew honce
  induction firsts with
  | nil =>
    have hone : landingGroup (done++[item]) item=[item] := by
      unfold landingGroup
      split_ifs with hne
      · rfl
      · rw [filter_append,filter_eq_nil_iff.mpr (by simpa using hnew hne nofun)]
        simp
    simp [bucketed,hone]
  | cons first firsts ih =>
    obtain ⟨hfirst,hrest⟩ := pairwise_cons.mp honce
    rw [map_cons,bucketed,head_landingGroup (hmem mem_cons_self)]
    by_cases hjoin : item.landing≠"" ∧ first.landing=item.landing
    · have hold : firsts.map (landingGroup (done++[item]))=firsts.map (landingGroup done) := by
        refine map_congr_left fun other hother => ?_
        rw [landingGroup_snoc,if_neg]
        exact fun hc => hfirst other hother (hjoin.2 ▸ hjoin.1) (hjoin.2.trans hc.2.symm)
      rw [if_pos (by simpa using hjoin),if_neg (by grind),map_cons,landingGroup_snoc,if_pos hjoin,hold]
    · rw [if_neg (by simpa using hjoin),ih (fun x hx => hmem (mem_cons_of_mem _ hx)) hrest (by grind)]
      have hkept : landingGroup (done++[item]) first=landingGroup done first := by
        rw [landingGroup_snoc,if_neg hjoin]
      split_ifs <;> grind

theorem foldl_bucketed (block : Block ν) :
    block.foldl bucketed []=(firstMembers block).map (landingGroup block) := by
  induction block using reverseRecOn with
  | nil => rfl
  | append_singleton done item ih =>
    rw [foldl_append,ih,firstMembers_snoc]
    exact bucketed_firsts (firsts_firstMembers done)

/-- A region is a stretch of nodes with one code. It is put together landing by landing, in the order
of their first members, which stand for each landing once. -/
theorem regions_grouped_by_landing (ranked : Block ν) : ∃blocks : List (Block ν),
      ranked=blocks.flatten ∧
      groupRankedByLanding ranked=
        (blocks.map (fun block => ((firstMembers block).map (landingGroup block)).flatten)).flatten ∧
      (∀block∈blocks,((firstMembers block).map (landingGroup block)).flatten ~ block ∧
        Firsts block (firstMembers block) ∧ block≠[] ∧ ∃code,∀item∈block,item.rank.exitRegionCode=code) ∧
      blocks.IsChain (fun block next => ∀item∈block,∀other∈next,
        item.rank.exitRegionCode≠other.rank.exitRegionCode) := by
  fun_induction groupRankedByLanding ranked with
  | case1 => exact ⟨[],rfl,rfl,nofun,.nil⟩
  | case2 first rest same ih =>
    obtain ⟨blocks,hflat,hgroups,hblocks,hchain⟩ := ih
    have hcode : ∀item∈first::rest.takeWhile same,
        item.rank.exitRegionCode=first.rank.exitRegionCode := by
      intro item hitem
      rcases mem_cons.mp hitem with rfl | hitem
      · rfl
      · simpa [same] using mem_takeWhile_imp hitem
    refine ⟨(first::rest.takeWhile same)::blocks,?_,?_,forall_mem_cons.mpr
      ⟨⟨?_,firsts_firstMembers _,nofun,_,hcode⟩,hblocks⟩,?_⟩
    · rw [flatten_cons,← hflat,cons_append,takeWhile_append_dropWhile]
    · rw [foldl_bucketed,hgroups,map_cons,flatten_cons]
    · rw [← foldl_bucketed]
      exact perm_foldl_bucketed _
    · cases blocks with
      | nil => exact .singleton _
      | cons next blocks =>
        refine .cons_cons (fun item hitem other hother => ?_) hchain
        obtain ⟨-,-,hne,code,hnext⟩ := hblocks next mem_cons_self
        have hstop := head?_dropWhile_not same rest
        rw [hflat] at hstop
        cases next with
        | nil => exact absurd rfl hne
        | cons head tail =>
          rw [hcode item hitem,hnext other hother,← hnext head mem_cons_self]
          simpa [same,eq_comm] using hstop

end Oboard.Core
