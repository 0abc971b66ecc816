import Mathlib.Data.Finset.Card
import Mathlib.Logic.Relation

namespace Oboard.DepthFirst

open Relation

variable {V : Type*} {next : V → List V}

/-- The nodes are closed under their edges and lie on no cycle. -/
def Settled (next : V → List V) (visited : List V) : Prop :=
  ∀n∈visited,(∀m∈next n,m∈visited) ∧ ¬TransGen (fun a b => b∈next a) n n

theorem Settled.reaches (h : Settled next visited) (hm : m∈visited)
    (hreach : ReflTransGen (fun a b => b∈next a) m n) : n∈visited := by
  induction hreach with
  | refl => exact hm
  | tail _ hstep ih => exact (h _ ih).1 _ hstep

theorem Settled.cons (h : Settled next visited) (hn : ∀m∈next n,m∈visited) :
    Settled next (n::visited) := by
  intro a ha
  rcases List.mem_cons.mp ha with rfl | ha
  · refine ⟨fun m hm => List.mem_cons_of_mem _ (hn m hm),fun hcycle => ?_⟩
    -- the cycle goes on to a settled node and would come back from there
    obtain ⟨m,hm,hback⟩ := TransGen.head'_iff.mp hcycle
    exact (h a (h.reaches (hn m hm) hback)).2 hcycle
  · exact ⟨fun m hm => List.mem_cons_of_mem _ ((h a ha).1 m hm),(h a ha).2⟩

variable [DecidableEq V] {nodes : Finset V}

/-- Three-colour search through a list of nodes of a finite graph. A node that is being visited
closes a cycle (`none`); the visited nodes are returned, the last finished first. -/
def visitAll (hnext : ∀n∉nodes,next n=[]) (visiting : Finset V) : List V → List V → Option (List V)
  | [],visited => some visited
  | n::rest,visited =>
    if n∈visiting then none
    else if n∈visited then visitAll hnext visiting rest visited
    else (visitAll hnext (insert n visiting) (next n) visited).bind
      (visitAll hnext visiting rest <| n::·)
  termination_by todo => ((nodes\visiting).card,todo.length)
  decreasing_by
    · exact .right _ (by simp)
    · by_cases hn : n∈nodes
      · refine .left _ _ (Finset.card_lt_card ?_)
        rw [Finset.ssubset_iff_of_subset (by grind)]
        exact ⟨n,by grind⟩
      · rw [hnext n hn,show nodes\insert n visiting=nodes\visiting by grind]
        exact .right _ (by simp)
    · exact .right _ (by simp)

variable {hnext : ∀n∉nodes,next n=[]}

theorem visitAll_settles {visited : List V} (h : Settled next visited)
    (hall : visitAll hnext visiting todo visited=some result) :
    Settled next result ∧ visited⊆result ∧ todo⊆result := by
  fun_induction visitAll hnext visiting todo visited generalizing result with
  | case1 => simp_all
  | case2 => cases hall
  | case3 visiting n rest visited _ hn ih =>
    obtain ⟨hs,hsub,htodo⟩ := ih h hall
    exact ⟨hs,hsub,List.cons_subset.mpr ⟨hsub hn,htodo⟩⟩
  | case4 visiting n rest visited _ _ ih ihrest =>
    obtain ⟨inner,hinner,hall⟩ := Option.bind_eq_some_iff.mp hall
    obtain ⟨hs,hsub,hn⟩ := ih h hinner
    obtain ⟨hs,hkept,htodo⟩ := ihrest inner (hs.cons hn) hall
    obtain ⟨hn,hkept⟩ := List.cons_subset.mp hkept
    exact ⟨hs,List.Subset.trans hsub hkept,List.cons_subset.mpr ⟨hn,htodo⟩⟩

/-- The search fails only on a cycle: what is being visited leads to all that is to do. -/
theorem visitAll_cycle (hlead : ∀v∈visiting,∀n∈todo,TransGen (fun a b => b∈next a) v n)
    (hnone : visitAll hnext visiting todo visited=none) :
    ∃n,TransGen (fun a b => b∈next a) n n := by
  fun_induction visitAll hnext visiting todo visited with
  | case1 => cases hnone
  | case2 visiting n rest visited hn => exact ⟨n,hlead n hn n (by simp)⟩
  | case3 visiting n rest visited _ _ ih =>
    exact ih (fun v hv m hm => hlead v hv m (by simp [hm])) hnone
  | case4 visiting n rest visited _ _ ih ihrest =>
    cases hinner : visitAll hnext (insert n visiting) (next n) visited with
    | none =>
      refine ih (fun v hv m hm => ?_) hinner
      rcases Finset.mem_insert.mp hv with rfl | hv
      · exact .single hm
      · exact (hlead v hv n (by simp)).tail hm
    | some inner =>
      rw [hinner] at hnone
      exact ihrest inner (fun v hv m hm => hlead v hv m (by simp [hm])) hnone

/-- Started on every node with an edge, the search fails exactly if the graph has a cycle. -/
theorem visitAll_eq_none_iff (htodo : ∀n,next n≠[] → n∈todo) :
    visitAll hnext ∅ todo []=none ↔ ∃n,TransGen (fun a b => b∈next a) n n := by
  refine ⟨visitAll_cycle (by simp),fun ⟨n,hcycle⟩ => ?_⟩
  by_contra hne
  obtain ⟨result,hall⟩ := Option.ne_none_iff_exists'.mp hne
  obtain ⟨hs,-,hsub⟩ := visitAll_settles (by simp [Settled]) hall
  obtain ⟨m,hm,-⟩ := TransGen.head'_iff.mp hcycle
  exact (hs n (hsub (htodo n (List.ne_nil_of_mem hm)))).2 hcycle

end Oboard.DepthFirst
