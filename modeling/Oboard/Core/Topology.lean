import Oboard.Framework.DepthFirst

namespace Oboard.Core

open DepthFirst Relation

/-- A port forward or a tunnel between two servers. -/
structure TopologyLink where
  enabled : Bool
  sourceServerID : Int
  targetServerID : Int

/-- A forward without a target server leaves the topology. -/
def topologyEdges (forwards tunnels : List TopologyLink) : List (Int×Int) :=
  ((forwards.filter fun f => f.enabled && f.targetServerID≠0)++tunnels.filter (·.enabled)).map
    fun l => (l.sourceServerID,l.targetServerID)

def checkEdge (servers : List Int) (edge : Int×Int) : Except String Unit :=
  if edge.1=edge.2 then .error "topology source and target must differ"
  else if edge.1∉servers then .error s!"source server {edge.1} does not exist"
  else if edge.2∉servers then .error s!"target server {edge.2} does not exist"
  else .ok ()

def topologyGraph (edges : List (Int×Int)) (id : Int) : List Int :=
  (edges.filter (·.1=id)).map (·.2)

theorem mem_topologyGraph : b∈topologyGraph edges a ↔ (a,b)∈edges := by
  simp [topologyGraph]

theorem topologyGraph_eq_nil (edges) (n) (hn : n∉(edges.map Prod.fst).toFinset) :
    topologyGraph edges n=[] := by
  refine List.eq_nil_iff_forall_not_mem.mpr fun m hm => hn ?_
  exact List.mem_toFinset.mpr (List.mem_map.mpr ⟨_,mem_topologyGraph.mp hm,rfl⟩)

/-- `order` is the order in which the map of known servers is ranged over. -/
def findCycle (order : List Int) (edges : List (Int×Int)) : Except String Unit :=
  match visitAll (topologyGraph_eq_nil edges) ∅ order [] with
  | none => .error "topology graph contains a cycle"
  | some _ => .ok ()

def validateTopologyDAG (servers order : List Int) (forwards tunnels : List TopologyLink) :
    Except String Unit := do
  (topologyEdges forwards tunnels).forM (checkEdge servers)
  findCycle order (topologyEdges forwards tunnels)

theorem checkEdge_eq_ok : checkEdge servers edge=.ok () ↔
    edge.1∈servers ∧ edge.2∈servers ∧ edge.1≠edge.2 := by
  unfold checkEdge
  grind

theorem forM_checkEdge_eq_ok : List.forM edges (checkEdge servers)=.ok () ↔
    ∀e∈edges,e.1∈servers ∧ e.2∈servers ∧ e.1≠e.2 := by
  induction edges with
  | nil => simp [pure,Except.pure]
  | cons e rest ih =>
    rw [List.forall_mem_cons,← ih,← checkEdge_eq_ok]
    change (checkEdge servers e >>= fun _ => rest.forM (checkEdge servers))=_ ↔ _
    cases h : checkEdge servers e <;> simp [bind,Except.bind]

theorem findCycle_eq_ok (horder : ∀e∈edges,e.1∈order) : findCycle order edges=.ok () ↔
    ∀id,¬TransGen (fun source target => (source,target)∈edges) id id := by
  have hsearch : visitAll (topologyGraph_eq_nil edges) ∅ order []=none ↔ _ :=
    visitAll_eq_none_iff fun n hn => by
      obtain ⟨m,hm⟩ := List.exists_mem_of_ne_nil _ hn
      exact horder _ (mem_topologyGraph.mp hm)
  simp only [mem_topologyGraph] at hsearch
  rw [← not_exists,← hsearch]
  unfold findCycle
  split <;> simp_all

/-- Accepted are exactly the acyclic topologies of known servers, in whatever order the search
starts from them. -/
theorem topology_accepted_iff_acyclic (servers order) (horder : servers⊆order) (forwards tunnels) :
    validateTopologyDAG servers order forwards tunnels=.ok () ↔
    (∀e∈topologyEdges forwards tunnels,e.1∈servers ∧ e.2∈servers ∧ e.1≠e.2) ∧
    ∀id,¬TransGen (fun source target => (source,target)∈topologyEdges forwards tunnels) id id := by
  unfold validateTopologyDAG
  rw [← forM_checkEdge_eq_ok]
  cases hedges : (topologyEdges forwards tunnels).forM (checkEdge servers) with
  | error text => exact ⟨nofun,nofun⟩
  | ok =>
    rw [← findCycle_eq_ok fun e he => horder (forM_checkEdge_eq_ok.mp hedges e he).1]
    simp [bind,Except.bind]

theorem one_tunnel_accepted : validateTopologyDAG [1,2] [2,1] [] [⟨true,1,2⟩]=.ok () := by
  refine (topology_accepted_iff_acyclic [1,2] [2,1] (by decide) [] [⟨true,1,2⟩]).mpr
    ⟨by simp [topologyEdges],fun id h => ?_⟩
  obtain ⟨target,hout,-⟩ := TransGen.head'_iff.mp h
  obtain ⟨source,-,hin⟩ := TransGen.tail'_iff.mp h
  simp [topologyEdges] at hout hin
  omega

end Oboard.Core
