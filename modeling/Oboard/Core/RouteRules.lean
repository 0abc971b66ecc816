import Oboard.Framework.FirstMatch
import Oboard.Framework.Runs
import Mathlib.Data.List.Sort

namespace Oboard.Core

open FirstMatch Runs List

inductive RuleAction where
  | route (outbound : String)
  | resolve (server : String)

/-- One sing-box route rule. An empty inbound or user list is an absent key and matches
everything. The condition stands for all other match keys, none when there are none. -/
structure RouteRule (κ : Type) where
  inbound : List String
  authUser : List String
  cond : Option κ
  action : RuleAction

/-- How conditions read a connection and how a resolve action rewrites it. -/
structure Matching (κ X : Type) where
  holds : κ → X → Bool
  resolve : String → X → X

variable {κ X : Type}

def RouteRule.scoped (r : RouteRule κ) (inbound user : String) : Bool :=
  (r.inbound.isEmpty || r.inbound.contains inbound) &&
  (r.authUser.isEmpty || r.authUser.contains user)

/-- What a rule does with a connection of one identity. Only a route action ends the search. -/
def judge (M : Matching κ X) (inbound user : String) (r : RouteRule κ) (x : X) : Verdict X String :=
  if r.scoped inbound user && r.cond.elim true (fun c => M.holds c x) then
    match r.action with
    | .route outbound => .final outbound
    | .resolve server => .pass (M.resolve server x)
  else .skip

theorem judge_of_not_scoped
    (h : r.scoped inbound user=false) (x) : judge M inbound user r x=.skip := by
  simp [judge,h]

inductive RouteActionKind where
  | block
  | familySplit
  | forward
  deriving DecidableEq

inductive RuleScope where
  | server
  | pathStage
  deriving DecidableEq

/-- A stored routing rule with its resolved target, none when the rule is skipped. -/
structure RoutingRule (κ : Type) where
  id : Int
  serverID : Int
  enabled : Bool
  scope : RuleScope
  proxyPathID : Option Int
  stageStepID : Option Int
  sortPosition : Int
  priority : Int
  cond : Option κ
  action : RouteActionKind
  dnsResolver : Option String
  target : Option String

structure RoutePolicyContext where
  sshTags : List String
  dnsGroups : Bool
  restrictedDNSResolver : String → String

inductive RouteError where
  | kernelCapabilityMissing
  deriving DecidableEq

structure CompiledRoutePolicy (κ : Type) where
  inbound : List String
  authUser : List String
  cond : Option κ
  resolver : Option String
  outbound : String
  resolveInSelector : Bool

def compileRoutePolicy (rule : RoutingRule κ) (inboundTags authUsers : List String)
    (outbound : String) : CompiledRoutePolicy κ where
  inbound := inboundTags
  authUser := if inboundTags.isEmpty then [] else authUsers
  cond := rule.cond
  resolver := if rule.action=.block then none else rule.dnsResolver
  outbound := outbound
  resolveInSelector := rule.action=.familySplit

def CompiledRoutePolicy.rules (p : CompiledRoutePolicy κ) : List (RouteRule κ) :=
  (match p.resolver with
    | some server =>
      if p.resolveInSelector then [] else [⟨p.inbound,p.authUser,p.cond,.resolve server⟩]
    | none => [])++[⟨p.inbound,p.authUser,p.cond,.route p.outbound⟩]

/-- Rules with a resolver are split where restricted SSH listeners need filtered answers. -/
def compileRoutePolicies (ctx : RoutePolicyContext) (rule : RoutingRule κ)
    (inboundTags authUsers : List String) (outbound : String) :
    Except RouteError (List (RouteRule κ)) :=
  let policy := compileRoutePolicy rule inboundTags authUsers outbound
  match policy.resolver with
  | none => .ok policy.rules
  | some resolver =>
    let protectedTags := ctx.sshTags.filter (fun t => inboundTags.isEmpty || inboundTags.contains t)
    if policy.resolveInSelector ∨ protectedTags=[] then .ok policy.rules
    else if !ctx.dnsGroups then .error .kernelCapabilityMissing
    else
      let guarded := {compileRoutePolicy rule protectedTags authUsers outbound with
        resolver := some (ctx.restrictedDNSResolver resolver)}
      let remaining := inboundTags.filter (fun t => !protectedTags.contains t)
      if !inboundTags.isEmpty ∧ remaining=[] then .ok guarded.rules
      else
        let rest := if remaining=[] then policy
          else compileRoutePolicy rule remaining authUsers outbound
        .ok (guarded.rules++rest.rules)

def compileAll (ctx : RoutePolicyContext) (inboundTags authUsers : List String)
    (rules : List (RoutingRule κ)) : Except RouteError (List (RouteRule κ)) := do
  let (_,compiled) ← collect (fun (_ : Unit) (rule : RoutingRule κ) =>
    match rule.target with
    | none => .ok ((),[])
    | some outbound =>
      match compileRoutePolicies ctx rule inboundTags authUsers outbound with
      | .error e => .error e
      | .ok rs => .ok ((),rs)) () rules
  return compiled.flatten

def byPriority (a b : RoutingRule κ) : Prop :=
  a.priority<b.priority ∨ (a.priority=b.priority ∧ a.id≤b.id)

def bySortPosition (a b : RoutingRule κ) : Prop :=
  a.sortPosition<b.sortPosition ∨ (a.sortPosition=b.sortPosition ∧ a.id≤b.id)

instance : DecidableRel (byPriority (κ := κ)) := fun _ _ => inferInstanceAs (Decidable (_ ∨ _))

instance : DecidableRel (bySortPosition (κ := κ)) := fun _ _ => inferInstanceAs (Decidable (_ ∨ _))

def buildRouteRules (ctx : RoutePolicyContext) (serverID : Int) (rules : List (RoutingRule κ)) :
    Except RouteError (List (RouteRule κ)) :=
  compileAll ctx [] [] ((rules.filter
    (fun r => r.serverID=serverID && r.enabled && r.scope=.server)).insertionSort byPriority)

/-- One listener stage of a proxy path on the server, with the outbound of its default rule. -/
structure PathStage where
  pathID : Int
  stageStepID : Option Int
  inboundTags : List String
  authUsers : List String
  outbound : Option String

def buildPathStageRules (ctx : RoutePolicyContext) (serverID : Int) (rules : List (RoutingRule κ))
    (stage : PathStage) : Except RouteError (List (RouteRule κ)) :=
  if stage.inboundTags=[] then .ok []
  else
    compileAll ctx stage.inboundTags stage.authUsers ((rules.filter (fun r =>
      r.enabled && r.scope=.pathStage && r.proxyPathID=some stage.pathID &&
      r.serverID=serverID && r.stageStepID=stage.stageStepID)).insertionSort bySortPosition)

def appendPathRoutingRule (stage : PathStage) : List (RouteRule κ) :=
  match stage.outbound with
  | none => []
  | some outbound =>
    if stage.inboundTags=[] then []
    else [⟨stage.inboundTags,stage.authUsers,none,.route outbound⟩]

section

variable (ctx : RoutePolicyContext) (serverID : Int) (rules : List (RoutingRule κ))

def stageRules (_ : Unit) (stage : PathStage) : Except RouteError (Unit×List (RouteRule κ)) := do
  let own ← buildPathStageRules ctx serverID rules stage
  return ((),own++appendPathRoutingRule stage)

/-- All path rules come before the rules of the server. -/
def generateRules (stages : List PathStage) : Except RouteError (List (RouteRule κ)) := do
  let (_,pathRules) ← collect (stageRules ctx serverID rules) () stages
  let serverRules ← buildRouteRules ctx serverID rules
  return pathRules.flatten++serverRules

end

/-- A rule of a scope names some of its listeners with its users, or restricted SSH
listeners only, or no listener. -/
def FromScope (ctx : RoutePolicyContext) (inboundTags authUsers : List String) (r : RouteRule κ) :
    Prop :=
  r.inbound=[] ∨ r.inbound⊆ctx.sshTags ∨ (r.inbound⊆inboundTags ∧ r.authUser=authUsers)

theorem CompiledRoutePolicy.mem_rules {p : CompiledRoutePolicy κ} (h : r∈p.rules) :
    r.inbound=p.inbound ∧ r.authUser=p.authUser ∧ ∀o,r.action=.route o → o=p.outbound := by
  rcases mem_append.mp h with h | h
  · cases hr : p.resolver with
    | none => simp [hr] at h
    | some server =>
      simp only [hr] at h
      split_ifs at h
      · simp at h
      · obtain rfl := mem_singleton.mp h
        exact ⟨rfl,rfl,by simp⟩
  · obtain rfl := mem_singleton.mp h
    exact ⟨rfl,rfl,fun o ho => (RuleAction.route.inj ho).symm⟩

theorem compileRoutePolicy_scope {named : List String} (hn : named⊆ctx.sshTags ∨ named⊆inboundTags)
    (h : r∈CompiledRoutePolicy.rules
      {compileRoutePolicy rule named authUsers outbound with resolver := resolver}) :
    FromScope ctx inboundTags authUsers r ∧ ∀o,r.action=.route o → o=outbound := by
  obtain ⟨hi,hu,ho⟩ := CompiledRoutePolicy.mem_rules h
  refine ⟨?_,ho⟩
  by_cases hne : named=[]
  · exact .inl (hi.trans hne)
  have huser : r.authUser=authUsers := by
    simpa [compileRoutePolicy,hne] using hu
  rcases hn with hn | hn
  · exact .inr (.inl (hi ▸ hn))
  · exact .inr (.inr ⟨hi ▸ hn,huser⟩)

theorem compileRoutePolicies_from
    (h : compileRoutePolicies ctx rule inboundTags authUsers outbound=.ok rs) :
    ∀r∈rs,∃named resolver,(named⊆ctx.sshTags ∨ named⊆inboundTags) ∧ r∈CompiledRoutePolicy.rules
        {compileRoutePolicy rule named authUsers outbound with resolver := resolver} := by
  have hself : ∀r∈(compileRoutePolicy rule inboundTags authUsers outbound).rules,
      ∃named resolver,(named⊆ctx.sshTags ∨ named⊆inboundTags) ∧ r∈CompiledRoutePolicy.rules
        {compileRoutePolicy rule named authUsers outbound with resolver := resolver} :=
    fun r hr => ⟨_,_,.inr (List.Subset.refl _),hr⟩
  unfold compileRoutePolicies at h
  simp only at h
  split at h
  · cases h
    exact hself
  split at h
  · cases h
    exact hself
  split at h
  · cases h
  split at h
  · cases h
    exact fun r hr => ⟨_,_,.inl (filter_subset_self _),hr⟩
  cases h
  intro r hr
  rcases mem_append.mp hr with hr | hr
  · exact ⟨_,_,.inl (filter_subset_self _),hr⟩
  split at hr
  · exact hself r hr
  · exact ⟨_,_,.inr (filter_subset_self _),hr⟩

variable {rules : List (RoutingRule κ)}

theorem compileAll_scope (h : compileAll ctx inboundTags authUsers rules=.ok rs) :
    ∀r∈rs,FromScope ctx inboundTags authUsers r ∧
      ∀o,r.action=.route o → ∃rule∈rules,rule.target=some o := by
  obtain ⟨⟨⟨⟩,compiled⟩,hc,hrs⟩ := bind_ok h
  cases hrs
  intro r hr
  obtain ⟨part,hpart,hr⟩ := mem_flatten.mp hr
  obtain ⟨rule,hrule,hq⟩ := collect_mem
    (fun (rule : RoutingRule κ) part => ∀r∈part,FromScope ctx inboundTags authUsers r ∧
      ∀o,r.action=.route o → rule.target=some o) (by
    intro s rule s' part hs
    cases ht : rule.target with
    | none =>
      simp only [ht,Except.ok.injEq,Prod.mk.injEq] at hs
      simp [← hs.2]
    | some outbound =>
      simp only [ht] at hs
      cases hp : compileRoutePolicies ctx rule inboundTags authUsers outbound with
      | error e => simp [hp] at hs
      | ok rs =>
        simp only [hp,Except.ok.injEq,Prod.mk.injEq] at hs
        obtain ⟨-,rfl⟩ := hs
        intro r hr
        obtain ⟨named,resolver,hn,hr⟩ := compileRoutePolicies_from hp r hr
        obtain ⟨hscope,ho⟩ := compileRoutePolicy_scope hn hr
        exact ⟨hscope,fun o h => by rw [ho o h]⟩) hc part hpart
  obtain ⟨hscope,ho⟩ := hq r hr
  exact ⟨hscope,fun o h => ⟨rule,hrule,ho o h⟩⟩

theorem generateRules_scope (h : generateRules ctx serverID rules stages=.ok rs) :
    ∀r∈rs,(r.inbound=[] ∨ r.inbound⊆ctx.sshTags ∨
        ∃stage∈stages,r.inbound⊆stage.inboundTags ∧ r.authUser=stage.authUsers) ∧
      ∀o,r.action=.route o →
        (∃rule∈rules,rule.target=some o) ∨ ∃stage∈stages,stage.outbound=some o := by
  obtain ⟨⟨⟨⟩,pathRules⟩,hpath,h⟩ := bind_ok h
  obtain ⟨serverRules,hserver,h⟩ := bind_ok h
  cases h
  intro r hr
  have hsorted {le : RoutingRule κ → RoutingRule κ → Prop} [DecidableRel le]
      {keep : RoutingRule κ → Bool} {o : String}
      (h : ∃rule∈(rules.filter keep).insertionSort le,rule.target=some o) :
      ∃rule∈rules,rule.target=some o := by
    obtain ⟨rule,hrule,ht⟩ := h
    exact ⟨rule,mem_of_mem_filter ((mem_insertionSort le).mp hrule),ht⟩
  rcases mem_append.mp hr with hr | hr
  · obtain ⟨part,hpart,hr⟩ := mem_flatten.mp hr
    obtain ⟨stage,hstage,hq⟩ := collect_mem (fun (stage : PathStage) part =>
      ∃own,buildPathStageRules ctx serverID rules stage=.ok own ∧
        part=own++appendPathRoutingRule stage) (by
      intro s stage s' part hs
      obtain ⟨own,hown,hs⟩ := bind_ok hs
      cases hs
      exact ⟨own,hown,rfl⟩) hpath part hpart
    obtain ⟨own,hown,rfl⟩ := hq
    rcases mem_append.mp hr with hr | hr
    · unfold buildPathStageRules at hown
      split at hown
      · cases hown
        simp at hr
      obtain ⟨hscope,ho⟩ := compileAll_scope hown r hr
      exact ⟨hscope.imp_right (Or.imp_right (fun h => ⟨stage,hstage,h⟩)),
        fun o h => .inl (hsorted (ho o h))⟩
    · unfold appendPathRoutingRule at hr
      split at hr
      · simp at hr
      rename_i outbound hout
      split at hr
      · simp at hr
      obtain rfl := mem_singleton.mp hr
      refine ⟨.inr (.inr ⟨stage,hstage,List.Subset.refl _,rfl⟩),fun o h => .inr ⟨stage,hstage,?_⟩⟩
      rw [hout,RuleAction.route.inj h]
  · obtain ⟨hscope,ho⟩ := compileAll_scope hserver r hr
    refine ⟨?_,fun o h => .inl (hsorted (ho o h))⟩
    rcases hscope with h | h | ⟨h,-⟩
    · exact .inl h
    · exact .inr (.inl h)
    · exact .inl (subset_nil.mp h)

end Oboard.Core
