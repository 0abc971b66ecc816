import Mathlib.Data.Countable.Basic
import Mathlib.Data.Prod.Lex
import Mathlib.Data.String.Basic
import Mathlib.Logic.Equiv.List
import Mathlib.Tactic.DeriveCountable
import Oboard.Core.RuntimeUsersProof
import Oboard.Core.ServerConfig

namespace Oboard.Core

open GoText Runs List

section Unnamed

variable {rs : List (RouteRule κ)}

theorem compileRoutePolicies_unnamed
    (h : compileRoutePolicies ctx rule inboundTags [] outbound=.ok rs) : ∀r∈rs,r.authUser=[] := by
  intro r hr
  obtain ⟨named,resolver,-,hr⟩ := compileRoutePolicies_from h r hr
  rw [(CompiledRoutePolicy.mem_rules hr).2.1]
  exact ite_self []

theorem compileStoredRule_ok
    (h : compileStoredRule parts ctx inboundTags authUsers servers rule=.ok (servers',rs)) :
    (rule.target=none ∧ rs=[]) ∨ ∃outbound,rule.target=some outbound ∧
      compileRoutePolicies ctx rule inboundTags authUsers outbound=.ok rs := by
  obtain ⟨-,-,h⟩ := bind_ok h
  cases ht : rule.target with
  | none =>
    simp only [ht] at h
    cases h
    exact .inl ⟨rfl,rfl⟩
  | some outbound =>
    simp only [ht] at h
    obtain ⟨-,-,h⟩ := bind_ok h
    obtain ⟨-,-,h⟩ := bind_ok h
    obtain ⟨compiled,hc,h⟩ := bind_ok h
    cases h
    cases hp : compileRoutePolicies ctx rule inboundTags authUsers outbound with
    | error e => simp [hp,Except.mapError] at hc
    | ok rules =>
      rw [hp] at hc
      cases hc
      exact .inr ⟨outbound,rfl,hp⟩

theorem compileStoredRule_unnamed
    (h : compileStoredRule parts ctx inboundTags [] servers rule=.ok (servers',rs)) :
    ∀r∈rs,r.authUser=[] := by
  rcases compileStoredRule_ok h with ⟨-,rfl⟩ | ⟨outbound,-,hc⟩
  · simp
  · exact compileRoutePolicies_unnamed hc

theorem buildServerRules_unnamed
    (h : buildServerRules parts ctx serverID rules servers=.ok (servers',rs)) :
    ∀r∈rs,r.authUser=[] := by
  obtain ⟨⟨s,compiled⟩,hc,h⟩ := bind_ok h
  cases h
  intro r hr
  obtain ⟨part,hpart,hr⟩ := mem_flatten.mp hr
  exact collect_forall (fun part => ∀r∈part,r.authUser=[]) compileStoredRule_unnamed hc part hpart r hr

theorem namedRoutes_unnamed (h : r.authUser=[]) : namedRoutes managed r=[] := by
  unfold namedRoutes
  split
  · simp [h]
  · rfl

theorem collectRuntimeUserRoutes_append (h : ∀r∈extra,r.authUser=[])
    (rules : List (RouteRule κ)) (managed : List String) :
    collectRuntimeUserRoutes (rules++extra) managed=collectRuntimeUserRoutes rules managed := by
  have hextra : extra.flatMap (namedRoutes managed)=[] :=
    flatMap_eq_nil_iff.mpr fun r hr => namedRoutes_unnamed (h r hr)
  rw [collectRuntimeUserRoutes,collectRuntimeUserRoutes,flatMap_append,hextra,append_nil]

end Unnamed

section Rules

variable {rules : List (RoutingRule κ)}

theorem fullConfig_ok (h : fullConfig parts server outbounds draft=.ok config) :
    ∃own servers pathOutbounds pathRules serverRules servers',
      buildProxyPathOutboundsAndRules parts server outbounds draft=
        .ok (servers,pathOutbounds,pathRules) ∧
      buildServerRules parts draft.ctx server.id draft.opts.routingRules servers=
        .ok (servers',serverRules) ∧
      config=draft.config own (pathRules++serverRules) := by
  unfold fullConfig at h
  obtain ⟨own,-,h⟩ := bind_ok h
  obtain ⟨external,-,h⟩ := bind_ok h
  obtain ⟨sourcePrefix,-,h⟩ := bind_ok h
  obtain ⟨interface,-,h⟩ := bind_ok h
  obtain ⟨⟨servers,pathOutbounds,pathRules⟩,hpath,h⟩ := bind_ok h
  obtain ⟨vpnGate,-,h⟩ := bind_ok h
  obtain ⟨familySplit,-,h⟩ := bind_ok h
  obtain ⟨-,-,h⟩ := bind_ok h
  obtain ⟨-,-,h⟩ := bind_ok h
  obtain ⟨⟨servers',serverRules⟩,hrules,h⟩ := bind_ok h
  cases h
  exact ⟨_,servers,pathOutbounds,pathRules,serverRules,servers',hpath,hrules,rfl⟩

end Rules

section Agreement

variable {κ υ : Type} {parts : ConfigParts κ υ} {server : ConfigServer}
  {inbounds : List ListenInbound} {outbounds : List StoredOutbound} {users : List υ}
  {opts : ConfigOptions κ} {draft : ConfigDraft κ υ}

theorem package_append (h : ∀r∈extra,r.authUser=[]) (target : Server)
    (own own' : List Outbound) (rules : List (RouteRule κ)) :
    (applyRuntimeUserStructure target (draft.config own (rules++extra))).2=
      (applyRuntimeUserStructure target (draft.config own' rules)).2 := by
  have hmanaged : managedTags target (draft.config own (rules++extra))=
      managedTags target (draft.config own' rules) := rfl
  have hcollect : ∀managed,collectRuntimeUserPackage (draft.config own (rules++extra)) managed=
      collectRuntimeUserPackage (draft.config own' rules) managed := by
    intro managed
    simp only [collectRuntimeUserPackage,ConfigDraft.config,collectRuntimeUserRoutes_append h]
  unfold applyRuntimeUserStructure
  simp only [hmanaged,hcollect]
  split_ifs <;> rfl

theorem draftConfig_projection (h : draftConfig parts server inbounds users opts .full=.ok draft) :
    draftConfig parts server inbounds users opts .usersProjection=.ok draft := by
  simp only [draftConfig] at h ⊢
  obtain ⟨_,hvalid,h⟩ := bind_ok h
  obtain ⟨warp,hwarp,h⟩ := bind_ok h
  obtain ⟨dns,hdns,h⟩ := bind_ok h
  have hsame : parts.buildDNSConfig server=.ok dns := hdns
  simp only [hvalid,hwarp,generateDNS,hsame]
  exact h

/-- The rules of full generation begin with those of the projection, and name no more users. -/
theorem fullConfig_projection (h : fullConfig parts server outbounds draft=.ok config) :
    ∃own own' rules extra,projectedConfig parts server outbounds draft=.ok (draft.config own' rules) ∧
      config=draft.config own (rules++extra) ∧ ∀r∈extra,r.authUser=[] := by
  obtain ⟨own,servers,pathOutbounds,pathRules,serverRules,servers',hpath,hrules,hconfig⟩ :=
    fullConfig_ok h
  refine ⟨own,pathOutbounds,pathRules,serverRules,?_,hconfig,buildServerRules_unnamed hrules⟩
  simp only [projectedConfig,hpath,bind,Except.bind,pure,Except.pure]

theorem buildServerConfig_projection
    (h : buildServerConfig parts server inbounds outbounds users opts .full=.ok (config,pkg)) :
    ∃config',buildServerConfig parts server inbounds outbounds users opts .usersProjection=
      .ok (config',pkg) := by
  unfold buildServerConfig at h ⊢
  obtain ⟨draft,hdraft,h⟩ := bind_ok h
  obtain ⟨full,hfull,h⟩ := bind_ok h
  obtain ⟨own,own',rules,extra,hproj,rfl,hextra⟩ := fullConfig_projection hfull
  simp only [draftConfig_projection hdraft,hproj,bind,Except.bind,pure,Except.pure,
    Except.ok.injEq] at h ⊢
  split_ifs at h ⊢
  · cases h
    exact ⟨_,rfl⟩
  · refine ⟨_,Prod.ext rfl ?_⟩
    rw [← package_append hextra server.toServer own own' rules,h]

/-- Where full generation succeeds, the projection returns the package it extracts. -/
theorem projection_returns_generated_package (parts : ConfigParts κ υ) (server : ConfigServer)
    (inbounds : List ListenInbound) (outbounds : List StoredOutbound) (users : List υ)
    (opts : ConfigOptions κ) {text : String} {pkg : Option SignedPackage}
    (h : generateServerConfigWithOptions parts server inbounds outbounds users opts=
      .ok (text,pkg)) :
    projectServerRuntimeUsers parts server inbounds outbounds users opts=
      .ok (pkg.getD ⟨⟨[],[]⟩,""⟩) := by
  unfold generateServerConfigWithOptions at h
  obtain ⟨⟨config,built⟩,hbuild,h⟩ := bind_ok h
  obtain ⟨_,-,h⟩ := bind_ok h
  obtain ⟨_,-,h⟩ := bind_ok h
  cases h
  obtain ⟨config',hproj⟩ := buildServerConfig_projection hbuild
  simp only [projectServerRuntimeUsers,hproj,bind,Except.bind,pure,Except.pure]

end Agreement

def vlessParts (events : List PathEvent) : ConfigParts String String where
  topology := ⟨fun _ => none,fun _ _ _ => .ok (),fun _ => .ok (),fun _ _ _ => .ok "",
    fun _ _ => .ok "",fun _ _ _ _ => .ok ()⟩
  reader := ⟨id,fun _ _ => "",fun _ => none,.ok,fun _ => ""⟩
  dataPlaneIdentities := id
  active := fun _ => true
  buildDNSConfig := fun _ => .ok ⟨["remote"],"remote"⟩
  adapterFor := fun _ => .ok
    ⟨fun inbound users => .ok ⟨inboundTag inbound.id,.vless,"",some (users.map (⟨·,{}⟩)),false⟩,
      fun outbound _ => .ok ⟨"out-"++toString outbound.id,false⟩⟩
  resolveInboundUsers := fun _ users _ => .ok (users,users)
  runtimeLimits := fun inbound users _ => users.map
    (fun user => (user,{inboundID := inbound.id,authorizationKey := "key-"++user}))
  buildProxyPathInternalInbounds := fun _ _ _ limits _ => .ok (limits,[])
  walkProxyPaths := fun _ _ _ _ _ => events
  applyRoutingRuleProxyPathBindings := fun _ _ outbounds => .ok outbounds
  ruleTarget := fun _ => .ok ()
  ruleMatch := fun _ => .ok ()
  validateAddressForIPStack := fun _ _ => .ok ()
  externalOutboundToSingBox := fun external _ _ => .ok ⟨"ext-"++toString external.id,false⟩
  buildSourcePrefixOutbounds := fun _ _ => .ok []
  buildRoutingRuleInterfaceOutbounds := fun _ _ => .ok []
  buildVPNGatePoolOutbounds := fun _ _ => .ok []
  buildRoutingRuleFamilySplitOutbounds := fun _ _ _ _ _ => .ok []
  warpEndpoint := fun _ _ => .ok ()
  applyRoutingRuleWARPEndpointBindings := fun _ _ => .ok ()
  validateGeneratedSingBoxConfig := fun _ => .ok ()
  marshalIndent := fun config => .ok (toString config.rules.length++" rules")
  snapshotHash := fun revision scope entries =>
    .ok (toString revision++" "++toString scope++" "++toString entries.length)

def vlessEntry : ListenInbound := ⟨⟨1,1,true,.vless⟩,"entry","0.0.0.0",443,{}⟩

def pathEvents : List PathEvent :=
  [.outbound ⟨"path-1-step-1",false⟩,.stage ⟨1,none,["in-1"],["alice"],some "path-1-step-1"⟩]

def blockedOptions : ConfigOptions String :=
  ⟨[blockDomain "ads.example"],[],[],[],[],[],[],[],[],none,newProxyPathPortLedger [],false⟩

def alicePackage : SignedPackage where
  scope := ["in-1"]
  entries := [⟨"in-1","alice",{},"key-alice",{inboundID := 1},"path-1-step-1",
    {inboundID := 1,authorizationKey := "key-alice"}⟩]
  usersDigest := "0 [in-1] 1"

/-- The block rule of the server is generated by full generation only. -/
theorem projection_beside_server_rule :
    generateServerConfigWithOptions (vlessParts pathEvents) ⟨{id := 1},runtimeServer,.allow⟩
      [vlessEntry] [] ["alice"] blockedOptions=.ok ("2 rules",some alicePackage) ∧
    projectServerRuntimeUsers (vlessParts pathEvents) ⟨{id := 1},runtimeServer,.allow⟩
      [vlessEntry] [] ["alice"] blockedOptions=.ok alicePackage := by
  have hfull : generateServerConfigWithOptions (vlessParts pathEvents) ⟨{id := 1},runtimeServer,.allow⟩
      [vlessEntry] [] ["alice"] blockedOptions=.ok ("2 rules",some alicePackage) := by
    decide +kernel
  exact ⟨hfull,projection_returns_generated_package _ _ _ _ _ _ hfull⟩

section digests

open UsersInstallEntry

/-- Encoding and hash together lose nothing. -/
def ConfigParts.Exact (parts : ConfigParts κ υ) : Prop :=
  ∀{revision revision' scope scope' entries entries'},
    parts.snapshotHash revision scope entries=parts.snapshotHash revision' scope' entries' →
      revision=revision' ∧ scope=scope' ∧ entries=entries'

def UsersInstallEntry.key (entry : UsersInstallEntry) : String×String :=
  (entry.inboundTag,entry.authUser)

theorem byIdentity_iff : byIdentity a b ↔ toLex a.key≤toLex b.key := by
  rw [Prod.Lex.toLex_le_toLex]
  rfl

instance : Std.Total byIdentity where
  total a b := by simpa only [byIdentity_iff] using le_total _ _

instance : IsTrans UsersInstallEntry byIdentity where
  trans a b c := by simpa only [byIdentity_iff] using le_trans

variable {κ υ : Type} {parts : ConfigParts κ υ}

theorem sort_byIdentity_iff (h : (entries.map key).Nodup) :
    entries.insertionSort byIdentity=others.insertionSort byIdentity ↔ entries ~ others := by
  constructor
  · intro hsort
    exact (perm_insertionSort byIdentity entries).symm.trans (hsort ▸ perm_insertionSort _ others)
  intro hperm
  refine Perm.eq_of_pairwise (fun a b ha hb hab hba => ?_) (pairwise_insertionSort _ _)
    (pairwise_insertionSort _ _)
    ((perm_insertionSort _ _).trans (hperm.trans (perm_insertionSort _ _).symm))
  have hkey : a.key=b.key :=
    toLex_inj.mp (le_antisymm (byIdentity_iff.mp hab) (byIdentity_iff.mp hba))
  have hb : b∈entries := hperm.mem_iff.mpr ((mem_insertionSort _).mp hb)
  exact inj_on_of_nodup_map h ((mem_insertionSort _).mp ha) hb hkey

theorem snapshotDigest_iff (hash : parts.Exact) (h : (entries.map key).Nodup) :
    usersSnapshotDigest parts revision scope entries=
        usersSnapshotDigest parts revision' scope' others ↔
      revision=revision' ∧ uniqueSortedStrings scope=uniqueSortedStrings scope' ∧
        entries ~ others := by
  rw [← sort_byIdentity_iff h]
  exact ⟨fun hd => hash hd,fun ⟨hr,hs,he⟩ => by rw [usersSnapshotDigest,hr,hs,he]; rfl⟩

/-- The content digest sees everything of a package but the order of its entries and the counters of
their leases. The snapshot digest sees the counters and the revision too. -/
theorem users_digests_identify_content (parts : ConfigParts κ υ) (hash : parts.Exact)
    (pkg other : RuntimeUserPackage) (h : (pkg.entries.map key).Nodup) :
    (usersContentDigest parts pkg.scope pkg.entries=
        usersContentDigest parts other.scope other.entries ↔
      uniqueSortedStrings pkg.scope=uniqueSortedStrings other.scope ∧
        pkg.entries.map stable ~ other.entries.map stable) ∧
    ∀revision revision',usersSnapshotDigest parts revision pkg.scope pkg.entries=
        usersSnapshotDigest parts revision' other.scope other.entries ↔
      revision=revision' ∧ uniqueSortedStrings pkg.scope=uniqueSortedStrings other.scope ∧
        pkg.entries ~ other.entries := by
  have hstable : ((pkg.entries.map stable).map key).Nodup := by
    rwa [map_map]
  exact ⟨(snapshotDigest_iff hash hstable).trans (and_iff_right rfl),
    fun _ _ => snapshotDigest_iff hash h⟩

instance countableChar : Countable Char := Function.Injective.countable (fun _ _ => Char.toNat_inj.mp)
instance countableString : Countable String := Function.Injective.countable (fun _ _ => String.toList_inj.mp)

deriving instance Countable for UsersCredential,CredentialStatus,UsersIdentity,UserRuntimeLimit,
  UsersInstallEntry

theorem exists_exact_parts : ∃parts : ConfigParts String String,parts.Exact := by
  obtain ⟨code,hcode⟩ := Countable.exists_injective_nat (Int×List String×List UsersInstallEntry)
  refine ⟨{vlessParts [] with
    snapshotHash := fun revision scope entries =>
      .ok (String.ofList (replicate (code (revision,scope,entries)) 'a'))},fun h => ?_⟩
  have hlength := congrArg length (String.ofList_injective (Except.ok.inj h))
  rw [length_replicate,length_replicate] at hlength
  simpa only [Prod.mk.injEq] using hcode hlength

def alice : UsersInstallEntry := ⟨"in-1","alice",{},"",{},"direct",{}⟩

/-- Only the leased bytes differ. -/
def leasedAlice : UsersInstallEntry := {alice with policy := {leaseBytes := 1}}

theorem digests_of_leased_entry : ∃parts : ConfigParts String String,parts.Exact ∧
    ([alice].map key).Nodup ∧
    usersContentDigest parts [] [alice]=usersContentDigest parts [] [leasedAlice] := by
  obtain ⟨parts,hash⟩ := exists_exact_parts
  have hkeys : ([alice].map key).Nodup := by decide
  exact ⟨parts,hash,hkeys,(users_digests_identify_content parts hash ⟨[],[alice]⟩ ⟨[],[leasedAlice]⟩
    hkeys).1.mpr ⟨rfl,.rfl⟩⟩

theorem snapshot_digest_sees_lease : ∃parts : ConfigParts String String,parts.Exact ∧
    alice.stable=leasedAlice.stable ∧
    usersSnapshotDigest parts 0 [] [alice]≠usersSnapshotDigest parts 0 [] [leasedAlice] := by
  obtain ⟨parts,hash⟩ := exists_exact_parts
  refine ⟨parts,hash,rfl,fun h => ?_⟩
  have hperm := ((snapshotDigest_iff hash (by decide)).mp h).2.2
  exact absurd (perm_singleton.mp hperm) (by decide)

end digests

end Oboard.Core
