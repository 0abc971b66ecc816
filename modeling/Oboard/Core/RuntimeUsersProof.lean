import Oboard.Core.RuntimeUsers

namespace Oboard.Core

open FirstMatch Runs GoText List Table

variable {κ X : Type}

def outcome (M : Matching κ X) (cfg : SingBoxConfig κ) (tag user : String) (x : X) : String :=
  (eval (judge M tag user) cfg.rules x).elim (fun _ => cfg.final) id

/-- A user selector sends an identity where its installed entry says. -/
def resolveSelector (cfg : SingBoxConfig κ) (pkg : Option RuntimeUserPackage)
    (tag user outbound : String) : Option String :=
  if cfg.outbounds.any (fun o => o.userSelector && o.tag=outbound) then
    (pkg.bind (fun p => p.entries.find? (fun e => e.inboundTag=tag && e.authUser=user))).map
      UsersInstallEntry.routeOutbound
  else some outbound

def outcomeAfter (M : Matching κ X) (server : Server) (cfg : SingBoxConfig κ) (tag user : String)
    (x : X) : Option String :=
  let (cfg',pkg) := applyRuntimeUserStructure server cfg
  resolveSelector cfg' pkg tag user (outcome M cfg' tag user x)

/-- The identities whose routing is compared: any user of a static listener, the named users
of a managed one. -/
def OnInbound (server : Server) (cfg : SingBoxConfig κ) (tag user : String) : Prop :=
  tag∈managedTags server cfg → ∃item∈cfg.inbounds,item.tag=tag ∧ user∈identityNames item

def plainOutbound (outbound : String) : Prop :=
  outbound≠"" ∧ selectedInbound outbound=none

/-- What configuration generation guarantees of its output. Each stage has at most one
listener, and one without users belongs to a listener nobody uses. -/
structure Generated (server : Server) (cfg : SingBoxConfig κ) : Prop where
  rules : ∃ctx serverID stored stages,generateRules ctx serverID stored stages=.ok cfg.rules ∧
    (∀t∈ctx.sshTags,t∉managedTags server cfg) ∧
    (∀rule∈stored,∀o,rule.target=some o → plainOutbound o) ∧
    (∀stage∈stages,(∀o,stage.outbound=some o → plainOutbound o) ∧ stage.inboundTags.length≤1 ∧
      (stage.authUsers=[] → ∀item∈cfg.inbounds,item.tag∈stage.inboundTags →
        item.tag∈managedTags server cfg → identityNames item=[]))
  outbounds : ∀o∈cfg.outbounds,o.userSelector=false ∧ selectedInbound o.tag=none
  final : cfg.final="direct"

variable {p : RouteRule κ} {o : String}

section Drop

theorem route_of_dropped (h : droppedRule managed p=true) : p.cond=none ∧ ∃o,p.action=.route o := by
  simp only [droppedRule,Bool.and_eq_true] at h
  cases ha : p.action with
  | route o => exact ⟨by simpa [isPureAuthRoute,ha] using h.1,o,rfl⟩
  | resolve s => simp [isPureAuthRoute,ha] at h

theorem judge_dropped (h : droppedRule managed p=true) (hs : p.scoped tag user=true)
    (ho : p.action=.route o) : judge M tag user p x=.final o := by
  simp [judge,hs,(route_of_dropped h).1,ho]

theorem Generated.dropped_scope (g : Generated server cfg) (hp : p∈cfg.rules)
    (hd : droppedRule (managedTags server cfg) p=true)
    (hon : OnInbound server cfg tag user) (hs : p.scoped tag user=true) :
    tag∈managedTags server cfg ∧ tag∈p.inbound ∧ user∈p.authUser := by
  obtain ⟨ctx,serverID,stored,stages,hgen,hssh,-,hstages⟩ := g.rules
  simp only [droppedRule,Bool.and_eq_true,any_eq_true,contains_iff_mem] at hd
  obtain ⟨-,t,ht,hman⟩ := hd
  simp only [RouteRule.scoped,Bool.and_eq_true,Bool.or_eq_true,List.isEmpty_iff,
    contains_iff_mem] at hs
  have hne : p.inbound≠[] := ne_nil_of_mem ht
  have htag : tag∈p.inbound := hs.1.resolve_left hne
  rcases (generateRules_scope hgen p hp).1 with h | h | ⟨stage,hstage,hin,huser⟩
  · exact absurd h hne
  · exact absurd hman (hssh t (h ht))
  · obtain ⟨-,hlen,hempty⟩ := hstages stage hstage
    obtain rfl : tag=t := by
      have h1 := hin htag
      have h2 := hin ht
      match hl : stage.inboundTags,hlen with
      | [],_ => simp [hl] at h1
      | [a],_ =>
        rw [hl,mem_singleton] at h1 h2
        rw [h1,h2]
    refine ⟨hman,ht,hs.2.resolve_left (fun hnil => ?_)⟩
    obtain ⟨item,hitem,rfl,hname⟩ := hon hman
    have := hempty (huser ▸ hnil) item hitem (hin ht) hman
    simp [this] at hname

end Drop

variable {rules pre post : List (RouteRule κ)}

section Routes

theorem mem_namedRoutes :
    ((tag,user),o)∈namedRoutes managed p ↔ p.action=.route o ∧ p.cond=none ∧ o≠"" ∧
      tag∈p.inbound ∧ tag∈managed ∧ user∈p.authUser := by
  unfold namedRoutes
  cases ha : p.action with
  | resolve s => simp
  | route outbound =>
    cases hc : p.cond with
    | some c => simp [isPureAuthRoute,ha,hc]
    | none =>
      by_cases hb : outbound=""
      · simp only [isPureAuthRoute,ha,hc,hb]
        simp
        tauto
      simp only [isPureAuthRoute,ha,hc,Option.isNone_none,if_neg hb]
      simp only [mem_flatMap,mem_filter,contains_iff_mem,mem_map,
        Prod.mk.injEq,RuleAction.route.injEq]
      constructor
      · rintro ⟨t,⟨hin,hman⟩,u,hu,⟨rfl,rfl⟩,rfl⟩
        exact ⟨rfl,trivial,hb,hin,hman,hu⟩
      · rintro ⟨rfl,-,-,hin,hman,hu⟩
        exact ⟨tag,⟨hin,hman⟩,user,hu,⟨rfl,rfl⟩,rfl⟩

theorem lookup_namedRoutes_none (h : ¬(droppedRule managed p=true ∧ p.scoped tag user=true)) :
    (namedRoutes managed p).lookup (tag,user)=none := by
  rw [lookup_eq_none_iff]
  rintro ⟨⟨t,u⟩,o⟩ hmem
  by_contra heq
  obtain ⟨rfl,rfl⟩ : tag=t ∧ user=u := by simpa using heq
  obtain ⟨ha,hc,-,hin,hman,hu⟩ := mem_namedRoutes.mp hmem
  refine h ⟨?_,?_⟩
  · simp only [droppedRule,isPureAuthRoute,ha,hc,Option.isNone_none,Bool.true_and,
      any_eq_true,contains_iff_mem]
    exact ⟨tag,hin,hman⟩
  · simp [RouteRule.scoped,hin,hu]

theorem lookup_namedRoutes_some (hmem : ((tag,user),o)∈namedRoutes managed p) :
    (namedRoutes managed p).lookup (tag,user)=some o := by
  obtain ⟨o',ho'⟩ := lookup_of_mem hmem
  have h1 := (mem_namedRoutes.mp (mem_of_lookup ho')).1
  rw [(mem_namedRoutes.mp hmem).1] at h1
  rw [ho',RuleAction.route.inj h1]

theorem collectRuntimeUserRoutes_lookup (rules : List (RouteRule κ)) :
    (collectRuntimeUserRoutes rules managed).lookup (tag,user)=
      (rules.flatMap (namedRoutes managed)).lookup (tag,user) := by
  rw [collectRuntimeUserRoutes,lookup_foldl_putNew]
  simp

theorem lookup_flatMap_none (h : ∀r∈rules,¬(droppedRule managed r=true ∧ r.scoped tag user=true)) :
    (rules.flatMap (namedRoutes managed)).lookup (tag,user)=none := by
  induction rules with
  | nil => rfl
  | cons r rules ih =>
    rw [flatMap_cons,lookup_append,lookup_namedRoutes_none (h r mem_cons_self),
      ih (fun r hr => h r (mem_cons_of_mem _ hr))]
    rfl

theorem collectRuntimeUserRoutes_first
    (hpre : ∀r∈pre,¬(droppedRule managed r=true ∧ r.scoped tag user=true))
    (hp : ((tag,user),o)∈namedRoutes managed p) :
    (collectRuntimeUserRoutes (pre++p::post) managed).lookup (tag,user)=some o := by
  rw [collectRuntimeUserRoutes_lookup,flatMap_append,flatMap_cons,lookup_append,
    lookup_append,lookup_flatMap_none hpre,lookup_namedRoutes_some hp]
  rfl

theorem collectRuntimeUserPackage_find (hitem : item∈cfg.inbounds) (hman : item.tag∈managed)
    (hname : user∈identityNames item) : ((collectRuntimeUserPackage cfg managed).entries.find?
      (fun e => e.inboundTag=item.tag && e.authUser=user)).map UsersInstallEntry.routeOutbound=
      some (((collectRuntimeUserRoutes cfg.rules managed).lookup (item.tag,user)).getD "direct") := by
  obtain ⟨object,hobject,rfl⟩ := mem_map.mp hname
  have hmem : installEntry (collectRuntimeUserRoutes cfg.rules managed) cfg.limits item.tag object∈
      (collectRuntimeUserPackage cfg managed).entries := by
    simp only [collectRuntimeUserPackage,mem_insertionSort,mem_flatMap,mem_filter, contains_iff_mem]
    exact ⟨item,⟨hitem,hman⟩,mem_map_of_mem hobject⟩
  cases hf : (collectRuntimeUserPackage cfg managed).entries.find?
      (fun e => e.inboundTag=item.tag && e.authUser=object.name) with
  | none =>
    have := find?_eq_none.mp hf _ hmem
    simp [installEntry] at this
  | some e =>
    have hkey := find?_some hf
    have he := mem_of_find?_eq_some hf
    simp only [collectRuntimeUserPackage,mem_insertionSort,mem_flatMap, mem_map] at he
    obtain ⟨i,-,other,-,rfl⟩ := he
    obtain ⟨htag,huser⟩ := (Bool.and_eq_true _ _).mp hkey
    have htag : i.tag=item.tag := of_decide_eq_true htag
    have huser : other.name=object.name := of_decide_eq_true huser
    rw [← htag,← huser]
    rfl

end Routes

section Rewrite

variable {server : Server} {cfg : SingBoxConfig κ} {M : Matching κ X} {tag user : String}

def packageRoute (server : Server) (cfg : SingBoxConfig κ) (tag user : String) : String :=
  ((collectRuntimeUserRoutes cfg.rules (managedTags server cfg)).lookup (tag,user)).getD "direct"

def keptRules (server : Server) (cfg : SingBoxConfig κ) (rules : List (RouteRule κ)) :
    List (RouteRule κ) :=
  rules.filter (fun r => !droppedRule (managedTags server cfg) r)

theorem managedTags_eq_nil (h : serverSupportsRuntimeUsers server=false) :
    managedTags server cfg=[] := by
  have hnone item : inboundIsRuntimeManaged server item cfg.limits=false := by
    simp [inboundIsRuntimeManaged,serverSupportsRuntimeUserProtocol,h]
  simp only [managedTags,hnone,filter_false]
  rfl

theorem eval_selectorRules (tags : List String) (x : X) :
    eval (judge M tag user) (tags.map selectorRule) x=
      if tag∈tags then .inr (selectorTag tag) else .inl x := by
  induction tags with
  | nil => rfl
  | cons t tags ih =>
    by_cases h : tag=t
    · subst h
      simp [eval,judge,RouteRule.scoped,selectorRule]
    have hs : (selectorRule t : RouteRule κ).scoped tag user=false := by
      simp [RouteRule.scoped,selectorRule,h]
    rw [map_cons,eval,judge_of_not_scoped hs]
    simp only [ih,mem_cons,h,false_or]

theorem selectedInbound_selectorTag : selectedInbound (selectorTag t)≠none := by
  simp [selectedInbound,selectorTag]

theorem Generated.plain (g : Generated server cfg) (hrs : rs⊆cfg.rules) (h : eval (judge M tag user) rs x=.inr o) : plainOutbound o := by
  obtain ⟨ctx,serverID,stored,stages,hgen,-,hstored,hstages⟩ := g.rules
  obtain ⟨r,hr,z,hz⟩ := eval_inr_final h
  have hact : r.action=.route o := by
    unfold judge at hz
    split at hz
    · split at hz
      · rename_i ha
        rw [ha,Verdict.final.inj hz]
      · cases hz
    · cases hz
  rcases (generateRules_scope hgen r (hrs hr)).2 o hact with ⟨rule,hrule,ht⟩ | ⟨stage,hstage,ht⟩
  · exact hstored rule hrule o ht
  · exact (hstages stage hstage).1 o ht

theorem Generated.apply_of_managed (g : Generated server cfg) (h : managedTags server cfg≠[]) :
    ∃(cfg' : SingBoxConfig κ) (pkg : RuntimeUserPackage),
      applyRuntimeUserStructure server cfg=(cfg',some pkg) ∧
      pkg=collectRuntimeUserPackage cfg (managedTags server cfg) ∧ cfg'.final="direct" ∧
      ∃needed : List String,(∀t,t∈needed ↔ t∈managedTags server cfg) ∧
        cfg'.outbounds=cfg.outbounds++needed.map (fun t => ⟨selectorTag t,true⟩) ∧
        cfg'.rules=keptRules server cfg cfg.rules++needed.map selectorRule := by
  have hsup : serverSupportsRuntimeUsers server=true := by
    by_contra hno
    exact h (managedTags_eq_nil (by simpa using hno))
  have hpresent : cfg.outbounds.filterMap (fun o => selectedInbound o.tag)=[] :=
    filterMap_eq_nil_iff.mpr (fun o ho => (g.outbounds o ho).2)
  have happly : applyRuntimeUserStructure server cfg=
      (rewriteRuntimeUserStructure cfg (managedTags server cfg)
        (collectRuntimeUserPackage cfg (managedTags server cfg)),
        some (collectRuntimeUserPackage cfg (managedTags server cfg))) := by
    simp [applyRuntimeUserStructure,hsup,h]
  refine ⟨_,_,happly,rfl,g.final,(managedTags server cfg).insertionSort (· ≤ ·),
    fun t => mem_insertionSort _,?_,?_⟩
  · simp [rewriteRuntimeUserStructure,hpresent]
  have hne : (managedTags server cfg).insertionSort (· ≤ ·)≠[] := by
    obtain ⟨t,ht⟩ := exists_mem_of_ne_nil _ h
    exact ne_nil_of_mem ((mem_insertionSort _).mpr ht)
  simp [rewriteRuntimeUserStructure,hpresent,hne,keptRules]

theorem packageRoute_unmanaged (h : tag∉managedTags server cfg) :
    packageRoute server cfg tag user="direct" := by
  unfold packageRoute
  rw [collectRuntimeUserRoutes_lookup]
  cases hl : (cfg.rules.flatMap (namedRoutes (managedTags server cfg))).lookup (tag,user) with
  | none => rfl
  | some o =>
    obtain ⟨p,-,hp⟩ := mem_flatMap.mp (mem_of_lookup hl)
    exact absurd (mem_namedRoutes.mp hp).2.2.2.2.1 h

theorem Generated.resolveSelector_plain (g : Generated server cfg) {needed : List String}
    (hout : cfg'.outbounds=cfg.outbounds++needed.map (fun t => ⟨selectorTag t,true⟩))
    (ho : selectedInbound o=none) : resolveSelector cfg' pkg tag user o=some o := by
  refine if_neg ?_
  simp only [hout,any_append,any_map,Bool.or_eq_true,any_eq_true,not_or, not_exists,not_and]
  refine ⟨fun out h => by simp [(g.outbounds out h).1],fun t _ => ?_⟩
  simp only [Function.comp_apply,Bool.true_and,decide_eq_true_eq]
  exact fun h => selectedInbound_selectorTag (h ▸ ho)

theorem Generated.outcomeAfter_eq (g : Generated server cfg) (hon : OnInbound server cfg tag user)
    (x : X) : outcomeAfter M server cfg tag user x=some
      ((eval (judge M tag user) (keptRules server cfg cfg.rules) x).elim
        (fun _ => packageRoute server cfg tag user) id) := by
  have hkept : keptRules server cfg cfg.rules⊆cfg.rules := filter_subset_self _
  by_cases hm : managedTags server cfg=[]
  · have hall : keptRules server cfg cfg.rules=cfg.rules := by
      simp [keptRules,hm,droppedRule]
    have hsel o : resolveSelector cfg none tag user o=some o := by
      refine if_neg ?_
      simp only [any_eq_true,not_exists,not_and]
      intro out hout
      simp [(g.outbounds out hout).1]
    have happly : applyRuntimeUserStructure server cfg=(cfg,none) := by
      simp [applyRuntimeUserStructure,hm]
    have hroute : packageRoute server cfg tag user="direct" :=
      packageRoute_unmanaged (by simp [hm])
    simp only [outcomeAfter,happly,hsel,outcome,hall,hroute,g.final]
  · obtain ⟨cfg',pkg,happly,hpkg,hfinal,needed,hneed,hout,hrules⟩ := g.apply_of_managed hm
    simp only [outcomeAfter,happly,outcome,hrules,eval_append]
    cases hk : eval (judge M tag user) (keptRules server cfg cfg.rules) x with
    | inr o => exact g.resolveSelector_plain hout (g.plain hkept hk).2
    | inl y =>
      simp only [Sum.elim_inl,eval_selectorRules,hneed]
      by_cases ht : tag∈managedTags server cfg
      · obtain ⟨item,hitem,rfl,hname⟩ := hon ht
        have hany : cfg'.outbounds.any
            (fun o => o.userSelector && o.tag=selectorTag item.tag)=true := by
          rw [hout,any_append,any_map]
          simp only [Bool.or_eq_true,any_eq_true]
          exact .inr ⟨item.tag,(hneed _).mpr ht,by simp⟩
        rw [if_pos ht]
        simp only [hpkg]
        exact (if_pos hany).trans (collectRuntimeUserPackage_find hitem ht hname)
      · rw [if_neg ht,packageRoute_unmanaged ht]
        simp only [Sum.elim_inl,hfinal]
        exact g.resolveSelector_plain hout (by decide)

end Rewrite

section Preservation

variable {server : Server} {cfg : SingBoxConfig κ} {M : Matching κ X} {tag user : String}

theorem keptRules_eval
    (h : ∀r∈rules,¬(droppedRule (managedTags server cfg) r=true ∧ r.scoped tag user=true)) :
    eval (judge M tag user) (keptRules server cfg rules) x=eval (judge M tag user) rules x := by
  refine eval_filter (fun r hr hk z => judge_of_not_scoped ?_ z) x
  have hd : droppedRule (managedTags server cfg) r=true := by simpa using hk
  simpa [hd] using h r hr

theorem Generated.outcomeAfter_of_kept (g : Generated server cfg)
    (hon : OnInbound server cfg tag user)
    (h : ∀r∈cfg.rules,¬(droppedRule (managedTags server cfg) r=true ∧ r.scoped tag user=true))
    (x : X) : outcomeAfter M server cfg tag user x=some (outcome M cfg tag user x) := by
  have hroute : packageRoute server cfg tag user="direct" := by
    unfold packageRoute
    rw [collectRuntimeUserRoutes_lookup,lookup_flatMap_none h]
    rfl
  rw [g.outcomeAfter_eq hon,keptRules_eval h,hroute,outcome,g.final]

/-- A connection that reaches the first dropped rule of its identity: the rule decided it
before, the later kept rules come first now. -/
theorem Generated.outcomeAfter_of_dropped (g : Generated server cfg)
    (hon : OnInbound server cfg tag user)
    (hsplit : cfg.rules=pre++p::post)
    (hd : droppedRule (managedTags server cfg) p=true) (hs : p.scoped tag user=true)
    (ho : p.action=.route o)
    (hpre : ∀r∈pre,¬(droppedRule (managedTags server cfg) r=true ∧ r.scoped tag user=true))
    (x : X) :
    outcome M cfg tag user x=(eval (judge M tag user) pre x).elim (fun _ => o) id ∧
    outcomeAfter M server cfg tag user x=some ((eval (judge M tag user) pre x).elim (fun y =>
      (eval (judge M tag user) (keptRules server cfg post) y).elim (fun _ => o) id) id) := by
  have hp : p∈cfg.rules := by simp [hsplit]
  obtain ⟨hman,hin,hu⟩ := g.dropped_scope hp hd hon hs
  have hplain : plainOutbound o := by
    have h : eval (judge M tag user) [p] x=.inr o := by
      rw [eval,judge_dropped hd hs ho]
    exact g.plain (cons_subset.mpr ⟨hp,nil_subset _⟩) h
  have hroute : packageRoute server cfg tag user=o := by
    unfold packageRoute
    rw [hsplit,collectRuntimeUserRoutes_first hpre
      (mem_namedRoutes.mpr ⟨ho,(route_of_dropped hd).1,hplain.1,hin,hman,hu⟩)]
    rfl
  have hkept : keptRules server cfg cfg.rules=
      keptRules server cfg pre++keptRules server cfg post := by
    simp [keptRules,hsplit,hd]
  constructor
  · rw [outcome,hsplit,eval_append]
    cases eval (judge M tag user) pre x with
    | inr out => rfl
    | inl y => simp only [Sum.elim_inl,eval,judge_dropped hd hs ho,Sum.elim_inr,id]
  rw [g.outcomeAfter_eq hon,hkept,eval_append,keptRules_eval hpre,hroute]
  cases eval (judge M tag user) pre x with
  | inr out => rfl
  | inl y => rfl

/-- No kept rule behind a dropped one decides otherwise about a connection that reaches the
dropped rule. -/
def NoOvertaking (M : Matching κ X) (server : Server) (cfg : SingBoxConfig κ) : Prop :=
  ∀tag user,OnInbound server cfg tag user → ∀pre p post o,cfg.rules=pre++p::post →
    droppedRule (managedTags server cfg) p=true → p.scoped tag user=true → p.action=.route o →
    ∀x y,eval (judge M tag user) pre x=.inl y →
    ∀out,eval (judge M tag user) (keptRules server cfg post) y=.inr out → out=o

/-- The rewrite keeps the outbound of every connection exactly when no rule overtakes. -/
theorem runtime_user_rewrite_preserves_routing_iff (M : Matching κ X) (g : Generated server cfg) :
    (∀tag user,OnInbound server cfg tag user → ∀x,
      outcomeAfter M server cfg tag user x=some (outcome M cfg tag user x)) ↔
    NoOvertaking M server cfg := by
  constructor
  · intro h tag user hon pre p post o hsplit hd hs ho x y hpre out hout
    -- a dropped rule in scope would have decided the connection before it reached this one
    have hfirst : ∀r∈pre,
        ¬(droppedRule (managedTags server cfg) r=true ∧ r.scoped tag user=true) := by
      rintro r hr ⟨hdr,hsr⟩
      obtain ⟨o',ho'⟩ := (route_of_dropped hdr).2
      exact eval_inl_not_final hpre hr (fun z => ⟨o',judge_dropped hdr hsr ho'⟩)
    obtain ⟨hbefore,hafter⟩ := g.outcomeAfter_of_dropped (M := M) hon hsplit hd hs ho hfirst x
    have heq := h tag user hon x
    rw [hafter,hbefore,hpre] at heq
    simpa [hout] using heq
  · intro h tag user hon x
    rcases first_split
        (fun r => droppedRule (managedTags server cfg) r=true ∧ r.scoped tag user=true)
        cfg.rules with hnone | ⟨pre,p,post,hsplit,⟨hd,hs⟩,hfirst⟩
    · exact g.outcomeAfter_of_kept hon hnone x
    obtain ⟨o,ho⟩ := (route_of_dropped hd).2
    obtain ⟨hbefore,hafter⟩ := g.outcomeAfter_of_dropped (M := M) hon hsplit hd hs ho hfirst x
    rw [hafter,hbefore]
    cases hpre : eval (judge M tag user) pre x with
    | inr out => rfl
    | inl y =>
      cases hpost : eval (judge M tag user) (keptRules server cfg post) y with
      | inl z => simp [hpost]
      | inr out =>
        simp only [Sum.elim_inl,hpost,Sum.elim_inr,id]
        rw [h tag user hon pre p post o hsplit hd hs ho x y hpre out hpost]

end Preservation

def sharedListener (serverRules : List (RouteRule String)) : SingBoxConfig String where
  inbounds := [⟨"in-1",.vless,"",some [⟨"alice",{}⟩],false⟩]
  outbounds := [⟨"direct",false⟩,⟨"block",false⟩,⟨"path-1-step-1",false⟩]
  rules := ⟨["in-1"],["alice"],none,.route "path-1-step-1"⟩::serverRules
  final := "direct"
  limits := (∅ : Limits).insert "alice" {authorizationKey := "key"}

def runtimeServer : Server :=
  ⟨"agent",["runtime_users_control_v1","runtime_users_v1","runtime_users:vless"]⟩

def byDomain : Matching String String := ⟨fun domain x => domain==x,fun _ x => x⟩

def blockDomain (domain : String) : RoutingRule String :=
  ⟨7,1,true,.server,none,none,0,0,some domain,.block,none,some "block"⟩

theorem sharedListener_generated (stored)
    (hr : generateRules ⟨[],true,id⟩ 1 stored [⟨1,none,["in-1"],["alice"],some "path-1-step-1"⟩]=
      .ok (sharedListener serverRules).rules)
    (ht : ∀rule∈stored,∀o,rule.target=some o → plainOutbound o) :
    Generated runtimeServer (sharedListener serverRules) where
  rules := by
    refine ⟨_,_,_,_,hr,by simp,ht,?_⟩
    simp only [mem_singleton,forall_eq,Option.some.injEq,forall_eq']
    exact ⟨⟨by decide,by decide +kernel⟩,by decide,by simp⟩
  outbounds := by
    have h : ∀o∈(sharedListener []).outbounds,o.userSelector=false ∧ selectedInbound o.tag=none := by
      decide +kernel
    exact h
  final := rfl

theorem preserved_without_server_rules : Generated runtimeServer (sharedListener []) ∧
    (∀tag user,OnInbound runtimeServer (sharedListener []) tag user → ∀x,
      outcomeAfter byDomain runtimeServer (sharedListener []) tag user x=
        some (outcome byDomain (sharedListener []) tag user x)) := by
  have g : Generated runtimeServer (sharedListener []) :=
    sharedListener_generated [] rfl (by simp)
  refine ⟨g,(runtime_user_rewrite_preserves_routing_iff byDomain g).mpr ?_⟩
  intro tag user _ pre p post o hsplit _ _ _ x y _ out hout
  obtain rfl : post=[] := by
    have h := congrArg List.length hsplit
    simp only [sharedListener,length_append,length_cons,length_nil] at h
    exact length_eq_zero_iff.mp (by omega)
  simp [keptRules,eval] at hout

/-- The block rule of the server stands behind the path default and now comes first. -/
theorem block_rule_overtakes_path :
    ∃serverRules,Generated runtimeServer (sharedListener serverRules) ∧
      OnInbound runtimeServer (sharedListener serverRules) "in-1" "alice" ∧
      outcome byDomain (sharedListener serverRules) "in-1" "alice" "ads.example"="path-1-step-1" ∧
      outcomeAfter byDomain runtimeServer (sharedListener serverRules) "in-1" "alice" "ads.example"=
        some "block" := by
  refine ⟨[⟨[],[],some "ads.example",.route "block"⟩],
    sharedListener_generated [blockDomain "ads.example"] rfl ?_,?_,?_,?_⟩
  · simp only [mem_singleton,forall_eq,blockDomain,Option.some.injEq,forall_eq']
    exact ⟨by decide,by decide +kernel⟩
  · exact fun _ => ⟨_,mem_singleton_self _,rfl,by decide +kernel⟩
  · decide +kernel
  · decide +kernel

end Oboard.Core
