import Oboard.Automation.Changesets

namespace Oboard.Automation

open GoText List ApprovalPolicy

variable {Input : Type} {w : World Input} {principal : Principal}

def derivedServers (w : World Input) (principal : Principal) (op : Operation Input) : List Int :=
  match (w.authorize principal op.capability).bind (·.resolveResourceRefs) with
  | none => []
  | some resolve => match resolve op.input with
    | .error _ => []
    | .ok refs => refs.filterMap (fun ref => match ref with
      | .server id => some id
      | .other _ _ => none)

def listedIDs (fields : RefFields) : Option (List Int) :=
  match fields.lookup "server_ids" with
  | some (.ids ids) => some ids
  | _ => none

def ApprovalPolicy.serverIDs (policy : ApprovalPolicy) : Option (List Int) :=
  match policy.resourceFilter with
  | .fields fields => listedIDs fields
  | _ => none

/-- Every operation keeps to the servers of the policy it falls under. -/
def Contained (w : World Input) (principal : Principal) (item : Changeset Input) : Prop :=
  ∀op∈item.plan.operations,∀policy,getApprovalPolicy w item.principalID op.capability=some policy →
    ∀allowed,policy.serverIDs=some allowed → ∀s∈derivedServers w principal op,s∈allowed

/-- Nothing but the policies stands between the changeset and an automatic approval. -/
structure Approvable (w : World Input) (principal : Principal) (item : Changeset Input) : Prop where
  authorized : authorized principal item=true
  unexpired : w.now< item.expiresAt
  validatable : item.status.validatable=true
  valid : validateOperations w principal item=.ok ()
  trusted : principal.interactive=true ∨ ∃type,w.principalType item.principalID=some type ∧
    (type=.oauth → ∀op∈item.plan.operations,op.riskClass<4)

/-- Every derived server is listed by some operation of the capability, unless one of them lists no
servers at all. -/
def ServersListed (w : World Input) (principal : Principal) (item : Changeset Input) : Prop :=
  ∀op∈item.plan.operations,∀s∈derivedServers w principal op,
    ∃other∈item.plan.operations,other.capability=op.capability ∧
      (listedIDs other.resourceRefs=none ∨ ∃ids,listedIDs other.resourceRefs=some ids ∧ s∈ids)

section automatic

theorem policiesAllowAutomatic_eq_true : policiesAllowAutomatic w principalID oauth ops=.ok true ↔
      ∀op∈ops,∃policy,getApprovalPolicy w principalID op.capability=some policy ∧
        policy.approves oauth op=true := by
  induction ops with
  | nil => simp [policiesAllowAutomatic]
  | cons op ops ih =>
    rw [policiesAllowAutomatic,forall_mem_cons,← ih]
    cases hpolicy : getApprovalPolicy w principalID op.capability with
    | none =>
      cases hrest : policiesAllowAutomatic w principalID oauth ops <;> simp [Except.map]
    | some policy =>
      dsimp only
      split_ifs with hdenied
      · simp [approves,hdenied]
      · cases hrest : policiesAllowAutomatic w principalID oauth ops <;> simp [Except.map]

end automatic

section approved

variable {hash : Plan Input → String} {item : Changeset Input}

theorem automaticAllowed_eq_true : automaticAllowed w principal item=.ok true ↔
    ∃oauth,(principal.interactive=true ∧ oauth=false ∨ principal.interactive=false ∧
        (w.principalType item.principalID).map (fun type => decide (type=.oauth))=some oauth) ∧
      ∀op∈item.plan.operations,∃policy,
        getApprovalPolicy w item.principalID op.capability=some policy ∧
          policy.approves oauth op=true := by
  unfold automaticAllowed
  cases hinteractive : principal.interactive with
  | true => simp [policiesAllowAutomatic_eq_true]
  | false =>
    cases htype : w.principalType item.principalID with
    | none => simp
    | some type => simp [policiesAllowAutomatic_eq_true]

theorem validate_approved_iff : (∃item',validate w hash principal item=.ok item' ∧
    item'.status=.approved) ↔ authorized principal item=true ∧ w.now< item.expiresAt ∧
      item.status.validatable=true ∧ validateOperations w principal item=.ok () ∧
      automaticAllowed w principal item=.ok true := by
  unfold validate validatedRow
  by_cases hauth : authorized principal item=true
  · by_cases hexpired : item.expiresAt≤w.now
    · simp [hauth,hexpired]
    by_cases hstatus : item.status.validatable=true
    · cases hvalid : validateOperations w principal item with
      | error e => simp [hauth,hexpired,hstatus,bind,Except.bind]
      | ok u =>
        cases hautomatic : automaticAllowed w principal item with
        | error e => simp [hauth,hexpired,hstatus,bind,Except.bind]
        | ok b => cases b <;> simp [hauth,hexpired,hstatus,bind,Except.bind,not_le.mp hexpired]
    · simp [hauth,hexpired,hstatus]
  · simp [hauth]

theorem approves_lists {policy : ApprovalPolicy} {oauth : Bool} {op : Operation Input}
    {allowed : List Int} (h : policy.approves oauth op=true)
    (hallowed : policy.serverIDs=some allowed) :
    ∃ids,listedIDs op.resourceRefs=some ids ∧ ids⊆allowed := by
  simp only [approves,Bool.and_eq_true] at h
  obtain ⟨-,h⟩ := h
  unfold serverIDs at hallowed
  split at hallowed
  · next fields hfields =>
    rw [hfields] at h
    unfold listedIDs at hallowed
    split at hallowed
    · next ids hids =>
      cases hallowed
      have hfield := all_eq_true.mp h _ (Table.mem_of_lookup hids)
      obtain ⟨actual,hactual,hvalue⟩ := (Option.any_eq_true _ _).mp hfield
      cases actual with
      | other text => cases hvalue
      | ids actual =>
        refine ⟨actual,by rw [listedIDs,hactual],fun id hid => ?_⟩
        simpa using all_eq_true.mp hvalue id hid
    · cases hallowed
  · cases hallowed

section

variable (item : Changeset Input)

def allListed (capability : String) : List Int :=
  (item.plan.operations.filter (fun op => op.capability=capability)).flatMap
    (fun op => (listedIDs op.resourceRefs).getD [])

/-- Approves everything, within the servers that the operations of one capability list. -/
def narrowPolicy (capability name : String) : ApprovalPolicy where
  mode := .automatic
  allowRisk4 := true
  resourceFilter := if name=capability then
    .fields [("server_ids",.ids (allListed item capability))] else .unrestricted

def narrowest (capability : String) (_ name : String) : Option ApprovalPolicy :=
  some (narrowPolicy item capability name)

end

theorem narrowest_approves (hop : op∈item.plan.operations) (hrisk : oauth=true → op.riskClass<4)
    (hlists : op.capability=capability → listedIDs op.resourceRefs≠none) :
    ∃policy,narrowest item capability item.principalID op.capability=some policy ∧
      policy.expiresAt=none ∧ policy.approves oauth op=true := by
  refine ⟨_,rfl,rfl,?_⟩
  have hlow : (4≤op.riskClass && (oauth || !true))=false := by
    cases oauth with
    | false => simp
    | true => simpa using hrisk rfl
  simp only [approves,narrowPolicy,hlow,Bool.not_false,Bool.and_true,decide_true, Bool.true_and]
  split_ifs with hcap
  · obtain ⟨ids,hids⟩ := Option.ne_none_iff_exists'.mp (hlists hcap)
    have hfield : op.resourceRefs.lookup "server_ids"=some (.ids ids) := by
      unfold listedIDs at hids
      split at hids
      · next hlookup =>
        cases hids
        exact hlookup
      · cases hids
    simp only [approvalFilterAllows,all_cons,all_nil,Bool.and_true,hfield,
      Option.any_some,valueAllowed,all_eq_true,contains_iff_mem]
    intro id hid
    refine mem_flatMap.mpr ⟨op,mem_filter.mpr ⟨hop,by simpa using hcap⟩,?_⟩
    simpa [hids] using hid
  · rfl

theorem mem_allListed {s : Int} (h : s∈allListed item capability) :
    ∃op∈item.plan.operations,op.capability=capability ∧
      ∃ids,listedIDs op.resourceRefs=some ids ∧ s∈ids := by
  obtain ⟨op,hop,hs⟩ := mem_flatMap.mp h
  obtain ⟨hmem,hcap⟩ := mem_filter.mp hop
  cases hids : listedIDs op.resourceRefs with
  | none => simp [hids] at hs
  | some ids => exact ⟨op,hmem,by simpa using hcap,ids,hids,by simpa [hids] using hs⟩

variable (policies : String → String → Option ApprovalPolicy)

theorem checkReplaced_policies :
    checkReplaced {w with policies := policies} createdAt refs=checkReplaced w createdAt refs := by
  induction refs with
  | nil => rfl
  | cons ref refs ih => cases ref <;> simp only [checkReplaced,ih]

theorem inspectOperations_policies :
    inspectOperations {w with policies := policies} principal createdAt current ops=
      inspectOperations w principal createdAt current ops := by
  induction ops generalizing current with
  | nil => rfl
  | cons op ops ih =>
    simp only [inspectOperations,inspectOperation,checkRefs,checkReplaced_policies,ih]

theorem validateOperations_policies :
    validateOperations {w with policies := policies} principal item=
      validateOperations w principal item := by
  unfold validateOperations
  simp only [inspectOperations_policies]

theorem automatic_of_narrowest (happ : Approvable w principal item)
    (hlists : ∀op∈item.plan.operations,op.capability=capability → listedIDs op.resourceRefs≠none) :
    automaticAllowed {w with policies := narrowest item capability} principal item=.ok true := by
  have hpolicies oauth (hrisk : oauth=true → ∀op∈item.plan.operations,op.riskClass<4) :
      ∀op∈item.plan.operations,∃policy,
        getApprovalPolicy {w with policies := narrowest item capability} item.principalID
          op.capability=some policy ∧ policy.approves oauth op=true := by
    intro op hop
    obtain ⟨policy,hpolicy,hexpires,happroves⟩ :=
      narrowest_approves hop (fun h => hrisk h op hop) (hlists op hop)
    exact ⟨policy,by simp [getApprovalPolicy,hpolicy,hexpires],happroves⟩
  refine automaticAllowed_eq_true.mpr ?_
  cases hinteractive : principal.interactive with
  | true => exact ⟨false,.inl ⟨rfl,rfl⟩,hpolicies false nofun⟩
  | false =>
    rcases happ.trusted with htrue|⟨type,htype,hrisk⟩
    · rw [hinteractive] at htrue
      cases htrue
    · refine ⟨decide (type=.oauth),.inr ⟨rfl,by simp [htype]⟩,hpolicies _ fun h => ?_⟩
      exact hrisk (by simpa using h)

theorem approvable_of_automatic {policies : String → String → Option ApprovalPolicy}
    (hauth : authorized principal item=true) (hlive : w.now< item.expiresAt)
    (hval : item.status.validatable=true) (hops : validateOperations w principal item=.ok ())
    (h : automaticAllowed {w with policies := policies} principal item=.ok true) :
    Approvable w principal item := by
  refine ⟨hauth,hlive,hval,hops,?_⟩
  obtain ⟨oauth,hoauth,happroves⟩ := automaticAllowed_eq_true.mp h
  rcases hoauth with ⟨hi,-⟩|⟨-,htype⟩
  · exact .inl hi
  obtain ⟨type,hstored,rfl⟩ := Option.map_eq_some_iff.mp htype
  refine .inr ⟨type,hstored,fun ho op hop => ?_⟩
  obtain ⟨policy,-,hp⟩ := happroves op hop
  simp only [approves,ho,decide_true,Bool.true_or,Bool.and_true,Bool.and_eq_true,
    Bool.not_eq_true',decide_eq_false_iff_not] at hp
  exact not_le.mp hp.1.2

end approved

def policyWorld : World Int where
  now := 1
  authorize := fun _ _ => some {riskClass := 1,resolveResourceRefs := some fun id => .ok [.server id]}
  validator := fun _ => some fun _ _ => .ok ()
  handler := fun _ => some fun _ _ => .ok ()
  revisionResolver := fun _ => none
  serverCreatedAt := fun _ => none
  principalType := fun _ => some .other
  policies := fun _ _ => some
    {mode := .automatic,resourceFilter := .fields [("server_ids",.ids [1])]}

def misdirected : CreateRequest Int where
  idempotencyKey := "key"
  baseRevisions := some []
  operations := [⟨"servers.dns_test",some 2,some [("server_ids",.ids [1])]⟩]

end Oboard.Automation
