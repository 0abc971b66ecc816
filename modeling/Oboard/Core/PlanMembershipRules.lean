import Mathlib.Data.List.Sort
import Oboard.Framework.GoNumbers
import Oboard.Framework.Runs

namespace Oboard.Core

open GoText GoNumbers Runs List String

structure PlanMembershipRule where
  ruleID : Int
  kind : String
  scopeKey : String
  deriving DecidableEq

structure AssignableNode where
  entryKey : String := ""
  entryServerID : Int := 0
  pathServers : List Int := []
  exitServerID : Int := 0
  exitRegion : String := ""
  exitExternalOutboundID : Int := 0

inductive PlanRuleError where
  | ruleID
  | entryScope (scopeKey : String)
  | idScope (kind scopeKey : String)
  | regionScope
  | kind (kind : String)
  deriving DecidableEq

/-- Two letters beyond ASCII have an ASCII capital. -/
def upperChar (c : Char) : Char :=
  if c.toNat=0x131 then 'I' else if c.toNat=0x17F then 'S'
  else if 'a'≤c ∧ c ≤ 'z' then Char.ofNat (c.toNat-32) else c

def normalizeRegionCode (code : String) : String :=
  match (trimSpace code).toList.map upperChar with
  | [a,b] => if 'A'≤a ∧ a ≤ 'Z' ∧ 'A'≤b ∧ b ≤ 'Z' then ofList [a,b] else ""
  | _ => ""

def nodeKeyOf (nodeType : String) (nodeID : Int) : String :=
  nodeType++":"++ofList (formatInt nodeID)

def parseNodeKey (key : String) : Option (String×Int) :=
  match key.toList.dropWhile (fun c => c ≠ ':') with
  | [] => none
  | _::digits => (parseInt false digits).bind (fun id =>
    if 0< id then some (ofList (key.toList.takeWhile (fun c => c ≠ ':')),id) else none)

/-- The integer that a scope is parsed as, where its kind has one. -/
def PlanMembershipRule.scopeID (rule : PlanMembershipRule) : Option Int :=
  match rule.kind with
  | "entry_inbound" => (parseNodeKey rule.scopeKey).bind (fun key =>
    if key.1="inbound" then some key.2 else none)
  | "entry_server" | "path_server" | "exit_server" | "external_outbound" =>
    parseInt false rule.scopeKey.toList
  | _ => none

def normalizePlanMembershipRule (seen : List Int) (rule : PlanMembershipRule) :
    Except PlanRuleError (List Int×PlanMembershipRule) :=
  let rule := {rule with kind := trimSpace rule.kind,scopeKey := trimSpace rule.scopeKey}
  if rule.ruleID≤0 ∨ rule.ruleID∈seen then .error .ruleID
  else
    let accepted := .ok (rule.ruleID::seen,rule)
    match rule.kind with
    | "entry_inbound" =>
      if ∃id∈rule.scopeID,0< id then accepted else .error (.entryScope rule.scopeKey)
    | "entry_server" | "path_server" | "exit_server" | "external_outbound" =>
      if ∃id∈rule.scopeID,0< id then accepted else .error (.idScope rule.kind rule.scopeKey)
    | "exit_region" =>
      let code := normalizeRegionCode rule.scopeKey
      if code="" then .error .regionScope
      else .ok (rule.ruleID::seen,{rule with scopeKey := code})
    | _ => .error (.kind rule.kind)

def normalizePlanMembershipRules (rules : List PlanMembershipRule) :
    Except PlanRuleError (List PlanMembershipRule) := do
  let (_,out) ← collect normalizePlanMembershipRule [] rules
  return out.insertionSort (fun a b => a.ruleID≤b.ruleID)

def planMembershipRuleMatches (rule : PlanMembershipRule) (node : AssignableNode) : Bool :=
  let text (id : Int) := ofList (formatInt id)
  match rule.kind with
  | "entry_inbound" => node.entryKey=rule.scopeKey
  | "entry_server" => text node.entryServerID=rule.scopeKey && 0<node.entryServerID
  | "path_server" => node.pathServers.any (fun id => text id=rule.scopeKey)
  | "exit_server" => text node.exitServerID=rule.scopeKey && 0<node.exitServerID
  | "exit_region" => normalizeRegionCode node.exitRegion=rule.scopeKey && rule.scopeKey≠""
  | "external_outbound" =>
    text node.exitExternalOutboundID=rule.scopeKey && 0<node.exitExternalOutboundID
  | _ => false

/-- The id of a node that a kind of rule is about. -/
def AssignableNode.HasID (node : AssignableNode) (kind : String) (id : Int) : Prop :=
  match kind with
  | "entry_inbound" => node.entryKey=nodeKeyOf "inbound" id
  | "entry_server" => node.entryServerID=id
  | "path_server" => id∈node.pathServers
  | "exit_server" => node.exitServerID=id
  | "external_outbound" => node.exitExternalOutboundID=id
  | _ => False

/-- The spelling of an id as a scope. -/
def scopeText (kind : String) (id : Int) : String :=
  if kind="entry_inbound" then nodeKeyOf "inbound" id else ofList (formatInt id)

theorem formatInt_inj {n id : Int} (hid : 0< id) :
    ofList (formatInt n)=ofList (formatInt id) ↔ n=id := by
  refine ⟨fun h => ?_,fun h => by rw [h]⟩
  have h := ofList_injective h
  obtain ⟨m,rfl⟩ := Int.eq_ofNat_of_zero_le hid.le
  cases n with
  | ofNat n =>
    have hread := congrArg (fun cs => Nat.ofDigitChars 10 cs 0) h
    simp only [formatInt,Nat.ofDigitChars_ten_toDigits] at hread
    exact congrArg Int.ofNat hread
  | negSucc n =>
    have hsign : '-'∈formatInt m := h ▸ mem_cons_self
    exact absurd (isDigit_toDigits _ hsign) (by decide)

theorem accepted_scope {id : Int} (h : normalizePlanMembershipRules rules=.ok out) (hr : rule∈out)
    (hid : rule.scopeID=some id) : 0< id := by
  obtain ⟨⟨seen,all⟩,hall,h⟩ := bind_ok h
  cases h
  refine collect_forall (fun rule => ∀id∈rule.scopeID,0< id) ?_ hall rule
    ((mem_insertionSort _).mp hr) id hid
  intro seen rule seen' rule' hstep id hid
  unfold normalizePlanMembershipRule at hstep
  dsimp only at hstep
  split at hstep
  · cases hstep
  have hone (hpos : ∃id∈rule'.scopeID,0< id) : 0< id := by
    obtain ⟨id',hid',hpos⟩ := hpos
    cases hid.symm.trans hid'
    exact hpos
  split at hstep
  case h_6 hkind =>
    split_ifs at hstep
    cases hstep
    rw [PlanMembershipRule.scopeID,hkind] at hid
    cases hid
  case h_7 => cases hstep
  all_goals
    split_ifs at hstep with hpos
    cases hstep
    exact hone hpos

/-- An accepted scope that is spelled in another way matches nothing. -/
theorem accepted_scope_matches_iff {rules out : List PlanMembershipRule} {rule : PlanMembershipRule}
    {id : Int} (h : normalizePlanMembershipRules rules=.ok out) (hr : rule∈out)
    (hid : rule.scopeID=some id) :
    (∀node : AssignableNode,planMembershipRuleMatches rule node=true ↔ node.HasID rule.kind id) ↔
      rule.scopeKey=scopeText rule.kind id := by
  have hpos := accepted_scope h hr hid
  constructor
  · intro hall
    have hnode := hall ⟨nodeKeyOf "inbound" id,id,[id],id,"",id⟩
    unfold planMembershipRuleMatches AssignableNode.HasID at hnode
    unfold PlanMembershipRule.scopeID at hid
    unfold scopeText
    split at hid
    all_goals simp_all
  · intro hscope node
    unfold planMembershipRuleMatches AssignableNode.HasID
    unfold PlanMembershipRule.scopeID at hid
    rw [hscope]
    unfold scopeText
    split at hid
    all_goals simp_all [formatInt_inj]

theorem plain_scope_matches :
    normalizePlanMembershipRules [⟨1,"entry_server"," 7 "⟩]=.ok [⟨1,"entry_server","7"⟩] ∧
      ∀node : AssignableNode,
        planMembershipRuleMatches ⟨1,"entry_server","7"⟩ node=true ↔ node.entryServerID=7 :=
  have haccepted : normalizePlanMembershipRules [⟨1,"entry_server"," 7 "⟩]=
      .ok [⟨1,"entry_server","7"⟩] := by decide +kernel
  ⟨haccepted,(@accepted_scope_matches_iff _ _ _ 7 haccepted mem_cons_self (by decide +kernel)).mpr
    (by decide +kernel)⟩

theorem padded_scope_matches_nothing :
    normalizePlanMembershipRules [⟨1,"entry_server","07"⟩]=.ok [⟨1,"entry_server","07"⟩] ∧
      (PlanMembershipRule.mk 1 "entry_server" "07").scopeID=some 7 ∧
      planMembershipRuleMatches ⟨1,"entry_server","07"⟩ {entryServerID := 7}=false := by
  decide +kernel

end Oboard.Core
