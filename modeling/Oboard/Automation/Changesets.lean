import Oboard.Framework.GoText
import Oboard.Framework.Table

namespace Oboard.Automation

open GoText

inductive Role where
  | admin
  | operator
  | viewer
  | none
  deriving DecidableEq

def Role.hasManagementAccess (role : Role) : Bool := role=.admin || role=.operator

inductive APIPrincipalType where
  | oauth
  | other
  deriving DecidableEq

structure Principal where
  id : String
  userID : Option Int := .none
  role : Role := .none
  interactive : Bool := false

/-- A value of a resource reference object: a list of ids, or the text of anything else. -/
inductive RefValue where
  | ids (values : List Int)
  | other (text : String)
  deriving DecidableEq

abbrev RefFields := List (String×RefValue)

/-- A stored filter: left out, not an object, or an object. -/
inductive ResourceFilter where
  | unrestricted
  | malformed
  | fields (fields : RefFields)

inductive ApprovalMode where
  | denied
  | required
  | automatic
  deriving DecidableEq

structure ApprovalPolicy where
  mode : ApprovalMode
  resourceFilter : ResourceFilter := .unrestricted
  allowRisk4 : Bool := false
  expiresAt : Option Time := none

inductive ResourceRef where
  | server (id : Int)
  | other (resourceType id : String)

inductive ChangesetStatus where
  | draft
  | validated
  | awaitingApproval
  | approved
  | applying
  | succeeded
  | failed
  | expired
  | superseded
  | rollbackFailed
  deriving DecidableEq

variable {Input : Type}

structure Operation (Input : Type) where
  capability : String
  input : Input
  resourceRefs : RefFields
  riskClass : Int
  deriving DecidableEq

abbrev Revisions := List (String×String)

structure Plan (Input : Type) where
  baseRevisions : Revisions
  operations : List (Operation Input)
  deriving DecidableEq

structure Changeset (Input : Type) where
  principalID : String
  status : ChangesetStatus
  planHash : String := ""
  riskClass : Int
  createdAt : Time
  expiresAt : Time
  plan : Plan Input

structure Descriptor (Input : Type) where
  riskClass : Int
  readOnly : Bool := false
  executable : Bool := true
  resolveResourceRefs : Option (Input → Except String (List ResourceRef)) := none

structure World (Input : Type) where
  now : Time
  authorize : Principal → String → Option (Descriptor Input)
  validator : String → Option (Principal → Input → Except String Unit)
  handler : String → Option (Principal → Input → Except String Unit)
  revisionResolver : String → Option (Principal → Input → Except String Revisions)
  serverCreatedAt : Int → Option Time
  principalType : String → Option APIPrincipalType
  policies : String → String → Option ApprovalPolicy

structure OperationRequest (Input : Type) where
  capability : String
  /-- The decoded input, if it is one JSON object. -/
  input : Option Input
  /-- The decoded references, empty if they are left out or null. -/
  resourceRefs : Option RefFields

structure CreateRequest (Input : Type) where
  idempotencyKey : String
  /-- The decoded revisions, if they are an object of strings. -/
  baseRevisions : Option Revisions
  operations : List (OperationRequest Input)

section create

variable (w : World Input) (principal : Principal)

def decodeRevisions (raw : Option Revisions) : Except String Revisions :=
  match raw with
  | none => .error "must be an object whose values are revision strings"
  | some revisions =>
    if revisions.any (fun r => trimSpace r.1="" || trimSpace r.2="") then
      .error "resource keys and revision values must not be empty"
    else .ok revisions

/-- The capability may be used in a changeset and this build can carry it out. -/
def changesetCapability (name : String) : Except String (Descriptor Input) :=
  match w.authorize principal name with
  | none => .error ("capability \""++name++"\" is not authorized for changesets")
  | some descriptor =>
    if descriptor.readOnly || !descriptor.executable then
      .error ("capability \""++name++"\" is not authorized for changesets")
    else if (w.validator name).isNone || (w.handler name).isNone then
      .error ("capability \""++name++"\" is not executable in this Controller build")
    else .ok descriptor

def createOperations : Nat → List (OperationRequest Input) → Except String (List (Operation Input))
  | _,[] => .ok []
  | position,requested::rest => do
    let descriptor ← changesetCapability w principal requested.capability
    let input ← match requested.input with
      | none => .error ("operation "++toString position++" input: input must be a JSON object")
      | some input => .ok input
    let refs ← match requested.resourceRefs with
      | none =>
        .error ("operation "++toString position++" resource_refs: input must be a JSON object")
      | some refs => .ok refs
    let rest ← createOperations (position+1) rest
    .ok (⟨requested.capability,input,refs,descriptor.riskClass⟩::rest)

def create (request : CreateRequest Input) : Except String (Changeset Input) := do
  let key := trimSpace request.idempotencyKey
  if key="" ∨ 128<key.utf8ByteSize then
    .error "idempotency_key is required and must not exceed 128 characters"
  else if request.operations=[] ∨ 64<request.operations.length then
    .error "changeset must contain between 1 and 64 operations"
  else
    let revisions ← match decodeRevisions request.baseRevisions with
      | .error e => .error ("base_revisions: "++e)
      | .ok revisions => .ok revisions
    let operations ← createOperations w principal 0 request.operations
    .ok {
      principalID := principal.id
      status := .draft
      riskClass := operations.foldl (fun risk op => max risk op.riskClass) 0
      createdAt := w.now
      expiresAt := w.now+1800*second
      plan := ⟨revisions,operations⟩}

end create

section validation

variable (w : World Input) (principal : Principal)

/-- A server that exists again since the changeset was created stands for another machine. -/
def checkReplaced (createdAt : Time) : List ResourceRef → Except String Unit
  | [] => .ok ()
  | .server id::rest =>
    if (w.serverCreatedAt id).any (fun at_ => createdAt<at_) then
      .error ("server "++toString id++" was replaced after this changeset was created")
    else checkReplaced createdAt rest
  | .other _ _::rest => checkReplaced createdAt rest

def checkRefs (createdAt : Time) (descriptor : Descriptor Input) (input : Input) :
    Except String Unit :=
  match descriptor.resolveResourceRefs with
  | none => .ok ()
  | some resolve =>
    if createdAt=0 then .ok ()
    else match resolve input with
      | .error e => .error e
      | .ok refs => checkReplaced w createdAt refs

def mergeRevisions : Revisions → Revisions → Except String Revisions
  | current,[] => .ok current
  | current,(key,revision)::rest =>
    match current.lookup key with
    | none => mergeRevisions ((key,revision)::current) rest
    | some existing =>
      if existing≠revision then
        .error ("resource \""++key++"\" resolved to conflicting revisions")
      else mergeRevisions current rest

def inspectOperation (createdAt : Time) (current : Revisions) (op : Operation Input) :
    Except String Revisions := do
  let descriptor ← match w.authorize principal op.capability with
    | none => .error ("operation capability \""++op.capability++"\" is no longer authorized")
    | some d =>
      if d.readOnly || !d.executable || d.riskClass≠op.riskClass then
        .error ("operation capability \""++op.capability++"\" is no longer authorized")
      else .ok d
  checkRefs w createdAt descriptor op.input
  match w.validator op.capability,w.handler op.capability with
  | some validate,some _ =>
    match validate principal op.input with
    | .error e => .error ("validate "++op.capability++": "++e)
    | .ok _ => match w.revisionResolver op.capability with
      | none => .ok current
      | some resolve => match resolve principal op.input with
        | .error e => .error ("resolve "++op.capability++" base revisions: "++e)
        | .ok resolved => mergeRevisions current resolved
  | _,_ => .error ("operation capability \""++op.capability++
      "\" is not executable in this Controller build")

def inspectOperations (createdAt : Time) :
    Revisions → List (Operation Input) → Except String Revisions
  | current,[] => .ok current
  | current,op::rest => do
    let current ← inspectOperation w principal createdAt current op
    inspectOperations createdAt current rest

def compareRevisions (expected current : Revisions) : Except String Unit :=
  if expected.length≠current.length then
    .error "base revisions do not cover the current resource set"
  else match current.find? (fun r => (expected.lookup r.1).getD ""≠r.2) with
    | some r => .error ("resource \""++r.1++"\" revision changed")
    | none => .ok ()

def validateOperations (item : Changeset Input) : Except String Unit := do
  let expected ← decodeRevisions (some item.plan.baseRevisions)
  let current ← inspectOperations w principal item.createdAt [] item.plan.operations
  compareRevisions expected current

end validation

section policies

variable (w : World Input)

def valueAllowed : RefValue → RefValue → Bool
  | .ids allowed,.ids actual => actual.all (fun id => allowed.contains id)
  | .other allowed,.other actual => allowed=actual
  | _,_ => false

/-- Only the fields that the filter names are looked at. -/
def approvalFilterAllows (filter : ResourceFilter) (refs : RefFields) : Bool :=
  match filter with
  | .unrestricted => true
  | .malformed => false
  | .fields fields => fields.all (fun f => (refs.lookup f.1).any (valueAllowed f.2))

def getApprovalPolicy (principalID capability : String) : Option ApprovalPolicy :=
  (w.policies principalID capability).filter (fun policy => policy.expiresAt.all (w.now<·))

def ApprovalPolicy.approves (policy : ApprovalPolicy) (oauth : Bool) (op : Operation Input) : Bool :=
  policy.mode=.automatic && !(4≤op.riskClass && (oauth || !policy.allowRisk4)) &&
    approvalFilterAllows policy.resourceFilter op.resourceRefs

def policiesAllowAutomatic (principalID : String) (oauth : Bool) :
    List (Operation Input) → Except String Bool
  | [] => .ok true
  | op::rest =>
    match getApprovalPolicy w principalID op.capability with
    | none => (policiesAllowAutomatic principalID oauth rest).map (fun _ => false)
    | some policy =>
      if policy.mode=.denied then
        .error ("approval policy denies capability \""++op.capability++"\"")
      else (policiesAllowAutomatic principalID oauth rest).map (policy.approves oauth op && ·)

section

variable (principal : Principal) (item : Changeset Input)

def automaticAllowed : Except String Bool :=
  if principal.interactive then
    policiesAllowAutomatic w item.principalID false item.plan.operations
  else match w.principalType item.principalID with
    | none => .error "sql: no rows in result set"
    | some type =>
      policiesAllowAutomatic w item.principalID (type=.oauth) item.plan.operations

def authorized : Bool :=
  item.principalID=principal.id || (principal.interactive && principal.role.hasManagementAccess)

end

def ChangesetStatus.validatable (status : ChangesetStatus) : Bool :=
  status=.draft || status=.validated || status=.awaitingApproval

section

variable (hash : Plan Input → String) (principal : Principal) (item : Changeset Input)

def validatedRow : Except String (Changeset Input) := do
  validateOperations w principal item
  let automatic ← automaticAllowed w principal item
  .ok {item with
    planHash := hash item.plan
    status := if automatic then .approved else .awaitingApproval}

def validate : Except String (Changeset Input) :=
  if !authorized principal item then .error "sql: no rows in result set"
  else if item.expiresAt ≤ w.now then .error "changeset expired"
  else if !item.status.validatable then
    .error "changeset cannot be validated in its current state"
  else validatedRow w hash principal item

end

end policies

end Oboard.Automation
