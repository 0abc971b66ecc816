import Oboard.Automation.Changesets
import Oboard.Framework.Runs

namespace Oboard.Automation

open GoText Runs

variable {Input : Type}

structure Approval where
  planHash : String
  approvedRisk : Int

/-- Where a call stands, with the row as the call read it. A call rests between two accesses to the
store. -/
inductive Phase (Input : Type) where
  | validateRead
  | validateWrite (item : Changeset Input)
  | approveRead
  | approveInsert (item : Changeset Input)
  | approveWrite (item : Changeset Input)
  | applyRead
  | applyCheck (item : Changeset Input)
  | applyClaim (item : Changeset Input)
  | settle (item : Changeset Input) (status : ChangesetStatus)
  | running (item : Changeset Input) (rest : List (Operation Input))
  | finish (item : Changeset Input) (status : ChangesetStatus)
  | done

inductive CallKind where
  | validate
  | approve
  | apply

def CallKind.start : CallKind → Phase Input
  | .validate => .validateRead
  | .approve => .approveRead
  | .apply => .applyRead

/-- What a run leaves in the record: approvals by policy, claims and handlers. -/
inductive Event (Input : Type) where
  | approvedAutomatically (planHash : String)
  | claimed (call : Nat)
  | ran (call : Nat) (plan : Plan Input)
  deriving DecidableEq

/-- One changeset, its approvals and all calls that were made on it. -/
structure Board (Input : Type) where
  row : Changeset Input
  approvals : List Approval := []
  calls : List (Principal×Phase Input) := []

/-- The update statement takes all its columns from the item and has no guard. -/
def updateAutomationChangeset (row item : Changeset Input) : Changeset Input :=
  {row with status := item.status,planHash := item.planHash,riskClass := item.riskClass}

def claimAutomationChangesetApply (row : Changeset Input) : Changeset Input×Bool :=
  if row.status=.approved then ({row with status := .applying},true) else (row,false)

structure Outcome (Input : Type) where
  row : Changeset Input
  approvals : List Approval := []
  phase : Phase Input
  events : List (Event Input) := []

def write (row item : Changeset Input) (phase : Phase Input) (events : List (Event Input) := []) :
    Outcome Input where
  row := updateAutomationChangeset row item
  phase := phase
  events := events

def read (row : Changeset Input) (phase : Phase Input) : Outcome Input where
  row := row
  phase := phase

section calls

variable (hash : Plan Input → String) (w : World Input) (principal : Principal)

def validateRead (row : Changeset Input) : Phase Input :=
  if !authorized principal row then .done
  else if row.expiresAt ≤ w.now then .settle row .expired
  else if !row.status.validatable then .done
  else .validateWrite row

def validateWrite (row item : Changeset Input) : Outcome Input :=
  match validatedRow w hash principal item with
  | .error _ => read row .done
  | .ok item =>
    if item.status=.approved then
      write row item .applyRead [.approvedAutomatically item.planHash]
    else write row item .done

def approveRead (row : Changeset Input) : Phase Input :=
  if !principal.interactive || principal.userID.isNone ||
      (principal.role≠.admin && principal.role≠.operator) then .done
  else if row.status≠.awaitingApproval || row.planHash="" then .done
  else if 4≤row.riskClass && !principal.role.hasManagementAccess then .done
  else .approveInsert row

def applyRead (row : Changeset Input) : Phase Input :=
  if !authorized principal row then .done
  else if row.status≠.approved then .done
  else if row.expiresAt ≤ w.now then .settle row .expired
  else if hash row.plan≠row.planHash then .settle row .superseded
  else .applyCheck row

def applyCheck (item : Changeset Input) : Phase Input :=
  match validateOperations w principal item,automaticAllowed w principal item with
  | .error _,_ => .settle item .superseded
  | .ok _,.error _ => .done
  | .ok _,.ok _ => .applyClaim item

/-- The handlers run in order up to the first that fails, or whose result cannot be stored. -/
def runNext (row item : Changeset Input) (call : Nat) : List (Operation Input) → Outcome Input
  | [] => read row (.finish item .succeeded)
  | op::rest => match w.handler op.capability with
    | none => read row (.finish item .failed)
    | some handler => match handler principal op.input with
      | .error _ => {read row (.finish item .failed) with events := [.ran call item.plan]}
      | .ok _ => {read row (.running item rest) with events := [.ran call item.plan]}

def advance (call : Nat) (row : Changeset Input) : Phase Input → Outcome Input
  | .validateRead => read row (validateRead w principal row)
  | .validateWrite item => validateWrite hash w principal row item
  | .approveRead => read row (approveRead principal row)
  | .approveInsert item =>
    {read row (.approveWrite item) with approvals := [⟨item.planHash,item.riskClass⟩]}
  | .approveWrite item => write row {item with status := .approved} .applyRead
  | .applyRead => read row (applyRead hash w principal row)
  | .applyCheck item => read row (applyCheck w principal item)
  | .applyClaim item =>
    let (claimed,ok) := claimAutomationChangesetApply row
    if ok then ⟨claimed,[],.running item item.plan.operations,[.claimed call]⟩
    else read row .done
  | .settle item status => write row {item with status := status} .done
  | .running item rest => runNext w principal row item call rest
  | .finish item status => write row {item with status := status} .done
  | .done => read row .done

end calls

/-- The schedule picks a call and the moment at which it accesses the store. A call may be cut off at
any point. -/
inductive Move (Input : Type) where
  | start (kind : CallKind) (principal : Principal)
  | advance (call : Nat) (w : World Input)
  | abandon (call : Nat)

def boardStep (hash : Plan Input → String) (b : Board Input) :
    Move Input → Board Input×List (Event Input)
  | .start kind principal => ({b with calls := b.calls++[(principal,kind.start)]},[])
  | .abandon call => match b.calls[call]? with
    | none => (b,[])
    | some (principal,_) => ({b with calls := b.calls.set call (principal,.done)},[])
  | .advance call w => match b.calls[call]? with
    | none => (b,[])
    | some (principal,phase) =>
      let o := advance hash w principal call b.row phase
      (⟨o.row,b.approvals++o.approvals,b.calls.set call (principal,o.phase)⟩,o.events)

end Oboard.Automation
