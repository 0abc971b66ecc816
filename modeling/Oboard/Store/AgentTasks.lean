import Oboard.Framework.Table

namespace Oboard.Store

inductive TaskStatus where
  | pending
  | running
  | succeeded
  | failed
  | rollbackFailed
  deriving DecidableEq

def TaskStatus.isOpen : TaskStatus → Bool
  | .pending | .running => true
  | _ => false

inductive AgentTaskType where
  | applyDeployment
  | applyCoreConfig
  | other
  deriving DecidableEq

/-- One row of agent_tasks. The flag is read from the payload of a deployment. -/
structure AgentTask where
  serverID : Int
  taskType : AgentTaskType
  configVersion : Int
  status : TaskStatus
  forceRefresh : Bool := false
  deriving DecidableEq

def AgentTask.configures (task : AgentTask) (serverID version : Int) : Bool :=
  task.serverID=serverID && task.taskType≠.other && task.configVersion=version

end Oboard.Store
