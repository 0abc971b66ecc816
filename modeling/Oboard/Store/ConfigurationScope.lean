import Oboard.Store.ConfigurationIntents

namespace Oboard.Store

/-- The columns of an inbound that its configuration trigger compares. -/
structure InboundRow where
  serverID : Int
  name : String := ""
  protocol : String := ""
  listenIP : String := ""
  port : Int := 0
  advertisePort : Option Int := none
  entryIPMode : String := ""
  externalIP : String := ""
  dnsSyncEnabled : Bool := false
  dnsCredentialID : Option Int := none
  dnsDomain : String := ""
  dnsProxyEnabled : Bool := false
  dnsRecordTypes : String := ""
  ddnsRecordID : Option Int := none
  tls : Bool := false
  configJSON : String := ""
  enabled : Bool := true

/-- The columns of a path that scopes and foreign keys read. -/
structure PathRow where
  inboundID : Option Int
  enabled : Bool
  branchSourceStepID : Option Int := none

structure StepRow where
  pathID : Int
  serverID : Option Int
  inboundID : Option Int

/-- Routing rules go with the paths and steps they name. -/
structure RuleRow where
  serverID : Int
  targetServerID : Option Int := none
  proxyPathID : Option Int := none
  stageStepID : Option Int := none
  targetProxyPathID : Option Int := none

/-- The tables of the topology, with the intents their triggers write. -/
structure TopologyDb extends IntentTable where
  servers : List Int
  inbounds : Table Int InboundRow := ∅
  paths : Table Int PathRow := ∅
  steps : Table Int StepRow := ∅
  rules : Table Int RuleRow := ∅

structure ConfigurationScopeSeeds where
  servers : List (Option Int) := []
  inbounds : List (Option Int) := []
  paths : List (Option Int) := []

inductive RowEvent where
  | insert
  | update
  | delete

def RowEvent.text : RowEvent → String
  | insert => "insert"
  | update => "update"
  | delete => "delete"

namespace TopologyDb

variable (db : TopologyDb)

def hostOf (inboundID : Int) : Option Int := (db.inbounds.lookup inboundID).map (·.serverID)

/-- Servers of the steps, of the inbounds the steps target and of the root inbounds. -/
def chainServersOfPaths (paths : List Int) : List Int :=
  db.steps.rows.filterMap (fun row => if row.2.pathID∈paths then row.2.serverID else none)++
  db.steps.rows.filterMap (fun row =>
    if row.2.pathID∈paths then row.2.inboundID.bind db.hostOf else none)++
  db.paths.rows.filterMap (fun row => if row.1∈paths then row.2.inboundID.bind db.hostOf else none)

def pathsThrough (inbounds : List Int) : List Int :=
  db.paths.rows.filterMap (fun row =>
    if row.2.inboundID.any (fun id => inbounds.contains id) then some row.1 else none)++
  db.steps.rows.filterMap (fun row =>
    if row.2.inboundID.any (fun id => inbounds.contains id) then some row.2.pathID else none)

/-- Servers that must converge again, read from the tables as they are when the trigger runs. -/
def configurationScopeServerSelect (seeds : ConfigurationScopeSeeds) : List Int :=
  let inbounds := seeds.inbounds.filterMap id
  seeds.servers.filterMap id++inbounds.filterMap db.hostOf++
    db.chainServersOfPaths (db.pathsThrough inbounds)++
    db.chainServersOfPaths (seeds.paths.filterMap id)

def recordScope (source stamp : String) (t : IntentTable) (servers : List Int) : IntentTable :=
  (servers.filter (fun id => 0 < id)).foldl (fun t id =>
    t.writeIntent ⟨source,.explicitIDs,id⟩ stamp) t

def recordScopes (source stamp : String) (t : IntentTable)
    (images : List ConfigurationScopeSeeds) : IntentTable :=
  images.foldl (fun t seeds =>
    recordScope source stamp t (db.configurationScopeServerSelect seeds)) t

/-- A configuration trigger: the revision moves on and the scopes of the row images are recorded
at it. -/
def fire (table : String) (event : RowEvent) (stamp : String)
    (images : List ConfigurationScopeSeeds) : TopologyDb :=
  let moved : IntentTable := {db.toIntentTable with revision := db.revision+1}
  {db with toIntentTable := db.recordScopes (table++"."++event.text) stamp moved images}

end TopologyDb

section seeds

def inboundSeeds (id : Int) : ConfigurationScopeSeeds := {inbounds := [some id]}

def pathSeeds (id : Int) : ConfigurationScopeSeeds := {paths := [some id]}

def stepSeeds (row : StepRow) : ConfigurationScopeSeeds where
  servers := [row.serverID]
  inbounds := [row.inboundID]
  paths := [some row.pathID]

def ruleSeeds (row : RuleRow) : ConfigurationScopeSeeds where
  servers := [some row.serverID,row.targetServerID]
  paths := [row.proxyPathID,row.targetProxyPathID]

end seeds

/-- The update trigger of the inbounds looks at these columns. -/
def InboundRow.changed (old new : InboundRow) : Bool :=
  old.serverID≠new.serverID || old.name≠new.name || old.protocol≠new.protocol ||
  old.listenIP≠new.listenIP || old.port≠new.port ||
  old.advertisePort.getD 0≠new.advertisePort.getD 0 || old.entryIPMode≠new.entryIPMode ||
  old.externalIP≠new.externalIP || old.dnsSyncEnabled≠new.dnsSyncEnabled ||
  old.dnsCredentialID.getD 0≠new.dnsCredentialID.getD 0 || old.dnsDomain≠new.dnsDomain ||
  old.dnsProxyEnabled≠new.dnsProxyEnabled || old.dnsRecordTypes≠new.dnsRecordTypes ||
  old.ddnsRecordID.getD 0≠new.ddnsRecordID.getD 0 || old.tls≠new.tls ||
  old.configJSON≠new.configJSON || old.enabled≠new.enabled

/-- SQLite visits the references to a table in an order that depends on when the tables were
created. -/
structure ActionOrder where
  pathsBeforeSteps : Bool
  stepsBeforeRules : Bool
  branchesBeforeRules : Bool

namespace TopologyDb

variable (stamp : String) (db : TopologyDb)

def enabledPath (pathID : Int) : Bool := (db.paths.lookup pathID).any (·.enabled)

def keysWhere {ρ : Type} (t : Table Int ρ) (p : ρ → Bool) : List Int :=
  (t.rows.filter (fun row => p row.2)).map Prod.fst

def deleteRule (id : Int) : TopologyDb :=
  match db.rules.lookup id with
  | none => db
  | some row =>
    fire {db with rules := db.rules.erase id} "routing_rules" .delete stamp [ruleSeeds row]

def deleteRules (p : RuleRow → Bool) : TopologyDb :=
  (keysWhere db.rules p).foldl (deleteRule stamp) db

def clearBranch (id : Int) : TopologyDb :=
  match db.paths.lookup id with
  | none => db
  | some row =>
    let db := {db with paths := db.paths.insert id {row with branchSourceStepID := none}}
    if row.enabled then db.fire "proxy_paths" .update stamp [pathSeeds id,pathSeeds id] else db

def clearBranches (stepID : Int) : TopologyDb :=
  (keysWhere db.paths (fun row => row.branchSourceStepID=some stepID)).foldl (clearBranch stamp) db

def stepActions (order : ActionOrder) (id : Int) : TopologyDb :=
  if order.branchesBeforeRules then
    (db.clearBranches stamp id).deleteRules stamp (fun row => row.stageStepID=some id)
  else (db.deleteRules stamp (fun row => row.stageStepID=some id)).clearBranches stamp id

def deleteStep (order : ActionOrder) (id : Int) : TopologyDb :=
  match db.steps.lookup id with
  | none => db
  | some row =>
    let db := stepActions stamp {db with steps := db.steps.erase id} order id
    if db.enabledPath row.pathID then db.fire "proxy_path_steps" .delete stamp [stepSeeds row]
    else db

def deleteSteps (order : ActionOrder) (pathID : Int) : TopologyDb :=
  (keysWhere db.steps (fun row => row.pathID=pathID)).foldl (fun db id => db.deleteStep stamp order id)
    db

def deletePathRules (id : Int) : TopologyDb :=
  db.deleteRules stamp (fun row => row.proxyPathID=some id || row.targetProxyPathID=some id)

def pathActions (order : ActionOrder) (id : Int) : TopologyDb :=
  if order.stepsBeforeRules then (db.deleteSteps stamp order id).deletePathRules stamp id
  else (db.deletePathRules stamp id).deleteSteps stamp order id

def deletePath (order : ActionOrder) (id : Int) : TopologyDb :=
  match db.paths.lookup id with
  | none => db
  | some row =>
    let db := pathActions stamp {db with paths := db.paths.erase id} order id
    if row.enabled then db.fire "proxy_paths" .delete stamp [pathSeeds id] else db

def deletePaths (order : ActionOrder) (inboundID : Int) : TopologyDb :=
  (keysWhere db.paths (fun row => row.inboundID=some inboundID)).foldl
    (fun db id => db.deletePath stamp order id) db

def clearTarget (id : Int) : TopologyDb :=
  match db.steps.lookup id with
  | none => db
  | some row =>
    let new := {row with inboundID := none}
    let db := {db with steps := db.steps.insert id new}
    if db.enabledPath row.pathID then
      db.fire "proxy_path_steps" .update stamp [stepSeeds row,stepSeeds new]
    else db

def clearTargets (inboundID : Int) : TopologyDb :=
  (keysWhere db.steps (fun row => row.inboundID=some inboundID)).foldl (clearTarget stamp) db

def inboundActions (order : ActionOrder) (id : Int) : TopologyDb :=
  if order.pathsBeforeSteps then (db.deletePaths stamp order id).clearTargets stamp id
  else (db.clearTargets stamp id).deletePaths stamp order id

def references : Bool :=
  db.inbounds.rows.all (fun row => db.servers.contains row.2.serverID) &&
  db.paths.rows.all (fun row => row.2.inboundID.all (fun id => (db.inbounds.lookup id).isSome) &&
    row.2.branchSourceStepID.all (fun id => (db.steps.lookup id).isSome)) &&
  db.steps.rows.all (fun row => (db.paths.lookup row.2.pathID).isSome &&
    row.2.serverID.all (fun id => db.servers.contains id) &&
    row.2.inboundID.all (fun id => (db.inbounds.lookup id).isSome)) &&
  db.rules.rows.all (fun row => db.servers.contains row.2.serverID &&
    row.2.targetServerID.all (fun id => db.servers.contains id) &&
    row.2.proxyPathID.all (fun id => (db.paths.lookup id).isSome) &&
    row.2.stageStepID.all (fun id => (db.steps.lookup id).isSome) &&
    row.2.targetProxyPathID.all (fun id => (db.paths.lookup id).isSome))

end TopologyDb

/-- One statement on one row. An update may give the row another id. -/
inductive TopologyStatement where
  | insertInbound (id : Int) (row : InboundRow)
  | updateInbound (id newID : Int) (row : InboundRow)
  | deleteInbound (id : Int)
  | insertPath (id : Int) (row : PathRow)
  | updatePath (id newID : Int) (row : PathRow)
  | deletePath (id : Int)
  | insertStep (id : Int) (row : StepRow)
  | updateStep (id newID : Int) (row : StepRow)
  | deleteStep (id : Int)

namespace TopologyDb

/-- A new row, refused where its id is taken. -/
def inserted {ρ : Type} (t : Table Int ρ) (id : Int) (row : ρ) : Option (Table Int ρ) :=
  if (t.lookup id).isSome then none else some (t.insert id row)

/-- A changed row, refused where it is missing or its new id is taken. -/
def replaced {ρ : Type} (t : Table Int ρ) (id newID : Int) (row : ρ) : Option (Table Int ρ) :=
  if (t.lookup id).isNone ∨ (newID≠id ∧ (t.lookup newID).isSome) then none
  else some ((t.erase id).insert newID row)

def erased {ρ : Type} (t : Table Int ρ) (id : Int) : Option (Table Int ρ) :=
  if (t.lookup id).isSome then some (t.erase id) else none

/-- The row has changed and the foreign keys have acted. A statement without a row changes
nothing and is none. -/
def applied (order : ActionOrder) (stamp : String) (db : TopologyDb) :
    TopologyStatement → Option TopologyDb
  | .insertInbound id row => (inserted db.inbounds id row).map (fun t => {db with inbounds := t})
  | .updateInbound id newID row =>
    (replaced db.inbounds id newID row).map (fun t => {db with inbounds := t})
  | .deleteInbound id => (erased db.inbounds id).map (fun t =>
      inboundActions stamp {db with inbounds := t} order id)
  | .insertPath id row => (inserted db.paths id row).map (fun t => {db with paths := t})
  | .updatePath id newID row => (replaced db.paths id newID row).map (fun t => {db with paths := t})
  | .deletePath id => (erased db.paths id).map (fun t => pathActions stamp {db with paths := t} order id)
  | .insertStep id row => (inserted db.steps id row).map (fun t => {db with steps := t})
  | .updateStep id newID row => (replaced db.steps id newID row).map (fun t => {db with steps := t})
  | .deleteStep id => (erased db.steps id).map (fun t => stepActions stamp {db with steps := t} order id)

/-- The trigger of the changed row, with the scopes of the images it reads, if its condition holds
after the change. -/
def trigger (db after : TopologyDb) :
    TopologyStatement → Option (String×RowEvent×List ConfigurationScopeSeeds)
  | .insertInbound id _ => some ("inbounds",.insert,[inboundSeeds id])
  | .updateInbound id newID row =>
    if (db.inbounds.lookup id).any (fun old => old.changed row) then
      some ("inbounds",.update,[inboundSeeds id,inboundSeeds newID]) else none
  | .deleteInbound id => some ("inbounds",.delete,[inboundSeeds id])
  | .insertPath id row =>
    if row.enabled then some ("proxy_paths",.insert,[pathSeeds id]) else none
  | .updatePath id newID row =>
    if (db.paths.lookup id).any (·.enabled) || row.enabled then
      some ("proxy_paths",.update,[pathSeeds id,pathSeeds newID]) else none
  | .deletePath id =>
    if (db.paths.lookup id).any (·.enabled) then some ("proxy_paths",.delete,[pathSeeds id])
    else none
  | .insertStep _ row =>
    if after.enabledPath row.pathID then some ("proxy_path_steps",.insert,[stepSeeds row]) else none
  | .updateStep id _ row =>
    match db.steps.lookup id with
    | none => none
    | some old =>
      if after.enabledPath old.pathID || after.enabledPath row.pathID then
        some ("proxy_path_steps",.update,[stepSeeds old,stepSeeds row]) else none
  | .deleteStep id =>
    match db.steps.lookup id with
    | none => none
    | some old =>
      if after.enabledPath old.pathID then some ("proxy_path_steps",.delete,[stepSeeds old])
      else none

/-- A whole statement. A foreign key that names nothing at its end rolls it back. -/
def exec (order : ActionOrder) (stamp : String) (db : TopologyDb) (stmt : TopologyStatement) :
    Option TopologyDb :=
  match db.applied order stamp stmt with
  | none => none
  | some after =>
    if !after.references then none
    else match db.trigger after stmt with
      | none => some after
      | some (table,event,images) => some (after.fire table event stamp images)

end TopologyDb

end Oboard.Store
