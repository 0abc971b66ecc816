import Oboard.Framework.Table
import Oboard.Framework.Word64
import Oboard.Framework.Runs
import Mathlib.Data.List.Sort

namespace Oboard.Core

open Word64

inductive ForwardProtocol where
  | tcp
  | udp
  | tcpUdp
  deriving DecidableEq

def forwardNetworkName : ForwardProtocol → String
  | .tcp => "tcp"
  | .udp => "udp"
  | .tcpUdp => "tcp_udp"

inductive AllocationState where
  | active
  | preparing
  | retiring
  deriving DecidableEq

def AllocationState.text : AllocationState → String
  | .active => "active"
  | .preparing => "preparing"
  | .retiring => "retiring"

structure PortKey where
  kind : String
  scopeKey : String
  serverID : Int
  deriving DecidableEq

/-- One row of proxy_path_port_allocations. A state text other than the three known ones is absent. -/
structure PortAllocation where
  id : Int := 0
  key : PortKey
  pool : String
  listenIP : String
  network : String
  generation : Int
  ordinal : Int
  port : Int
  state : Option AllocationState
  policyRevision : Int

def normalizeAllocationState (state : Option AllocationState) : AllocationState :=
  state.getD .active

/-- A listener that needs a port. The callbacks are given by what they return, allocate at each of
its calls and allocateOrdinal for each ordinal. -/
structure PortRequirement where
  key : PortKey
  pool : String
  listenIP : String
  network : ForwardProtocol
  policyRevision : Int
  allocate : Option (Nat → Int)
  allocateOrdinal : Option (Nat → Int) := none

namespace PortRequirement

section

variable (requirement : PortRequirement)

def metadataDiverges (stored : PortAllocation) : Bool :=
  stored.pool≠requirement.pool || stored.listenIP≠requirement.listenIP ||
    stored.network≠forwardNetworkName requirement.network

def correct (item : PortAllocation) : PortAllocation :=
  {item with
    pool := requirement.pool
    listenIP := requirement.listenIP
    network := forwardNetworkName requirement.network}

def row (generation : Int) (state : AllocationState) (ordinal : Nat)
    (port : Int) : PortAllocation where
  key := requirement.key
  pool := requirement.pool
  listenIP := requirement.listenIP
  network := forwardNetworkName requirement.network
  generation := generation
  ordinal := ordinal
  port := port
  state := some state
  policyRevision := requirement.policyRevision

/-- The port a first resolution asks for, allocate is only called when the ordinal gives none. -/
def firstPort : Int :=
  let port := requirement.allocateOrdinal.elim 0 (· 0)
  if port≤0 then requirement.allocate.elim port (· 0) else port

def candidate (ordinal : Nat) : Int :=
  match requirement.allocateOrdinal with
  | some allocate => allocate ordinal
  | none => requirement.allocate.elim 0 (· ordinal)

end

end PortRequirement

/-- One generation of a listener, its rows by ordinal. -/
structure PortGeneration where
  generation : Int
  state : AllocationState
  policyRevision : Int := 0
  ports : Table Int PortAllocation := ∅

namespace PortGeneration

section

variable (gen : PortGeneration)

def takeRow (best : Option PortAllocation) (ordinal : Int) : Option PortAllocation :=
  match best with
  | none => gen.ports.lookup ordinal
  | some row => if ordinal<row.ordinal then gen.ports.lookup ordinal else best

def primaryRow : Option PortAllocation :=
  (gen.ports.keys.insertionSort (· ≤ ·)).foldl gen.takeRow none

def setPort (row : PortAllocation) : PortGeneration :=
  {gen with ports := gen.ports.insert row.ordinal row}

def setState (state : AllocationState) : PortGeneration :=
  {gen with
    state := state
    ports := gen.ports.mapRows (fun _ row => {row with state := some state})}

end

variable (gen : PortGeneration)

@[simp] theorem setPort_state (row) : (gen.setPort row).state=gen.state := rfl

@[simp] theorem setPort_generation (row) : (gen.setPort row).generation=gen.generation := rfl

@[simp] theorem setState_state (state) : (gen.setState state).state=state := rfl

@[simp] theorem setState_generation (state) : (gen.setState state).generation=gen.generation := rfl

def rows (gen : PortGeneration) : List PortAllocation := gen.ports.rows.map Prod.snd

/-- A stored row joins its generation and decides its state. -/
def store (gen : PortGeneration) (item : PortAllocation) : PortGeneration :=
  {gen with
    state := normalizeAllocationState item.state
    policyRevision := max gen.policyRevision item.policyRevision
    ports := gen.ports.insert (if item.ordinal<0 then 0 else item.ordinal) item}

@[simp] theorem store_generation (item) : (gen.store item).generation=gen.generation := rfl

end PortGeneration

namespace PortRequirement

section

variable (requirement : PortRequirement)

def started (generation port : Int) : PortGeneration where
  generation := generation
  state := .active
  policyRevision := requirement.policyRevision
  ports := AList.singleton 0 (requirement.row generation .active 0 port)

def group (generation : Int) (ordinals : List Nat) : List PortAllocation :=
  ordinals.map (fun ordinal =>
    requirement.row generation .preparing ordinal (requirement.candidate ordinal))

def prepared (generation : Int) (ordinals : List Nat) : PortGeneration where
  generation := generation
  state := .preparing
  policyRevision := requirement.policyRevision
  ports := Table.putAll ∅ ((requirement.group generation ordinals).map (fun row => (row.ordinal,row)))

end

end PortRequirement

def groupOrdinals (count : Int) : List Nat := List.range (if count≤0 then 1 else count).toNat

def addGeneration (owner : List PortGeneration) (gen : PortGeneration) : List PortGeneration :=
  (owner++[gen]).insertionSort (fun a b => a.generation≤b.generation)

/-- A row without a generation belongs to the first one. -/
def generationNumber (item : PortAllocation) : Int :=
  if item.generation≤0 then 1 else item.generation

def storeRow (owner : List PortGeneration) (item : PortAllocation) : List PortGeneration :=
  let number := generationNumber item
  let place := owner.findIdx (fun gen => gen.generation=number)
  match owner[place]? with
  | some gen => owner.set place (gen.store item)
  | none => addGeneration owner (PortGeneration.store {generation := number,state := .active} item)

/-- Go integers wrap around. -/
def nextGeneration (owner : List PortGeneration) : Int :=
  owner.foldl (fun next gen =>
    if next≤gen.generation then wrap (gen.generation+1) else next) 1

def takeActive (active : Option (Nat×PortGeneration)) (entry : PortGeneration×Nat) :
    Option (Nat×PortGeneration) :=
  if entry.1.state≠.active then active
  else match active with
    | none => some (entry.2,entry.1)
    | some best => if best.2.generation<entry.1.generation then some (entry.2,entry.1) else active

section

variable (owner : List PortGeneration)

def activeGeneration : Option (Nat×PortGeneration) :=
  owner.zipIdx.foldl takeActive none

def generationByState (state : AllocationState) : Option (Nat×PortGeneration) :=
  let place := owner.findIdx (fun gen => gen.state=state)
  owner[place]?.map (fun gen => (place,gen))

def generationByNumber (number : Int) : Option (Nat×PortGeneration) :=
  (owner.zipIdx.filter (fun entry => entry.1.generation=number)).getLast?.map Prod.swap

end

structure PortLedger where
  owners : Table PortKey (List PortGeneration) := ∅
  pending : List PortAllocation := []
  removed : List Int := []

namespace PortLedger

variable (l : PortLedger)

def generations (key : PortKey) : List PortGeneration := (l.owners.lookup key).getD []

def ownerFor (key : PortKey) : PortLedger := {l with owners := l.owners.putNew (key,[])}

/-- The owner's generations and the rows to write back change together. -/
def update (key : PortKey) (owner : List PortGeneration) (rows : List PortAllocation) : PortLedger :=
  {l with owners := l.owners.insert key owner,pending := l.pending++rows}

end PortLedger

/-- Rows without a port are not loaded. -/
def newProxyPathPortLedger (allocations : List PortAllocation) : PortLedger :=
  allocations.foldl (fun l item =>
    if item.port≤0 then l
    else l.update item.key (storeRow (l.generations item.key) item) []) {}

namespace PortLedger

variable (l : PortLedger)

def resolve (requirement : PortRequirement) : PortLedger×Int :=
  let key := requirement.key
  let owner := l.generations key
  match activeGeneration owner with
  | some (place,gen) =>
    match gen.primaryRow with
    | none => (l.ownerFor key,0)
    | some item =>
      if requirement.metadataDiverges item then
        let corrected := requirement.correct item
        (l.update key (owner.set place (gen.setPort corrected)) [corrected],item.port)
      else (l.ownerFor key,item.port)
  | none =>
    let port := requirement.firstPort
    if port≤0 then (l.ownerFor key,0)
    else
      let gen := requirement.started (nextGeneration owner) port
      (l.update key (addGeneration owner gen) gen.rows,port)

/-- Every port of the group is probed before a row is recorded. -/
def allocatePreparing (requirement : PortRequirement) (count : Int) :
    PortLedger×Except String (List PortAllocation) :=
  let key := requirement.key
  let owner := l.generations key
  let ordinals := groupOrdinals count
  if activeGeneration owner=none then
    (l.ownerFor key,.error s!"owner {key.kind}/{key.scopeKey} on server {key.serverID} has no active generation to migrate")
  else match ordinals.find? (fun ordinal => requirement.candidate ordinal≤0) with
    | some ordinal =>
      (l.ownerFor key,.error s!"no port available in pool {requirement.pool} for {key.kind}/{key.scopeKey} generation {nextGeneration owner} ordinal {ordinal}")
    | none =>
      let rows := requirement.group (nextGeneration owner) ordinals
      (l.update key (addGeneration owner (requirement.prepared (nextGeneration owner) ordinals)) rows,
        .ok rows)

def lookupActive (key : PortKey) : Option Int :=
  match activeGeneration (l.generations key) with
  | none => none
  | some (_,gen) =>
    match gen.primaryRow with
    | none => none
    | some item => if item.port≤0 then none else some item.port

/-- The active generation is read before the preparing one takes its place. -/
def promotePreparing (key : PortKey) : PortLedger×Except String (List PortAllocation) :=
  match l.owners.lookup key with
  | none => (l,.error s!"owner {key.kind}/{key.scopeKey} on server {key.serverID} has no generations")
  | some owner =>
    match generationByState owner .preparing with
    | none => (l,.error s!"owner {key.kind}/{key.scopeKey} on server {key.serverID} has no preparing generation")
    | some (place,preparing) =>
      let promoted := preparing.setState .active
      match activeGeneration owner with
      | none => (l.update key (owner.set place promoted) promoted.rows,.ok promoted.rows)
      | some (old,active) =>
        let retired := active.setState .retiring
        let out := promoted.rows++retired.rows
        (l.update key ((owner.set place promoted).set old retired) out,.ok out)

def markActiveRetiring (key : PortKey) : PortLedger×Except String (List PortAllocation) :=
  match l.owners.lookup key with
  | none => (l,.error s!"owner {key.kind}/{key.scopeKey} on server {key.serverID} has no generations")
  | some owner =>
    match activeGeneration owner with
    | none => (l,.error s!"owner {key.kind}/{key.scopeKey} on server {key.serverID} has no active generation to retire")
    | some (place,active) =>
      let retired := active.setState .retiring
      (l.update key (owner.set place retired) retired.rows,.ok retired.rows)

/-- Row ids are reported for deletion once. -/
def deleteRetired (key : PortKey) (generation : Int) : PortLedger×Except String (List Int) :=
  match l.owners.lookup key with
  | none => (l,.error s!"owner {key.kind}/{key.scopeKey} on server {key.serverID} has no generations")
  | some owner =>
    match generationByNumber owner generation with
    | none => (l,.error s!"owner {key.kind}/{key.scopeKey} on server {key.serverID} has no generation {generation}")
    | some (place,target) =>
      if target.state≠.retiring then
        (l,.error s!"owner {key.kind}/{key.scopeKey} on server {key.serverID} generation {generation} is {target.state.text}, not retiring")
      else
        let ids := ((target.rows.map PortAllocation.id).filter
          (fun id => 0 < id && !l.removed.contains id)).dedup
        ({l with
          owners := l.owners.insert key (owner.eraseIdx place)
          removed := l.removed++ids},.ok ids)

end PortLedger

end Oboard.Core
