import Oboard.Store.TrafficMigration

namespace Oboard.Store

open GoText Word64 Runs

structure TrafficPeriodRequest where
  userID : Int
  periodKey : String
  startedAt : Time
  endsAt : Time
  limitBytes : Int
  int64 : Fits limitBytes

def TrafficPeriodRequest.key (request : TrafficPeriodRequest) : PeriodKey :=
  ⟨request.userID,request.periodKey⟩

/-- The fields of a traffic report without counter stream. -/
structure UsageReport where
  reportID : String
  serverID : Int
  userID : Int
  inboundID : Option Int
  pathID : Option Int
  periodKey : String
  upload : Int
  download : Int

def UsageReport.key (report : UsageReport) : PeriodKey := ⟨report.userID,report.periodKey⟩

def UsageReport.row (report : UsageReport) : ReportRow :=
  ⟨⟨report.serverID,"","","",report.periodKey⟩,report.userID,report.inboundID,report.pathID,
    report.upload,report.download,0,0,0,0⟩

def UsageReport.skipped (report : UsageReport) : Prop :=
  trimSpace report.reportID="" ∨ report.userID≤0 ∨ report.upload<0 ∨ report.download<0

instance (report : UsageReport) : Decidable report.skipped :=
  inferInstanceAs (Decidable (_ ∨ _))

-- The stored limit decides whether there is a quota, the incoming one how large it is.
def trafficPeriodConflictState (row : PeriodRow) (limit : Int) : PeriodState :=
  if 0<row.trafficLimitBytes ∧ limit ≤ sqlAdd row.uploadBytes row.downloadBytes then .quotaExceeded
  else .active

def TrafficPeriodRequest.newRow (request : TrafficPeriodRequest) : PeriodRow :=
  ⟨request.startedAt,request.endsAt,0,0,request.limitBytes,.active⟩

/-- The row after the conflict branch of the window upsert. -/
def TrafficPeriodRequest.apply (request : TrafficPeriodRequest) (row : PeriodRow) : PeriodRow :=
  {row with
    startedAt := request.startedAt
    endsAt := request.endsAt
    trafficLimitBytes := request.limitBytes
    state := trafficPeriodConflictState row request.limitBytes}

def trafficPeriodNeedsWrite (stored : PeriodRow) (request : TrafficPeriodRequest) : Bool :=
  stored.startedAt≠request.startedAt || stored.endsAt≠request.endsAt ||
  stored.trafficLimitBytes≠request.limitBytes ||
  stored.state≠(if 0<stored.trafficLimitBytes ∧
    request.limitBytes≤wrap (stored.uploadBytes+stored.downloadBytes) then .quotaExceeded
    else .active)

namespace Ledger

def trafficPeriodUpsert (l : Ledger) (request : TrafficPeriodRequest) :
    Except TrafficError (Ledger×Unit) :=
  if request.userID∉l.users then .error .constraintFailed
  else
    match l.periods.lookup request.key with
    | none => .ok ({l with periods := l.periods.insert request.key request.newRow},())
    | some row =>
      if row.startedAt≠request.startedAt ∨ row.endsAt≠request.endsAt ∨
          row.trafficLimitBytes≠request.limitBytes ∨
          row.state≠trafficPeriodConflictState row request.limitBytes then
        .ok ({l with periods := l.periods.insert request.key (request.apply row)},())
      else .ok (l,())

def getTrafficPeriod (l : Ledger) (k : PeriodKey) : Except TrafficError PeriodRow :=
  match l.periods.lookup k with
  | none => .error .noRows
  | some row =>
    if Fits row.uploadBytes ∧ Fits row.downloadBytes then .ok row else .error .columnNotInteger

/-- The write is committed before the row is read back. -/
def ensureTrafficPeriod (l : Ledger) (request : TrafficPeriodRequest) :
    Ledger×Except TrafficError PeriodRow :=
  match l.trafficPeriodUpsert request with
  | .error e => (l,.error e)
  | .ok (l',_) => (l',l'.getTrafficPeriod request.key)

def wantedPeriods (requests : List TrafficPeriodRequest) : Table Int String :=
  requests.foldl (fun wanted request => wanted.putNew (request.userID,request.periodKey)) ∅

-- All rows of the users are read, those of other periods too.
def loadTrafficPeriodsFor (l : Ledger) (requests : List TrafficPeriodRequest) :
    Except TrafficError (Int → Option PeriodRow) :=
  let wanted := wantedPeriods requests
  if l.periods.rows.any (fun e => 0<e.1.userID && wanted.keys.contains e.1.userID &&
      ¬(Fits e.2.uploadBytes ∧ Fits e.2.downloadBytes)) then .error .columnNotInteger
  else .ok (fun userID => if userID≤0 then none
    else (wanted.lookup userID).bind (fun key => l.periods.lookup ⟨userID,key⟩))

def settleRequest (stored : Int → Option PeriodRow)
    (acc : Table Int PeriodRow×List TrafficPeriodRequest) (request : TrafficPeriodRequest) :
    Table Int PeriodRow×List TrafficPeriodRequest :=
  if request.userID∈acc.1 then acc
  else
    match stored request.userID with
    | none => (acc.1,acc.2++[request])
    | some current =>
      if trafficPeriodNeedsWrite current request then (acc.1,acc.2++[request])
      else (acc.1.insert request.userID current,acc.2)

def readPeriod (l : Ledger) (out : Table Int PeriodRow) (request : TrafficPeriodRequest) :
    Except TrafficError (Table Int PeriodRow×Unit) := do
  let row ← l.getTrafficPeriod request.key
  return (out.insert request.userID row,())

def ensureTrafficPeriods (l : Ledger) (requests : List TrafficPeriodRequest) :
    Ledger×Except TrafficError (Table Int PeriodRow) :=
  match l.loadTrafficPeriodsFor requests with
  | .error e => (l,.error e)
  | .ok stored =>
    let (out,pending) := requests.foldl (settleRequest stored) (∅,[])
    match collect trafficPeriodUpsert l pending with
    | .error e => (l,.error e)
    | .ok (l',_) => (l',(collect l'.readPeriod out pending).map Prod.fst)

def addTrafficReport (l : Ledger) (report : UsageReport) :
    Except TrafficError (Ledger×Option String) :=
  if report.skipped then .ok (l,none)
  else if report.reportID∈l.reports then .ok (l,some report.reportID)
  else
    match l.insertTrafficReport report.reportID report.row with
    | none => .error .constraintFailed
    | some l =>
      let periods := l.periods.modify report.key (addUsage report.upload report.download)
      .ok (consume {l with periods} ⟨report.serverID,report.userID,report.periodKey⟩
        (wrap (report.upload+report.download)),some report.reportID)

def addTrafficReports (l : Ledger) (reports : List UsageReport) (period : TrafficPeriod) :
    Except TrafficError (Ledger×List String) :=
  if reports=[] then .ok (l,[])
  else do
    let l ← l.upsertPeriod period
    let (l,accepted) ← collect addTrafficReport l reports
    let (l,_) ← l.refreshUsedBytes ⟨period.userID,period.periodKey⟩
    return (l,accepted.reduceOption)

inductive PeriodCall where
  | ensure (request : TrafficPeriodRequest)
  | ensureAll (requests : List TrafficPeriodRequest)
  | addReports (reports : List UsageReport) (period : TrafficPeriod)
  | event (event : LedgerEvent)

/-- One call that writes traffic_periods. A failed transaction leaves the ledger as it was. -/
def periodStep (l : Ledger) : PeriodCall → Ledger×List (Int×TrafficReport)
  | .ensure request => ((l.ensureTrafficPeriod request).1,[])
  | .ensureAll requests => ((l.ensureTrafficPeriods requests).1,[])
  | .addReports reports period =>
    (keepOnError l ((l.addTrafficReports reports period).map Prod.fst),[])
  | .event event => l.eventStep event

end Ledger

end Oboard.Store
