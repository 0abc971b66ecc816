import Mathlib.Data.Rat.Floor
import Oboard.Activity.AuditRisk

namespace Oboard.Activity

open Runs

structure Versions where
  model : String
  baseline : String
  source : String

structure Contribution where
  sources : Int
  minutes : Int
  sourceThresholds : Scale
  durationThresholds : Scale

inductive ScoreStatus where
  | complete
  | range

inductive Level where
  | low
  | medium
  | high
  | veryHigh
  | uncertain

structure Score where
  lower : Int
  upper : Int
  status : ScoreStatus
  level : Level
  lowerContribution : Option Contribution := none
  upperContribution : Option Contribution := none

inductive SnapshotStatus where
  | notEvaluable
  | evaluated
  | stale

inductive BlockReason where
  | behaviorAlertOnly
  | dimension (reasonCode : ReasonCode)
  | evidenceNotFresh

structure RiskSnapshot where
  accountID : Int
  activity : Option Score := none
  exposure : Option Score := none
  resource : Option Score := none
  attention : Option Score := none
  quality : Quality
  features : Features
  policy : Policy
  versions : Versions
  asOf : Int
  windowStart : Int
  windowEnd : Int
  status : SnapshotStatus := .notEvaluable
  automaticActionEligible : Bool := false
  actionBlockReasons : List BlockReason := [.behaviorAlertOnly]

section scores

def normalized (x : Int) (s : Scale) : ℚ :=
  if x≤ s.start then 0
  else if s.full≤x then 1
  else ((x-s.start : Int) : ℚ)/((s.full-s.start : Int) : ℚ)

/-- A fraction in percent, rounded half up. -/
def halfUp (r : ℚ) : Int := (r.num*200+r.den).tdiv (r.den*2)

def level (n : Int) : Level :=
  if 90≤n then .veryHigh else if 70≤n then .high else if 40≤n then .medium else .low

def score (lo hi : ℚ) : Score :=
  if lo≠hi then ⟨halfUp lo,halfUp hi,.range,.uncertain,none,none⟩
  else ⟨halfUp lo,halfUp hi,.complete,level (halfUp lo),none,none⟩

variable (p : Policy)

def busyMinutes (bound : CountRange → Int) (minutes : List Minute) (k : Int) : Nat :=
  (minutes.filter (fun m => k≤bound m.sources)).length

def thresholds : List Int :=
  (List.range (p.activitySources.full-p.activitySources.start).toNat).map
    (fun i : Nat => p.activitySources.start+1+i)

section

variable (bound : CountRange → Int) (minutes : List Minute)

def activityAt (k : Int) : ℚ :=
  normalized k p.activitySources*normalized (busyMinutes bound minutes k) p.activityMinutes

/-- The best product of sources and duration, with the first threshold that reaches it. -/
def activity : ℚ×Option Contribution :=
  (thresholds p).foldl (fun best k =>
    if best.1<activityAt p bound minutes k then
      (activityAt p bound minutes k,
        some ⟨k,busyMinutes bound minutes k,p.activitySources,p.activityMinutes⟩)
    else best) (0,none)

end

def activityBounds (minutes : List Minute) : ℚ×ℚ×Score :=
  let lo := activity p CountRange.lower minutes
  let hi := activity p CountRange.upper minutes
  (lo.1,hi.1,{score lo.1 hi.1 with lowerContribution := lo.2,upperContribution := hi.2})

def exposure (n : Int) (m : ℚ) : ℚ := (1+m)/2*normalized n p.exposureSources

end scores

section resources

def resourceFraction (value start full : Nat) : ℚ :=
  if full≤value then 1
  else if start<value then ((value-start : Nat) : ℚ)/((full-start : Nat) : ℚ)
  else 0

/-- The range so far, how many dimensions are known, and the names that were seen. -/
structure ResourceRange where
  lo : ℚ := 0
  hi : ℚ := 0
  known : Nat := 0
  seen : List ResourceName := []

def addResource (acc : ResourceRange) (d : ResourceDimension) : Except RiskError ResourceRange :=
  if d.name=.other ∨ d.unit="" ∨ d.name∈acc.seen then .error .invalidResource
  else
    let acc := {acc with seen := d.name::acc.seen}
    match d.start,d.full with
    | some _,none | none,some _ => .error .incompleteThresholds
    | none,none => .ok {acc with hi := 1}
    | some start,some full =>
      if full≤ start then .error .invalidThresholds
      else match d.value with
        | none => .ok {acc with hi := 1}
        | some value =>
          let r := resourceFraction value start full
          .ok {acc with lo := max acc.lo r,hi := max acc.hi r,known := acc.known+1}

def resource (dimensions : List ResourceDimension) : Except RiskError (Option Score) := do
  if 3<dimensions.length then .error .tooManyResources
  else
    let acc ← dimensions.foldlM addResource {}
    if acc.known=0 then .ok none
    else .ok (some (score acc.lo (if dimensions.length<3 then 1 else acc.hi)))

end resources

section evaluate

def Quality.dimensions (q : Quality) : List Dimension :=
  [q.identityTrusted,q.sourceUsable,q.deduplicated,q.measurementValid,q.coverageComplete,q.timeAligned,
    q.sourceSetComplete,q.baselineReady,q.historyComplete,q.freshness,q.capabilitySupported]

def Dimension.valid (d : Dimension) : Bool := d.state≠.other && d.reasonCode≠.other ""

def zeroTime : Int := -62135596800*1000000000

def validMinute (end_ : Int) (capacity : Int) (i : Nat) (m : Minute) : Bool :=
  m.start=end_+((i : Int)-windowMinutes)*minuteNanos && 0≤ m.sources.lower &&
  m.sources.lower≤ m.sources.upper && m.sources.upper≤capacity

def validateMinutes (minutes : List Minute) (end_ : Int) (capacity : Int) : Except RiskError Unit :=
  match minutes.zipIdx.find? (fun m => !validMinute end_ capacity m.2 m.1) with
  | some m => .error (.invalidMinute m.2)
  | none => .ok ()

variable (f : Features) (q : Quality) (p : Policy) (v : Versions) (asOf : Int)

/-- The dimensions without which nothing is evaluated. -/
def Quality.required (q : Quality) : List Dimension :=
  [q.identityTrusted,q.sourceUsable,q.deduplicated,q.measurementValid,q.timeAligned]

/-- An unsupported collection can have seen anything. -/
def activityMinutes : List Minute :=
  if q.capabilitySupported.state=.unsatisfied then
    f.activity.map (fun m => {m with sources := ⟨0,p.activitySources.full⟩})
  else f.activity

def exposureActivityBounds : ℚ×ℚ :=
  if q.capabilitySupported.state=.unsatisfied then (0,1)
  else ((activityBounds p f.exposureActivity).1,(activityBounds p f.exposureActivity).2.1)

def novelSources : CountRange :=
  if q.historyComplete.state≠.satisfied then ⟨0,p.exposureSources.full⟩ else f.novelRepeatedSources

def assess (resource : Option Score) : RiskSnapshot :=
  let windowEnd := truncate asOf minuteNanos
  let s : RiskSnapshot := {
    accountID := f.accountID
    resource := resource
    quality := q
    features := f
    policy := p
    versions := v
    asOf := asOf
    windowStart := windowEnd-windowMinutes*minuteNanos
    windowEnd := windowEnd}
  match q.required.find? (·.state≠.satisfied) with
  | some d => {s with actionBlockReasons := s.actionBlockReasons++[.dimension d.reasonCode]}
  | none =>
    let a := activityBounds p (activityMinutes f q p)
    let m := exposureActivityBounds f q p
    let el := exposure p (novelSources f q p).lower m.1
    let eh := exposure p (novelSources f q p).upper m.2
    let s := {s with
      activity := some a.2.2
      exposure := some (score el eh)
      attention := some (score (max a.1 el) (max a.2.1 eh))
      status := .evaluated}
    if q.freshness.state≠.satisfied then
      let reasons := s.actionBlockReasons++[.evidenceNotFresh]
      {s with status := .stale,actionBlockReasons := reasons}
    else s

def evaluate : Except RiskError RiskSnapshot := do
  let windowEnd := truncate asOf minuteNanos
  if !p.valid then .error .invalidPolicy
  else if f.accountID≤0 ∨ asOf=zeroTime ∨ v.model="" ∨ v.baseline="" ∨ v.source="" ∨
      f.evidenceCutoff=zeroTime ∨ asOf<f.evidenceCutoff then .error .invalidIdentity
  else if !q.dimensions.all Dimension.valid then .error .invalidQuality
  else
    validateMinutes f.activity windowEnd p.sourceCapacity
    validateMinutes f.exposureActivity windowEnd p.sourceCapacity
    let n := f.novelRepeatedSources
    if n.lower<0 ∨ n.upper<n.lower ∨ p.sourceCapacity<n.upper then .error .invalidNovelty
    else
      let r ← resource f.resources
      .ok (assess f q p v asOf r)

end evaluate

end Oboard.Activity
