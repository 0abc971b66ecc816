import Oboard.Activity.Pipeline

namespace Oboard.Activity

open Runs

inductive RiskError where
  | invalidPolicy
  | exceedsBudget
  | invalidSourceActivity
  | baselineTooLong
  | inactiveMinutes
  | dayTooLong
  | invalidIdentity
  | invalidQuality
  | invalidMinute (i : Nat)
  | invalidNovelty
  | tooManyResources
  | invalidResource
  | incompleteThresholds
  | invalidThresholds
  deriving DecidableEq

def windowMinutes : Nat := 30

def truncate (t unit : Int) : Int := t/unit*unit

def minuteNanos : Int := 60000000000

structure Scale where
  start : Int
  full : Int

structure Policy where
  version : String
  activitySources : Scale
  activityMinutes : Scale
  exposureSources : Scale
  sourceCapacity : Int
  minimumBytes : Nat
  minimumSlices : Int

def defaultPolicy : Policy := ⟨"account-risk-v1",⟨3,8⟩,⟨5,20⟩,⟨3,8⟩,32,16*1024,3⟩

def validScale (s : Scale) : Bool := 0≤ s.start && s.start<s.full

def Policy.valid (p : Policy) : Bool :=
  p.version≠"" && validScale p.activitySources && validScale p.activityMinutes &&
  validScale p.exposureSources && 1≤p.sourceCapacity && p.sourceCapacity≤32 &&
  p.activitySources.full≤p.sourceCapacity && p.exposureSources.full≤p.sourceCapacity &&
  p.activityMinutes.full≤windowMinutes && p.minimumBytes≠0 && 1≤p.minimumSlices &&
  p.minimumSlices≤12

example : defaultPolicy.valid=true := by decide

structure CountRange where
  lower : Int := 0
  upper : Int
  deriving DecidableEq

inductive EvidenceState where
  | satisfied
  | unsatisfied
  | unknown
  | other
  deriving DecidableEq

inductive ReasonCode where
  | validatedReport
  | notObserved
  | expectedStreamMissing
  | collectorCapabilityMissing
  | streamClockUnaligned
  | sourceCapacity
  | activityReportsStale
  | baselineNotReady
  | other (text : String)
  deriving DecidableEq

structure Dimension where
  state : EvidenceState
  reasonCode : ReasonCode
  deriving DecidableEq

def Dimension.yes : Dimension := ⟨.satisfied,.validatedReport⟩

def Dimension.unknown (reasonCode : ReasonCode) : Dimension := ⟨.unknown,reasonCode⟩

structure Quality where
  identityTrusted : Dimension := .yes
  sourceUsable : Dimension := .yes
  deduplicated : Dimension := .yes
  measurementValid : Dimension := .yes
  coverageComplete : Dimension := .yes
  timeAligned : Dimension := .yes
  sourceSetComplete : Dimension := .yes
  baselineReady : Dimension := .unknown .notObserved
  historyComplete : Dimension := .unknown .notObserved
  freshness : Dimension := .yes
  capabilitySupported : Dimension := .yes
  deriving DecidableEq

structure Minute where
  start : Int
  sources : CountRange
  deriving DecidableEq

inductive ResourceName where
  | requestRate
  | connections
  | trafficRate
  | other
  deriving DecidableEq

structure ResourceDimension where
  name : ResourceName
  unit : String
  value : Option Nat
  start : Option Nat
  full : Option Nat
  deriving DecidableEq

structure Features where
  accountID : Int
  activity : List Minute := []
  exposureActivity : List Minute := []
  novelRepeatedSources : CountRange := ⟨0,0⟩
  resources : List ResourceDimension := []
  dataRevision : Nat := 0
  evidenceCutoff : Int
  deriving DecidableEq

structure SourceActivity where
  sourceGroup : String
  bitmap : Nat
  bytes : Nat

structure Aggregation where
  sources : CountRange
  qualified : Nat
  overflow : Bool
  counterOverflow : Bool

section aggregate

variable (p : Policy)

def maxUint64 : Nat := 18446744073709551615

structure Grouped where
  groups : Table String SourceRow := ∅
  overflow : Bool := false
  counterOverflow : Bool := false

def SourceActivity.invalid (r : SourceActivity) : Bool :=
  r.sourceGroup="" || 128<r.sourceGroup.utf8ByteSize || r.bitmap &&& 0xf000≠0 ||
  (0<r.bytes && r.bitmap=0) || (r.bytes=0 && r.bitmap≠0)

def groupSource (g : Grouped) (r : SourceActivity) : Except RiskError Grouped :=
  if r.invalid then .error .invalidSourceActivity
  else
    let found := g.groups.lookup r.sourceGroup
    if found.isNone ∧ p.sourceCapacity≤g.groups.rows.length then .ok {g with overflow := true}
    else
      let old := found.getD ⟨0,0⟩
      let bits := old.bits ||| r.bitmap
      if maxUint64-old.bytes<r.bytes then
        .ok {g with groups := g.groups.insert r.sourceGroup ⟨maxUint64,bits⟩,counterOverflow := true}
      else .ok {g with groups := g.groups.insert r.sourceGroup ⟨old.bytes+r.bytes,bits⟩}

/-- In how many of the twelve slices of a minute there was activity. -/
def onesCount (bitmap : Nat) : Nat := ((List.range 16).filter bitmap.testBit).length

def qualifies (g : SourceRow) : Bool := p.minimumBytes≤g.bytes && p.minimumSlices≤onesCount g.bits

/-- The three largest counts, in descending order. -/
def insertTop : Nat×Nat×Nat → Nat → Nat×Nat×Nat
  | (a,b,c),n =>
    let (a,n) := if a<n then (n,a) else (a,n)
    let (b,n) := if b<n then (n,b) else (b,n)
    if c<n then (a,b,n) else (a,b,c)

def aggregateMinute (rows : List SourceActivity) (complete : Bool) :
    Except RiskError Aggregation := do
  if !p.valid then .error .invalidPolicy
  else if 65536<rows.length then .error .exceedsBudget
  else
    let g ← rows.foldlM (groupSource p) {}
    let qualified := (g.groups.rows.map (·.2)).filter (qualifies p)
    let counts := (List.range 12).map (fun j => (qualified.filter (·.bits.testBit j)).length)
    let third : Int := (counts.foldl insertTop (0,0,0)).2.2
    let bounded : Bool := complete && !g.overflow && !g.counterOverflow
    let upper := if bounded then third else max p.activitySources.full third
    .ok ⟨⟨third,upper⟩,qualified.length,g.overflow,g.counterOverflow⟩

end aggregate

section baseline

structure Baseline where
  ready : Bool := false
  limited : Bool := false
  validDays : Nat := 0
  activeMinutes : Nat := 0
  q95 : Nat := 0

def mergeDay (acc : Baseline×(Fin 33 → Nat)) (d : BaselineDay) :
    Except RiskError (Baseline×(Fin 33 → Nat)) :=
  let (b,merged) := acc
  let total := ((List.finRange 33).map d.histogram).sum
  if d.overflow then .ok ({b with limited := true},merged)
  else if d.histogram 0≠0 then .error .inactiveMinutes
  else if 1440<total then .error .dayTooLong
  else if total=0 then .ok (b,merged)
  else .ok ({b with validDays := b.validDays+1,activeMinutes := b.activeMinutes+total},
    fun i => merged i+d.histogram i)

def reaches (merged : Fin 33 → Nat) (target : Nat) : Nat :=
  ((List.finRange 33).find? (fun i =>
    target≤(((List.finRange 33).filter (·≤ i)).map merged).sum)).elim 0 (·.val)

def summarizeBaseline (days : List BaselineDay) : Except RiskError Baseline := do
  if 14<days.length then .error .baselineTooLong
  else
    let (b,merged) ← days.foldlM mergeDay ({},fun _ => 0)
    .ok {b with
      ready := 7≤b.validDays && 200≤b.activeMinutes
      q95 := reaches merged ((b.activeMinutes*95+99)/100)}

end baseline

section valid

theorem groupSource_ok (hr : r.invalid=false) (g) : ∃g',groupSource p g r=.ok g' := by
  rw [groupSource,if_neg (by rw [hr]; exact Bool.false_ne_true)]
  dsimp only
  split_ifs <;> exact ⟨_,rfl⟩

theorem aggregateMinute_ok (hp : p.valid=true) (hlength : rows.length≤65536)
    (hrows : ∀r∈rows,r.invalid=false) (complete) : ∃a,aggregateMinute p rows complete=.ok a := by
  obtain ⟨g,hg⟩ := foldlM_ok (fun r hr => groupSource_ok (p := p) (hrows r hr)) {}
  simp only [aggregateMinute,hp,hg,not_lt.mpr hlength]
  exact ⟨_,rfl⟩

end valid

end Oboard.Activity
