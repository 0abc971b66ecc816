import Mathlib.Data.List.Induction
import Oboard.Framework.GoText

namespace Oboard.Controller

open List GoText

inductive ConnectivityEventKind where
  | probeEnabled
  | probeDisabled
  | probeTargetChanged
  | probeResult
  | serverOffline
  | controllerConnected
  | controllerDisconnected
  deriving DecidableEq

structure ConnectivityEvent where
  kind : ConnectivityEventKind
  effectiveAt : Time
  available : Option Bool := none
  latencyMS : Int := 0
  error : String := ""
  source : String := ""

inductive ConnectivityAvailability where
  | unknown
  | available
  | unavailable
  deriving DecidableEq

/-- The empty cause is `unset`. -/
inductive ConnectivityCause where
  | unset
  | controllerDisconnected
  | probeSuccess
  | probeFailed
  | serverOffline
  | controllerConnected
  | controllerUpdate
  deriving DecidableEq

@[ext] structure ConnectivityState where
  probeEnabled : Bool := false
  probeEnabledKnown : Bool := false
  controllerConnected : Bool := false
  controllerConnectionKnown : Bool := false
  controllerUpdate : Bool := false
  availability : ConnectivityAvailability := .unknown
  cause : ConnectivityCause := .unset
  lastProbe : Option (Time×Int×String) := none
  deriving DecidableEq

namespace ConnectivityState

/-- What the three settings events do. Only a changed target leaves an offline server alone. -/
def setProbe (s : ConnectivityState) (enabled keepsOffline : Bool) : ConnectivityState :=
  let s := {s with probeEnabledKnown := true,probeEnabled := enabled,lastProbe := none}
  if s.controllerConnectionKnown ∧ !s.controllerConnected then
    {s with availability := .unavailable,cause := .controllerDisconnected}
  else if !s.controllerConnectionKnown ∧ ¬(keepsOffline ∧ s.cause=.serverOffline) then
    {s with availability := .unknown,cause := .unset}
  else s

def applyConnectivityEvent (s : ConnectivityState) (event : ConnectivityEvent) :
    ConnectivityState :=
  match event.kind with
  | .probeEnabled => s.setProbe true false
  | .probeDisabled => s.setProbe false false
  | .probeTargetChanged => s.setProbe true true
  | .probeResult =>
    let s := {s with
      probeEnabledKnown := true
      probeEnabled := true
      controllerUpdate := false
      lastProbe := some (event.effectiveAt,event.latencyMS,event.error)}
    if s.controllerConnectionKnown ∧ s.controllerConnected then
      {s with availability := .available,cause := .controllerConnected}
    else if event.available=some true then
      {s with availability := .available,cause := .probeSuccess}
    else {s with availability := .unavailable,cause := .probeFailed}
  | .serverOffline =>
    if !s.controllerUpdate ∧ !s.controllerConnectionKnown ∧ s.probeEnabledKnown ∧
        s.probeEnabled then
      {s with availability := .unavailable,cause := .serverOffline}
    else s
  | .controllerConnected =>
    {s with
      controllerConnectionKnown := true
      controllerConnected := true
      controllerUpdate := false
      availability := .available
      cause := .controllerConnected}
  | .controllerDisconnected =>
    if event.source="controller_update" then
      {s with
        controllerConnected := false
        controllerConnectionKnown := false
        controllerUpdate := true
        availability := .unknown
        cause := .controllerUpdate}
    else
      {s with
        controllerConnected := false
        controllerConnectionKnown := true
        controllerUpdate := false
        availability := .unavailable
        cause := .controllerDisconnected}

/-- What the flags say about the cause, whatever happened. -/
structure Sound (s : ConnectivityState) : Prop where
  connected : s.controllerConnectionKnown → s.controllerConnected →
    s.availability=.available ∧ s.cause=.controllerConnected
  offline : s.cause=.serverOffline → s.availability=.unavailable ∧
    s.controllerConnectionKnown=false ∧ s.controllerUpdate=false ∧ s.probeEnabled
  known : s.probeEnabled → s.probeEnabledKnown

theorem Sound.step (h : s.Sound) (event) : (applyConnectivityEvent s event).Sound := by
  cases h
  unfold applyConnectivityEvent setProbe
  split <;> constructor <;> grind -linarith

def SameController (s s' : ConnectivityState) : Prop :=
  s.controllerConnected=s'.controllerConnected ∧
    s.controllerConnectionKnown=s'.controllerConnectionKnown

def SameProbe (s s' : ConnectivityState) : Prop :=
  s.probeEnabled=s'.probeEnabled ∧ s.probeEnabledKnown=s'.probeEnabledKnown ∧
    s.lastProbe=s'.lastProbe

/-- What stays alike between a history and the same without the events of one kind. -/
def Alike (kind : ConnectivityEventKind) (s s' : ConnectivityState) : Prop :=
  match kind with
  | .probeEnabled | .probeDisabled =>
    SameController s s' ∧ s.controllerUpdate=s'.controllerUpdate
  | .probeTargetChanged => SameController s s' ∧ s.controllerUpdate=s'.controllerUpdate ∧
    (s'.probeEnabled → s.probeEnabled) ∧
    (s'.cause=.serverOffline ↔ s.cause=.serverOffline ∧ s'.probeEnabled)
  | .probeResult => SameController s s'
  | .serverOffline => SameProbe s s' ∧ SameController s s' ∧
    s.controllerUpdate=s'.controllerUpdate ∧ (s.availability=s'.availability ∧ s.cause=s'.cause ∨
      s.controllerUpdate=false ∧ s.controllerConnectionKnown=false ∧ s.probeEnabled)
  | .controllerConnected | .controllerDisconnected => SameProbe s s'

section alike

variable {s s' : ConnectivityState} {target : ConnectivityEvent} (hs : s.Sound) (hs' : s'.Sound)
include hs hs'

theorem Alike.step (h : Alike kind s s') (event : ConnectivityEvent) :
    Alike kind (applyConnectivityEvent s event)
      (if event.kind=kind then s' else applyConnectivityEvent s' event) := by
  cases hs
  cases hs'
  cases kind
  all_goals
    simp only [Alike,SameController,SameProbe] at h ⊢
    unfold applyConnectivityEvent setProbe
    split <;> grind -linarith

/-- The next event of the kind removes the difference, unless it is a changed target. -/
theorem Alike.apply_eq (h : Alike event.kind s s') (hk : event.kind≠.probeTargetChanged) :
    applyConnectivityEvent s' event=applyConnectivityEvent s event := by
  cases hs
  cases hs'
  unfold applyConnectivityEvent setProbe
  split
  all_goals
    rename_i hkind
    simp only [hkind,Alike,SameController,SameProbe] at h
    ext1 <;> grind -linarith

variable (h : Alike .probeTargetChanged s s') (hk : target.kind=.probeTargetChanged)
include h hk

/-- A changed target leaves a difference only on a server that is offline. -/
theorem Alike.target_eq_iff :
    applyConnectivityEvent s' target=applyConnectivityEvent s target ↔
      ¬((applyConnectivityEvent s target).cause=.serverOffline ∧ s'.probeEnabled=false) := by
  cases hs
  cases hs'
  simp only [Alike,SameController] at h
  unfold applyConnectivityEvent setProbe
  rw [hk,ConnectivityState.ext_iff]
  grind -linarith

/-- Any other event afterwards removes that one too. -/
theorem Alike.target_apply (event : ConnectivityEvent) (he : event.kind≠.probeTargetChanged) :
    applyConnectivityEvent (applyConnectivityEvent s' target) event=
      applyConnectivityEvent (applyConnectivityEvent s target) event := by
  cases hs
  cases hs'
  simp only [Alike,SameController] at h
  unfold applyConnectivityEvent setProbe
  rw [hk]
  split <;> ext1 <;> grind -linarith

end alike

def connectivityOf (events : List ConnectivityEvent) : ConnectivityState :=
  events.foldl applyConnectivityEvent {}

theorem connectivityOf_concat (events event) :
    connectivityOf (events++[event])=applyConnectivityEvent (connectivityOf events) event := by
  simp [connectivityOf]

theorem sound_connectivityOf (events) : (connectivityOf events).Sound := by
  induction events using reverseRecOn with
  | nil => exact ⟨nofun,nofun,nofun⟩
  | append_singleton events event ih =>
    rw [connectivityOf_concat]
    exact ih.step event

theorem alike_filter (kind) (events : List ConnectivityEvent) :
    Alike kind (connectivityOf events) (connectivityOf (events.filter (·.kind≠kind))) := by
  induction events using reverseRecOn with
  | nil => cases kind <;> simp [Alike,SameController,SameProbe,connectivityOf]
  | append_singleton events event ih =>
    have hstep := ih.step (sound_connectivityOf _) (sound_connectivityOf _) event
    rw [filter_append,connectivityOf_concat]
    by_cases hk : event.kind=kind <;> simpa [hk,connectivityOf_concat] using hstep

end ConnectivityState

open ConnectivityState

/-- The latest event of each kind, in event order. -/
def latestOfKinds : List ConnectivityEvent → List ConnectivityEvent
  | [] => []
  | event::later =>
    if later.any (·.kind=event.kind) then latestOfKinds later else event::latestOfKinds later

theorem latestOfKinds_concat (events : List ConnectivityEvent) (last) :
    latestOfKinds (events++[last])=
      latestOfKinds (events.filter (·.kind≠last.kind))++[last] := by
  induction events with
  | nil => rfl
  | cons event later ih =>
    by_cases hk : event.kind=last.kind
    · simp [latestOfKinds,hk,ih]
    · have hany : (later++[last]).any (·.kind=event.kind)=
          (later.filter (·.kind≠last.kind)).any (·.kind=event.kind) := by
        rw [Bool.eq_iff_iff]
        grind
      rw [cons_append,filter_cons_of_pos (by simpa using hk),latestOfKinds,latestOfKinds,hany,ih]
      split_ifs <;> rfl

theorem connectivityOf_latest_concat (events : List ConnectivityEvent) (last) :
    connectivityOf (latestOfKinds (events++[last]))=
      applyConnectivityEvent (connectivityOf (events.filter (·.kind≠last.kind))) last := by
  induction hn : events.length using Nat.strongRecOn generalizing events last with
  | _ n ih =>
    rw [latestOfKinds_concat,connectivityOf_concat]
    rcases eq_nil_or_concat' (events.filter (·.kind≠last.kind)) with hnil | ⟨front,event,heq⟩
    · rw [hnil]
      rfl
    have hlen := length_filter_le (fun e : ConnectivityEvent => decide (e.kind≠last.kind)) events
    have hkind : event.kind≠last.kind := by
      have hmem : event∈events.filter (·.kind≠last.kind) := by rw [heq]; simp
      simpa using (mem_filter.mp hmem).2
    rw [heq] at hlen ⊢
    rw [ih front.length (by simp at hlen; omega) front event rfl,connectivityOf_concat]
    have halike := alike_filter event.kind front
    have hs := sound_connectivityOf front
    have hs' := sound_connectivityOf (front.filter (·.kind≠event.kind))
    by_cases ht : event.kind=.probeTargetChanged
    · rw [ht] at halike hs' ⊢
      exact halike.target_apply hs hs' ht last (by rwa [ht,ne_comm] at hkind)
    · rw [halike.apply_eq hs hs' ht]

/-- The events of a server before an instant, in event order. -/
def eventsBefore (history : List ConnectivityEvent) (t : Time) : List ConnectivityEvent :=
  history.filter (·.effectiveAt<t)

/-- A changed target came last, the server is offline, and without the changed targets its probe
is not enabled. -/
def OfflineByTarget (events : List ConnectivityEvent) : Prop :=
  events.getLast?.any (·.kind=.probeTargetChanged) ∧
  (connectivityOf events).cause=.serverOffline ∧
  (connectivityOf (events.filter (·.kind≠.probeTargetChanged))).probeEnabled=false

/-- The last event of each kind tells the connectivity of a moment unless the probe target was
changed while the server was offline. -/
theorem remembered_events_suffice_iff (history : List ConnectivityEvent) (t : Time) :
    connectivityOf (latestOfKinds (eventsBefore history t))=
      connectivityOf (eventsBefore history t) ↔ ¬OfflineByTarget (eventsBefore history t) := by
  unfold OfflineByTarget
  rcases eq_nil_or_concat' (eventsBefore history t) with hnil | ⟨front,last,heq⟩
  · simp [hnil,latestOfKinds]
  have halike := alike_filter last.kind front
  have hs := sound_connectivityOf front
  have hs' := sound_connectivityOf (front.filter (·.kind≠last.kind))
  rw [heq,connectivityOf_latest_concat,connectivityOf_concat]
  by_cases ht : last.kind=.probeTargetChanged
  · rw [ht] at halike hs' ⊢
    rw [halike.target_eq_iff hs hs' ht]
    simp [ht]
  · rw [halike.apply_eq hs hs' ht]
    simp [ht]

/-- The first changed target let the server go offline, the second one replaces it. -/
theorem target_change_forgets_offline :
    let history : List ConnectivityEvent :=
      [⟨.probeTargetChanged,1,none,0,"",""⟩,⟨.serverOffline,2,none,0,"",""⟩,
       ⟨.probeTargetChanged,3,none,0,"",""⟩]
    (connectivityOf (eventsBefore history 4)).availability=.unavailable ∧
    (connectivityOf (latestOfKinds (eventsBefore history 4))).availability=.unknown := by
  decide

end Oboard.Controller
