import Oboard.Framework.GoJson
import Oboard.Framework.Ascending
import Mathlib.Data.String.Basic

namespace Oboard.Mcpauth

open GoText GoNumbers GoJson Ascending

structure ResourceRef where
  resourceType : String
  id : String

structure ResourceSelection where
  selection : String := ""
  ids : List String := []
  includeFuture : Bool := false
  allowCreate : Bool := false

structure ResourceBoundary where
  version : Int := 0
  resources : Table String ResourceSelection := ∅
  globalCapabilities : List String := []
  destructiveOperations : Bool := false

structure SelectionDraft where
  selection : String := ""
  ids : Slice String := {}
  includeFuture : Bool := false
  allowCreate : Bool := false

def SelectionDraft.field (d : SelectionDraft) (key : String) (j : Json) : Option SelectionDraft :=
  match key with
  | "selection" => (decodeString d.selection j).map (fun v => {d with selection := v})
  | "ids" => (decodeSlice decodeString "" d.ids j).map (fun v => {d with ids := v})
  | "include_future" => (decodeBool d.includeFuture j).map (fun v => {d with includeFuture := v})
  | "allow_create" => (decodeBool d.allowCreate j).map (fun v => {d with allowCreate := v})
  | _ => some d

def SelectionDraft.finish (d : SelectionDraft) : ResourceSelection :=
  ⟨d.selection,d.ids.toList,d.includeFuture,d.allowCreate⟩

def decodeSelection (j : Json) : Option ResourceSelection :=
  (decodeStruct SelectionDraft.field {} j).map SelectionDraft.finish

structure BoundaryDraft where
  version : Int := 0
  resources : Table String ResourceSelection := ∅
  globalCapabilities : Slice String := {}
  destructiveOperations : Bool := false

def BoundaryDraft.field (d : BoundaryDraft) (key : String) (j : Json) : Option BoundaryDraft :=
  match key with
  | "version" => (decodeInt d.version j).map (fun v => {d with version := v})
  | "resources" => (decodeMap decodeSelection d.resources j).map (fun v => {d with resources := v})
  | "global_capabilities" =>
    (decodeSlice decodeString "" d.globalCapabilities j).map (fun v => {d with globalCapabilities := v})
  | "destructive_operations" =>
    (decodeBool d.destructiveOperations j).map (fun v => {d with destructiveOperations := v})
  | _ => some d

def BoundaryDraft.finish (d : BoundaryDraft) : ResourceBoundary :=
  ⟨d.version,d.resources,d.globalCapabilities.toList,d.destructiveOperations⟩

def decodeBoundary (j : Json) : Option ResourceBoundary :=
  (decodeStruct BoundaryDraft.field {} j).map BoundaryDraft.finish

def ResourceSelection.normalized (sel : ResourceSelection) : ResourceSelection :=
  {sel with selection := toLower (trimSpace sel.selection),ids := sortUnique sel.ids}

def resourceBoundaryVersion : Int := 1

def ResourceBoundary.normalized (b : ResourceBoundary) : ResourceBoundary :=
  {b with
    version := if b.version=0 then resourceBoundaryVersion else b.version
    resources := b.resources.mapRows (fun _ sel => sel.normalized)
    globalCapabilities := b.globalCapabilities.insertionSort (· ≤ ·)}

def ResourceSelection.rejects (sel : ResourceSelection) (id : String) : Bool :=
  match sel.selection with
  | "all" => !sel.includeFuture && sel.ids≠[] && id∉sel.ids
  | "selected" => id∉sel.ids
  | _ => true

/-- The rejected references. An unknown resource type is rejected. -/
def ResourceBoundary.denied (b : ResourceBoundary) (refs : List ResourceRef) : List ResourceRef :=
  refs.filter (fun ref =>
    match b.resources.lookup ref.resourceType with
    | none => true
    | some sel => sel.rejects ref.id)

def ResourceBoundary.allowsResource (b : ResourceBoundary) (ref : ResourceRef) : Bool :=
  (b.denied [ref]).length=0

/-- Missing and invalid input is an empty boundary. -/
def parseBoundary : Document → ResourceBoundary
  | .empty => {version := resourceBoundaryVersion}
  | .invalid => {version := resourceBoundaryVersion}
  | .value _ j =>
    match decodeBoundary j with
    | none => {version := resourceBoundaryVersion}
    | some b => b.normalized

section

variable (sel : ResourceSelection)

def legacyIDs : List Int :=
  (sel.ids.filterMap scanInt64).insertionSort (· ≤ ·)

def legacyMode : String :=
  if sel.selection≠"all" ∧ sel.selection≠"none" then "selected" else sel.selection

/-- The encoder writes the members of a map by key. -/
def legacySelection : Json :=
  .obj [("allow_create",.bool sel.allowCreate),
    ("ids",.arr ((legacyIDs sel).map (fun id => .num (formatInt id)))),
    ("mode",.str false (legacyMode sel))]

end

def legacyMember (b : ResourceBoundary) (key resourceType : String) : List (String×Json) :=
  match b.resources.lookup resourceType with
  | none => []
  | some sel => [(key,legacySelection sel)]

def legacyFilter (b : ResourceBoundary) : Json :=
  .obj (("destructive_operations",.bool b.destructiveOperations)::
    (legacyMember b "proxy_paths" "proxy_path"++legacyMember b "servers" "server"++
      legacyMember b "subscription_plans" "subscription_plan"++legacyMember b "users" "user"))

def legacyResourceFilterJSON (b : ResourceBoundary) : Document := .value true (legacyFilter b)

end Oboard.Mcpauth
