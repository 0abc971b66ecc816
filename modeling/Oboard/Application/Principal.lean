import Oboard.Mcpauth.Boundary

namespace Oboard.Application

open GoText GoNumbers GoJson Mcpauth

/-- A selection of a resource filter while it is decoded, and afterwards. -/
structure FilterSelection where
  mode : String := ""
  ids : Slice Int := {}
  allowCreate : Bool := false

def FilterSelection.field (d : FilterSelection) (key : String) (j : Json) : Option FilterSelection :=
  match key with
  | "mode" => (decodeString d.mode j).map (fun v => {d with mode := v})
  | "ids" => (decodeSlice decodeInt 0 d.ids j).map (fun v => {d with ids := v})
  | "allow_create" => (decodeBool d.allowCreate j).map (fun v => {d with allowCreate := v})
  | _ => some d

def decodeFilterSelection : Option FilterSelection → Json → Option (Option FilterSelection) :=
  decodePointer (decodeStruct FilterSelection.field) {}

def decodeSettings : Option (Slice String) → Json → Option (Option (Slice String)) :=
  decodePointer (decodeStruct (fun sections key j =>
    match key with
    | "allowed_sections" => decodeSlice decodeString "" sections j
    | _ => some sections)) {}

structure ResourceFilter where
  servers : Option FilterSelection := none
  users : Option FilterSelection := none
  proxyPaths : Option FilterSelection := none
  subscriptionPlans : Option FilterSelection := none
  settings : Option (Slice String) := none
  destructiveOperations : Bool := false

def ResourceFilter.field (f : ResourceFilter) (key : String) (j : Json) : Option ResourceFilter :=
  match key with
  | "servers" => (decodeFilterSelection f.servers j).map (fun v => {f with servers := v})
  | "users" => (decodeFilterSelection f.users j).map (fun v => {f with users := v})
  | "proxy_paths" => (decodeFilterSelection f.proxyPaths j).map (fun v => {f with proxyPaths := v})
  | "subscription_plans" =>
    (decodeFilterSelection f.subscriptionPlans j).map (fun v => {f with subscriptionPlans := v})
  | "settings" => (decodeSettings f.settings j).map (fun v => {f with settings := v})
  | "destructive_operations" =>
    (decodeBool f.destructiveOperations j).map (fun v => {f with destructiveOperations := v})
  | _ => some f

def decodeFilter (j : Json) : Option ResourceFilter := decodeStruct ResourceFilter.field {} j

/-- The empty texts leave a principal unrestricted, other spellings of them do not. -/
def emptyFilterUnrestricted : Document → Bool
  | .empty => true
  | .value true (.obj []) => true
  | .value true .null => true
  | _ => false

def ResourceFilter.selection (f : ResourceFilter) (resource : String) : Option FilterSelection :=
  match resource with
  | "server_ids" => f.servers
  | "user_ids" => f.users
  | "proxy_path_ids" => f.proxyPaths
  | "subscription_plan_ids" => f.subscriptionPlans
  | _ => none

def FilterSelection.allows (sel : FilterSelection) (id : Int) : Bool :=
  match toLower (trimSpace sel.mode) with
  | "all" => true
  | "selected" => id∈sel.ids.toList
  | _ => false

/-- The flat arrays of older service accounts. -/
def flatAllows (j : Json) (resource : String) (id : Int) : Bool :=
  match (rawMap j).bind (·.lookup resource) with
  | none => false
  | some raw =>
    match decodeSlice decodeInt 0 {} raw with
    | none => false
    | some ids => id∈ids.toList

def allowsInt64 (filter : Document) (resource : String) (id : Int) : Bool :=
  emptyFilterUnrestricted filter ||
  match filter with
  | .value _ j =>
    match decodeFilter j with
    | none => false
    | some canonical =>
      match canonical.selection resource with
      | some sel => sel.allows id
      | none => flatAllows j resource id
  | _ => false

end Oboard.Application
