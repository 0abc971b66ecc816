import Oboard.Application.Principal

namespace Oboard.Application

open GoText GoNumbers GoJson Mcpauth List Option

inductive ProjectedType where
  | server
  | user
  | proxyPath
  | subscriptionPlan

def ProjectedType.name : ProjectedType → String
  | .server => "server"
  | .user => "user"
  | .proxyPath => "proxy_path"
  | .subscriptionPlan => "subscription_plan"

def ProjectedType.filterKey : ProjectedType → String
  | .server => "server_ids"
  | .user => "user_ids"
  | .proxyPath => "proxy_path_ids"
  | .subscriptionPlan => "subscription_plan_ids"

section decoding

structure Projects (sel : Mcpauth.ResourceSelection) (d : FilterSelection) : Prop where
  mode : d.mode=legacyMode sel
  ids : d.ids.toList=legacyIDs sel

theorem decode_legacySelection :
    ∃d,decodeFilterSelection none (legacySelection sel)=some (some d) ∧ Projects sel d := by
  have hints : ∀id∈legacyIDs sel,∀old,decodeInt old (.num (formatInt id))=some id := by
    intro id hid _
    obtain ⟨raw,-,hraw⟩ := mem_filterMap.mp ((mem_insertionSort _).mp hid)
    exact parseInt_formatInt (scanInt64_fits hraw)
  obtain ⟨ids,hids,hlist⟩ := decodeSlice_map 0 hints
  refine ⟨⟨legacyMode sel,ids,sel.allowCreate⟩,?_,rfl,by simpa using hlist⟩
  have hfold : foldName "allow_create"="allow_create" ∧ foldName "ids"="ids" ∧
      foldName "mode"="mode" := by decide
  simp only [decodeFilterSelection,legacySelection,decodePointer,decodeStruct,foldlM_cons,
    foldlM_nil,hfold.1,hfold.2.1,hfold.2.2,FilterSelection.field,decodeBool,decodeString,
    map_some,bind_eq_bind,bind_some,getD_none,hids]
  rfl

def ProjectsMember (b : ResourceBoundary) (resourceType : String) (d : Option FilterSelection) : Prop :=
  match b.resources.lookup resourceType with
  | none => d=none
  | some sel => ∃s,d=some s ∧ Projects sel s

variable (b : ResourceBoundary)

theorem foldlM_legacyMember {f : ResourceFilter}
    (put : Option FilterSelection → ResourceFilter) (hnone : put none=f)
    (hfield : ∀{j d},decodeFilterSelection none j=some d → f.field (foldName key) j=some (put d)) :
    ∃d,(legacyMember b key resourceType).foldlM (fun a m => a.field (foldName m.1) m.2) f=
      some (put d) ∧ ProjectsMember b resourceType d := by
  unfold legacyMember ProjectsMember
  cases b.resources.lookup resourceType with
  | none => exact ⟨none,by rw [hnone]; rfl,rfl⟩
  | some sel =>
    obtain ⟨d,hd,hp⟩ := decode_legacySelection
    refine ⟨some d,?_,d,rfl,hp⟩
    rw [foldlM_cons,hfield hd]
    rfl

theorem decodeFilter_legacy : ∃f,decodeFilter (legacyFilter b)=some f ∧
      ∀t : ProjectedType,ProjectsMember b t.name (f.selection t.filterKey) := by
  have hnames : foldName "destructive_operations"="destructive_operations" ∧
      foldName "proxy_paths"="proxy_paths" ∧ foldName "servers"="servers" ∧
      foldName "subscription_plans"="subscription_plans" ∧ foldName "users"="users" := by decide
  obtain ⟨hdestructive,hpaths,hservers,hplans,husers⟩ := hnames
  -- the members are taken in the order of their keys, each into a field that is still empty
  obtain ⟨paths,h1,hp1⟩ := foldlM_legacyMember b
    (fun d => {proxyPaths := d,destructiveOperations := b.destructiveOperations}) rfl
    (fun {j d} h => by rw [hpaths]; change (decodeFilterSelection none j).map _=_; rw [h]; rfl)
  obtain ⟨servers,h2,hp2⟩ := foldlM_legacyMember b
    (fun d => {proxyPaths := paths,servers := d,destructiveOperations := b.destructiveOperations}) rfl
    (fun {j d} h => by rw [hservers]; change (decodeFilterSelection none j).map _=_; rw [h]; rfl)
  obtain ⟨plans,h3,hp3⟩ := foldlM_legacyMember b
    (fun d => {proxyPaths := paths,servers := servers,subscriptionPlans := d
               destructiveOperations := b.destructiveOperations}) rfl
    (fun {j d} h => by rw [hplans]; change (decodeFilterSelection none j).map _=_; rw [h]; rfl)
  obtain ⟨users,h4,hp4⟩ := foldlM_legacyMember b
    (fun d => {proxyPaths := paths,servers := servers,subscriptionPlans := plans,users := d
               destructiveOperations := b.destructiveOperations}) rfl
    (fun {j d} h => by rw [husers]; change (decodeFilterSelection none j).map _=_; rw [h]; rfl)
  refine ⟨⟨servers,users,paths,plans,none,b.destructiveOperations⟩,?_,fun t => ?_⟩
  · unfold decodeFilter legacyFilter decodeStruct
    dsimp only
    rw [foldlM_cons,hdestructive]
    change List.foldlM _ ({destructiveOperations := b.destructiveOperations} : ResourceFilter) _=_
    rw [foldlM_append,foldlM_append,foldlM_append,h1]
    change ((List.foldlM _ _ _ >>= _) >>= _)=_
    rw [h2]
    change (List.foldlM _ _ _ >>= _)=_
    rw [h3]
    exact h4
  · cases t
    · exact hp2
    · exact hp4
    · exact hp1
    · exact hp3

theorem key_legacyMember {b : ResourceBoundary} {key resourceType : String} {m : String×Json}
    (h : m∈legacyMember b key resourceType) : m.1=key := by
  unfold legacyMember at h
  cases hsel : b.resources.lookup resourceType with
  | none => simp [hsel] at h
  | some sel =>
    rw [hsel] at h
    rw [mem_singleton.mp h]

theorem flatAllows_legacy (t : ProjectedType) (id) :
    flatAllows (legacyFilter b) t.filterKey id=false := by
  have hkeys : ∀key∈["destructive_operations","proxy_paths","servers","subscription_plans","users"],
      (t.filterKey != key)=true := by cases t <;> decide
  unfold flatAllows legacyFilter
  rw [rawMap_obj,bind_some,Table.lookup_putAll,lookup_eq_none_iff.mpr]
  · rfl
  intro m hm
  rw [mem_reverse,mem_cons,mem_append,mem_append,mem_append] at hm
  rcases hm with rfl | ((hm | hm) | hm) | hm
  · apply hkeys
    simp
  all_goals
    rw [key_legacyMember hm]
    apply hkeys
    simp

end decoding

def projectedAllows (sel : Mcpauth.ResourceSelection) (id : Int) : Bool :=
  match legacyMode sel with
  | "all" => true
  | "selected" => id∈legacyIDs sel
  | _ => false

variable {sel : Mcpauth.ResourceSelection}

theorem Projects.allows {d : FilterSelection} (h : Projects sel d)
    (id) : d.allows id=projectedAllows sel id := by
  have hmode : toLower (trimSpace (legacyMode sel))=legacyMode sel := by
    unfold legacyMode
    split_ifs with hm
    · decide
    by_cases ha : sel.selection="all"
    · rw [ha]
      decide
    · rw [not_not.mp (fun hn => hm ⟨ha,hn⟩)]
      decide
  rw [FilterSelection.allows,h.mode,h.ids,hmode]
  rfl

theorem allowsInt64_legacy (b : ResourceBoundary) (t : ProjectedType) (id) :
    allowsInt64 (legacyResourceFilterJSON b) t.filterKey id=
      match b.resources.lookup t.name with
      | none => false
      | some sel => projectedAllows sel id := by
  obtain ⟨f,hf,hmembers⟩ := decodeFilter_legacy b
  have hmember := hmembers t
  unfold allowsInt64 legacyResourceFilterJSON
  dsimp only
  rw [hf]
  have hrestricted : emptyFilterUnrestricted (.value true (legacyFilter b))=false := rfl
  rw [hrestricted,Bool.false_or]
  unfold ProjectsMember at hmember
  cases hsel : b.resources.lookup t.name with
  | none =>
    rw [hsel] at hmember
    dsimp only at hmember ⊢
    rw [hmember]
    exact flatAllows_legacy b t id
  | some sel =>
    rw [hsel] at hmember
    obtain ⟨d,hd,hp⟩ := hmember
    dsimp only
    rw [hd]
    exact hp.allows id

def ProjectedType.ref (t : ProjectedType) (id : Int) : ResourceRef :=
  ⟨t.name,String.ofList (formatInt id)⟩

theorem allowsResource_eq (b : ResourceBoundary) (ref : ResourceRef) : b.allowsResource ref=
      match b.resources.lookup ref.resourceType with
      | none => false
      | some sel => !sel.rejects ref.id := by
  unfold ResourceBoundary.allowsResource ResourceBoundary.denied
  cases hsel : b.resources.lookup ref.resourceType with
  | none => simp [hsel]
  | some sel => cases h : sel.rejects ref.id <;> simp [hsel,h]

/-- A selection is neither pinned short of an id, nor of an unknown kind with that id listed, nor
lists the id in an unusual spelling only. -/
def Faithful (sel : Mcpauth.ResourceSelection) (id : Int) : Prop :=
  match sel.selection with
  | "all" => sel.includeFuture ∨ sel.ids=[] ∨ String.ofList (formatInt id)∈sel.ids
  | "none" => True
  | "selected" => (∃raw∈sel.ids,scanInt64 raw=some id) → String.ofList (formatInt id)∈sel.ids
  | _ => ∀raw∈sel.ids,scanInt64 raw≠some id

theorem mem_legacyIDs {id : Int} : id∈legacyIDs sel ↔ ∃raw∈sel.ids,scanInt64 raw=some id := by
  unfold legacyIDs
  rw [mem_insertionSort,mem_filterMap]

section selections

variable {id : Int}

theorem faithful_all (h : sel.selection="all") :
    (projectedAllows sel id ↔ sel.rejects (String.ofList (formatInt id))=false) ↔ Faithful sel id := by
  have hprojected : projectedAllows sel id=true := by simp [projectedAllows,legacyMode,h]
  simp only [hprojected,Mcpauth.ResourceSelection.rejects,Faithful,h,true_iff]
  by_cases hf : sel.includeFuture <;> by_cases hi : sel.ids=[] <;> simp [hf,hi]

theorem faithful_listed (hall : sel.selection≠"all") (hnone : sel.selection≠"none") (hpos : 0< id)
    (hhi : id≤ maxInt64) :
    (projectedAllows sel id ↔ sel.rejects (String.ofList (formatInt id))=false) ↔ Faithful sel id := by
  have hprojected : projectedAllows sel id=true ↔ ∃raw∈sel.ids,scanInt64 raw=some id := by
    simp [projectedAllows,legacyMode,hall,hnone,mem_legacyIDs]
  rw [hprojected]
  by_cases h : sel.selection="selected"
  · have hrejects : sel.rejects (String.ofList (formatInt id))=false ↔
        String.ofList (formatInt id)∈sel.ids := by
      simp [Mcpauth.ResourceSelection.rejects,h]
    have hfaithful : Faithful sel id ↔
        ((∃raw∈sel.ids,scanInt64 raw=some id) → String.ofList (formatInt id)∈sel.ids) := by
      simp [Faithful,h]
    rw [hrejects,hfaithful]
    -- the decimal itself always scans
    exact ⟨fun hiff => hiff.mp,fun hmp => ⟨hmp,fun hmem => ⟨_,hmem,scanInt64_formatInt hpos hhi⟩⟩⟩
  · simp [Mcpauth.ResourceSelection.rejects,Faithful]

theorem faithful_iff (hpos : 0< id) (hhi : id≤ maxInt64) :
    (projectedAllows sel id ↔ sel.rejects (String.ofList (formatInt id))=false) ↔ Faithful sel id := by
  by_cases hall : sel.selection="all"
  · exact faithful_all hall
  by_cases hnone : sel.selection="none"
  · simp [projectedAllows,legacyMode,Mcpauth.ResourceSelection.rejects,Faithful,hnone]
  exact faithful_listed hall hnone hpos hhi

end selections

/-- The projected filter admits what the stored boundary admits exactly where the selection is
faithful. -/
theorem projected_filter_iff_faithful (doc : Document) (t : ProjectedType) {id : Int} (hpos : 0< id)
    (hhi : id≤ maxInt64) :
    (allowsInt64 (legacyResourceFilterJSON (parseBoundary doc)) t.filterKey id ↔
      (parseBoundary doc).allowsResource (t.ref id)) ↔
    ∀sel,(parseBoundary doc).resources.lookup t.name=some sel → Faithful sel id := by
  have hname : (t.ref id).resourceType=t.name := rfl
  rw [allowsInt64_legacy,allowsResource_eq,hname]
  cases hsel : (parseBoundary doc).resources.lookup t.name with
  | none => simp
  | some sel =>
    simp only [Option.some.injEq,forall_eq',Bool.not_eq_true']
    exact faithful_iff hpos hhi

def serverBoundary (selection : String) (ids : List String) : Document :=
  .value true (.obj [("version",.num ['1']),("resources",.obj [("server",
    .obj [("selection",.str false selection),("ids",.arr (ids.map (.str false)))])])])

theorem selected_server_projected :
    allowsInt64 (legacyResourceFilterJSON (parseBoundary (serverBoundary "selected" ["7"])))
      ProjectedType.server.filterKey 7=true ∧
    ((allowsInt64 (legacyResourceFilterJSON (parseBoundary (serverBoundary "selected" ["7"])))
        ProjectedType.server.filterKey 7 ↔
      (parseBoundary (serverBoundary "selected" ["7"])).allowsResource (ProjectedType.server.ref 7)) ↔
      ∀sel,(parseBoundary (serverBoundary "selected" ["7"])).resources.lookup "server"=some sel →
        Faithful sel 7) :=
  ⟨by decide +kernel,projected_filter_iff_faithful _ .server (by decide) (by decide)⟩

/-- A boundary pinned to server 1 denies server 2, and its projection grants it. -/
theorem pinned_boundary_widens :
    (parseBoundary (serverBoundary "all" ["1"])).allowsResource ⟨"server","2"⟩=false ∧
    allowsInt64 (legacyResourceFilterJSON (parseBoundary (serverBoundary "all" ["1"])))
      "server_ids" 2=true := by
  decide +kernel

end Oboard.Application
