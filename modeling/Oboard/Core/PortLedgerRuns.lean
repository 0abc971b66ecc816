import Oboard.Core.PortGenerations

namespace Oboard.Core

open Runs List Table PortLedger PortGeneration

variable {owner : List PortGeneration}

namespace PortLedger

variable (l : PortLedger)

@[simp] theorem generations_ownerFor (k key) :
    (l.ownerFor k).generations key=l.generations key := by
  unfold generations ownerFor Table.putNew
  cases h : l.owners.lookup k with
  | some owner => simp
  | none =>
    simp only [Option.isSome_none,Bool.false_eq_true,if_false,lookup_insert_eq]
    split_ifs with heq
    · subst heq
      rw [h]
      rfl
    · rfl

theorem generations_insert (t : PortLedger) (k key : PortKey) (owner : List PortGeneration)
    (h : t.owners=l.owners.insert k owner) :
    t.generations key=if key=k then owner else l.generations key := by
  unfold generations
  rw [h,lookup_insert_eq]
  split_ifs <;> rfl

theorem generations_update (k key : PortKey) (owner : List PortGeneration)
    (rows : List PortAllocation) :
    (l.update k owner rows).generations key=if key=k then owner else l.generations key :=
  generations_insert l _ k key owner rfl

theorem generations_of_lookup (h : l.owners.lookup key=some owner) : l.generations key=owner := by
  rw [generations,h]
  rfl

end PortLedger

inductive LedgerCall where
  | resolve (requirement : PortRequirement)
  | allocatePreparing (requirement : PortRequirement) (count : Int)
  | promotePreparing (key : PortKey)
  | markActiveRetiring (key : PortKey)
  | deleteRetired (key : PortKey) (generation : Int)
  | lookupActive (key : PortKey)

namespace LedgerCall

def key : LedgerCall → PortKey
  | resolve requirement => requirement.key
  | allocatePreparing requirement _ => requirement.key
  | promotePreparing key => key
  | markActiveRetiring key => key
  | deleteRetired key _ => key
  | lookupActive key => key

def moves : LedgerCall → Bool
  | promotePreparing _ => true
  | markActiveRetiring _ => true
  | _ => false

end LedgerCall

inductive LedgerAnswer where
  | port (port : Int)
  | active (port : Option Int)
  | rows (rows : List PortAllocation)
  | ids (ids : List Int)
  | failed (message : String)

namespace LedgerAnswer

def ofRows : Except String (List PortAllocation) → LedgerAnswer
  | .ok out => rows out
  | .error message => failed message

def ofIDs : Except String (List Int) → LedgerAnswer
  | .ok out => ids out
  | .error message => failed message

def returnedPort : LedgerAnswer → Option Int
  | port p => if 0<p then some p else none
  | active p => p
  | _ => none

@[simp] theorem returnedPort_ofRows : (ofRows result).returnedPort=none := by
  cases result <;> rfl

@[simp] theorem returnedPort_ofIDs : (ofIDs result).returnedPort=none := by
  cases result <;> rfl

end LedgerAnswer

def ledgerCall (l : PortLedger) : LedgerCall → PortLedger×LedgerAnswer
  | .resolve requirement => let (l,port) := l.resolve requirement; (l,.port port)
  | .allocatePreparing requirement count =>
    let (l,result) := l.allocatePreparing requirement count; (l,.ofRows result)
  | .promotePreparing key => let (l,result) := l.promotePreparing key; (l,.ofRows result)
  | .markActiveRetiring key => let (l,result) := l.markActiveRetiring key; (l,.ofRows result)
  | .deleteRetired key generation =>
    let (l,result) := l.deleteRetired key generation; (l,.ofIDs result)
  | .lookupActive key => (l,.active (l.lookupActive key))

def ledgerStep (l : PortLedger) (call : LedgerCall) : PortLedger×List LedgerAnswer :=
  ((ledgerCall l call).1,[(ledgerCall l call).2])

structure CallEffect (l l' : PortLedger) (key : PortKey) (moves : Bool) : Prop where
  owner : OwnerStep (l.generations key) moves (l'.generations key)
  others : ∀k,k≠key → l'.generations k=l.generations k

section effects

theorem CallEffect.refl : CallEffect l l key moves := ⟨.kept,fun _ _ => rfl⟩

theorem CallEffect.ownerFor : CallEffect l (l.ownerFor key) key moves :=
  ⟨by rw [generations_ownerFor]; exact .kept, fun k _ => generations_ownerFor l key k⟩

theorem CallEffect.of_owners (ht : t.owners=l.owners.insert key owner)
    (h : OwnerStep (l.generations key) moves owner) : CallEffect l t key moves := by
  have hg := generations_insert l t key
  refine ⟨?_,fun k hk => ?_⟩
  · rw [hg key owner ht,if_pos rfl]
    exact h
  · rw [hg k owner ht,if_neg hk]

theorem CallEffect.update {rows : List PortAllocation}
    (h : OwnerStep (l.generations key) moves owner) :
    CallEffect l (l.update key owner rows) key moves := .of_owners rfl h

end effects

namespace PortRequirement

variable (requirement : PortRequirement) (generation : Int)

theorem started_serves (hp : 0<port) : (requirement.started generation port).Sound ∧
      (requirement.started generation port).primaryRow=
        some (requirement.row generation .active 0 port) := by
  have hl : (requirement.started generation port).ports.lookup 0=
      some (requirement.row generation .active 0 port) := AList.lookup_insert ∅
  have hkeys k (hk : k∈(requirement.started generation port).ports.keys) : k=0 := by
    simpa [started] using hk
  have hall k r
      (hr : (requirement.started generation port).ports.lookup k=some r) :
      k=0 ∧ r=requirement.row generation .active 0 port := by
    have hk := hkeys k (AList.lookup_isSome.mp (by simp [hr]))
    exact ⟨hk,Option.some.inj ((hk ▸ hr).symm.trans hl)⟩
  have hord : ∀k r,(requirement.started generation port).ports.lookup k=some r → r.ordinal≤k := by
    intro k r hr
    obtain ⟨rfl,rfl⟩ := hall k r hr
    exact le_rfl
  refine ⟨⟨⟨0,_,hl⟩,hord,fun k r hr => ?_⟩,
    primaryRow_of_least hord hl (fun k hk => le_of_eq (hkeys k hk).symm)⟩
  rw [(hall k r hr).2]
  exact hp

theorem prepared_sound (hne : ordinals≠[])
    (hp : ∀ordinal∈ordinals,0<requirement.candidate ordinal) :
    (requirement.prepared generation ordinals).Sound := by
  have hlookup k : (requirement.prepared generation ordinals).ports.lookup k=
      (requirement.group generation ordinals).reverse.find? (·.ordinal=k) := by
    have := lookup_putAll_map PortAllocation.ordinal id (requirement.group generation ordinals) ∅ k
    simpa [prepared] using this
  have hall k r
      (hr : (requirement.prepared generation ordinals).ports.lookup k=some r) :
      r.ordinal=k ∧ 0<r.port := by
    rw [hlookup] at hr
    refine ⟨by simpa using find?_some hr,?_⟩
    obtain ⟨ordinal,ho,rfl⟩ := mem_map.mp (mem_reverse.mp (mem_of_find?_eq_some hr))
    exact hp ordinal ho
  refine ⟨?_,fun k r hr => le_of_eq (hall k r hr).1,fun k r hr => (hall k r hr).2⟩
  obtain ⟨ordinal,ho⟩ := exists_mem_of_ne_nil ordinals hne
  have hsome : ((requirement.prepared generation ordinals).ports.lookup (ordinal : Int)).isSome := by
    rw [hlookup,find?_isSome]
    exact ⟨_,mem_reverse.mpr (mem_map_of_mem ho),by simp [row]⟩
  exact ⟨ordinal,Option.isSome_iff_exists.mp hsome⟩

end PortRequirement

theorem groupOrdinals_ne_nil (count) : groupOrdinals count≠[] := by
  unfold groupOrdinals
  rw [ne_eq,range_eq_nil]
  split_ifs <;> omega

namespace PortLedger

variable (l : PortLedger) (requirement : PortRequirement)

theorem resolve_spec : CallEffect l (l.resolve requirement).1 requirement.key false ∧
    ((∃place gen,activeGeneration (l.generations requirement.key)=some (place,gen) ∧
        (l.resolve requirement).2=gen.primaryRow.elim 0 PortAllocation.port) ∨
      (l.resolve requirement).2=0 ∨
      Serves ((l.resolve requirement).1.generations requirement.key) (l.resolve requirement).2) := by
  unfold resolve
  cases hactive : activeGeneration (l.generations requirement.key) with
  | some found =>
    obtain ⟨place,gen⟩ := found
    cases hitem : gen.primaryRow with
    | none =>
      simp only [hactive,hitem]
      exact ⟨.ownerFor,.inr (.inl trivial)⟩
    | some item =>
      simp only [hactive,hitem]
      split_ifs
      · exact ⟨.update (.corrected hactive hitem rfl rfl),.inl ⟨place,gen,rfl,by rw [hitem]; rfl⟩⟩
      · exact ⟨.ownerFor,.inl ⟨place,gen,rfl,by rw [hitem]; rfl⟩⟩
  | none =>
    simp only [hactive]
    split_ifs with hp
    · exact ⟨.ownerFor,.inr (.inl rfl)⟩
    obtain ⟨hs,hprimary⟩ := requirement.started_serves
      (nextGeneration (l.generations requirement.key)) (not_le.mp hp)
    refine ⟨.update (.added rfl hs (fun _ => hactive)),.inr (.inr ?_)⟩
    rw [generations_update,if_pos rfl]
    exact ⟨_,mem_addGeneration.mpr (.inr rfl),rfl,_,hprimary,rfl⟩

theorem allocatePreparing_effect (count) :
    CallEffect l (l.allocatePreparing requirement count).1 requirement.key false := by
  unfold allocatePreparing
  simp only
  split_ifs
  · exact .ownerFor
  split
  · exact .ownerFor
  rename_i hnone
  rw [find?_eq_none] at hnone
  exact .update (.added rfl (requirement.prepared_sound _ (groupOrdinals_ne_nil count)
    (fun ordinal ho => by simpa using hnone ordinal ho)) nofun)

theorem promotePreparing_effect (key) : CallEffect l (l.promotePreparing key).1 key true := by
  unfold promotePreparing
  cases hl : l.owners.lookup key with
  | none => exact .refl
  | some owner =>
    obtain rfl := l.generations_of_lookup hl
    cases hprep : generationByState (l.generations key) .preparing with
    | none =>
      simp only [hprep]
      exact .refl
    | some found =>
      cases hactive : activeGeneration (l.generations key) with
      | none =>
        simp only [hprep,hactive]
        exact .update (.promoted hprep hactive)
      | some old =>
        simp only [hprep,hactive]
        exact .update (.switched hprep hactive)

theorem markActiveRetiring_effect (key) : CallEffect l (l.markActiveRetiring key).1 key true := by
  unfold markActiveRetiring
  cases hl : l.owners.lookup key with
  | none => exact .refl
  | some owner =>
    obtain rfl := l.generations_of_lookup hl
    cases hactive : activeGeneration (l.generations key) with
    | none =>
      simp only [hactive]
      exact .refl
    | some found =>
      simp only [hactive]
      exact .update (.retired hactive)

theorem deleteRetired_effect (key) (generation) :
    CallEffect l (l.deleteRetired key generation).1 key false := by
  unfold deleteRetired
  cases hl : l.owners.lookup key with
  | none => exact .refl
  | some owner =>
    obtain rfl := l.generations_of_lookup hl
    cases htarget : generationByNumber (l.generations key) generation with
    | none =>
      simp only [htarget]
      exact .refl
    | some found =>
      simp only [htarget]
      split_ifs with hs
      · exact .refl
      · exact .of_owners rfl (.deleted (generationByNumber_some htarget) (not_not.mp hs))

end PortLedger

variable (l : PortLedger)

theorem ledgerCall_effect (call) : CallEffect l (ledgerCall l call).1 call.key call.moves := by
  cases call with
  | resolve requirement => exact (l.resolve_spec requirement).1
  | allocatePreparing requirement count => exact l.allocatePreparing_effect requirement count
  | promotePreparing key => exact l.promotePreparing_effect key
  | markActiveRetiring key => exact l.markActiveRetiring_effect key
  | deleteRetired key generation => exact l.deleteRetired_effect key generation
  | lookupActive key => exact .refl

variable {items : List PortAllocation}

section stored

variable {owner : List PortGeneration} {item : PortAllocation}

theorem storeRow_cases : (∃place gen,owner[place]?=some gen ∧ gen.generation=generationNumber item ∧
      storeRow owner item=owner.set place (gen.store item)) ∨
    ((generationNumber item)∉generationNumbers owner ∧ storeRow owner item=addGeneration owner
      (store {generation := generationNumber item,state := .active} item)) := by
  unfold storeRow
  simp only
  cases h : owner[owner.findIdx (·.generation=generationNumber item)]? with
  | some gen =>
    refine .inl ⟨_,gen,h,?_,rfl⟩
    obtain ⟨hlt,rfl⟩ := List.getElem?_eq_some_iff.mp h
    simpa using findIdx_getElem (w := hlt)
  | none =>
    refine .inr ⟨fun hm => ?_,rfl⟩
    obtain ⟨gen,hg,heq⟩ := mem_map.mp hm
    have hlt := findIdx_lt_length_of_exists
      (p := fun gen : PortGeneration => gen.generation=generationNumber item)
      ⟨gen,hg,by simpa using heq⟩
    rw [getElem?_eq_none_iff] at h
    omega

/-- Generations made of stored rows: numbers are distinct, and each comes from a row that gave it
its state. -/
structure Loaded (items : List PortAllocation) (key : PortKey) (owner : List PortGeneration) :
    Prop where
  sound : ∀gen∈owner,gen.Sound
  nodup : (generationNumbers owner).Nodup
  origin : ∀gen∈owner,∃item∈items,0 < item.port ∧ item.key=key ∧
    gen.generation=generationNumber item ∧ gen.state=normalizeAllocationState item.state

theorem Loaded.storeRow (h : Loaded items item.key owner)
    (hi : item∈items) (hp : 0 < item.port) : Loaded items item.key (storeRow owner item) := by
  rcases storeRow_cases with ⟨place,gen,hg,hn,heq⟩ | ⟨hn,heq⟩
  · have hgen := h.sound gen (mem_of_getElem? hg)
    have hs := store_sound hp hgen.ordinal hgen.port
    rw [heq]
    refine ⟨fun g hm => ?_,?_,fun g hm => ?_⟩
    · exact (mem_or_eq_of_mem_set hm).elim (h.sound g) (fun heq => heq ▸ hs)
    · rw [generationNumbers_set hg (store_generation _ _)]
      exact h.nodup
    · rcases mem_or_eq_of_mem_set hm with hm | rfl
      · exact h.origin g hm
      · exact ⟨item,hi,hp,rfl,hn,rfl⟩
  · have hs : (store {generation := generationNumber item,state := .active}
        item).Sound := store_sound hp (fun k r hr => by simp at hr)
      (fun k r hr => by simp at hr)
    rw [heq]
    refine ⟨fun g hm => ?_,?_,fun g hm => ?_⟩
    · exact (mem_addGeneration.mp hm).elim (h.sound g) (fun heq => heq ▸ hs)
    · exact (addGeneration_perm.map _).nodup_iff.mpr (nodup_cons.mpr ⟨hn,h.nodup⟩)
    · rcases mem_addGeneration.mp hm with hm | rfl
      · exact h.origin g hm
      · exact ⟨item,hi,hp,rfl,rfl,rfl⟩

theorem newLedger_loaded (items) (key) :
    Loaded items key ((newProxyPathPortLedger items).generations key) := by
  have aux rest (hsub : rest⊆items) (l : PortLedger)
      (h : ∀key,Loaded items key (l.generations key)) :
      ∀key,Loaded items key ((rest.foldl (fun l item =>
        if item.port≤0 then l
        else l.update item.key (storeRow (l.generations item.key) item) []) l).generations key) := by
    induction rest generalizing l with
    | nil => exact h
    | cons item rest ih =>
      rw [foldl_cons]
      refine ih (fun x hx => hsub (mem_cons_of_mem _ hx)) _ fun key => ?_
      split_ifs with hp
      · exact h key
      rw [generations_update]
      split_ifs with hk
      · subst hk
        exact (h item.key).storeRow (hsub mem_cons_self) (not_le.mp hp)
      · exact h key
  exact aux items (List.Subset.refl _) {} (fun key => ⟨nofun,nodup_nil,nofun⟩) key

/-- Stored rows of an owner that are active agree on their generation. -/
def StoredOneActive (items : List PortAllocation) : Prop :=
  ∀a∈items,∀b∈items,0<a.port → 0<b.port → a.key=b.key →
    normalizeAllocationState a.state=.active → normalizeAllocationState b.state=.active →
    generationNumber a=generationNumber b

private theorem activeCount_le_one (hn : (generationNumbers owner).Nodup)
    (hsame : ∀a∈owner,∀b∈owner,a.state=.active → b.state=.active → a.generation=b.generation) :
    activeCount owner≤1 := by
  induction owner with
  | nil => exact Nat.zero_le _
  | cons first rest ih =>
    obtain ⟨hnew,hrest⟩ := nodup_cons.mp hn
    rw [activeCount_cons]
    split_ifs with ha
    · have hzero : activeCount rest=0 := by
        refine countP_eq_zero.mpr fun gen hg => ?_
        simp only [decide_eq_true_eq]
        intro hga
        have := hsame first mem_cons_self gen (mem_cons_of_mem _ hg) ha hga
        exact hnew (this ▸ mem_map_of_mem hg)
      omega
    · exact ih hrest (fun a ha b hb =>
        hsame a (mem_cons_of_mem _ ha) b (mem_cons_of_mem _ hb))

theorem activeCount_le_one_of_loaded
    (hone : StoredOneActive items) (h : Loaded items key owner) : activeCount owner≤1 := by
  refine activeCount_le_one h.nodup fun first hf second hs hfa hsa => ?_
  obtain ⟨a,ha,hap,hak,han,has⟩ := h.origin first hf
  obtain ⟨b,hb,hbp,hbk,hbn,hbs⟩ := h.origin second hs
  rw [han,hbn]
  exact hone a ha b hb hap hbp (hak.trans hbk.symm) (has.symm.trans hfa) (hbs.symm.trans hsa)

end stored

def OneActive (l : PortLedger) : Prop := ∀owner∈l.owners.rows,activeCount owner.2≤1

def DistinctGenerations (l : PortLedger) : Prop :=
  ∀owner∈l.owners.rows,(generationNumbers owner.2).Nodup

instance (l : PortLedger) : Decidable (OneActive l) :=
  inferInstanceAs (Decidable (∀owner∈l.owners.rows,activeCount owner.2≤1))

instance (l : PortLedger) : Decidable (DistinctGenerations l) :=
  inferInstanceAs (Decidable (∀owner∈l.owners.rows,(generationNumbers owner.2).Nodup))

private theorem forall_owner_iff (P : List PortGeneration → Prop) (hnil : P []) :
    (∀owner∈l.owners.rows,P owner.2) ↔ ∀key,P (l.generations key) := by
  constructor
  · intro h key
    cases hl : l.owners.lookup key with
    | none => simpa [generations,hl] using hnil
    | some owner =>
      rw [l.generations_of_lookup hl]
      exact h (key,owner) (mem_rows.mpr hl)
  · rintro h ⟨key,owner⟩ hm
    have := h key
    rwa [l.generations_of_lookup (mem_rows.mp hm)] at this

theorem oneActive_iff : OneActive l ↔ ∀key,activeCount (l.generations key)≤1 :=
  forall_owner_iff l (fun owner => activeCount owner≤1) (by decide)

theorem oneActive_of_stored (h : StoredOneActive items) :
    OneActive (newProxyPathPortLedger items) :=
  (oneActive_iff _).mpr (fun key => activeCount_le_one_of_loaded h (newLedger_loaded items key))

def ledgerAfter (items : List PortAllocation) (calls : List LedgerCall) : PortLedger :=
  (run ledgerStep (newProxyPathPortLedger items) calls).1

/-- Stored numbers leave room for one new generation per call. -/
def GenerationRoom (items : List PortAllocation) (calls : Nat) : Prop :=
  (calls : Int)+1<2^63 ∧ ∀item∈items,item.generation+calls<2^63

def LedgerSound (l : PortLedger) : Prop := ∀key,OwnerSound (l.generations key)

section runs

variable {l : PortLedger} {port : Int}

theorem LedgerSound.call (h : LedgerSound l) (call) : LedgerSound (ledgerCall l call).1 := by
  obtain ⟨howner,hothers⟩ := ledgerCall_effect l call
  intro k
  by_cases hk : k=call.key
  · subst hk
    exact (h call.key).step howner
  · rw [hothers k hk]
    exact h k

theorem LedgerSound.run (h : LedgerSound l) (calls) : LedgerSound (run ledgerStep l calls).1 :=
  run_invariant (fun l _ => LedgerSound l) (fun _ _ => True) (fun _ hs => hs.call _)
    (runGuarded_of_forall ledgerStep (fun _ _ _ => trivial) l) (w := []) h

section

variable (h : Serves (l.generations key) port)
include h

theorem Serves.call (hs : LedgerSound l) {call : LedgerCall}
    (hmoves : call.key=key → call.moves=false) :
    Serves ((ledgerCall l call).1.generations key) port := by
  obtain ⟨howner,hothers⟩ := ledgerCall_effect l call
  by_cases hk : key=call.key
  · subst hk
    exact h.step (hs call.key) (hmoves rfl ▸ howner)
  · rw [hothers key hk]
    exact h

theorem Serves.run (hs : LedgerSound l) (hmoves : ∀call∈calls,call.key=key → call.moves=false) :
    Serves ((run ledgerStep l calls).1.generations key) port :=
  (run_invariant (fun l _ => LedgerSound l ∧ Serves (l.generations key) port)
    (fun _ call => call.key=key → call.moves=false)
    (fun hg hp => ⟨hp.1.call _,hp.2.call hp.1 hg⟩)
    (runGuarded_of_forall ledgerStep (fun call hc _ => hmoves call hc) l) (w := []) ⟨hs,h⟩).2

theorem Serves.active (hs : LedgerSound l) :
    0<port ∧ ∃place gen row,activeGeneration (l.generations key)=some (place,gen) ∧
      gen.primaryRow=some row ∧ row.port=port := by
  obtain ⟨gen,hm,ha,row,hrow,rfl⟩ := h
  refine ⟨((hs key).sound gen hm).primaryRow_pos hrow,?_⟩
  cases hactive : activeGeneration (l.generations key) with
  | none => exact absurd ha (activeGeneration_none hactive gen hm)
  | some found =>
    obtain ⟨place,other⟩ := found
    obtain ⟨hg,ho⟩ := activeGeneration_some hactive
    cases active_unique (hs key).oneActive hm (mem_of_getElem? hg) ha ho
    exact ⟨place,gen,row,rfl,hrow,rfl⟩

theorem Serves.lookupActive (hs : LedgerSound l) : l.lookupActive key=some port := by
  obtain ⟨hp,place,gen,row,hactive,hrow,rfl⟩ := h.active hs
  simp [lookupActive,hactive,hrow,hp]

end

theorem Serves.resolve (h : Serves (l.generations requirement.key) port) (hs : LedgerSound l) :
    (l.resolve requirement).2=port := by
  obtain ⟨hp,place,gen,row,hactive,hrow,rfl⟩ := h.active hs
  unfold resolve
  simp only [hactive,hrow]
  split_ifs <;> rfl

theorem serves_of_lookupActive (h : l.lookupActive key=some port) :
    Serves (l.generations key) port := by
  unfold lookupActive at h
  cases hactive : activeGeneration (l.generations key) with
  | none => simp [hactive] at h
  | some found =>
    obtain ⟨place,gen⟩ := found
    obtain ⟨hg,ha⟩ := activeGeneration_some hactive
    cases hrow : gen.primaryRow with
    | none => simp [hactive,hrow] at h
    | some row =>
      simp only [hactive,hrow] at h
      split_ifs at h
      exact ⟨gen,mem_of_getElem? hg,ha,row,hrow,Option.some.inj h⟩

theorem serves_of_returned (hs : LedgerSound l) (h : (ledgerCall l call).2.returnedPort=some port) :
    Serves ((ledgerCall l call).1.generations call.key) port := by
  cases call with
  | resolve requirement =>
    change (if 0<(l.resolve requirement).2 then some (l.resolve requirement).2 else none)=_ at h
    split_ifs at h with hp
    cases h
    obtain ⟨heffect,⟨place,gen,hactive,hport⟩ | hzero | hserves⟩ :=
      l.resolve_spec requirement
    · obtain ⟨hg,ha⟩ := activeGeneration_some hactive
      have hm := mem_of_getElem? hg
      obtain ⟨least,row,-,-,hrow⟩ := ((hs _).sound gen hm).exists_primaryRow
      rw [hrow] at hport
      exact Serves.step ⟨gen,hm,ha,row,hrow,hport.symm⟩ (hs _) heffect.owner
    · omega
    · exact hserves
  | lookupActive key => exact serves_of_lookupActive h
  | allocatePreparing requirement count => simp [ledgerCall] at h
  | promotePreparing key => simp [ledgerCall] at h
  | markActiveRetiring key => simp [ledgerCall] at h
  | deleteRetired key generation => simp [ledgerCall] at h

theorem ledgerCall_failed (h : (ledgerCall l call).2=.failed message) :
    (∀key,(ledgerCall l call).1.generations key=l.generations key) ∧
      (ledgerCall l call).1.pending=l.pending ∧ (ledgerCall l call).1.removed=l.removed := by
  cases call with
  | resolve requirement => cases h
  | lookupActive key => cases h
  | allocatePreparing requirement count =>
    simp only [ledgerCall,allocatePreparing] at h ⊢
    split_ifs at h ⊢
    · exact ⟨l.generations_ownerFor requirement.key,rfl,rfl⟩
    split at h
    · exact ⟨l.generations_ownerFor requirement.key,rfl,rfl⟩
    · cases h
  | promotePreparing key =>
    simp only [ledgerCall,promotePreparing] at h ⊢
    split at h
    · exact ⟨fun _ => rfl,rfl,rfl⟩
    split at h
    · exact ⟨fun _ => rfl,rfl,rfl⟩
    · split at h <;> cases h
  | markActiveRetiring key =>
    simp only [ledgerCall,markActiveRetiring] at h ⊢
    split at h
    · exact ⟨fun _ => rfl,rfl,rfl⟩
    split at h
    · exact ⟨fun _ => rfl,rfl,rfl⟩
    · cases h
  | deleteRetired key generation =>
    simp only [ledgerCall,deleteRetired] at h ⊢
    split at h
    · exact ⟨fun _ => rfl,rfl,rfl⟩
    split at h
    · exact ⟨fun _ => rfl,rfl,rfl⟩
    split_ifs at h ⊢
    · exact ⟨fun _ => rfl,rfl,rfl⟩
    · cases h

theorem numbered_run (calls) (hroom : (calls.length : Int)<2^63)
    (h : ∀key,Numbered (l.generations key) calls.length) :
    ∀key,Numbered ((run ledgerStep l calls).1.generations key) 0 := by
  induction calls generalizing l with
  | nil => exact h
  | cons call calls ih =>
    rw [length_cons] at hroom h
    refine ih (by omega) fun key => ?_
    obtain ⟨howner,hothers⟩ := ledgerCall_effect l call
    by_cases hk : key=call.key
    · subst hk
      exact (h call.key).step hroom howner
    change Numbered ((ledgerCall l call).1.generations key) _
    rw [hothers key hk]
    exact ⟨(h key).nodup,fun n hn => by
      have := (h key).bound n hn
      omega⟩

theorem newLedger_numbered (h : GenerationRoom items calls) (key) :
    Numbered ((newProxyPathPortLedger items).generations key) calls := by
  have hl := newLedger_loaded items key
  refine ⟨hl.nodup,fun n hn => ?_⟩
  obtain ⟨gen,hg,rfl⟩ := mem_map.mp hn
  obtain ⟨item,hi,-,-,heq,-⟩ := hl.origin gen hg
  have := h.2 item hi
  have := h.1
  rw [heq,generationNumber]
  split_ifs <;> omega

end runs

/-- Owners keep one active generation and distinct numbers, failed calls change nothing, and a
returned port stays until its owner is moved. -/
theorem port_ledger_keeps_owners (items : List PortAllocation) (calls : List LedgerCall)
    (hone : OneActive (newProxyPathPortLedger items)) : OneActive (ledgerAfter items calls) ∧
    (GenerationRoom items calls.length → DistinctGenerations (ledgerAfter items calls)) ∧
    (∀call message,(ledgerCall (ledgerAfter items calls) call).2=.failed message →
      (∀key,(ledgerCall (ledgerAfter items calls) call).1.generations key=
        (ledgerAfter items calls).generations key) ∧
      (ledgerCall (ledgerAfter items calls) call).1.pending=(ledgerAfter items calls).pending ∧
      (ledgerCall (ledgerAfter items calls) call).1.removed=(ledgerAfter items calls).removed) ∧
    ∀call port later,(ledgerCall (ledgerAfter items calls) call).2.returnedPort=some port →
      (∀c∈later,c.key=call.key → c.moves=false) →
      (ledgerAfter items (calls++call::later)).lookupActive call.key=some port ∧
      ∀requirement : PortRequirement,requirement.key=call.key →
        ((ledgerAfter items (calls++call::later)).resolve requirement).2=port := by
  have hsound : LedgerSound (ledgerAfter items calls) := LedgerSound.run
    (fun key => ⟨(oneActive_iff _).mp hone key,(newLedger_loaded items key).sound⟩) calls
  refine ⟨(oneActive_iff _).mpr fun key => (hsound key).oneActive,fun hroom => ?_,
    fun call message => ledgerCall_failed,fun call port later hport hlater => ?_⟩
  · have hlen := hroom.1
    exact (forall_owner_iff _ (fun owner => (generationNumbers owner).Nodup) nodup_nil).mpr fun key =>
      (numbered_run calls (by omega) (newLedger_numbered hroom) key).nodup
  have hafter : ledgerAfter items (calls++call::later)=
      (run ledgerStep (ledgerCall (ledgerAfter items calls) call).1 later).1 := by
    rw [ledgerAfter,run_append]
    rfl
  have hcall := hsound.call call
  have hserves := (serves_of_returned hsound hport).run hcall hlater
  have hrun := hcall.run later
  rw [hafter]
  refine ⟨hserves.lookupActive hrun,fun requirement hk => ?_⟩
  rw [← hk] at hserves
  exact hserves.resolve hrun

def storedListener (generation : Int) : PortAllocation where
  key := ⟨"chain_service","2022-blake3-aes-128-gcm",1⟩
  pool := "public"
  listenIP := "0.0.0.0"
  network := "tcp_udp"
  generation := generation
  ordinal := 0
  port := 20000
  state := some .active
  policyRevision := 1

def movedListener : PortRequirement where
  key := ⟨"chain_service","2022-blake3-aes-128-gcm",1⟩
  pool := "public"
  listenIP := "0.0.0.0"
  network := .tcpUdp
  policyRevision := 2
  allocate := some (fun _ => 20001)

theorem stored_listener_keeps_port : (ledgerAfter [storedListener 1]
      [.resolve movedListener,.allocatePreparing movedListener 1]).lookupActive
        movedListener.key=some 20000 := by
  have hone : OneActive (newProxyPathPortLedger [storedListener 1]) :=
    oneActive_of_stored (by
      intro a ha b hb _ _ _ _ _
      rw [mem_singleton.mp ha,mem_singleton.mp hb])
  exact ((port_ledger_keeps_owners [storedListener 1] [] hone).2.2.2
    (.resolve movedListener) 20000 [.allocatePreparing movedListener 1]
    (by decide +kernel) (by decide)).1

/-- The highest number has no successor, two further generations of its owner get the same one. -/
theorem overflowing_generations_repeat :
    OneActive (newProxyPathPortLedger [storedListener (2^63-1)]) ∧
    ¬DistinctGenerations (ledgerAfter [storedListener (2^63-1)]
      [.allocatePreparing movedListener 1,.allocatePreparing movedListener 1]) := by
  decide +kernel

end Oboard.Core
