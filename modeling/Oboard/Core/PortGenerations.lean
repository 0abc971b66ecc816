import Oboard.Core.PortLedger

namespace Oboard.Core

open Word64 List Table PortGeneration AList

section owner

theorem takeActive_cases (active) (entry) :
    (takeActive active entry=active ∧ (active=none → entry.1.state≠.active)) ∨
      (takeActive active entry=some (entry.2,entry.1) ∧ entry.1.state=.active) := by
  unfold takeActive
  by_cases h : entry.1.state=.active
  · rw [if_neg (not_not_intro h)]
    cases active with
    | none => exact .inr ⟨rfl,h⟩
    | some best =>
      by_cases hb : best.2.generation<entry.1.generation
      · exact .inr ⟨if_pos hb,h⟩
      · exact .inl ⟨if_neg hb,nofun⟩
  · exact .inl ⟨if_pos h,fun _ => h⟩

variable {entries : List (PortGeneration×Nat)}

private theorem foldl_takeActive_some (h : entries.foldl takeActive acc=some p) :
    acc=some p ∨ ((p.2,p.1)∈entries ∧ p.2.state=.active) := by
  induction entries generalizing acc with
  | nil => exact .inl h
  | cons entry entries ih =>
    rcases ih h with hp | ⟨hm,hs⟩
    · rcases takeActive_cases acc entry with ⟨heq,-⟩ | ⟨heq,hs⟩
      · exact .inl (heq ▸ hp)
      rw [heq] at hp
      cases hp
      exact .inr ⟨mem_cons_self,hs⟩
    · exact .inr ⟨mem_cons_of_mem _ hm,hs⟩

private theorem foldl_takeActive_none (h : entries.foldl takeActive acc=none) :
    acc=none ∧ ∀entry∈entries,entry.1.state≠.active := by
  induction entries generalizing acc with
  | nil => exact ⟨h,nofun⟩
  | cons entry entries ih =>
    obtain ⟨hacc,hrest⟩ := ih h
    rcases takeActive_cases acc entry with ⟨heq,hs⟩ | ⟨heq,-⟩
    · have hnone := heq ▸ hacc
      exact ⟨hnone,forall_mem_cons.mpr ⟨hs hnone,hrest⟩⟩
    · rw [heq] at hacc
      cases hacc

theorem activeGeneration_some (h : activeGeneration owner=some (place,gen)) :
    owner[place]?=some gen ∧ gen.state=.active := by
  rcases foldl_takeActive_some h with h | ⟨hm,hs⟩
  · cases h
  · exact ⟨mem_zipIdx_iff_getElem?.mp hm,hs⟩

theorem activeGeneration_none (h : activeGeneration owner=none) : ∀gen∈owner,gen.state≠.active := by
  intro gen hg
  obtain ⟨i,hi⟩ := mem_iff_getElem?.mp hg
  exact (foldl_takeActive_none h).2 (gen,i) (mem_zipIdx_iff_getElem?.mpr hi)

theorem generationByState_some {state : AllocationState}
    (h : generationByState owner state=some (place,gen)) :
    owner[place]?=some gen ∧ gen.state=state := by
  obtain ⟨g,hg,heq⟩ := Option.map_eq_some_iff.mp h
  cases heq
  obtain ⟨hlt,rfl⟩ := List.getElem?_eq_some_iff.mp hg
  simpa using findIdx_getElem (w := hlt)

theorem generationByNumber_some
    (h : generationByNumber owner number=some (place,gen)) : owner[place]?=some gen := by
  obtain ⟨entry,he,heq⟩ := Option.map_eq_some_iff.mp h
  have hm := (mem_filter.mp (mem_of_getLast? he)).1
  cases heq
  exact mem_zipIdx_iff_getElem?.mp hm

theorem mem_addGeneration : g∈addGeneration owner gen ↔ g∈owner ∨ g=gen := by
  simp [addGeneration]

theorem addGeneration_perm : (addGeneration owner gen).Perm (gen::owner) :=
  (perm_insertionSort _ _).trans perm_append_comm

end owner

/-- Every generation has rows, all with ports, and no row sits below its ordinal. -/
structure PortGeneration.Sound (gen : PortGeneration) : Prop where
  nonempty : ∃ordinal row,gen.ports.lookup ordinal=some row
  ordinal : ∀ordinal row,gen.ports.lookup ordinal=some row → row.ordinal≤ordinal
  port : ∀ordinal row,gen.ports.lookup ordinal=some row → 0<row.port

namespace PortGeneration

variable {gen : PortGeneration}

private theorem foldl_takeRow_keeps (row : PortAllocation) (ordinals : List Int)
    (h : ∀ordinal∈ordinals,row.ordinal≤ordinal) :
    ordinals.foldl gen.takeRow (some row)=some row := by
  induction ordinals with
  | nil => rfl
  | cons ordinal ordinals ih =>
    obtain ⟨ho,hrest⟩ := forall_mem_cons.mp h
    rw [foldl_cons,takeRow,if_neg (not_lt.mpr ho)]
    exact ih hrest

theorem primaryRow_of_least (hord : ∀ordinal row,gen.ports.lookup ordinal=some row → row.ordinal≤ordinal) (hrow : gen.ports.lookup least=some row)
    (hleast : ∀ordinal∈gen.ports.keys,least≤ordinal) : gen.primaryRow=some row := by
  have hmem : least∈gen.ports.keys.insertionSort (· ≤ ·) :=
    (mem_insertionSort _).mpr (lookup_isSome.mp (by simp [hrow]))
  have hsorted := pairwise_insertionSort (· ≤ ·) gen.ports.keys
  have hall : ∀ordinal∈gen.ports.keys.insertionSort (· ≤ ·),least≤ordinal :=
    fun ordinal ho => hleast ordinal ((mem_insertionSort _).mp ho)
  unfold primaryRow
  generalize gen.ports.keys.insertionSort (· ≤ ·)=ordinals at hmem hsorted hall
  cases ordinals with
  | nil => cases hmem
  | cons first rest =>
    have hfirst : first=least := by
      apply le_antisymm _ (hall first mem_cons_self)
      rcases mem_cons.mp hmem with rfl | hm
      · exact le_rfl
      · exact (pairwise_cons.mp hsorted).1 least hm
    subst hfirst
    rw [foldl_cons,takeRow,hrow]
    exact foldl_takeRow_keeps row rest
      (fun ordinal ho => le_trans (hord first row hrow) (hall ordinal (mem_cons_of_mem _ ho)))

theorem exists_least (h : ∃ordinal row,gen.ports.lookup ordinal=some row) :
    ∃least row,gen.ports.lookup least=some row ∧ ∀ordinal∈gen.ports.keys,least≤ordinal := by
  obtain ⟨ordinal,row,hrow⟩ := h
  have hmem : ordinal∈gen.ports.keys := lookup_isSome.mp (by simp [hrow])
  have hsorted := pairwise_insertionSort (· ≤ ·) gen.ports.keys
  have hsame x : x∈gen.ports.keys.insertionSort (· ≤ ·) ↔ x∈gen.ports.keys :=
    mem_insertionSort _
  generalize gen.ports.keys.insertionSort (· ≤ ·)=ordinals at hsorted hsame
  cases ordinals with
  | nil => cases (hsame ordinal).mpr hmem
  | cons least rest =>
    obtain ⟨r,hr⟩ := Option.isSome_iff_exists.mp
      (lookup_isSome.mpr ((hsame least).mp mem_cons_self))
    refine ⟨least,r,hr,fun x hx => ?_⟩
    rcases mem_cons.mp ((hsame x).mpr hx) with rfl | hx
    · exact le_rfl
    · exact (pairwise_cons.mp hsorted).1 x hx

section

variable (h : gen.Sound)
include h

theorem Sound.exists_primaryRow :
    ∃least row,gen.ports.lookup least=some row ∧ (∀ordinal∈gen.ports.keys,least≤ordinal) ∧
      gen.primaryRow=some row := by
  obtain ⟨least,row,hrow,hleast⟩ := exists_least h.nonempty
  exact ⟨least,row,hrow,hleast,primaryRow_of_least h.ordinal hrow hleast⟩

theorem Sound.primaryRow_pos (hrow : gen.primaryRow=some row) : 0<row.port := by
  obtain ⟨least,row',hl,-,hp⟩ := h.exists_primaryRow
  cases hp.symm.trans hrow
  exact h.port least row hl

theorem Sound.setPort (hp : 0<row.port) : (gen.setPort row).Sound where
  nonempty := ⟨row.ordinal,row,lookup_insert _⟩
  ordinal := forall_insert h.ordinal le_rfl
  port := forall_insert h.port hp

theorem Sound.primaryRow_setPort (hitem : gen.primaryRow=some item) (ho : row.ordinal=item.ordinal)
    (hp : row.port=item.port) : (gen.setPort row).primaryRow=some row := by
  have hs : (gen.setPort row).Sound := h.setPort (hp ▸ h.primaryRow_pos hitem)
  obtain ⟨least,item',hl,hleast,hp'⟩ := h.exists_primaryRow
  cases hp'.symm.trans hitem
  refine primaryRow_of_least hs.ordinal (lookup_insert _) fun k hk => ?_
  rcases (mem_insert _).mp hk with rfl | hk
  · exact le_rfl
  · exact le_trans (ho ▸ h.ordinal least item hl) (hleast k hk)

theorem Sound.setState (state) : (gen.setState state).Sound := by
  have hlookup k : (gen.setState state).ports.lookup k=
      (gen.ports.lookup k).map (fun row => {row with state := some state}) :=
    lookup_mapRows _ _ k
  obtain ⟨k,row,hrow⟩ := h.nonempty
  refine ⟨⟨k,_,by rw [hlookup,hrow]; rfl⟩,fun k r hr => ?_,fun k r hr => ?_⟩ <;>
    rw [hlookup] at hr <;> obtain ⟨row',hrow',rfl⟩ := Option.map_eq_some_iff.mp hr
  · exact h.ordinal k row' hrow'
  · exact h.port k row' hrow'

end

theorem store_sound (hp : 0 < item.port)
    (hord : ∀ordinal row,gen.ports.lookup ordinal=some row → row.ordinal≤ordinal)
    (hport : ∀ordinal row,gen.ports.lookup ordinal=some row → 0<row.port) :
    (gen.store item).Sound where
  nonempty := ⟨_,item,lookup_insert _⟩
  ordinal := forall_insert hord (by split_ifs <;> omega)
  port := forall_insert hport hp

end PortGeneration

/-- What one call does to the generations of its owner. Only a call that moves the owner to other
ports touches the active generation's state. -/
inductive OwnerStep (owner : List PortGeneration) : Bool → List PortGeneration → Prop
  | kept {moves : Bool} : OwnerStep owner moves owner
  | corrected {moves : Bool} {place : Nat} {gen : PortGeneration} {item row : PortAllocation} :
      activeGeneration owner=some (place,gen) → gen.primaryRow=some item →
      row.ordinal=item.ordinal → row.port=item.port →
      OwnerStep owner moves (owner.set place (gen.setPort row))
  | added {moves : Bool} {gen : PortGeneration} : gen.generation=nextGeneration owner → gen.Sound →
      (gen.state=.active → activeGeneration owner=none) →
      OwnerStep owner moves (addGeneration owner gen)
  | promoted {place : Nat} {preparing : PortGeneration} :
      generationByState owner .preparing=some (place,preparing) → activeGeneration owner=none →
      OwnerStep owner true (owner.set place (preparing.setState .active))
  | switched {place old : Nat} {preparing active : PortGeneration} :
      generationByState owner .preparing=some (place,preparing) →
      activeGeneration owner=some (old,active) →
      OwnerStep owner true
        ((owner.set place (preparing.setState .active)).set old (active.setState .retiring))
  | retired {place : Nat} {active : PortGeneration} : activeGeneration owner=some (place,active) →
      OwnerStep owner true (owner.set place (active.setState .retiring))
  | deleted {moves : Bool} {place : Nat} {target : PortGeneration} :
      owner[place]?=some target → target.state=.retiring →
      OwnerStep owner moves (owner.eraseIdx place)

def activeCount (owner : List PortGeneration) : Nat :=
  owner.countP (fun gen => gen.state=.active)

structure OwnerSound (owner : List PortGeneration) : Prop where
  oneActive : activeCount owner≤1
  sound : ∀gen∈owner,gen.Sound

section steps

variable {owner owner' : List PortGeneration} {gen gen' : PortGeneration}

theorem activeCount_set (h : owner[place]?=some gen) (gen') :
    activeCount (owner.set place gen')+(if gen.state=.active then 1 else 0)=
      activeCount owner+if gen'.state=.active then 1 else 0 := by
  obtain ⟨hlt,rfl⟩ := List.getElem?_eq_some_iff.mp h
  unfold activeCount at *
  rw [countP_set hlt]
  simp only [decide_eq_true_eq]
  split_ifs at * <;> grind

theorem activeCount_cons (gen) (owner) :
    activeCount (gen::owner)=activeCount owner+if gen.state=.active then 1 else 0 := by
  simp [activeCount,countP_cons]

theorem activeCount_addGeneration : activeCount (addGeneration owner gen)=
      activeCount owner+if gen.state=.active then 1 else 0 := by
  rw [activeCount,addGeneration_perm.countP_eq]
  exact activeCount_cons gen owner

theorem activeCount_eq_zero (h : activeGeneration owner=none) : activeCount owner=0 :=
  countP_eq_zero.mpr (fun gen hg => by simpa using activeGeneration_none h gen hg)

theorem active_unique (h : activeCount owner≤1) (hg : gen∈owner) (hg' : gen'∈owner)
    (ha : gen.state=.active) (ha' : gen'.state=.active) : gen=gen' := by
  induction owner with
  | nil => cases hg
  | cons first rest ih =>
    have hone g hm hs : 0<activeCount rest :=
      countP_pos_iff.mpr ⟨g,hm,by simpa using hs⟩
    have hcount := activeCount_cons first rest
    rcases mem_cons.mp hg with rfl | hm <;> rcases mem_cons.mp hg' with rfl | hm'
    · rfl
    · have := hone gen' hm' ha'
      rw [hcount,if_pos ha] at h
      omega
    · have := hone gen hm ha
      rw [hcount,if_pos ha'] at h
      omega
    · exact ih (by omega) hm hm'

theorem switched_old (hprep : generationByState owner .preparing=some (place,preparing))
    (hactive : activeGeneration owner=some (old,active)) (gen') :
    (owner.set place gen')[old]?=some active := by
  obtain ⟨hg,hs⟩ := generationByState_some hprep
  obtain ⟨hg',hs'⟩ := activeGeneration_some hactive
  have hne : place≠old := by
    rintro rfl
    cases hg.symm.trans hg'
    rw [hs] at hs'
    cases hs'
  rw [getElem?_set_ne hne]
  exact hg'

theorem OwnerSound.of_set (h : OwnerSound owner) (hs : gen'.Sound)
    (hc : activeCount (owner.set place gen')≤1) : OwnerSound (owner.set place gen') :=
  ⟨hc,fun g hg => (mem_or_eq_of_mem_set hg).elim (h.sound g) (fun heq => heq ▸ hs)⟩

theorem OwnerSound.step (h : OwnerSound owner) (hstep : OwnerStep owner moves owner') :
    OwnerSound owner' := by
  have hmem {place : Nat} {gen} (hg : owner[place]?=some gen) : gen.Sound :=
    h.sound gen (mem_of_getElem? hg)
  have hone := h.oneActive
  cases hstep with
  | kept => exact h
  | @corrected _ place gen item row hactive hitem ho hp =>
    obtain ⟨hg,hs⟩ := activeGeneration_some hactive
    have hpos := (hmem hg).primaryRow_pos hitem
    refine h.of_set ((hmem hg).setPort (hp ▸ hpos)) ?_
    have hc := activeCount_set hg (gen.setPort row)
    rw [setPort_state] at hc
    omega
  | @added _ gen hnext hs hnew =>
    refine ⟨?_,fun g hg => (mem_addGeneration.mp hg).elim (h.sound g) (fun heq => heq ▸ hs)⟩
    rw [activeCount_addGeneration]
    split_ifs with ha
    · rw [activeCount_eq_zero (hnew ha)]
    · exact hone
  | @promoted place preparing hprep hnone =>
    obtain ⟨hg,hs⟩ := generationByState_some hprep
    refine h.of_set ((hmem hg).setState .active) ?_
    have hc := activeCount_set hg (preparing.setState .active)
    rw [activeCount_eq_zero hnone] at hc
    split_ifs at hc <;> omega
  | @switched place old preparing active hprep hactive =>
    obtain ⟨hg,hs⟩ := generationByState_some hprep
    obtain ⟨hg',hs'⟩ := activeGeneration_some hactive
    have hc := activeCount_set hg (preparing.setState .active)
    have hc' := activeCount_set (switched_old hprep hactive (preparing.setState .active))
      (active.setState .retiring)
    rw [setState_state,if_pos rfl] at hc
    rw [if_pos hs',if_neg (by simp)] at hc'
    refine ⟨by omega,fun g hm => ?_⟩
    rcases mem_or_eq_of_mem_set hm with hm | rfl
    · rcases mem_or_eq_of_mem_set hm with hm | rfl
      · exact h.sound g hm
      · exact (hmem hg).setState .active
    · exact (hmem hg').setState .retiring
  | @retired place active hactive =>
    obtain ⟨hg,hs⟩ := activeGeneration_some hactive
    refine h.of_set ((hmem hg).setState .retiring) ?_
    have hc := activeCount_set hg (active.setState .retiring)
    split_ifs at hc <;> omega
  | deleted htarget hs =>
    exact ⟨le_trans (List.Sublist.countP_le (eraseIdx_sublist _ _)) hone,
      fun g hg => h.sound g (mem_of_mem_eraseIdx hg)⟩

/-- A sound owner serves a port when its active generation's primary row has it. -/
def Serves (owner : List PortGeneration) (port : Int) : Prop :=
  ∃gen∈owner,gen.state=.active ∧ ∃row,gen.primaryRow=some row ∧ row.port=port

theorem Serves.step (h : Serves owner port) (hs : OwnerSound owner)
    (hstep : OwnerStep owner false owner') : Serves owner' port := by
  obtain ⟨active,hm,ha,primary,hprimary,hport⟩ := h
  generalize hmoves : false=moves at hstep
  cases hstep with
  | kept => exact ⟨active,hm,ha,primary,hprimary,hport⟩
  | @corrected _ place gen item row hactive hitem ho hp =>
    obtain ⟨hg,hga⟩ := activeGeneration_some hactive
    cases active_unique hs.oneActive hm (mem_of_getElem? hg) ha hga
    cases hitem.symm.trans hprimary
    have hlt := (List.getElem?_eq_some_iff.mp hg).1
    exact ⟨_,mem_set hlt _,hga,row,
      (hs.sound active hm).primaryRow_setPort hitem ho hp,hp.trans hport⟩
  | added => exact ⟨active,mem_addGeneration.mpr (.inl hm),ha,primary,hprimary,hport⟩
  | promoted => cases hmoves
  | switched => cases hmoves
  | retired => cases hmoves
  | @deleted _ place target htarget hret =>
    obtain ⟨i,hi⟩ := mem_iff_getElem?.mp hm
    refine ⟨active,mem_eraseIdx_iff_getElem?.mpr ⟨i,?_,hi⟩,ha,primary,hprimary,hport⟩
    rintro rfl
    cases hi.symm.trans htarget
    rw [ha] at hret
    cases hret

end steps

section numbers

variable {owner owner' : List PortGeneration}

def generationNumbers (owner : List PortGeneration) : List Int :=
  owner.map generation

theorem generationNumbers_set (h : owner[place]?=some gen) (heq : gen'.generation=gen.generation) :
    generationNumbers (owner.set place gen')=generationNumbers owner := by
  obtain ⟨hlt,rfl⟩ := List.getElem?_eq_some_iff.mp h
  rw [generationNumbers,map_set,heq,← getElem_map generation]
  exact set_getElem_self (by simpa using hlt)

theorem OwnerStep.numbers (h : OwnerStep owner moves owner') :
    (generationNumbers owner').Sublist (generationNumbers owner) ∨
      (generationNumbers owner').Perm (nextGeneration owner::generationNumbers owner) := by
  cases h with
  | kept => exact .inl (List.Sublist.refl _)
  | corrected hactive _ _ _ =>
    rw [generationNumbers_set (activeGeneration_some hactive).1 (setPort_generation _ _)]
    exact .inl (List.Sublist.refl _)
  | added hnext _ _ =>
    rw [← hnext]
    exact .inr (addGeneration_perm.map _)
  | promoted hprep _ =>
    rw [generationNumbers_set (generationByState_some hprep).1 (setState_generation _ _)]
    exact .inl (List.Sublist.refl _)
  | @switched place old preparing active hprep hactive =>
    rw [generationNumbers_set (switched_old hprep hactive _) (setState_generation _ _),
      generationNumbers_set (generationByState_some hprep).1 (setState_generation _ _)]
    exact .inl (List.Sublist.refl _)
  | retired hactive =>
    rw [generationNumbers_set (activeGeneration_some hactive).1 (setState_generation _ _)]
    exact .inl (List.Sublist.refl _)
  | deleted _ _ => exact .inl ((eraseIdx_sublist _ _).map _)

theorem nextGeneration_spec (hroom : ∀n∈generationNumbers owner,n+1<2^63) :
    (∀n∈generationNumbers owner,n<nextGeneration owner) ∧
      (nextGeneration owner=1 ∨ ∃n∈generationNumbers owner,nextGeneration owner=n+1) := by
  have aux acc (hacc : 1≤acc) :
      let next := owner.foldl (fun next gen =>
        if next≤gen.generation then wrap (gen.generation+1) else next) acc
      acc≤next ∧ (∀n∈generationNumbers owner,n<next) ∧
        (next=acc ∨ ∃n∈generationNumbers owner,next=n+1) := by
    induction owner generalizing acc with
    | nil => exact ⟨le_rfl,nofun,.inl rfl⟩
    | cons gen owner ih =>
      obtain ⟨hgen,hrest⟩ := forall_mem_cons.mp hroom
      simp only [foldl_cons]
      by_cases hle : acc≤gen.generation
      · have hw : wrap (gen.generation+1)=gen.generation+1 := wrap_of_fits ⟨by omega,hgen⟩
        rw [if_pos hle,hw]
        obtain ⟨h1,h2,h3⟩ := ih hrest (gen.generation+1) (by omega)
        refine ⟨by omega,forall_mem_cons.mpr ⟨by omega,h2⟩,.inr ?_⟩
        rcases h3 with h3 | ⟨n,hn,h3⟩
        · exact ⟨gen.generation,mem_cons_self,h3⟩
        · exact ⟨n,mem_cons_of_mem _ hn,h3⟩
      · rw [if_neg hle]
        obtain ⟨h1,h2,h3⟩ := ih hrest acc hacc
        refine ⟨h1,forall_mem_cons.mpr ⟨by omega,h2⟩,?_⟩
        rcases h3 with h3 | ⟨n,hn,h3⟩
        · exact .inl h3
        · exact .inr ⟨n,mem_cons_of_mem _ hn,h3⟩
  exact (aux 1 le_rfl).2

/-- Numbers are distinct and leave room for a number of further generations. -/
structure Numbered (owner : List PortGeneration) (room : Nat) : Prop where
  nodup : (generationNumbers owner).Nodup
  bound : ∀n∈generationNumbers owner,n+room<2^63

theorem Numbered.step (h : Numbered owner (room+1)) (hroom : (room : Int)+1<2^63)
    (hstep : OwnerStep owner moves owner') : Numbered owner' room := by
  have hb := h.bound
  rcases hstep.numbers with hsub | hperm
  · exact ⟨h.nodup.sublist hsub,fun n hn => by
      have := hb n (hsub.subset hn)
      omega⟩
  have hone : ∀n∈generationNumbers owner,n+1<2^63 := fun n hn => by
    have := hb n hn
    omega
  obtain ⟨hnew,hnext⟩ := nextGeneration_spec hone
  refine ⟨hperm.nodup_iff.mpr (nodup_cons.mpr ⟨fun hm => ?_,h.nodup⟩),fun n hn => ?_⟩
  · exact absurd (hnew _ hm) (lt_irrefl _)
  rcases mem_cons.mp (hperm.mem_iff.mp hn) with rfl | hn
  · rcases hnext with heq | ⟨m,hm,heq⟩
    · omega
    · have := hb m hm
      omega
  · have := hb n hn
    omega

end numbers

end Oboard.Core
