import Mathlib.Data.List.AList
import Mathlib.Algebra.Ring.Int.Defs
import Mathlib.Algebra.BigOperators.Group.List.Basic
import Mathlib.Algebra.Order.BigOperators.Group.List

namespace Oboard

open List

/-- One SQL table with a unique key. Key uniqueness is carried by the entries. -/
abbrev Table (κ ρ : Type) := AList (fun _ : κ => ρ)

namespace Table

variable {κ ρ : Type}

def mapRows (f : κ → ρ → ρ) (t : Table κ ρ) : Table κ ρ where
  entries := t.entries.map (fun e => ⟨e.1,f e.1 e.2⟩)
  nodupKeys := by
    have h : keys (t.entries.map (fun e => (⟨e.1,f e.1 e.2⟩ : Sigma fun _ : κ => ρ)))=
        t.entries.keys := by simp [keys]
    rw [List.NodupKeys,h]
    exact t.nodupKeys

variable (t : Table κ ρ)

theorem mapRows_mapRows (f g) : (t.mapRows f).mapRows g=t.mapRows (fun k r => g k (f k r)) := by
  apply AList.ext
  simp [mapRows,Function.comp_def]

def deleteRows (p : κ → ρ → Bool) (t : Table κ ρ) : Table κ ρ where
  entries := t.entries.filter (fun e => !p e.1 e.2)
  nodupKeys := t.nodupKeys.sublist filter_sublist

def rows (t : Table κ ρ) : List (κ×ρ) := t.entries.map (fun e => (e.1,e.2))

def newest : List (Int×ρ) → Option (Int×ρ)
  | [] => none
  | row::rows =>
    match newest rows with
    | none => some row
    | some best => if best.1≤row.1 then some row else some best

theorem newest_mem {rows : List (Int×ρ)} (h : newest rows=some row) : row∈rows := by
  induction rows generalizing row with
  | nil => cases h
  | cons first rows ih =>
    unfold newest at h
    split at h
    · cases h
      exact mem_cons_self
    next best hbest =>
    split_ifs at h
    all_goals cases h
    · exact mem_cons_self
    · exact mem_cons_of_mem _ (ih hbest)

theorem newest_eq_none {rows : List (Int×ρ)} : newest rows=none ↔ rows=[] := by
  cases rows with
  | nil => simp [newest]
  | cons first rows =>
    simp only [newest,reduceCtorEq,iff_false]
    split
    · simp
    · split_ifs <;> simp

def total (f : κ → ρ → Int) (t : Table κ ρ) : Int :=
  (t.entries.map (fun e => f e.1 e.2)).sum

theorem total_add : total (fun k r => f k r+g k r) t=total f t+total g t := by
  unfold total
  induction t.entries with
  | nil => rfl
  | cons e l ih =>
    simp only [map_cons,sum_cons,ih]
    omega

theorem total_congr (f g) (h : ∀e∈t.entries,f e.1 e.2=g e.1 e.2) : total f t=total g t := by
  unfold total
  rw [map_congr_left h]

section lookups

variable [DecidableEq κ]

/-- Update of at most one row. A missing key leaves the table unchanged. -/
def modify (k : κ) (f : ρ → ρ) (t : Table κ ρ) : Table κ ρ :=
  match t.lookup k with
  | none => t
  | some r => t.insert k (f r)

theorem lookup_insert_eq (t : Table κ ρ) (k k' : κ) (r : ρ) :
    (t.insert k r).lookup k'=if k'=k then some r else t.lookup k' := by
  by_cases h : k'=k
  · subst k'
    simp
  · rw [AList.lookup_insert_ne h,if_neg h]

variable {t : Table κ ρ} {k : κ} {r : ρ} {rows : List (κ×ρ)}

theorem lookup_insert_cases (h : (t.insert k r).lookup k'=some r') :
    (k'=k ∧ r'=r) ∨ t.lookup k'=some r' := by
  rw [lookup_insert_eq] at h
  split_ifs at h with hk
  · exact .inl ⟨hk,(Option.some.inj h).symm⟩
  · exact .inr h

theorem forall_insert {P : κ → ρ → Prop} (h : ∀k r,t.lookup k=some r → P k r) (hk : P k r) :
    ∀k' r',(t.insert k r).lookup k'=some r' → P k' r' := by
  intro k' r' hr
  rcases lookup_insert_cases hr with ⟨rfl,rfl⟩ | hold
  · exact hk
  · exact h k' r' hold

/-- Adds a row unless its key is taken. -/
def putNew (t : Table κ ρ) (row : κ×ρ) : Table κ ρ :=
  if (t.lookup row.1).isSome then t else t.insert row.1 row.2

theorem lookup_foldl_putNew [BEq κ] [LawfulBEq κ] (rows : List (κ×ρ)) (t : Table κ ρ) (k : κ) :
    (rows.foldl putNew t).lookup k=(t.lookup k).or (rows.lookup k) := by
  induction rows generalizing t with
  | nil => simp
  | cons row rows ih =>
    rw [foldl_cons,ih,lookup_cons,putNew]
    by_cases hk : k=row.1
    · subst hk
      cases h : t.lookup row.1 with
      | none => simp
      | some r => simp [h]
    have hb : (k==row.1)=false := beq_false_of_ne hk
    split_ifs
    · rw [hb]
    · rw [hb,AList.lookup_insert_ne hk]

omit [DecidableEq κ] in
theorem mem_of_lookup [BEq κ] [LawfulBEq κ] (h : rows.lookup k=some r) : (k,r)∈rows := by
  obtain ⟨l1,l2,rfl,-⟩ := lookup_eq_some_iff.mp h
  simp

omit [DecidableEq κ] in
theorem lookup_of_mem [BEq κ] [LawfulBEq κ] (h : (k,r)∈rows) : ∃r',rows.lookup k=some r' := by
  cases hl : rows.lookup k with
  | none =>
    rw [lookup_eq_none_iff] at hl
    exact absurd (hl _ h) (by simp)
  | some r' => exact ⟨r',rfl⟩

/-- Adds rows in order, later rows replace earlier ones of the same key. -/
def putAll (t : Table κ ρ) (rows : List (κ×ρ)) : Table κ ρ :=
  rows.foldl (fun t row => t.insert row.1 row.2) t

theorem lookup_putAll [BEq κ] [LawfulBEq κ] (rows : List (κ×ρ)) (t : Table κ ρ) (k : κ) :
    (putAll t rows).lookup k=(rows.reverse.lookup k).or (t.lookup k) := by
  induction rows generalizing t with
  | nil => simp [putAll]
  | cons row rows ih =>
    have hstep : putAll t (row::rows)=putAll (t.insert row.1 row.2) rows := rfl
    rw [hstep,ih,reverse_cons,lookup_append,lookup_insert_eq,lookup_cons]
    by_cases hk : k=row.1
    · subst hk
      cases lookup row.1 rows.reverse <;> simp
    have hb : (k==row.1)=false := beq_false_of_ne hk
    rw [hb,if_neg hk]
    cases lookup k rows.reverse <;> simp

theorem lookup_map_key [BEq κ] [LawfulBEq κ] (key : α → κ) (f : α → ρ) (l : List α) (k : κ) :
    (l.map (fun r => (key r,f r))).lookup k=(l.find? (fun r => key r=k)).map f := by
  induction l with
  | nil => rfl
  | cons r l ih =>
    rw [map_cons,lookup_cons,find?_cons,ih]
    by_cases hk : key r=k
    · simp [hk]
    · have hb : (k==key r)=false := beq_false_of_ne (Ne.symm hk)
      simp [hk,hb]

theorem lookup_putAll_map [BEq κ] [LawfulBEq κ] (key : α → κ) (f : α → ρ) (l : List α)
    (t : Table κ ρ) (k : κ) : (putAll t (l.map (fun r => (key r,f r)))).lookup k=
      ((l.reverse.find? (fun r => key r=k)).map f).or (t.lookup k) := by
  rw [lookup_putAll,← map_reverse,lookup_map_key]

theorem lookup_putAll_filterMap [BEq κ] [LawfulBEq κ] {f : α → Option (κ×ρ)}
    {l : List α} (hn : (l.map key).Nodup) (hf : ∀a row,f a=some row → row.1=key a) :
    (putAll ∅ (l.filterMap f)).lookup k=some r ↔ ∃a∈l,f a=some (k,r) := by
  rw [lookup_putAll,AList.lookup_empty,Option.or_none]
  constructor
  · exact fun hl => mem_filterMap.mp (mem_reverse.mp (mem_of_lookup hl))
  rintro ⟨a,ha,hfa⟩
  obtain ⟨r',hr'⟩ := lookup_of_mem (mem_reverse.mpr (mem_filterMap.mpr ⟨a,ha,hfa⟩))
  obtain ⟨b,hb,hfb⟩ := mem_filterMap.mp (mem_reverse.mp (mem_of_lookup hr'))
  have hkeys : key b=key a := by rw [← hf b _ hfb,← hf a _ hfa]
  rw [inj_on_of_nodup_map hn hb ha hkeys,hfa] at hfb
  rw [hr',(Prod.mk.inj (Option.some.inj hfb)).2]

omit [DecidableEq κ] in
/-- A search that only one key can answer finds the record of this key. -/
theorem find_of_key {l : List α} (hn : (l.map key).Nodup)
    (ha : a∈l) (hp : p a=true) (hkey : ∀b,p b=true → key b=key a) : l.find? p=some a := by
  cases hf : l.find? p with
  | none => exact absurd hp (find?_eq_none.mp hf a ha)
  | some b =>
    rw [inj_on_of_nodup_map hn (mem_of_find?_eq_some hf) ha (hkey b (find?_some hf))]

/-- The order of records does not matter to a search that at most one record meets. -/
theorem find_perm {l m : List α} (hp : l.Perm m)
    (hu : ∀a∈l,∀b∈l,p a=true → p b=true → a=b) : l.find? p=m.find? p := by
  cases hl : l.find? p with
  | none =>
    symm
    rw [find?_eq_none] at hl ⊢
    exact fun a ha => hl a (hp.mem_iff.mpr ha)
  | some a =>
    have ha := mem_of_find?_eq_some hl
    cases hm : m.find? p with
    | none => exact absurd (find?_some hl) (find?_eq_none.mp hm a (hp.mem_iff.mp ha))
    | some b =>
      have hb := hp.mem_iff.mpr (mem_of_find?_eq_some hm)
      rw [hu a ha b hb (find?_some hl) (find?_some hm)]

def push (t : Table κ (List ρ)) (row : κ×ρ) : Table κ (List ρ) :=
  t.insert row.1 ((t.lookup row.1).getD []++[row.2])

def valuesOf (rows : List (κ×ρ)) (k : κ) : List ρ :=
  (rows.filter (fun row => row.1=k)).map Prod.snd

theorem mem_valuesOf : r∈valuesOf rows k ↔ (k,r)∈rows := by
  simp [valuesOf]

theorem lookup_foldl_push (rows : List (κ×ρ)) (t : Table κ (List ρ)) (k : κ) :
    (rows.foldl push t).lookup k=
      if valuesOf rows k=[] then t.lookup k else some ((t.lookup k).getD []++valuesOf rows k) := by
  induction rows generalizing t with
  | nil => simp [valuesOf]
  | cons row rows ih =>
    rw [foldl_cons,ih,push,lookup_insert_eq]
    by_cases hk : k=row.1
    · subst hk
      have hv : valuesOf (row::rows) row.1=row.2::valuesOf rows row.1 := by simp [valuesOf]
      rw [hv,if_pos rfl,if_neg (cons_ne_nil _ _)]
      by_cases h : valuesOf rows row.1=[]
      · rw [if_pos h,h]
      · rw [if_neg h]
        simp
    · have hv : valuesOf (row::rows) k=valuesOf rows k := by
        simp [valuesOf,Ne.symm hk]
      rw [hv,if_neg hk]

theorem field_foldl_push (field : σ → Table κ (List ρ)) (rows : ι → List (κ×ρ))
    (h : ∀s i,field (step s i)=(rows i).foldl push (field s)) (is : List ι) (s : σ) :
    field (is.foldl step s)=(is.flatMap rows).foldl push (field s) := by
  induction is generalizing s with
  | nil => rfl
  | cons i is ih => rw [foldl_cons,ih,h,flatMap_cons,foldl_append]

section

variable (t : Table κ ρ)

theorem lookup_modify (k k' : κ) (f : ρ → ρ) :
    (t.modify k f).lookup k'=if k'=k then (t.lookup k).map f else t.lookup k' := by
  unfold modify
  cases h : t.lookup k with
  | none =>
    by_cases hk : k'=k
    · subst k'
      simp [h]
    · simp [hk]
  | some r =>
    rw [lookup_insert_eq]
    rfl

theorem getD_putNew (k k' : κ) (d : ρ) :
    ((t.putNew (k,d)).lookup k').getD d=(t.lookup k').getD d := by
  unfold putNew
  split_ifs with h
  · rfl
  rw [lookup_insert_eq]
  split_ifs with hk
  · subst hk
    rw [Option.not_isSome_iff_eq_none.mp h]
    rfl
  · rfl

theorem isSome_putNew (row) : ((t.putNew row).lookup row.1).isSome := by
  unfold putNew
  split_ifs with h
  · exact h
  · simp

theorem getD_modify (k k') (f) (d) : ((t.modify k f).lookup k').getD d=
      if k'=k ∧ (t.lookup k).isSome then f ((t.lookup k').getD d) else (t.lookup k').getD d := by
  rw [lookup_modify]
  by_cases hk : k'=k
  · subst hk
    cases t.lookup k' <;> simp
  · simp [hk]

theorem lookup_mapRows (f) (k) : (t.mapRows f).lookup k=(t.lookup k).map (f k) := by
  have aux (l : List (Sigma fun _ : κ => ρ)) :
      dlookup k (l.map (fun e => (⟨e.1,f e.1 e.2⟩ : Sigma fun _ : κ => ρ)))=
        (dlookup k l).map (f k) := by
    induction l with
    | nil => rfl
    | cons e l ih =>
      obtain ⟨a,r⟩ := e
      by_cases h : k=a
      · subst a
        simp
      · rw [map_cons,dlookup_cons_ne _ _ h,dlookup_cons_ne _ _ h,ih]
  exact aux t.entries

theorem mem_entries_iff (k) (r) : (⟨k,r⟩ : Sigma fun _ : κ => ρ)∈t.entries ↔ t.lookup k=some r :=
  AList.mem_lookup_iff.symm

end

theorem mem_rows : (k,r)∈t.rows ↔ t.lookup k=some r := by
  rw [rows,mem_map,← mem_entries_iff]
  constructor
  · rintro ⟨e,he,heq⟩
    cases heq
    exact he
  · exact fun h => ⟨_,h,rfl⟩

omit [DecidableEq κ] in
theorem nodup_keys (t : Table κ ρ) : (t.rows.map (·.1)).Nodup := by
  have h := t.nodupKeys
  rw [List.NodupKeys,keys] at h
  rwa [rows,map_map]

theorem lookup_deleteRows (t : Table κ ρ) (p : κ → ρ → Bool) (k : κ) :
    (t.deleteRows p).lookup k=(t.lookup k).filter (fun r => !p k r) := by
  apply Option.ext
  intro r
  rw [← mem_entries_iff]
  change _∈t.entries.filter _ ↔ _
  rw [mem_filter,mem_entries_iff,Option.filter_eq_some_iff]

/-- Deletion of at most `limit` of the rows that match, in the order in which they are found. -/
def deleteLimited (order : List κ → List κ) (limit : Nat) (p : κ → ρ → Bool) (t : Table κ ρ) :
    Table κ ρ :=
  let found := (order ((t.rows.filter (fun r => p r.1 r.2)).map (·.1))).take limit
  t.deleteRows (fun k r => p k r && found.contains k)

theorem lookup_of_deleteLimited
    (h : (t.deleteLimited order limit p).lookup k=some r) : t.lookup k=some r := by
  rw [deleteLimited,lookup_deleteRows] at h
  exact (Option.filter_eq_some_iff.mp h).1

theorem lookup_deleteLimited_of_not (h : ∀r,t.lookup k=some r → p k r=false) :
    (t.deleteLimited order limit p).lookup k=t.lookup k := by
  rw [deleteLimited,lookup_deleteRows]
  cases hr : t.lookup k with
  | none => rfl
  | some r => simp [Option.filter,h r hr]

/-- A table holds at most one row for a key, so a rewrite moves a column sum by
exactly the difference of that row. -/
theorem total_insert (t : Table κ ρ) (f : κ → ρ → Int) (k : κ) (r : ρ) :
    total f (t.insert k r)=total f t-((t.lookup k).elim 0 (f k))+f k r := by
  unfold total
  rw [AList.entries_insert,map_cons,sum_cons]
  have aux (l : List (Sigma fun _ : κ => ρ)) : ((kerase k l).map (fun e => f e.1 e.2)).sum=
        (l.map (fun e => f e.1 e.2)).sum-((dlookup k l).elim 0 (f k)) := by
    induction l with
    | nil => simp
    | cons e l ih =>
      obtain ⟨a,b⟩ := e
      by_cases h : k=a
      · subst a
        simp
      rw [kerase_cons_ne h,dlookup_cons_ne _ _ h]
      simp only [map_cons,sum_cons,ih]
      omega
  rw [aux]
  change f k r+(_-(t.lookup k).elim 0 (f k))=_
  omega

theorem length_filter_le {t' : Table κ ρ}
    (h : ∀k r,t.lookup k=some r → p (k,r)=true → ∃r',t'.lookup k=some r' ∧ q (k,r')=true) :
    (t.rows.filter p).length≤(t'.rows.filter q).length := by
  have hnodup : ((t.rows.filter p).map (·.1)).Nodup := (filter_sublist.map _).nodup (nodup_keys t)
  have hsub : (t.rows.filter p).map (·.1)⊆(t'.rows.filter q).map (·.1) := by
    intro k hk
    obtain ⟨⟨k,r⟩,hr,rfl⟩ := mem_map.mp hk
    obtain ⟨hrow,hp⟩ := mem_filter.mp hr
    obtain ⟨r',hlookup,hq⟩ := h k r (mem_rows.mp hrow) hp
    exact mem_map.mpr ⟨(k,r'),mem_filter.mpr ⟨mem_rows.mpr hlookup,hq⟩,rfl⟩
  have := (subperm_of_subset hnodup hsub).length_le
  rwa [length_map,length_map] at this

omit [DecidableEq κ] in
theorem length_filter_rows (t : Table κ ρ) (p : κ×ρ → Bool) :
    ((t.rows.filter p).length : Int)=t.total (fun k r => if p (k,r) then 1 else 0) := by
  unfold total rows
  generalize t.entries=entries
  induction entries with
  | nil => rfl
  | cons e entries ih =>
    rw [map_cons,map_cons,sum_cons,← ih,filter_cons]
    dsimp only
    split_ifs
    · rw [length_cons]
      omega
    · omega

theorem total_modify (t : Table κ ρ) (f : κ → ρ → Int) (k : κ) (g : ρ → ρ) :
    total f (t.modify k g)=total f t+((t.lookup k).elim 0 (fun r => f k (g r)-f k r)) := by
  unfold modify
  cases h : t.lookup k with
  | none => simp
  | some r =>
    rw [total_insert,h]
    simp only [Option.elim]
    omega

theorem total_move (hne : source≠target)
    (hrow : f target row=(t.lookup target).elim 0 (f target)+(t.lookup source).elim 0 (f source))
    (hclear : ∀r,f source (clear r)=0) :
    total f (Table.modify source clear (t.insert target row))=total f t := by
  rw [total_modify,total_insert,lookup_insert_eq,if_neg hne,hrow]
  cases t.lookup source with
  | none =>
    simp only [Option.elim]
    omega
  | some r =>
    simp only [Option.elim,hclear]
    omega

theorem total_single (t : Table κ ρ) (f : κ → ρ → Int) (k : κ) :
    total (fun k' r => if k'=k then f k' r else 0) t=(t.lookup k).elim 0 (f k) := by
  have aux (l : List (Sigma fun _ : κ => ρ)) (hl : l.NodupKeys) :
      (l.map (fun e => if e.1=k then f e.1 e.2 else 0)).sum= (dlookup k l).elim 0 (f k) := by
    induction l with
    | nil => rfl
    | cons e l ih =>
      obtain ⟨a,r⟩ := e
      obtain ⟨ha,hl⟩ := nodupKeys_cons.mp hl
      by_cases h : a=k
      · subst h
        have hrest : dlookup a l=none := dlookup_eq_none.mpr ha
        simp [ih hl,hrest]
      · rw [map_cons,sum_cons,if_neg h,zero_add,ih hl, dlookup_cons_ne _ _ (Ne.symm h)]
  exact aux t.entries t.nodupKeys

theorem total_split (t : Table κ ρ) (f : κ → ρ → Int) (k : κ) :
    total f t=total (fun k' r => if k'=k then 0 else f k' r) t+(t.lookup k).elim 0 (f k) := by
  rw [← total_single,← total_add]
  apply total_congr
  intro e _
  by_cases h : e.1=k <;> simp [h]

theorem total_nonneg_of_rows (h : ∀k r,t.lookup k=some r → 0≤f k r) : 0≤total f t := by
  apply sum_nonneg
  intro x hx
  obtain ⟨e,he,rfl⟩ := mem_map.mp hx
  exact h e.1 e.2 ((mem_entries_iff t e.1 e.2).mp he)

theorem add_le_total (hne : k≠k') (h : ∀k r,t.lookup k=some r → 0≤f k r) :
    (t.lookup k).elim 0 (f k)+(t.lookup k').elim 0 (f k')≤total f t := by
  rw [total_split t f k,total_split t _ k']
  have hrest : 0≤total (fun i r => if i=k' then 0 else if i=k then 0 else f i r) t := by
    refine total_nonneg_of_rows fun i r hr => ?_
    split_ifs
    · exact le_rfl
    · exact le_rfl
    · exact h i r hr
  simp only [if_neg hne.symm]
  change _≤_+(t.lookup k').elim 0 (f k')+_
  omega

theorem find_row (hrows : ∀row∈rows,row∈t.rows) (hk : ∀r,t.lookup k=some r → (k,r)∈rows) :
    rows.find? (·.1=k)=(t.lookup k).map (fun r => (k,r)) := by
  cases hf : rows.find? (·.1=k) with
  | none =>
    cases hr : t.lookup k with
    | none => rfl
    | some r => simpa using find?_eq_none.mp hf _ (hk r hr)
  | some row =>
    obtain ⟨k',r⟩ := row
    obtain rfl : k'=k := by simpa using find?_some hf
    rw [mem_rows.mp (hrows _ (mem_of_find?_eq_some hf))]
    rfl

end lookups

theorem total_nonneg (f) (h : ∀k r,0≤f k r) : 0≤total f t := by
  apply sum_nonneg
  intro x hx
  obtain ⟨e,_,rfl⟩ := mem_map.mp hx
  exact h e.1 e.2

theorem total_mapRows (f) (g) (h : ∀k r,f k (g k r)=f k r) : total f (t.mapRows g)=total f t := by
  simp [total,mapRows,h,Function.comp_def]

end Table

end Oboard
