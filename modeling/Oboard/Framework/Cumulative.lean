import Mathlib.Algebra.Order.BigOperators.Group.Finset

namespace Oboard.Cumulative

open List

/-- A report of how far a counter has come, with the group that the counter counts for. -/
structure Snapshot (γ κ ρ : Type) where
  group : γ
  counter : κ
  seq : Int
  value : ρ

variable {γ κ ρ : Type} [DecidableEq κ]

def pick (best : Option (Snapshot γ κ ρ)) (s : Snapshot γ κ ρ) : Option (Snapshot γ κ ρ) :=
  best.elim (some s) (fun b => if s.seq<b.seq then some b else some s)

def latest (l : List (Snapshot γ κ ρ)) (c : κ) : Option (Snapshot γ κ ρ) :=
  (l.filter (·.counter=c)).foldl pick none

def counters [DecidableEq γ] (l : List (Snapshot γ κ ρ)) (k : γ) : Finset κ :=
  ((l.filter (·.group=k)).map (·.counter)).toFinset

def reached (f : ρ → Nat) (l : List (Snapshot γ κ ρ)) (c : κ) : Nat :=
  (latest l c).elim 0 (fun s => f s.value)

def total [DecidableEq γ] (f : ρ → Nat) (l : List (Snapshot γ κ ρ)) (k : γ) : Nat :=
  ∑ c∈counters l k,reached f l c

variable {f : ρ → Nat} {l l' : List (Snapshot γ κ ρ)} {s : Snapshot γ κ ρ}

theorem latest_snoc (l : List (Snapshot γ κ ρ)) (s : Snapshot γ κ ρ) (c : κ) :
    latest (l++[s]) c=if s.counter=c then pick (latest l c) s else latest l c := by
  unfold latest
  rw [filter_append,foldl_append,filter_singleton]
  by_cases hc : s.counter=c <;> simp [hc]

theorem latest_snoc_ne (h : c≠s.counter) : latest (l++[s]) c=latest l c := by
  rw [latest_snoc,if_neg (Ne.symm h)]

theorem latest_snoc_self : (∃t,latest l s.counter=some t ∧ s.seq<t.seq ∧
      latest (l++[s]) s.counter=some t) ∨
    ((∀t,latest l s.counter=some t → t.seq≤ s.seq) ∧ latest (l++[s]) s.counter=some s) := by
  rw [latest_snoc,if_pos rfl]
  cases hlatest : latest l s.counter with
  | none => exact .inr ⟨nofun,rfl⟩
  | some t =>
    by_cases hlt : s.seq<t.seq
    · exact .inl ⟨t,rfl,hlt,if_pos hlt⟩
    refine .inr ⟨fun t' ht' => ?_,if_neg hlt⟩
    cases ht'
    exact not_lt.mp hlt

theorem latest_exists (h : s∈l) : ∃t,latest l s.counter=some t := by
  induction l using List.reverseRecOn with
  | nil => exact nomatch h
  | append_singleton l e ih =>
    by_cases hc : s.counter=e.counter
    · rw [hc]
      rcases latest_snoc_self (l := l) (s := e) with ⟨t,-,-,hnew⟩ | ⟨-,hnew⟩ <;> exact ⟨_,hnew⟩
    rw [latest_snoc_ne hc]
    rcases mem_append.mp h with h | h
    · exact ih h
    · cases mem_singleton.mp h
      exact absurd rfl hc

theorem latest_spec (h : latest l c=some s) :
    s∈l ∧ s.counter=c ∧ ∀t∈l,t.counter=c → t.seq≤ s.seq := by
  induction l using List.reverseRecOn generalizing s with
  | nil => exact nomatch h
  | append_singleton l e ih =>
    -- The bound for the earlier snapshots carries over, the last one is compared.
    have hsnoc (hold : ∀t∈l,t.counter=c → t.seq≤ s.seq) (hlast : e.counter=c → e.seq≤ s.seq) :
        ∀t∈l++[e],t.counter=c → t.seq≤ s.seq := by
      intro t ht hct
      rcases mem_append.mp ht with ht | ht
      · exact hold t ht hct
      · cases mem_singleton.mp ht
        exact hlast hct
    by_cases hc : c=e.counter
    · subst hc
      rcases latest_snoc_self (l := l) (s := e) with ⟨t,hold,hlt,hnew⟩ | ⟨hmax,hnew⟩
      · cases h.symm.trans hnew
        obtain ⟨hmem,hcounter,hbound⟩ := ih hold
        exact ⟨mem_append_left _ hmem,hcounter,hsnoc hbound fun _ => hlt.le⟩
      cases h.symm.trans hnew
      refine ⟨mem_append_right _ mem_cons_self,rfl,hsnoc (fun t ht hct => ?_) fun _ => le_rfl⟩
      obtain ⟨u,hold⟩ := latest_exists ht
      rw [hct] at hold
      exact ((ih hold).2.2 t ht hct).trans (hmax u hold)
    · rw [latest_snoc_ne hc] at h
      obtain ⟨hmem,hcounter,hbound⟩ := ih h
      exact ⟨mem_append_left _ hmem,hcounter,hsnoc hbound fun hce => absurd hce.symm hc⟩

theorem reached_eq_zero (h : ∀s∈l,s.counter≠c) : reached f l c=0 := by
  unfold reached
  cases hlatest : latest l c with
  | none => rfl
  | some s =>
    obtain ⟨hmem,hcounter,-⟩ := latest_spec hlatest
    exact absurd hcounter (h s hmem)

variable [DecidableEq γ]

theorem mem_counters : c∈counters l k ↔ ∃s∈l,s.group=k ∧ s.counter=c := by
  simp only [counters,mem_toFinset,mem_map,mem_filter,decide_eq_true_eq,and_assoc]

theorem counters_snoc (l : List (Snapshot γ κ ρ)) (s : Snapshot γ κ ρ) (k : γ) :
    counters (l++[s]) k=if s.group=k then insert s.counter (counters l k) else counters l k := by
  ext c
  split_ifs with hk
  · simp only [mem_counters,Finset.mem_insert,mem_append,mem_singleton]
    constructor
    · rintro ⟨t,ht | rfl,hgroup,hcounter⟩
      · exact .inr ⟨t,ht,hgroup,hcounter⟩
      · exact .inl hcounter.symm
    rintro (rfl | ⟨t,ht,hgroup,hcounter⟩)
    · exact ⟨s,.inr rfl,hk,rfl⟩
    · exact ⟨t,.inl ht,hgroup,hcounter⟩
  · simp only [mem_counters,mem_append,mem_singleton]
    constructor
    · rintro ⟨t,ht | rfl,hgroup,hcounter⟩
      · exact ⟨t,ht,hgroup,hcounter⟩
      · exact absurd hgroup hk
    · rintro ⟨t,ht,hgroup,hcounter⟩
      exact ⟨t,.inl ht,hgroup,hcounter⟩

/-- Every counter counts for one group only. -/
def Mapped (target : κ → γ) (l : List (Snapshot γ κ ρ)) : Prop := ∀s∈l,s.group=target s.counter

omit [DecidableEq γ] [DecidableEq κ] in
theorem Mapped.mono (h : Mapped target l') (hsub : l⊆l') : Mapped target l :=
  fun s hs => h s (hsub hs)

theorem total_snoc_ne (h : Mapped target (l++[s])) (hk : s.group≠k) :
    total f (l++[s]) k=total f l k := by
  unfold total
  rw [counters_snoc,if_neg hk]
  refine Finset.sum_congr rfl fun c hc => ?_
  have hne : c≠s.counter := by
    rintro rfl
    obtain ⟨t,ht,hgroup,hcounter⟩ := mem_counters.mp hc
    apply hk
    rw [h s (by simp),← hcounter,← h t (mem_append_left _ ht),hgroup]
  rw [reached,reached,latest_snoc_ne hne]

/-- A new snapshot moves the total of its group as far as its counter moves. -/
theorem total_snoc_self (h : Mapped target (l++[s])) :
    total f (l++[s]) s.group+reached f l s.counter=
      total f l s.group+reached f (l++[s]) s.counter := by
  have hall : total f l s.group=∑ c∈insert s.counter (counters l s.group),reached f l c := by
    refine (Finset.sum_insert_of_eq_zero_if_notMem fun hnot => reached_eq_zero fun t ht hc => ?_).symm
    apply hnot
    refine mem_counters.mpr ⟨t,ht,?_,hc⟩
    rw [h t (mem_append_left _ ht),hc,h s (by simp)]
  have hnew : total f (l++[s]) s.group=
      ∑ c∈insert s.counter (counters l s.group),reached f (l++[s]) c := by
    rw [total,counters_snoc,if_pos rfl]
  have hmem := Finset.mem_insert_self s.counter (counters l s.group)
  rw [hall,hnew,← Finset.sum_erase_add _ _ hmem,← Finset.sum_erase_add _ _ hmem]
  have hrest : ∑ c∈(insert s.counter (counters l s.group)).erase s.counter,reached f (l++[s]) c=
      ∑ c∈(insert s.counter (counters l s.group)).erase s.counter,reached f l c := by
    refine Finset.sum_congr rfl fun c hc => ?_
    rw [reached,reached,latest_snoc_ne (Finset.ne_of_mem_erase hc)]
  rw [hrest]
  omega

def Grows (f : ρ → Nat) (l : List (Snapshot γ κ ρ)) : Prop :=
  ∀s∈l,∀t∈l,s.counter=t.counter → s.seq≤t.seq → f s.value≤f t.value

omit [DecidableEq γ] in
theorem reached_mono (hsub : l⊆l') (hgrows : Grows f l') : reached f l c≤reached f l' c := by
  unfold reached
  cases hlatest : latest l c with
  | none => exact Nat.zero_le _
  | some s =>
    obtain ⟨hmem,hcounter,-⟩ := latest_spec hlatest
    obtain ⟨t,ht⟩ := latest_exists (hsub hmem)
    rw [hcounter] at ht
    obtain ⟨hmem',hcounter',hmax⟩ := latest_spec ht
    rw [ht]
    exact hgrows s (hsub hmem) t hmem' (hcounter.trans hcounter'.symm) (hmax s (hsub hmem) hcounter)

/-- More snapshots never make a total smaller, whatever order they come in. -/
theorem total_mono (hsub : l⊆l') (hgrows : Grows f l') (k) : total f l k≤total f l' k := by
  have hcounters : counters l k⊆counters l' k := by
    intro c hc
    obtain ⟨s,hs,hgroup,hcounter⟩ := mem_counters.mp hc
    exact mem_counters.mpr ⟨s,hsub hs,hgroup,hcounter⟩
  exact (Finset.sum_le_sum fun c _ => reached_mono hsub hgrows).trans
    (Finset.sum_le_sum_of_subset hcounters)

theorem reached_le_total (h : s∈l) : reached f l s.counter≤total f l s.group :=
  Finset.single_le_sum (fun _ _ => Nat.zero_le _) (mem_counters.mpr ⟨s,h,rfl,rfl⟩)

end Oboard.Cumulative
