import Mathlib.Tactic.LinearCombination
import Mathlib.Tactic.Positivity
import Oboard.Activity.RiskEvaluation

namespace Oboard.Activity

open Runs List Table Bool Grouped Int

section scores

variable {p : Policy}

theorem normalized_nonneg : 0≤normalized x s := by
  unfold normalized
  split_ifs with hstart hfull
  · exact le_rfl
  · exact zero_le_one
  · exact div_nonneg (cast_nonneg (by omega)) (cast_nonneg (by omega))

theorem normalized_mono (hs : validScale s=true) (h : x≤y) : normalized x s≤normalized y s := by
  have hscale := hs
  simp only [validScale,and_eq_true,decide_eq_true_eq] at hs
  by_cases hy : s.full≤y
  · have hone : normalized y s=1 := by
      unfold normalized
      rw [if_neg (by omega),if_pos hy]
    rw [hone]
    unfold normalized
    split_ifs with hstart hfull
    · exact zero_le_one
    · exact le_rfl
    · refine div_le_one_of_le₀ ?_ (cast_nonneg (by omega))
      exact cast_le.mpr (by omega)
  by_cases hx : x≤ s.start
  · have hzero : normalized x s=0 := if_pos hx
    rw [hzero]
    exact normalized_nonneg
  unfold normalized
  rw [if_neg hx,if_neg (by omega),if_neg (by omega),if_neg hy]
  refine div_le_div_of_nonneg_right ?_ (cast_nonneg (by omega))
  exact cast_le.mpr (by omega)

theorem halfUp_eq (h : 0≤r) : halfUp r= ⌊r*100+1/2⌋ := by
  have hden : (r.den : ℚ)≠0 := Nat.cast_ne_zero.mpr r.den_nz
  have hquot : r*100+1/2=((r.num*200+r.den : Int))/((r.den*2 : Nat)) := by
    push_cast
    rw [eq_div_iff (mul_ne_zero hden two_ne_zero)]
    have hr := Rat.mul_den_eq_num r
    linear_combination 200*hr
  rw [hquot,Rat.floor_intCast_div_natCast,halfUp,tdiv_eq_ediv_of_nonneg (by positivity)]
  rfl

theorem halfUp_mono (ha : 0≤a) (h : a≤b) : halfUp a≤halfUp b := by
  rw [halfUp_eq ha,halfUp_eq (ha.trans h)]
  exact floor_mono (by linarith)

theorem busyMinutes_mono
    (h : List.Forall₂ (fun m m' => bound m.sources≤bound m'.sources) minutes minutes') :
    busyMinutes bound minutes k≤busyMinutes bound minutes' k := by
  unfold busyMinutes
  induction h with
  | nil => exact le_rfl
  | @cons m m' minutes minutes' hm _ ih =>
    by_cases hk : k≤bound m.sources
    · simp only [filter_cons,hk,hk.trans hm,decide_true,if_true,length_cons]
      omega
    simp only [filter_cons,hk,decide_false,false_eq_true,if_false]
    split_ifs
    · rw [length_cons]
      omega
    · exact ih

theorem policy_scales (hp : p.valid=true) : validScale p.activitySources=true ∧
    validScale p.activityMinutes=true ∧ validScale p.exposureSources=true := by
  simp only [Policy.valid,and_eq_true] at hp
  tauto

theorem activityAt_mono (hp : p.valid=true)
    (h : List.Forall₂ (fun m m' => bound m.sources≤bound m'.sources) minutes minutes') :
    activityAt p bound minutes k≤activityAt p bound minutes' k := by
  refine mul_le_mul_of_nonneg_left ?_ normalized_nonneg
  exact normalized_mono (policy_scales hp).2.1 (ofNat_le.mpr (busyMinutes_mono h))

theorem best_fst (best : ℚ×α) (v : ℚ) (a : α) :
    (if best.1<v then (v,a) else best).1=max best.1 v := by
  split_ifs with h
  · exact (max_eq_right h.le).symm
  · exact (max_eq_left (not_lt.mp h)).symm

theorem activity_mono (hp : p.valid=true)
    (h : List.Forall₂ (fun m m' => bound m.sources≤bound m'.sources) minutes minutes') :
    (activity p bound minutes).1≤(activity p bound minutes').1 := by
  refine foldl_rel (r := fun a b : ℚ×Option Contribution => a.1≤b.1) le_rfl
    fun k _ best best' hle => ?_
  rw [best_fst,best_fst]
  exact max_le_max hle (activityAt_mono hp h)

theorem activity_nonneg (p : Policy) (bound : CountRange → Int) (minutes : List Minute) :
    0≤(activity p bound minutes).1 := by
  refine List.foldlRecOn (thresholds p) _ (motive := fun best : ℚ×Option Contribution => 0≤best.1)
    le_rfl fun best hbest k _ => ?_
  rw [best_fst]
  exact hbest.trans (le_max_left _ _)

theorem exposure_mono (hp : p.valid=true) (hn : n≤n') (hm : 0≤ m)
    (hmm : m≤ m') : exposure p n m≤exposure p n' m' := by
  have hscale := (policy_scales hp).2.2
  refine mul_le_mul (by linarith) (normalized_mono hscale hn) normalized_nonneg ?_
  linarith

theorem exposure_nonneg (p : Policy) (n) (hm : 0≤ m) : 0≤exposure p n m :=
  mul_nonneg (by linarith) normalized_nonneg

end scores

section evaluation

variable {f g : Features}

def CountRange.Within (r s : CountRange) : Prop := s.lower≤r.lower ∧ r.upper≤ s.upper

instance (r s : CountRange) : Decidable (r.Within s) := inferInstanceAs (Decidable (_ ∧ _))

def Minute.Within (m n : Minute) : Prop := m.start=n.start ∧ m.sources.Within n.sources

/-- The same evidence, with less of it missing. -/
structure Features.Refines (g f : Features) : Prop where
  accountID : g.accountID=f.accountID
  resources : g.resources=f.resources
  dataRevision : g.dataRevision=f.dataRevision
  evidenceCutoff : g.evidenceCutoff=f.evidenceCutoff
  activity : List.Forall₂ Minute.Within g.activity f.activity
  exposureActivity : List.Forall₂ Minute.Within g.exposureActivity f.exposureActivity
  novelRepeatedSources : g.novelRepeatedSources.Within f.novelRepeatedSources

/-- One score lies within another. -/
def Narrows : Option Score → Option Score → Prop
  | some s,some t => t.lower≤ s.lower ∧ s.upper≤t.upper
  | none,none => True
  | _,_ => False

theorem score_lower (lo hi) : (score lo hi).lower=halfUp lo := by
  unfold score
  split_ifs <;> rfl

theorem score_upper (lo hi) : (score lo hi).upper=halfUp hi := by
  unfold score
  split_ifs <;> rfl

theorem score_narrows (hlo : 0≤lo') (hlower : lo'≤lo) (hhi : 0≤hi)
    (hupper : hi≤hi') : Narrows (some (score lo hi)) (some (score lo' hi')) := by
  simp only [Narrows,score_lower,score_upper]
  exact ⟨halfUp_mono hlo hlower,halfUp_mono hhi hupper⟩

theorem activityBounds_within (hp : p.valid=true) (h : List.Forall₂ Minute.Within minutes minutes') :
    (activityBounds p minutes').1≤(activityBounds p minutes).1 ∧
      (activityBounds p minutes).2.1≤(activityBounds p minutes').2.1 :=
  ⟨activity_mono hp (h.imp fun _ _ hm => hm.2.1).flip,activity_mono hp (h.imp fun _ _ hm => hm.2.2)⟩

theorem activityMinutes_within (h : g.Refines f) :
    List.Forall₂ Minute.Within (activityMinutes g q p) (activityMinutes f q p) := by
  unfold activityMinutes
  split_ifs
  · rw [forall₂_map_left_iff,forall₂_map_right_iff]
    exact h.activity.imp fun _ _ hm => ⟨hm.1,le_rfl,le_rfl⟩
  · exact h.activity

theorem exposureActivityBounds_within (hp : p.valid=true) (h : g.Refines f) :
    0≤(exposureActivityBounds f q p).1 ∧ 0≤(exposureActivityBounds g q p).2 ∧
    (exposureActivityBounds f q p).1≤(exposureActivityBounds g q p).1 ∧
    (exposureActivityBounds g q p).2≤(exposureActivityBounds f q p).2 := by
  unfold exposureActivityBounds
  split_ifs
  · exact ⟨le_rfl,zero_le_one,le_rfl,le_rfl⟩
  · exact ⟨activity_nonneg p _ _,activity_nonneg p _ _,activityBounds_within hp h.exposureActivity⟩

theorem novelSources_within (h : g.Refines f) : (novelSources g q p).Within (novelSources f q p) := by
  unfold novelSources
  split_ifs
  · exact ⟨le_rfl,le_rfl⟩
  · exact h.novelRepeatedSources

theorem assess_narrows (hp : p.valid=true) (h : g.Refines f) (r r') :
    Narrows (assess g q p v asOf r).activity (assess f q p v asOf r').activity ∧
    Narrows (assess g q p v asOf r).exposure (assess f q p v asOf r').exposure ∧
    Narrows (assess g q p v asOf r).attention (assess f q p v asOf r').attention := by
  obtain ⟨halower,haupper⟩ := activityBounds_within hp (activityMinutes_within (q := q) (p := p) h)
  obtain ⟨hmf,hmg,hmlower,hmupper⟩ := exposureActivityBounds_within (q := q) hp h
  have hn := novelSources_within (q := q) (p := p) h
  have helower := exposure_mono hp hn.1 hmf hmlower
  have heupper := exposure_mono hp hn.2 hmg hmupper
  have hefpos := exposure_nonneg p (novelSources f q p).lower hmf
  have hegpos := exposure_nonneg p (novelSources g q p).upper hmg
  have hafpos : 0≤(activityBounds p (activityMinutes f q p)).1 := activity_nonneg p _ _
  have hagpos : 0≤(activityBounds p (activityMinutes g q p)).2.1 := activity_nonneg p _ _
  unfold assess
  cases q.required.find? (·.state≠.satisfied) with
  | some d => exact ⟨trivial,trivial,trivial⟩
  | none =>
    have hscores : Narrows (some (activityBounds p (activityMinutes g q p)).2.2)
          (some (activityBounds p (activityMinutes f q p)).2.2) ∧
        Narrows (some (score (exposure p (novelSources g q p).lower (exposureActivityBounds g q p).1)
            (exposure p (novelSources g q p).upper (exposureActivityBounds g q p).2)))
          (some (score (exposure p (novelSources f q p).lower (exposureActivityBounds f q p).1)
            (exposure p (novelSources f q p).upper (exposureActivityBounds f q p).2))) := by
      refine ⟨?_,score_narrows hefpos helower hegpos heupper⟩
      simp only [activityBounds,score_lower,score_upper]
      exact ⟨halfUp_mono hafpos halower,halfUp_mono hagpos haupper⟩
    have hattention := score_narrows (hafpos.trans (le_max_left _ _)) (max_le_max halower helower)
      (hagpos.trans (le_max_left _ _)) (max_le_max haupper heupper)
    split_ifs <;> exact ⟨hscores.1,hscores.2,hattention⟩

theorem evaluate_ok (h : evaluate f q p v asOf=.ok s) :
    p.valid=true ∧ ∃r,s=assess f q p v asOf r := by
  unfold evaluate at h
  dsimp only at h
  split at h
  · exact nomatch h
  next hp =>
  rw [not_eq_true,not_eq_false'] at hp
  split at h
  · exact nomatch h
  split at h
  · exact nomatch h
  obtain ⟨-,-,h⟩ := bind_ok h
  obtain ⟨-,-,h⟩ := bind_ok h
  split at h
  · exact nomatch h
  obtain ⟨r,-,h⟩ := bind_ok h
  exact ⟨hp,r,(Except.ok.inj h).symm⟩

end evaluation

section sampling

variable {p : Policy} {g g' g₁ : Grouped} {r : SourceActivity} {rows rows' : List SourceActivity}

/-- A row that has seen no more than another. -/
structure SourceRow.AtMost (row row' : SourceRow) : Prop where
  bytes : row.bytes≤row'.bytes
  bits : ∀i,row.bits.testBit i=true → row'.bits.testBit i=true

def Grouped.AtMost (g g' : Grouped) : Prop :=
  ∀k row,g.groups.lookup k=some row → ∃row',g'.groups.lookup k=some row' ∧ row.AtMost row'

def Grouped.exact (g : Grouped) : Bool := !g.overflow && !g.counterOverflow

def Grouped.find (g : Grouped) (k : String) : SourceRow := (g.groups.lookup k).getD ⟨0,0⟩

def Grouped.add (g : Grouped) (r : SourceActivity) : Grouped :=
  {g with groups := g.groups.insert r.sourceGroup ((g.find r.sourceGroup).add r.bytes r.bitmap)}

theorem groupSource_cases (h : groupSource p g r=.ok g₁) : r.invalid=false ∧
    (g₁={g with overflow := true} ∨
      (maxUint64-(g.find r.sourceGroup).bytes<r.bytes ∧ g₁.counterOverflow=true) ∨
      (r.bytes≤ maxUint64-(g.find r.sourceGroup).bytes ∧ g₁=g.add r)) := by
  unfold groupSource at h
  split at h
  · exact nomatch h
  next hvalid =>
  refine ⟨not_eq_true _ ▸ hvalid,?_⟩
  dsimp only at h
  split at h
  · cases h
    exact .inl rfl
  split at h
  next hover =>
    cases h
    exact .inr (.inl ⟨hover,rfl⟩)
  next hroom =>
    cases h
    exact .inr (.inr ⟨not_lt.mp hroom,rfl⟩)

theorem groupSource_inexact (h : groupSource p g r=.ok g₁) (hg : g.exact=false) :
    g₁.exact=false := by
  simp only [exact,and_eq_false_iff,not_eq_false'] at hg ⊢
  obtain ⟨-,rfl | ⟨-,hover⟩ | ⟨-,rfl⟩⟩ := groupSource_cases h
  · exact .inl rfl
  · exact .inr hover
  · exact hg

theorem groupSources_inexact (h : rows.foldlM (groupSource p) g=.ok g₁) (hg : g.exact=false) :
    g₁.exact=false :=
  foldlM_related (R := fun g g' : Grouped => g.exact=false → g'.exact=false) (fun _ h => h)
    (fun h h' hg => h' (h hg)) groupSource_inexact h hg

theorem groupSources_cons (h : (r::rows).foldlM (groupSource p) g=.ok g₁) (hexact : g₁.exact=true) :
    r.invalid=false ∧ r.bytes≤ maxUint64-(g.find r.sourceGroup).bytes ∧
      rows.foldlM (groupSource p) (g.add r)=.ok g₁ := by
  obtain ⟨g₂,hone,h⟩ := bind_ok h
  have hexact₂ : g₂.exact=true := by
    by_contra hnot
    rw [groupSources_inexact h (not_eq_true _ ▸ hnot)] at hexact
    exact nomatch hexact
  obtain ⟨hvalid,rfl | ⟨-,hover⟩ | ⟨hroom,rfl⟩⟩ := groupSource_cases hone
  · exact absurd hexact₂ (by simp [exact])
  · rw [exact,hover,Bool.not_true,Bool.and_false] at hexact₂
    exact nomatch hexact₂
  · exact ⟨hvalid,hroom,h⟩

theorem Grouped.AtMost.find (h : g.AtMost g') (k) : (g.find k).AtMost (g'.find k) := by
  unfold Grouped.find
  cases hrow : g.groups.lookup k with
  | none => exact ⟨Nat.zero_le _,fun i hi => by simp at hi⟩
  | some row =>
    obtain ⟨row',hrow',hle⟩ := h k row hrow
    rw [hrow']
    exact hle

variable {row row' : SourceRow}

theorem SourceRow.AtMost.add (h : row.AtMost row') (bytes bits) :
    (row.add bytes bits).AtMost (row'.add bytes bits) := by
  refine ⟨Nat.add_le_add_right h.bytes _,fun i hi => ?_⟩
  simp only [SourceRow.add,Nat.testBit_or,or_eq_true] at hi ⊢
  exact hi.imp (h.bits i) id

theorem SourceRow.AtMost.add_right (h : row.AtMost row') (bytes bits) :
    row.AtMost (row'.add bytes bits) := by
  refine ⟨h.bytes.trans (Nat.le_add_right _ _),fun i hi => ?_⟩
  simp only [SourceRow.add,Nat.testBit_or,or_eq_true]
  exact .inl (h.bits i hi)

theorem Grouped.AtMost.add_right (h : g.AtMost g') (r) : g.AtMost (g'.add r) := by
  intro k row hrow
  unfold add
  rw [lookup_insert_eq]
  split_ifs with hk
  · subst hk
    have hfind := h.find r.sourceGroup
    rw [Grouped.find,hrow] at hfind
    exact ⟨_,rfl,hfind.add_right _ _⟩
  · exact h k row hrow

theorem Grouped.AtMost.add (h : g.AtMost g') (r) : (g.add r).AtMost (g'.add r) := by
  refine forall_insert (h.add_right r) ⟨_,AList.lookup_insert _,?_⟩
  exact (h.find r.sourceGroup).add _ _

theorem groupSources_atMost (hsub : rows.Sublist rows') (h : g.AtMost g')
    (hall : rows'.foldlM (groupSource p) g'=.ok g₁) (hexact : g₁.exact=true) :
    ∃g₂,rows.foldlM (groupSource p) g=.ok g₂ ∧ g₂.AtMost g₁ := by
  induction hsub generalizing g g' with
  | slnil =>
    cases hall
    exact ⟨g,rfl,h⟩
  | @cons rows rows' r _ ih =>
    obtain ⟨-,-,hall⟩ := groupSources_cons hall hexact
    exact ih (h.add_right r) hall
  | @cons_cons rows rows' r _ ih =>
    obtain ⟨hvalid,hroom,hall⟩ := groupSources_cons hall hexact
    obtain ⟨g₃,hg₃⟩ := groupSource_ok (p := p) hvalid g
    have hfind := (h.find r.sourceGroup).bytes
    rw [foldlM_cons,hg₃]
    obtain ⟨-,rfl | ⟨hover,-⟩ | ⟨-,rfl⟩⟩ := groupSource_cases hg₃
    · exact ih (h.add_right r) hall
    · omega
    · exact ih (h.add r) hall

theorem qualifies_mono (h : row.AtMost row') (hq : qualifies p row=true) :
    qualifies p row'=true := by
  simp only [qualifies,and_eq_true,decide_eq_true_eq] at hq ⊢
  refine ⟨hq.1.trans h.bytes,hq.2.trans ?_⟩
  exact ofNat_le.mpr (monotone_filter_right _ h.bits).length_le

def Grouped.qualified (g : Grouped) (p : Policy) : List SourceRow :=
  (g.groups.rows.map (·.2)).filter (qualifies p)

def Grouped.sliceCount (g : Grouped) (p : Policy) (j : Nat) : Nat :=
  ((g.qualified p).filter (·.bits.testBit j)).length

theorem sliceCount_eq (g : Grouped) (p : Policy) : g.sliceCount p j=
    (g.groups.rows.filter (fun e => e.2.bits.testBit j && qualifies p e.2)).length := by
  rw [sliceCount,qualified,filter_filter,filter_map,length_map]
  rfl

theorem sliceCount_mono (h : g.AtMost g') (j) : g.sliceCount p j≤g'.sliceCount p j := by
  rw [sliceCount_eq,sliceCount_eq]
  refine length_filter_le fun k row hrow hactive => ?_
  obtain ⟨row',hrow',hle⟩ := h k row hrow
  rw [and_eq_true] at hactive
  refine ⟨row',hrow',?_⟩
  rw [and_eq_true]
  exact ⟨hle.bits j hactive.1,qualifies_mono hle hactive.2⟩

theorem insertTop_eq : insertTop (a,b,c) n=(max a n,max b (min a n),max c (min b (min a n))) := by
  have hswap (x y : Nat) : (if x<y then (y,x) else (x,y))=(max x y,min x y) := by
    split_ifs with h
    · rw [max_eq_right h.le,min_eq_left h.le]
    · rw [max_eq_left (not_lt.mp h),min_eq_right (not_lt.mp h)]
  simp only [insertTop,hswap]
  split_ifs with h
  · rw [max_eq_right h.le]
  · rw [max_eq_left (not_lt.mp h)]

theorem insertTop_mono (ht : t≤t') (hn : n≤n') : insertTop t n≤ insertTop t' n' := by
  obtain ⟨ha,hb,hc⟩ := ht
  rw [insertTop_eq,insertTop_eq]
  have hfirst := min_le_min ha hn
  exact ⟨max_le_max ha hn,max_le_max hb hfirst,max_le_max hc (min_le_min hb hfirst)⟩

/-- The third largest number of groups that were active in a slice. -/
def Grouped.third (g : Grouped) (p : Policy) : Nat :=
  (((List.range 12).map (g.sliceCount p)).foldl insertTop (0,0,0)).2.2

theorem third_mono (h : g.AtMost g') : g.third p≤g'.third p := by
  unfold third
  rw [foldl_map,foldl_map]
  exact (foldl_rel (r := fun t t' : Nat×Nat×Nat => t≤t') le_rfl
    fun j _ t t' ht => insertTop_mono ht (sliceCount_mono h j)).2.2

theorem aggregateMinute_eq
    (h : aggregateMinute p rows complete=.ok a) : p.valid=true ∧ rows.length≤65536 ∧
    ∃g,rows.foldlM (groupSource p) {}=.ok g ∧ a.overflow=g.overflow ∧
      a.counterOverflow=g.counterOverflow ∧ a.sources.lower=g.third p ∧
      a.sources.upper=if complete && g.exact then (g.third p : Int)
        else max p.activitySources.full (g.third p) := by
  unfold aggregateMinute at h
  split at h
  · exact nomatch h
  next hp =>
  rw [not_eq_true,not_eq_false'] at hp
  split at h
  · exact nomatch h
  next hlength =>
  obtain ⟨g,hg,h⟩ := bind_ok h
  cases Except.ok.inj h
  refine ⟨hp,not_lt.mp hlength,g,hg,rfl,rfl,rfl,?_⟩
  simp only [Bool.and_assoc]
  rfl

/-- Whatever rows are missing, the count of all of them lies in the range that is returned. -/
theorem aggregateMinute_sample (h : aggregateMinute p rows' true=.ok a)
    (hover : a.overflow=false) (hcounter : a.counterOverflow=false) (hsub : rows.Sublist rows') :
    a.sources.lower=a.sources.upper ∧
    ∃a',aggregateMinute p rows false=.ok a' ∧
      min a'.sources.lower p.activitySources.full≤ min a.sources.lower p.activitySources.full ∧
      min a.sources.lower p.activitySources.full≤ min a'.sources.upper p.activitySources.full := by
  obtain ⟨hp,hlength,g,hg,ho,hc,hlower,hupper⟩ := aggregateMinute_eq h
  have hexact : g.exact=true := by rw [exact,← ho,← hc,hover,hcounter]; rfl
  rw [hexact,Bool.and_true] at hupper
  obtain ⟨g',hg',hle⟩ := groupSources_atMost hsub (g := {}) nofun hg hexact
  obtain ⟨a',ha'⟩ : ∃a',aggregateMinute p rows false=.ok a' := by
    unfold aggregateMinute
    rw [hp,hg',if_neg (not_lt.mpr (hsub.length_le.trans hlength))]
    exact ⟨_,rfl⟩
  obtain ⟨-,-,g₂,hg₂,-,-,hlower',hupper'⟩ := aggregateMinute_eq ha'
  cases hg'.symm.trans hg₂
  refine ⟨hlower.trans hupper.symm,a',ha',?_,?_⟩
  · rw [hlower,hlower']
    exact min_le_min_right _ (ofNat_le.mpr (third_mono hle))
  · rw [hupper',Bool.false_and]
    exact (min_le_right _ _).trans (le_min (le_max_left _ _) le_rfl)

end sampling

/-- Missing evidence widens a score and never moves it, and the full count lies in the range. -/
theorem missing_evidence_only_widens :
    (∀(p : Policy) (v : Versions) (q : Quality) (asOf : Int) (f g : Features) (s t : RiskSnapshot),
      evaluate f q p v asOf=.ok s → evaluate g q p v asOf=.ok t → g.Refines f →
      Narrows t.activity s.activity ∧ Narrows t.exposure s.exposure ∧
        Narrows t.attention s.attention) ∧
    ∀(p : Policy) (rows rows' : List SourceActivity) (a : Aggregation),
      aggregateMinute p rows' true=.ok a → a.overflow=false → a.counterOverflow=false →
      rows.Sublist rows' → a.sources.lower=a.sources.upper ∧
      ∃a',aggregateMinute p rows false=.ok a' ∧
        min a'.sources.lower p.activitySources.full≤ min a.sources.lower p.activitySources.full ∧
        min a.sources.lower p.activitySources.full≤
          min a'.sources.upper p.activitySources.full := by
  refine ⟨fun p v q asOf f g s t hs ht hrefines => ?_,
    fun p rows rows' a h hover hcounter hsub => aggregateMinute_sample h hover hcounter hsub⟩
  obtain ⟨hp,r,rfl⟩ := evaluate_ok hs
  obtain ⟨-,r',rfl⟩ := evaluate_ok ht
  exact assess_narrows hp hrefines r' r

section samples

def steadyFeatures (sources : CountRange) : Features where
  accountID := 1
  activity := (List.range windowMinutes).map (fun i : Nat => ⟨(i : Int)*minuteNanos,sources⟩)
  exposureActivity := (List.range windowMinutes).map (fun i : Nat => ⟨(i : Int)*minuteNanos,sources⟩)
  novelRepeatedSources := sources
  evidenceCutoff := windowMinutes*minuteNanos

def steadySnapshot (sources : CountRange) : RiskSnapshot :=
  assess (steadyFeatures sources) {} defaultPolicy ⟨"m","b","s"⟩ (windowMinutes*minuteNanos) none

theorem known_sources_narrow_scores :
    evaluate (steadyFeatures ⟨0,8⟩) {} defaultPolicy ⟨"m","b","s"⟩ (windowMinutes*minuteNanos)=
      .ok (steadySnapshot ⟨0,8⟩) ∧
    evaluate (steadyFeatures ⟨5,5⟩) {} defaultPolicy ⟨"m","b","s"⟩ (windowMinutes*minuteNanos)=
      .ok (steadySnapshot ⟨5,5⟩) ∧
    Narrows (steadySnapshot ⟨5,5⟩).attention (steadySnapshot ⟨0,8⟩).attention ∧
    ∃a',aggregateMinute defaultPolicy [⟨"a",7,20000⟩] false=.ok a' ∧ 2≤ min a'.sources.upper 8 := by
  have hwide : evaluate (steadyFeatures ⟨0,8⟩) {} defaultPolicy ⟨"m","b","s"⟩
      (windowMinutes*minuteNanos)=.ok (steadySnapshot ⟨0,8⟩) := rfl
  have hnarrow : evaluate (steadyFeatures ⟨5,5⟩) {} defaultPolicy ⟨"m","b","s"⟩
      (windowMinutes*minuteNanos)=.ok (steadySnapshot ⟨5,5⟩) := rfl
  have hminutes m n (h : m.Within n) : List.Forall₂ Minute.Within
      (steadyFeatures m).activity (steadyFeatures n).activity := by
    simp only [steadyFeatures,forall₂_map_left_iff,forall₂_map_right_iff,forall₂_same]
    exact fun _ _ => ⟨rfl,h⟩
  have hwithin : CountRange.Within ⟨5,5⟩ ⟨0,8⟩ := by decide
  have hrefines : (steadyFeatures ⟨5,5⟩).Refines (steadyFeatures ⟨0,8⟩) :=
    ⟨rfl,rfl,rfl,rfl,hminutes _ _ hwithin,hminutes _ _ hwithin,hwithin⟩
  have hcount : aggregateMinute defaultPolicy [⟨"a",7,20000⟩,⟨"b",7,20000⟩] true=
      .ok ⟨⟨2,2⟩,2,false,false⟩ := rfl
  obtain ⟨-,a',ha',-,hupper⟩ := missing_evidence_only_widens.2 _ [⟨"a",7,20000⟩] _ _ hcount rfl rfl
    (.cons_cons _ (nil_sublist _))
  exact ⟨hwide,hnarrow,(missing_evidence_only_widens.1 _ _ _ _ _ _ _ _ hwide hnarrow hrefines).2.2,
    a',ha',hupper⟩

end samples

end Oboard.Activity
