import Ffdb.Lib.StepFunction
import Ffdb.Metrics.Sound

/-! The sizes of the resources over time are step functions, and the storage of a summary is what is under them. -/
namespace Ffdb.Metrics
open Fallible
open StepFunction (Ordered level area level_spec level_of_le area_nil area_cons area_cons_of_le)

variable {δ : Type} {store store' : Store δ}

section Integral
variable {startMs endMs cursor : Int} {current byteMilliseconds : Nat} {transitions : List Transition}

theorem checkedAdd_eq (bound a b : Nat) :
    checkedAdd bound a b = if a + b ≤ bound then .ok (a + b) else .error .unavailable := by
  unfold checkedAdd require
  by_cases h : a + b ≤ bound
  · simp [h, bind, Except.bind, pure, Except.pure]
  · simp [h, bind, Except.bind]

theorem addDuration_eq {durationMs : Int} (h : 0 ≤ durationMs) : addDuration byteMilliseconds current durationMs =
    if byteMilliseconds + current*durationMs.toNat ≤ u128Max then .ok (byteMilliseconds + current*durationMs.toNat)
    else .error .unavailable := by
  unfold addDuration
  rw [decide_eq_true h, ← checkedAdd_eq]
  rfl

noncomputable def sizeBetween (current : Nat) (transitions : List Transition) (startMs endMs : Int) : Nat :=
  area Transition.occurredAtMs Transition.logicalBytes current transitions startMs endMs

def sizeIn (current : Nat) (transitions : List Transition) (t : Int) : Nat :=
  level Transition.occurredAtMs Transition.logicalBytes current transitions t

/-- The loop over the transitions of a resource: the last size and what is under all of them, unless that overflows. -/
theorem integrateResource_eq (hsorted : Ordered Transition.occurredAtMs transitions)
    (hbefore : ∀ transition ∈ transitions, transition.occurredAtMs < endMs) (hstart : startMs ≤ cursor)
    (hcursor : cursor < endMs) (hfrom : cursor = startMs ∨ ∀ transition ∈ transitions, cursor ≤ transition.occurredAtMs) :
    integrateResource startMs endMs current cursor byteMilliseconds transitions =
      if byteMilliseconds + sizeBetween current transitions cursor endMs ≤ u128Max then
        .ok (sizeIn current transitions (endMs - 1), byteMilliseconds + sizeBetween current transitions cursor endMs)
      else .error .unavailable := by
  induction transitions generalizing current cursor byteMilliseconds with
  | nil =>
    unfold integrateResource sizeBetween
    rw [addDuration_eq (by omega), area_nil]
    split <;> rfl
  | cons transition rest ih =>
    obtain ⟨hfirst, hrest⟩ := List.pairwise_cons.mp hsorted
    have hlast := hbefore transition List.mem_cons_self
    have hbefore' := fun other hother => hbefore other (List.mem_cons_of_mem transition hother)
    have hsize : sizeIn current (transition :: rest) (endMs - 1) = sizeIn transition.logicalBytes rest (endMs - 1) :=
      level_of_le (by omega)
    unfold integrateResource
    rw [hsize]
    by_cases hearly : transition.occurredAtMs ≤ startMs
    · have hfrom' : cursor = startMs := by
        obtain hsame | hall := hfrom
        · exact hsame
        · have := hall transition List.mem_cons_self
          omega
      have harea : sizeBetween current (transition :: rest) cursor endMs =
          sizeBetween transition.logicalBytes rest cursor endMs := area_cons_of_le (hearly.trans hstart)
      rw [if_pos hearly, harea]
      exact ih hrest hbefore' hstart hcursor (.inl hfrom')
    · have hcursor' : cursor ≤ transition.occurredAtMs := by
        obtain hsame | hall := hfrom
        · omega
        · exact hall transition List.mem_cons_self
      have harea : sizeBetween current (transition :: rest) cursor endMs =
          current*(transition.occurredAtMs - cursor).toNat +
            sizeBetween transition.logicalBytes rest transition.occurredAtMs endMs := area_cons hcursor' hlast.le
      rw [if_neg hearly, addDuration_eq (by omega), harea, ← Nat.add_assoc]
      by_cases hfits : byteMilliseconds + current*(transition.occurredAtMs - cursor).toNat ≤ u128Max
      · rw [if_pos hfits]
        exact ih hrest hbefore' (by omega) hlast (.inr hfirst)
      · rw [if_neg hfits, if_neg (by omega)]
        rfl

end Integral

section Order

theorem transition_le_iff (a b : Transition) : a.le b ↔ a.resourceId < b.resourceId ∨ a.resourceId = b.resourceId ∧
    (a.occurredAtMs < b.occurredAtMs ∨ a.occurredAtMs = b.occurredAtMs ∧ a.eventId ≤ b.eventId) := by
  unfold Transition.le
  rw [not_lt]

instance : Std.Total Transition.le where
  total a b := by
    rw [transition_le_iff, transition_le_iff]
    obtain h | h | h := lt_trichotomy a.resourceId b.resourceId
    · exact .inl (.inl h)
    · obtain h' | h' | h' := lt_trichotomy a.occurredAtMs b.occurredAtMs
      · exact .inl (.inr ⟨h, .inl h'⟩)
      · obtain h'' | h'' := le_total a.eventId b.eventId
        · exact .inl (.inr ⟨h, .inr ⟨h', h''⟩⟩)
        · exact .inr (.inr ⟨h.symm, .inr ⟨h'.symm, h''⟩⟩)
      · exact .inr (.inr ⟨h.symm, .inl h'⟩)
    · exact .inr (.inl h)

instance : IsTrans Transition Transition.le where
  trans a b c := by
    rw [transition_le_iff, transition_le_iff, transition_le_iff]
    rintro (hab | ⟨hab, hab'⟩) (hbc | ⟨hbc, hbc'⟩)
    · exact .inl (hab.trans hbc)
    · exact .inl (hbc ▸ hab)
    · exact .inl (hab ▸ hbc)
    · refine .inr ⟨hab.trans hbc, ?_⟩
      obtain hab' | ⟨hab', hid⟩ := hab'
      · obtain hbc' | ⟨hbc', -⟩ := hbc'
        · exact .inl (hab'.trans hbc')
        · exact .inl (hbc' ▸ hab')
      · obtain hbc' | ⟨hbc', hid'⟩ := hbc'
        · exact .inl (hab' ▸ hbc')
        · exact .inr ⟨hab'.trans hbc', hid.trans hid'⟩

end Order

section SizeAt
variable {resourceId : List Char} {t endMs : Int} {bytes bytes' : Nat}

def transitionsOf (store : Store δ) (resourceId : List Char) (endMs : Int) : List Transition :=
  (transitionsBefore store endMs).filter (·.resourceId = resourceId)

def sizeAt (store : Store δ) (resourceId : List Char) (t : Int) : Nat :=
  sizeIn 0 (transitionsOf store resourceId (t + 1)) t

def Later (atMs : Int) (eventId : List Char) (atMs' : Int) (eventId' : List Char) : Prop :=
  atMs < atMs' ∨ atMs = atMs' ∧ eventId < eventId'

/-- The size is that of the last transition until then, or nothing if there is none. -/
def IsSizeAt (store : Store δ) (resourceId : List Char) (t : Int) (bytes : Nat) : Prop :=
  (bytes = 0 ∧ ∀ atMs e b, store.storageTransitions.lookup (resourceId, atMs, e) = some b → t < atMs) ∨
    ∃ atMs e, store.storageTransitions.lookup (resourceId, atMs, e) = some bytes ∧ atMs ≤ t ∧
      ∀ atMs' e' b, store.storageTransitions.lookup (resourceId, atMs', e') = some b → atMs' ≤ t → ¬Later atMs e atMs' e'

theorem mem_transitionsBefore {transition : Transition} : transition ∈ transitionsBefore store endMs ↔
    store.storageTransitions.lookup (transition.resourceId, transition.occurredAtMs, transition.eventId) =
      some transition.logicalBytes ∧ transition.occurredAtMs < endMs := by
  unfold transitionsBefore
  rw [List.mem_insertionSort, List.mem_filter, List.mem_map, decide_eq_true_eq]
  refine and_congr_left fun _ => ?_
  constructor
  · intro h
    obtain ⟨⟨⟨r, atMs, e⟩, bytes⟩, hentry, rfl⟩ := h
    exact AList.mem_entries.mp hentry
  · intro h
    exact ⟨⟨(transition.resourceId, transition.occurredAtMs, transition.eventId), transition.logicalBytes⟩,
      AList.mem_entries.mpr h, rfl⟩

theorem mem_transitionsOf {transition : Transition} : transition ∈ transitionsOf store resourceId endMs ↔
    (store.storageTransitions.lookup (transition.resourceId, transition.occurredAtMs, transition.eventId) =
      some transition.logicalBytes ∧ transition.occurredAtMs < endMs) ∧ transition.resourceId = resourceId := by
  unfold transitionsOf
  rw [List.mem_filter, mem_transitionsBefore, decide_eq_true_eq]

def Transition.follows (a b : Transition) : Prop := ¬Later b.occurredAtMs b.eventId a.occurredAtMs a.eventId

theorem transitionsOf_sorted (store : Store δ) (resourceId : List Char) (endMs : Int) :
    (transitionsOf store resourceId endMs).Pairwise Transition.follows := by
  have hsorted : (transitionsOf store resourceId endMs).Pairwise Transition.le :=
    (List.pairwise_insertionSort Transition.le _).filter _
  refine hsorted.imp_of_mem fun ha hb hle => ?_
  have hresource := (mem_transitionsOf.mp ha).2.trans (mem_transitionsOf.mp hb).2.symm
  obtain hlt | ⟨-, hle⟩ := (transition_le_iff _ _).mp hle
  · exact absurd hresource hlt.ne
  · rintro (hlater | ⟨hsame, hlater⟩)
    · omega
    · obtain hbefore | ⟨-, hid⟩ := hle
      · omega
      · exact absurd hlater (not_lt.mpr hid)

theorem Transition.time_le_of_follows {a b : Transition} (h : a.follows b) : a.occurredAtMs ≤ b.occurredAtMs := by
  by_contra hlater
  exact h (.inl (not_le.mp hlater))

theorem transitionsOf_ordered (store : Store δ) (resourceId : List Char) (endMs : Int) :
    Ordered Transition.occurredAtMs (transitionsOf store resourceId endMs) :=
  (transitionsOf_sorted store resourceId endMs).imp Transition.time_le_of_follows

/-- The sizes that the loop goes through are the recorded ones. -/
theorem isSizeAt_sizeIn (h : t < endMs) : IsSizeAt store resourceId t (sizeIn 0 (transitionsOf store resourceId endMs) t) := by
  obtain ⟨hnone, hlater⟩ | ⟨last, hlast, htime, hlevel, hmax⟩ :=
    @level_spec _ _ Transition.occurredAtMs Transition.logicalBytes 0 _ t _ (transitionsOf_sorted store resourceId endMs)
      fun _ _ => Transition.time_le_of_follows
  · refine .inl ⟨hnone, fun atMs e b hlookup => ?_⟩
    by_contra hearly
    exact hearly (hlater ⟨resourceId, atMs, e, b⟩ (mem_transitionsOf.mpr ⟨⟨hlookup, by simp only; omega⟩, rfl⟩))
  · obtain ⟨⟨hlookup, -⟩, hresource⟩ := mem_transitionsOf.mp hlast
    subst hresource
    refine .inr ⟨last.occurredAtMs, last.eventId, ?_, htime, fun atMs e b hother hearly hafter => ?_⟩
    · exact hlookup.trans (congrArg some hlevel.symm)
    · obtain hsame | hfollows := hmax ⟨last.resourceId, atMs, e, b⟩
        (mem_transitionsOf.mpr ⟨⟨hother, by simp only; omega⟩, rfl⟩) hearly
      · rw [← hsame] at hafter
        obtain hlt | ⟨-, hlt⟩ := hafter
        · exact absurd hlt (lt_irrefl _)
        · exact absurd hlt (lt_irrefl _)
      · exact hfollows hafter

theorem isSizeAt_sizeAt (store : Store δ) (resourceId : List Char) (t : Int) :
    IsSizeAt store resourceId t (sizeAt store resourceId t) :=
  isSizeAt_sizeIn (by omega)

theorem IsSizeAt.unique (h : IsSizeAt store resourceId t bytes) (h' : IsSizeAt store resourceId t bytes') :
    bytes = bytes' := by
  obtain ⟨rfl, hnone⟩ | ⟨atMs, e, hlookup, htime, hmax⟩ := h
  · obtain ⟨rfl, -⟩ | ⟨atMs, e, hlookup, htime, -⟩ := h'
    · rfl
    · exact absurd htime (not_le.mpr (hnone atMs e _ hlookup))
  · obtain ⟨-, hnone⟩ | ⟨atMs', e', hlookup', htime', hmax'⟩ := h'
    · exact absurd htime (not_le.mpr (hnone atMs e _ hlookup))
    · have hone := hmax atMs' e' _ hlookup' htime'
      have hother := hmax' atMs e _ hlookup htime
      simp only [Later, not_or, not_and, not_lt] at hone hother
      have hsame : atMs = atMs' := le_antisymm hother.1 hone.1
      have hid : e = e' := le_antisymm (hother.2 hsame.symm) (hone.2 hsame)
      subst hsame
      subst hid
      exact Option.some.inj (hlookup.symm.trans hlookup')

theorem sizeIn_transitionsOf (h : t < endMs) :
    sizeIn 0 (transitionsOf store resourceId endMs) t = sizeAt store resourceId t :=
  (isSizeAt_sizeIn h).unique (isSizeAt_sizeAt store resourceId t)

theorem sizeBetween_transitionsOf (startMs endMs : Int) :
    sizeBetween 0 (transitionsOf store resourceId endMs) startMs endMs =
      ∑ t ∈ Finset.Ico startMs endMs, sizeAt store resourceId t :=
  Finset.sum_congr rfl fun _ ht => sizeIn_transitionsOf (Finset.mem_Ico.mp ht).2

end SizeAt

section Totals
variable {startMs endMs : Int} {resources : Finset (List Char)}

theorem integrateResources_eq {rs : List (List Char)} {bytesAtEnd byteMilliseconds : Nat} (hlength : startMs < endMs)
    (hbytes : bytesAtEnd ≤ u64Max) (hover : byteMilliseconds ≤ u128Max) :
    integrateResources startMs endMs (transitionsBefore store endMs) (bytesAtEnd, byteMilliseconds) rs =
      if bytesAtEnd + (rs.map (sizeAt store · (endMs - 1))).sum ≤ u64Max ∧
          byteMilliseconds + (rs.map fun r => ∑ t ∈ Finset.Ico startMs endMs, sizeAt store r t).sum ≤ u128Max then
        .ok (bytesAtEnd + (rs.map (sizeAt store · (endMs - 1))).sum,
          byteMilliseconds + (rs.map fun r => ∑ t ∈ Finset.Ico startMs endMs, sizeAt store r t).sum)
      else .error .unavailable := by
  induction rs generalizing bytesAtEnd byteMilliseconds with
  | nil => simp [integrateResources, hbytes, hover, pure, Except.pure]
  | cons r rs ih =>
    have hresource := @integrateResource_eq startMs endMs startMs 0 byteMilliseconds (transitionsOf store r endMs)
      (transitionsOf_ordered store r endMs) (fun _ h => (mem_transitionsOf.mp h).1.2) le_rfl hlength (.inl rfl)
    rw [sizeIn_transitionsOf (by omega), sizeBetween_transitionsOf] at hresource
    unfold integrateResources
    unfold transitionsOf at hresource
    rw [hresource, List.map_cons, List.map_cons, List.sum_cons, List.sum_cons, ← Nat.add_assoc, ← Nat.add_assoc]
    by_cases hfits : byteMilliseconds + ∑ t ∈ Finset.Ico startMs endMs, sizeAt store r t ≤ u128Max
    · rw [if_pos hfits]
      change (checkedAdd u64Max bytesAtEnd (sizeAt store r (endMs - 1)) >>= _) = _
      rw [checkedAdd_eq]
      by_cases hsum : bytesAtEnd + sizeAt store r (endMs - 1) ≤ u64Max
      · rw [if_pos hsum]
        exact ih hsum hfits
      · rw [if_neg hsum, if_neg fun h => hsum ((Nat.le_add_right _ _).trans h.1)]
        rfl
    · rw [if_neg hfits, if_neg fun h => hfits ((Nat.le_add_right _ _).trans h.2)]
      rfl

/-- What is stored at the end of the last millisecond, and over all of the time, in some resources. -/
noncomputable def storedIn (store : Store δ) (resources : Finset (List Char)) (startMs endMs : Int) : Nat × Nat :=
  (∑ r ∈ resources, sizeAt store r (endMs - 1), ∑ r ∈ resources, ∑ t ∈ Finset.Ico startMs endMs, sizeAt store r t)

def resourcesBefore (store : Store δ) (endMs : Int) : Finset (List Char) :=
  ((transitionsBefore store endMs).map (·.resourceId)).toFinset

theorem sizeAt_of_absent {r : List Char} {t : Int} (habsent : r ∉ resourcesBefore store endMs) (h : t < endMs) :
    sizeAt store r t = 0 := by
  obtain ⟨hnone, -⟩ | ⟨atMs, e, hlookup, htime, -⟩ := isSizeAt_sizeAt store r t
  · exact hnone
  · have hmem : (⟨r, atMs, e, sizeAt store r t⟩ : Transition) ∈ transitionsBefore store endMs :=
      mem_transitionsBefore.mpr ⟨hlookup, by simp only; omega⟩
    exact absurd (List.mem_toFinset.mpr (List.mem_map.mpr ⟨_, hmem, rfl⟩)) habsent

/-- The storage of a summary, from the sizes of all resources that there are, and maybe of others. -/
theorem storageIntegral_eq (hlength : startMs < endMs) (hall : resourcesBefore store endMs ⊆ resources) :
    storageIntegral store startMs endMs =
      if (storedIn store resources startMs endMs).1 ≤ u64Max ∧ (storedIn store resources startMs endMs).2 ≤ u128Max then
        .ok (storedIn store resources startMs endMs)
      else .error .unavailable := by
  have hsum (f : List Char → Nat) (hzero : ∀ r ∉ resourcesBefore store endMs, f r = 0) :
      (((transitionsBefore store endMs).map (·.resourceId)).dedup.map f).sum = ∑ r ∈ resources, f r := by
    rw [← Finset.sum_subset hall fun r _ habsent => hzero r habsent]
    refine (List.sum_toFinset f (List.nodup_dedup _)).symm.trans (Finset.sum_congr ?_ fun _ _ => rfl)
    ext r
    rw [resourcesBefore, List.mem_toFinset, List.mem_toFinset, List.mem_dedup]
  have hbytes := hsum (sizeAt store · (endMs - 1)) fun r habsent => sizeAt_of_absent habsent (by omega)
  have hover := hsum (fun r => ∑ t ∈ Finset.Ico startMs endMs, sizeAt store r t) fun r habsent =>
    Finset.sum_eq_zero fun t ht => sizeAt_of_absent habsent (Finset.mem_Ico.mp ht).2
  unfold storageIntegral
  dsimp only
  rw [integrateResources_eq hlength (Nat.zero_le _) (Nat.zero_le _), hbytes, hover, Nat.zero_add, Nat.zero_add]
  rfl

/-- Sizes that are the same in a window make the same storage of it. -/
theorem storageIntegral_congr (hlength : startMs < endMs)
    (hsame : ∀ r t, startMs ≤ t → t < endMs → sizeAt store r t = sizeAt store' r t) :
    storageIntegral store startMs endMs = storageIntegral store' startMs endMs := by
  have hstored : storedIn store (resourcesBefore store endMs ∪ resourcesBefore store' endMs) startMs endMs =
      storedIn store' (resourcesBefore store endMs ∪ resourcesBefore store' endMs) startMs endMs := by
    unfold storedIn
    refine congrArg₂ Prod.mk (Finset.sum_congr rfl fun r _ => hsame r (endMs - 1) (by omega) (by omega)) ?_
    refine Finset.sum_congr rfl fun r _ => Finset.sum_congr rfl fun t ht => ?_
    exact hsame r t (Finset.mem_Ico.mp ht).1 (Finset.mem_Ico.mp ht).2
  rw [storageIntegral_eq hlength Finset.subset_union_left, storageIntegral_eq hlength Finset.subset_union_right, hstored]

end Totals

end Ffdb.Metrics
