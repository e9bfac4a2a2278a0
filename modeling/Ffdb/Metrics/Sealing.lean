import Ffdb.Lib.Machine
import Ffdb.Metrics.Closing

/-! What a sealed period's summary says. Its counters stay, but the sizes are those of all events, and an event of
another period can come late and say what was stored before the end of the sealed one. -/
namespace Ffdb.Metrics
open Fallible

variable {δ : Type} {hash : List UInt8 → δ} {store store' : Store δ} {period : BillingPeriod} {event : UsageEvent}

section Later
variable {a b c : Int} {e f g : List Char}

theorem Later.irrefl (h : Later a e a e) : False := by
  obtain h | ⟨-, h⟩ := h
  · exact lt_irrefl _ h
  · exact lt_irrefl _ h

theorem Later.trans (h : Later a e b f) (h' : Later b f c g) : Later a e c g := by
  obtain h | ⟨rfl, h⟩ := h
  · obtain h' | ⟨rfl, -⟩ := h'
    · exact .inl (h.trans h')
    · exact .inl h
  · obtain h' | ⟨rfl, h'⟩ := h'
    · exact .inl h'
    · exact .inr ⟨rfl, h.trans h'⟩

end Later

section Spares

def Overtaken (store : Store δ) (event : UsageEvent) (resourceId : List Char) (t : Int) : Prop :=
  ∃ atMs e, (store.storageTransitions.lookup (resourceId, atMs, e)).isSome = true ∧
    Later event.occurredAtMs event.eventId atMs e ∧ atMs ≤ t

/-- The sizes of the event are of the period's end or later, or were overtaken, or are those that are recorded. -/
def Spares (period : BillingPeriod) (store : Store δ) (event : UsageEvent) : Prop :=
  ∀ snapshot ∈ event.storageSnapshots, period.endMs ≤ event.occurredAtMs ∨
    Overtaken store event snapshot.resourceId (max event.occurredAtMs period.startMs) ∨
    snapshot.logicalBytes = sizeAt store snapshot.resourceId (max event.occurredAtMs period.startMs)

variable {resourceId : List Char} {t : Int} {bytes : Nat}

theorem IsSizeAt.of_same (h : IsSizeAt store resourceId t bytes)
    (hsame : ∀ atMs e b, atMs ≤ t → (store'.storageTransitions.lookup (resourceId, atMs, e) = some b ↔
      store.storageTransitions.lookup (resourceId, atMs, e) = some b)) : IsSizeAt store' resourceId t bytes := by
  obtain ⟨hzero, hnone⟩ | ⟨atMs, e, hlookup, htime, hmax⟩ := h
  · refine .inl ⟨hzero, fun atMs e b hlookup => ?_⟩
    by_contra hearly
    exact hearly (hnone atMs e b ((hsame atMs e b (not_lt.mp hearly)).mp hlookup))
  · refine .inr ⟨atMs, e, (hsame atMs e bytes htime).mpr hlookup, htime, fun atMs' e' b hlookup' htime' => ?_⟩
    exact hmax atMs' e' b ((hsame atMs' e' b htime').mp hlookup') htime'

/-- The size at an earlier time that no transition follows. -/
theorem IsSizeAt.earlier {t' : Int} (h : IsSizeAt store resourceId t bytes) (ht : t' ≤ t)
    (hlast : ∀ atMs e, (store.storageTransitions.lookup (resourceId, atMs, e)).isSome = true → atMs ≤ t → atMs ≤ t') :
    IsSizeAt store resourceId t' bytes := by
  obtain ⟨hzero, hnone⟩ | ⟨atMs, e, hlookup, htime, hmax⟩ := h
  · exact .inl ⟨hzero, fun atMs e b hlookup => ht.trans_lt (hnone atMs e b hlookup)⟩
  · refine .inr ⟨atMs, e, hlookup, hlast atMs e (by rw [hlookup]; rfl) htime, fun atMs' e' b hlookup' htime' => ?_⟩
    exact hmax atMs' e' b hlookup' (htime'.trans ht)

/-- One more transition of a resource, which counts more than those that there are. -/
theorem isSizeAt_last {atMs : Int} {e : List Char} (hlookup : store.storageTransitions.lookup (resourceId, atMs, e) = some bytes)
    (htime : atMs ≤ t) (hmax : ∀ atMs' e', (store.storageTransitions.lookup (resourceId, atMs', e')).isSome = true →
      atMs' ≤ t → ¬Later atMs e atMs' e') : IsSizeAt store resourceId t bytes :=
  .inr ⟨atMs, e, hlookup, htime, fun atMs' e' b hlookup' => hmax atMs' e' (by rw [hlookup']; rfl)⟩

theorem isSizeAt_grown (hgrows : Grows event store store' .inserted) (hspares : Spares period store event)
    (hstart : period.startMs ≤ t) (hend : t < period.endMs) (h : IsSizeAt store resourceId t bytes) :
    IsSizeAt store' resourceId t bytes := by
  obtain ⟨hrecorded, hkept, hgrown⟩ := hgrows
  by_cases hsnapshot : ∃ snapshot ∈ event.storageSnapshots, snapshot.resourceId = resourceId ∧ event.occurredAtMs ≤ t
  · obtain ⟨snapshot, hmem, rfl, hoccurred⟩ := hsnapshot
    have hnow : max event.occurredAtMs period.startMs ≤ t := max_le hoccurred hstart
    have hold {atMs : Int} {e : List Char} {b : Nat}
        (hlookup : store'.storageTransitions.lookup (snapshot.resourceId, atMs, e) = some b) :
        store.storageTransitions.lookup (snapshot.resourceId, atMs, e) = some b ∨
          (atMs = event.occurredAtMs ∧ e = event.eventId) := by
      obtain hold | ⟨_, -, hkey, -⟩ := hkept _ b hlookup
      · exact .inl hold
      · simp only [StorageSnapshot.key, Prod.mk.injEq] at hkey
        exact .inr ⟨hkey.2.1.symm, hkey.2.2.symm⟩
    by_cases hovertaken : Overtaken store event snapshot.resourceId t
    · -- the transition that was the last one is it still
      obtain ⟨atMs, e, hthere, hlater, htime⟩ := hovertaken
      obtain ⟨b, hb⟩ := Option.isSome_iff_exists.mp hthere
      obtain ⟨-, hnone⟩ | ⟨last, eventId, hlookup, hlast, hmax⟩ := h
      · exact absurd htime (not_le.mpr (hnone atMs e b hb))
      · refine .inr ⟨last, eventId, hgrown _ _ hlookup, hlast, fun atMs' e' b' hlookup' htime' hafter => ?_⟩
        obtain hlookup' | ⟨rfl, rfl⟩ := hold hlookup'
        · exact hmax atMs' e' b' hlookup' htime' hafter
        · exact hmax atMs e b hb htime (hafter.trans hlater)
    · -- the new transition is the last one, and says what the one before it said
      have hfirst : ∀ atMs e, (store.storageTransitions.lookup (snapshot.resourceId, atMs, e)).isSome = true → atMs ≤ t →
          ¬Later event.occurredAtMs event.eventId atMs e :=
        fun atMs e hthere htime hlater => hovertaken ⟨atMs, e, hthere, hlater, htime⟩
      have hbytes : snapshot.logicalBytes = bytes := by
        obtain hafter | ⟨atMs, e, hthere, hlater, htime⟩ | hbytes := hspares snapshot hmem
        · omega
        · exact absurd hlater (hfirst atMs e hthere (htime.trans hnow))
        · refine hbytes.trans ((isSizeAt_sizeAt store _ _).unique (h.earlier hnow fun atMs e hthere htime => ?_))
          by_contra hlater
          exact hfirst atMs e hthere htime (.inl ((le_max_left _ _).trans_lt (not_le.mp hlater)))
      refine isSizeAt_last (hbytes ▸ (hrecorded snapshot hmem).2) hoccurred fun atMs e hthere htime hlater => ?_
      obtain ⟨b, hb⟩ := Option.isSome_iff_exists.mp hthere
      obtain hb | ⟨rfl, rfl⟩ := hold hb
      · exact hfirst atMs e (by rw [hb]; rfl) htime hlater
      · exact hlater.irrefl
  · refine h.of_same fun atMs e b htime => ⟨fun hlookup => ?_, hgrown _ b⟩
    obtain hold | ⟨snapshot, hmem, hkey, -⟩ := hkept _ b hlookup
    · exact hold
    · simp only [StorageSnapshot.key, Prod.mk.injEq] at hkey
      obtain ⟨hresource, rfl, rfl⟩ := hkey
      exact absurd ⟨snapshot, hmem, hresource, htime⟩ hsnapshot

end Spares

section Claim

theorem summary_congr (hcounts : CountsKept period.startMs store store')
    (hsizes : ∀ r t, period.startMs ≤ t → t < period.endMs → sizeAt store' r t = sizeAt store r t) :
    summary store' period = summary store period := by
  by_cases hvalid : period.Valid
  · have hstorage := storageIntegral_congr hvalid.2.1 hsizes
    unfold summary summaryThrough
    rw [hcounts.usage, hcounts.usage, hcounts.users, hstorage]
  · rw [summary_invalid hvalid, summary_invalid hvalid]

variable [DecidableEq δ]

def SparedBy (hash : List UInt8 → δ) (period : BillingPeriod) (world : World δ) (call : MetricsCall) : Prop :=
  ∀ event, (advance hash world call).events = world.events ++ [event] → Spares period world.store event

theorem summary_advance {world : World δ} {call : MetricsCall} (hshut : IsShut world.store period)
    (hknown : SettledKnown world.store) (hspared : SparedBy hash period world call) :
    summary (advance hash world call).store period = summary world.store period := by
  obtain ⟨-, htook, hcounts⟩ := @advance_spec δ hash _ world call
  refine summary_congr (hcounts period hshut hknown) fun r t hstart hend => ?_
  obtain ⟨-, htransitions⟩ | ⟨event, -, hevents, hgrows⟩ := htook
  · refine ((isSizeAt_sizeAt world.store r t).of_same fun atMs e b _ => ?_).unique (isSizeAt_sizeAt _ r t) |>.symm
    rw [htransitions]
  · exact ((isSizeAt_grown hgrows (hspared event hevents) hstart hend (isSizeAt_sizeAt world.store r t)).unique
      (isSizeAt_sizeAt _ r t)).symm

theorem settledKnown_run (calls : List MetricsCall) : SettledKnown (Machine.run (advance hash) {} calls).store := by
  refine Machine.run_preserves (P := fun world : World δ => SettledKnown world.store) ?_ _ calls ?_
  · intro world call h
    exact (advance_spec world call).1.known h
  · intro id row hlookup
    simp at hlookup

/-- Once a period is sealed its summary stays, in every run that ingests nothing into it. -/
theorem sealed_summary_kept (period : BillingPeriod) (before after : List MetricsCall)
    (hshut : IsShut (Machine.run (advance hash) {} before).store period)
    (hspared : ∀ done call rest, after = done ++ call :: rest →
      SparedBy hash period (Machine.run (advance hash) {} (before ++ done)) call) :
    summary (Machine.run (advance hash) {} (before ++ after)).store period =
      summary (Machine.run (advance hash) {} before).store period := by
  induction after generalizing before with
  | nil => rw [List.append_nil]
  | cons call after ih =>
    have hfirst := hspared [] call after rfl
    rw [List.append_nil] at hfirst
    have hstep := summary_advance hshut (settledKnown_run before) hfirst
    have hone : Machine.run (advance hash) {} (before ++ [call]) =
        advance hash (Machine.run (advance hash) {} before) call := Machine.run_append _ _ _
    have hsplit : before ++ call :: after = before ++ [call] ++ after := by simp
    rw [← hstep, ← hone, hsplit]
    refine ih (before ++ [call]) ?_ fun done other rest hafter => ?_
    · rw [hone]
      exact (advance_spec _ call).1.shut period hshut
    · have hpoint := hspared (call :: done) other rest (by rw [hafter]; rfl)
      rwa [List.append_assoc]

end Claim

section Sample

def sampleSubscription : BillingPeriod := .ofBounds (10*dayMs) (40*dayMs)

def sampleMeasured (eventId : List Char) (period : BillingPeriod) (occurredAtMs recordedAtMs : Int) (bytes : Nat) :
    UsageEvent :=
  ⟨eventId, 1, period, occurredAtMs, recordedAtMs, 1, 0, none, [⟨['d'], bytes⟩]⟩

def sampleLate (bytes : Nat) : UsageEvent := sampleMeasured ['b'] sampleSubscription (20*dayMs) (33*dayMs) bytes

def sampleSealed : List MetricsCall :=
  [.usage (.record (sampleMeasured ['a'] samplePeriod (5*dayMs) (5*dayMs) 100)),
    .usage (.close samplePeriod (32*dayMs))]

/-- A receipt of the subscription comes late, and makes the sealed month larger. -/
theorem late_receipt_changes_sealed :
    IsShut (Machine.run (advance id) {} sampleSealed).store samplePeriod ∧
      summary (Machine.run (advance id) {} (sampleSealed ++ [.usage (.record (sampleLate 500))])).store samplePeriod ≠
        summary (Machine.run (advance id) {} sampleSealed).store samplePeriod :=
  ⟨⟨⟨30*dayMs, 32*dayMs, .sealed⟩, by decide +kernel, rfl, rfl, rfl⟩, by decide +kernel⟩

/-- A late receipt that says what is recorded already leaves the sealed month as it is. -/
theorem late_receipt_repeats_size :
    summary (Machine.run (advance id) {} (sampleSealed ++ [.usage (.record (sampleLate 100))])).store samplePeriod =
      summary (Machine.run (advance id) {} sampleSealed).store samplePeriod := by
  refine sealed_summary_kept samplePeriod sampleSealed [.usage (.record (sampleLate 100))]
    ⟨⟨30*dayMs, 32*dayMs, .sealed⟩, by decide +kernel, rfl, rfl, rfl⟩ ?_
  refine Machine.forall_point_cons (fun event hevents => ?_) Machine.forall_point_nil
  have hlate : (advance id (Machine.run (advance id) {} (sampleSealed ++ [])) (.usage (.record (sampleLate 100)))).events =
      (Machine.run (advance id) {} (sampleSealed ++ [])).events ++ [sampleLate 100] := by decide +kernel
  obtain rfl := List.singleton_inj.mp (List.append_cancel_left (hlate.symm.trans hevents))
  intro snapshot hsnapshot
  obtain rfl := List.mem_singleton.mp hsnapshot
  exact .inr (.inr (by decide +kernel))

end Sample

end Ffdb.Metrics
