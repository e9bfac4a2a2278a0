import Mathlib.Data.Char
import Mathlib.Data.List.Lex
import Mathlib.Data.Prod.Lex
import Ffdb.Metrics.Claims
import Ffdb.Metrics.Summary

/-! What holds of the tables in every state that the operations reach: sizes and claims belong to
events that were ingested, and fall into their periods. -/
namespace Ffdb.Metrics
open Fallible

variable {δ : Type} {hash : List UInt8 → δ}

abbrev Stamp := Int ×ₗ List Char

def CurrentSize.stamp (size : CurrentSize) : Stamp := toLex (size.occurredAtMs, size.eventId)

theorem CurrentSize.isAfter_iff (size other : CurrentSize) : size.isAfter other = true ↔ other.stamp < size.stamp := by
  simp [CurrentSize.isAfter, CurrentSize.stamp, Prod.Lex.lt_iff]

structure SizesSound (transitions : Table (List Char × Int × List Char) Nat) (current : Table (List Char) CurrentSize) :
    Prop where
  absent : ∀ r, current.lookup r = none → ∀ at' e, transitions.lookup (r, at', e) = none
  recorded : ∀ r size, current.lookup r = some size →
    transitions.lookup (r, size.occurredAtMs, size.eventId) = some size.logicalBytes
  latest : ∀ r size, current.lookup r = some size → ∀ at' e, (transitions.lookup (r, at', e)).isSome = true →
    toLex (at', e) ≤ size.stamp

section Sizes
variable {transitions : Table (List Char × Int × List Char) Nat} {current : Table (List Char) CurrentSize}
  {r : List Char} {size : CurrentSize}

theorem lookup_setCurrent (r' : List Char) : (setCurrent current r size).lookup r' =
    if r' = r then some (match current.lookup r with
      | none => size
      | some old => if size.isAfter old then size else old) else current.lookup r' := by
  unfold setCurrent
  by_cases hr : r' = r
  · subst hr
    rw [if_pos rfl]
    cases hold : current.lookup r' with
    | none => exact AList.lookup_insert _
    | some old =>
      dsimp only
      split
      · exact AList.lookup_insert _
      · exact hold
  · rw [if_neg hr]
    cases current.lookup r with
    | none => exact AList.lookup_insert_ne hr
    | some old =>
      dsimp only
      split
      · exact AList.lookup_insert_ne hr
      · rfl

theorem SizesSound.record (h : SizesSound transitions current) (size : CurrentSize)
    (hnew : transitions.lookup (r, size.occurredAtMs, size.eventId) = none) :
    SizesSound (transitions.insert (r, size.occurredAtMs, size.eventId) size.logicalBytes) (setCurrent current r size) where
  absent := by
    intro r' hnone at' e
    rw [lookup_setCurrent] at hnone
    by_cases hr : r' = r
    · rw [if_pos hr] at hnone
      cases hnone
    · rw [if_neg hr] at hnone
      rw [AList.lookup_insert_ne (fun hsame => hr (Prod.ext_iff.mp hsame).1)]
      exact h.absent r' hnone at' e
  recorded := by
    intro r' size' hcurrent
    rw [lookup_setCurrent] at hcurrent
    by_cases hr : r' = r
    · subst hr
      rw [if_pos rfl, Option.some.injEq] at hcurrent
      cases hold : current.lookup r' with
      | none =>
        rw [hold] at hcurrent
        subst hcurrent
        exact AList.lookup_insert _
      | some old =>
        rw [hold] at hcurrent
        dsimp only at hcurrent
        split at hcurrent
        · subst hcurrent
          exact AList.lookup_insert _
        · subst hcurrent
          have hkept := h.recorded r' old hold
          rw [AList.lookup_insert_ne]
          · exact hkept
          · intro hsame
            rw [hsame, hnew] at hkept
            cases hkept
    · rw [if_neg hr] at hcurrent
      rw [AList.lookup_insert_ne (fun hsame => hr (Prod.ext_iff.mp hsame).1)]
      exact h.recorded r' size' hcurrent
  latest := by
    intro r' size' hcurrent at' e hsome
    rw [lookup_setCurrent] at hcurrent
    by_cases hr : r' = r
    · subst hr
      rw [if_pos rfl, Option.some.injEq] at hcurrent
      have hnewer : toLex (at', e) = size.stamp ∨ (transitions.lookup (r', at', e)).isSome = true := by
        obtain hsame | hsome := AList.isSome_lookup_insert.mp hsome
        · simp only [Prod.mk.injEq, true_and] at hsame
          obtain ⟨rfl, rfl⟩ := hsame
          exact .inl rfl
        · exact .inr hsome
      cases hold : current.lookup r' with
      | none =>
        rw [hold] at hcurrent
        subst hcurrent
        obtain hsame | hsome := hnewer
        · exact le_of_eq hsame
        · rw [h.absent r' hold] at hsome
          cases hsome
      | some old =>
        rw [hold] at hcurrent
        dsimp only at hcurrent
        have hlatest := h.latest r' old hold at' e
        split at hcurrent
        · rename_i hafter
          subst hcurrent
          obtain hsame | hsome := hnewer
          · exact le_of_eq hsame
          · exact (hlatest hsome).trans (le_of_lt ((CurrentSize.isAfter_iff size old).mp hafter))
        · rename_i hbefore
          subst hcurrent
          obtain hsame | hsome := hnewer
          · rw [hsame]
            exact not_lt.mp fun hlt => hbefore ((CurrentSize.isAfter_iff size old).mpr hlt)
          · exact hlatest hsome
    · rw [if_neg hr] at hcurrent
      rw [AList.lookup_insert_ne (fun hsame => hr (Prod.ext_iff.mp hsame).1)] at hsome
      exact h.latest r' size' hcurrent at' e hsome

end Sizes

section Dates

def periodEnd (store : Store δ) (startMs : Int) : Option Int := (store.periods.lookup startMs).map (·.endMs)

/-- An active user was first seen before the end of the period, and no other was seen at all. -/
structure ActiveUserClaim.Dated (claim : ActiveUserClaim) (endMs : Int) : Prop where
  unseen : claim.active = false → claim.firstSeenMs = none
  seen : claim.active = true → ∃ t, claim.firstSeenMs = some t ∧ t < endMs

def ClaimsDated (store : Store δ) : Prop :=
  ∀ key claim, store.activeUserClaims.lookup key = some claim → ∃ e, periodEnd store key.1 = some e ∧ claim.Dated e

def SeenKept (claims claims' : Table ClaimKey ActiveUserClaim) : Prop :=
  ∀ key claim', claims'.lookup key = some claim' → ∃ claim, claims.lookup key = some claim ∧
    claim'.active = claim.active ∧ claim'.firstSeenMs = claim.firstSeenMs

variable {claims claims' : Table ClaimKey ActiveUserClaim} {key : ClaimKey} {store store' : Store δ}

theorem SeenKept.refl : SeenKept claims claims := fun _ claim h => ⟨claim, h, rfl, rfl⟩

theorem SeenKept.trans {claims'' : Table ClaimKey ActiveUserClaim} (h : SeenKept claims claims')
    (h' : SeenKept claims' claims'') : SeenKept claims claims'' := by
  intro key claim'' hclaim''
  obtain ⟨claim', hclaim', hactive', hseen'⟩ := h' key claim'' hclaim''
  obtain ⟨claim, hclaim, hactive, hseen⟩ := h key claim' hclaim'
  exact ⟨claim, hclaim, hactive'.trans hactive, hseen'.trans hseen⟩

theorem seenKept_dropClaim (claims : Table ClaimKey ActiveUserClaim) (key : ClaimKey) :
    SeenKept claims (dropClaim claims key) := by
  unfold dropClaim
  cases hclaim : claims.lookup key with
  | none => exact SeenKept.refl
  | some claim =>
    dsimp only
    split
    · intro other claim' hclaim'
      exact ⟨claim', (AList.lookup_erase_eq_some_iff.mp hclaim').2, rfl, rfl⟩
    · intro other claim' hclaim'
      obtain ⟨rfl, rfl⟩ | ⟨-, hclaim'⟩ := AList.lookup_insert_eq_some_iff.mp hclaim'
      · exact ⟨claim, hclaim, rfl, rfl⟩
      · exact ⟨claim', hclaim', rfl, rfl⟩

theorem seenKept_dropClaims (rows : List (Reservation δ)) (claims : Table ClaimKey ActiveUserClaim) :
    SeenKept claims (dropClaims claims rows) := by
  induction rows generalizing claims with
  | nil => exact SeenKept.refl
  | cons row rows ih =>
    refine SeenKept.trans ?_ (ih _)
    dsimp only
    cases row.claimKey with
    | none => exact SeenKept.refl
    | some own => exact seenKept_dropClaim claims own

theorem ClaimsDated.kept (h : ClaimsDated store) (hkept : SeenKept store.activeUserClaims store'.activeUserClaims)
    (hends : ∀ startMs e, periodEnd store startMs = some e → periodEnd store' startMs = some e) :
    ClaimsDated store' := by
  intro key claim' hclaim'
  obtain ⟨claim, hclaim, hactive, hseen⟩ := hkept key claim' hclaim'
  obtain ⟨e, hend, hdated⟩ := h key claim hclaim
  exact ⟨e, hends _ _ hend, ⟨hactive ▸ hseen ▸ hdated.unseen, hactive ▸ hseen ▸ hdated.seen⟩⟩

theorem ActiveUserClaim.Dated.seen_at {claim : ActiveUserClaim} {endMs seenMs : Int} (h : claim.Dated endMs)
    (hseen : claim.active = true ∨ seenMs < endMs) : (claim.seen seenMs).Dated endMs := by
  refine ⟨fun hfalse => (nomatch hfalse), fun _ => ?_⟩
  cases hactive : claim.active with
  | true =>
    obtain ⟨t, hfirst, ht⟩ := h.seen hactive
    exact ⟨t, by simp [ActiveUserClaim.seen, hfirst], ht⟩
  | false =>
    rw [hactive] at hseen
    exact ⟨seenMs, by simp [ActiveUserClaim.seen, h.unseen hactive], by simpa using hseen⟩

theorem ClaimsDated.mark (h : ClaimsDated store) {periodEndMs seenMs e : Int} (hend : periodEnd store key.1 = some e)
    (hseen : seenMs < e) :
    ClaimsDated { store with activeUserClaims := markActive store.activeUserClaims key periodEndMs seenMs } := by
  intro other claim hclaim
  obtain ⟨rfl, rfl⟩ | ⟨-, hclaim⟩ := AList.lookup_insert_eq_some_iff.mp hclaim
  · refine ⟨e, hend, ?_⟩
    cases hold : store.activeUserClaims.lookup other with
    | none => exact ⟨fun hfalse => (nomatch hfalse), fun _ => ⟨seenMs, rfl, hseen⟩⟩
    | some old =>
      obtain ⟨e', hend', hdated⟩ := h other old hold
      obtain rfl := Option.some.inj (hend.symm.trans hend')
      exact hdated.seen_at (.inr hseen)
  · exact h other claim hclaim

theorem ClaimsDated.hold (h : ClaimsDated store) (key : ClaimKey) {periodEndMs e : Int} (hend : periodEnd store key.1 = some e) :
    ClaimsDated { store with activeUserClaims := holdClaim store.activeUserClaims key periodEndMs } := by
  intro other claim hclaim
  obtain ⟨rfl, rfl⟩ | ⟨-, hclaim⟩ := AList.lookup_insert_eq_some_iff.mp hclaim
  · refine ⟨e, hend, ?_⟩
    cases hold : store.activeUserClaims.lookup other with
    | none => exact ⟨fun _ => rfl, fun htrue => nomatch htrue⟩
    | some old =>
      obtain ⟨e', hend', hdated⟩ := h other old hold
      obtain rfl := Option.some.inj (hend.symm.trans hend')
      exact ⟨hdated.unseen, hdated.seen⟩
  · exact h other claim hclaim

/-- A claim that is converted was seen before, so that its date stays. -/
theorem ClaimsDated.convert (h : ClaimsDated store) {periodEndMs nowMs : Int} {claim : ActiveUserClaim}
    (hclaim : store.activeUserClaims.lookup key = some claim) (hactive : claim.active = true) :
    ClaimsDated { store with activeUserClaims := convertClaim store.activeUserClaims key periodEndMs nowMs } := by
  obtain ⟨e, hend, hdated⟩ := h key claim hclaim
  have hseen : (claim.seen nowMs).Dated e := hdated.seen_at (.inl hactive)
  intro other claim' hclaim'
  change (convertClaim store.activeUserClaims key periodEndMs nowMs).lookup other = some claim' at hclaim'
  unfold convertClaim markActive at hclaim'
  rw [hclaim] at hclaim'
  dsimp only at hclaim'
  split at hclaim'
  all_goals
    obtain ⟨rfl, rfl⟩ | ⟨-, hclaim'⟩ := AList.lookup_insert_eq_some_iff.mp hclaim'
    · exact ⟨e, hend, ⟨hseen.unseen, hseen.seen⟩⟩
    · exact h other claim' hclaim'

end Dates

structure Sound (hash : List UInt8 → δ) (world : World δ) : Prop where
  exact : Exact hash world
  receipted : ∀ event ∈ world.events, event.Valid ∧ Registered world.store event.period ∧
    ∃ row, world.store.eventReceipts.lookup event.eventId = some row ∧ row.payloadSha256 = hash event.bytes
  distinct : (world.events.map (·.eventId)).Nodup
  sizes : SizesSound world.store.storageTransitions world.store.storageCurrent
  transitions : ∀ r at' e bytes, world.store.storageTransitions.lookup (r, at', e) = some bytes →
    ∃ event ∈ world.events, event.eventId = e ∧ event.occurredAtMs = at' ∧ ⟨r, bytes⟩ ∈ event.storageSnapshots
  hourly : ∀ key usage, world.store.usageHourly.lookup key = some usage →
    ∃ e, periodEnd world.store key.1 = some e ∧ key.2.1 < e
  dated : ClaimsDated world.store

section Steps
variable {store store' : Store δ} {events : List UsageEvent} {event : UsageEvent} {period : BillingPeriod}

def PeriodsKept (store store' : Store δ) : Prop :=
  ∀ startMs row, store.periods.lookup startMs = some row →
    ∃ row', store'.periods.lookup startMs = some row' ∧ row'.endMs = row.endMs ∧ row'.cutoffMs = row.cutoffMs

theorem PeriodsKept.of_same (h : store'.periods = store.periods) : PeriodsKept store store' :=
  fun _ row hrow => ⟨row, h ▸ hrow, rfl, rfl⟩

theorem PeriodsKept.trans {store'' : Store δ} (h : PeriodsKept store store') (h' : PeriodsKept store' store'') :
    PeriodsKept store store'' := by
  intro startMs row hrow
  obtain ⟨row', hrow', hend, hcutoff⟩ := h startMs row hrow
  obtain ⟨row'', hrow'', hend', hcutoff'⟩ := h' startMs row' hrow'
  exact ⟨row'', hrow'', hend'.trans hend, hcutoff'.trans hcutoff⟩

theorem PeriodsKept.periodEnd (h : PeriodsKept store store') {startMs e : Int}
    (hend : periodEnd store startMs = some e) : periodEnd store' startMs = some e := by
  obtain ⟨row, hrow, rfl⟩ := Option.map_eq_some_iff.mp hend
  obtain ⟨row', hrow', hsame, -⟩ := h startMs row hrow
  rw [Metrics.periodEnd, hrow', Option.map_some, hsame]

theorem PeriodsKept.registered (h : PeriodsKept store store') (hregistered : Registered store period) :
    Registered store' period := by
  obtain ⟨row, hrow, hend, hcutoff⟩ := hregistered
  obtain ⟨row', hrow', hend', hcutoff'⟩ := h _ row hrow
  exact ⟨row', hrow', hend'.trans hend, hcutoff'.trans hcutoff⟩

theorem ensurePeriod_kept (h : ensurePeriod store period = .ok store') : PeriodsKept store store' := by
  intro startMs row hrow
  obtain ⟨-, new, -, -, -, ⟨-, rfl⟩ | ⟨hnone, -, rfl⟩⟩ := ensurePeriod_ok h
  · exact ⟨row, hrow, rfl, rfl⟩
  · have hother : startMs ≠ period.startMs := by
      intro hsame
      rw [hsame, hnone] at hrow
      cases hrow
    exact ⟨row, (AList.lookup_insert_ne hother).trans hrow, rfl, rfl⟩

theorem sealPeriod_kept {nowMs : Int} (h : sealPeriod store period nowMs = .ok store') : PeriodsKept store store' := by
  simp only [sealPeriod, bind_ok_iff, orError_ok_iff] at h
  obtain ⟨_, -, _, -, middle, hensure, row, hrow, hrest⟩ := h
  have hmiddle := ensurePeriod_kept hensure
  split at hrest
  · obtain rfl := (pure_ok_iff _ _).mp hrest
    exact hmiddle
  · obtain rfl := (pure_ok_iff _ _).mp hrest
    intro startMs old hold
    obtain ⟨between, hbetween, hend, hcutoff⟩ := hmiddle startMs old hold
    by_cases hsame : startMs = period.startMs
    · subst hsame
      obtain rfl := Option.some.inj (hrow.symm.trans hbetween)
      exact ⟨_, AList.lookup_insert _, hend, hcutoff⟩
    · exact ⟨between, (AList.lookup_insert_ne hsame).trans hbetween, hend, hcutoff⟩

theorem Registered.periodEnd (h : Registered store period) : periodEnd store period.startMs = some period.endMs := by
  obtain ⟨row, hrow, hend, -⟩ := h
  rw [Metrics.periodEnd, hrow, Option.map_some, hend]

theorem Sound.periods (h : Sound hash ⟨store, events⟩) (hframe : store' = { store with periods := store'.periods })
    (hkept : PeriodsKept store store') : Sound hash ⟨store', events⟩ := by
  have hexact : Exact hash ⟨store', events⟩ := by
    rw [hframe]
    exact ⟨h.exact.receipts, h.exact.claims, h.exact.stands⟩
  refine ⟨hexact, ?_, h.distinct, ?_, ?_, ?_, ?_⟩
  · intro event hevent
    obtain ⟨hvalid, hregistered, hreceipt⟩ := h.receipted event hevent
    refine ⟨hvalid, hkept.registered hregistered, ?_⟩
    rw [hframe]
    exact hreceipt
  · rw [hframe]
    exact h.sizes
  · rw [hframe]
    exact h.transitions
  · intro key usage husage
    rw [hframe] at husage
    obtain ⟨e, hend, hbucket⟩ := h.hourly key usage husage
    exact ⟨e, hkept.periodEnd hend, hbucket⟩
  · refine h.dated.kept ?_ fun _ _ => hkept.periodEnd
    rw [hframe]
    exact SeenKept.refl

theorem Sound.ensured (h : Sound hash ⟨store, events⟩) (hensure : ensurePeriod store period = .ok store') :
    Sound hash ⟨store', events⟩ :=
  h.periods (ensurePeriod_frame hensure) (ensurePeriod_kept hensure)

theorem Sound.claimed (h : Sound hash ⟨store, events⟩) (hframe : store' = { store with
      activeUserClaims := store'.activeUserClaims, reservations := store'.reservations })
    (hexact : Exact hash ⟨store', events⟩) (hdated : ClaimsDated store') : Sound hash ⟨store', events⟩ := by
  refine ⟨hexact, ?_, h.distinct, ?_, ?_, ?_, hdated⟩ <;> rw [hframe]
  · exact h.receipted
  · exact h.sizes
  · exact h.transitions
  · exact h.hourly

theorem Sound.swept (h : Sound hash ⟨store, events⟩) {nowMs : Int}
    (hexpire : expireReservations store nowMs = .ok store') : Sound hash ⟨store', events⟩ := by
  have hexact := h.exact.swept hexpire
  rw [expireReservations_eq h.exact.claims] at hexpire
  obtain rfl := Except.ok.inj hexpire
  exact h.claimed rfl hexact (h.dated.kept (seenKept_dropClaims _ _) fun _ _ hend => hend)

theorem Sound.released (h : Sound hash ⟨store, events⟩) {id : List Char} {nowMs : Int} {status : ReservationStatus}
    (hrelease : releaseReservation store id nowMs = .ok (store', status)) : Sound hash ⟨store', events⟩ := by
  have hexact := h.exact.released hrelease
  obtain ⟨row, hrow, ⟨-, -, released, hclaim, rfl⟩ | ⟨-, -, rfl⟩⟩ := releaseReservation_ok hrelease
  · rw [releaseMauClaim_eq (h.exact.claims id row hrow)] at hclaim
    obtain rfl := Except.ok.inj hclaim
    refine h.claimed rfl hexact (h.dated.kept ?_ fun _ _ hend => hend)
    dsimp only
    cases row.claimKey with
    | none => exact SeenKept.refl
    | some own => exact seenKept_dropClaim _ own
  · exact h

theorem addUsage_hourly (h : Sound hash ⟨store, events⟩) (hregistered : Registered store event.period)
    (hvalid : event.Valid) : ∀ key usage, (addUsage store.usageHourly event).lookup key = some usage →
      ∃ e, periodEnd store key.1 = some e ∧ key.2.1 < e := by
  intro key usage husage
  obtain ⟨rfl, -⟩ | ⟨-, husage⟩ := AList.lookup_insert_eq_some_iff.mp husage
  · refine ⟨event.period.endMs, hregistered.periodEnd, ?_⟩
    obtain ⟨-, -, ⟨-, hend, -⟩, -⟩ := hvalid
    have hhour : 0 ≤ event.occurredAtMs % hourMs := Int.emod_nonneg _ (by decide)
    dsimp only
    omega
  · exact h.hourly key usage husage

theorem Sound.counted (h : Sound hash ⟨store, events⟩) (hregistered : Registered store event.period)
    (hvalid : event.Valid) (hnew : store.eventReceipts.lookup event.eventId = none) :
    Sound hash ⟨countEvent hash store event, events ++ [event]⟩ := by
  refine ⟨h.exact.counted hvalid, ?_, ?_, h.sizes, ?_, addUsage_hourly h hregistered hvalid, ?_⟩
  · intro other hother
    obtain hother | hsame := List.mem_append.mp hother
    · obtain ⟨hvalid', hregistered', row, hrow, hdigest⟩ := h.receipted other hother
      have hne : other.eventId ≠ event.eventId := by
        intro hsame
        rw [hsame, hnew] at hrow
        cases hrow
      exact ⟨hvalid', hregistered', row, (AList.lookup_insert_ne hne).trans hrow, hdigest⟩
    · obtain rfl := List.mem_singleton.mp hsame
      exact ⟨hvalid, hregistered, _, AList.lookup_insert _, rfl⟩
  · rw [List.map_append, List.map_singleton, List.nodup_append]
    refine ⟨h.distinct, List.nodup_singleton _, ?_⟩
    intro id hid other hother
    obtain ⟨known, hknown, rfl⟩ := List.mem_map.mp hid
    obtain rfl := List.mem_singleton.mp hother
    intro hsame
    obtain ⟨-, -, row, hrow, -⟩ := h.receipted known hknown
    rw [hsame, hnew] at hrow
    cases hrow
  · intro r at' e bytes htransition
    obtain ⟨other, hother, hrest⟩ := h.transitions r at' e bytes htransition
    exact ⟨other, List.mem_append_left _ hother, hrest⟩
  · unfold countEvent
    cases hsubject : event.activeSubjectHash with
    | none => exact h.dated
    | some subject =>
      obtain ⟨-, -, ⟨-, hend, -⟩, -⟩ := hvalid
      exact h.dated.mark hregistered.periodEnd hend

theorem Sound.snapshots (h : Sound hash ⟨store, events⟩) (hevent : event ∈ events)
    {snapshots : List StorageSnapshot} (hsubset : ∀ snapshot ∈ snapshots, snapshot ∈ event.storageSnapshots)
    (hfold : snapshots.foldlM (recordSnapshot event) store = .ok store') : Sound hash ⟨store', events⟩ := by
  refine foldlM_keeps (P := fun later => Sound hash ⟨later, events⟩) ?_ hfold h
  intro s snapshot s' hmem hs hstep
  simp only [recordSnapshot, bind_ok_iff, require_ok_iff, pure_ok_iff, Option.isNone_iff_eq_none] at hstep
  obtain ⟨_, hnew, rfl⟩ := hstep
  refine ⟨⟨hs.exact.receipts, hs.exact.claims, hs.exact.stands⟩, hs.receipted, hs.distinct, ?_, ?_, hs.hourly, hs.dated⟩
  · exact hs.sizes.record ⟨event.occurredAtMs, event.eventId, snapshot.logicalBytes⟩ hnew
  · intro r at' e bytes htransition
    obtain ⟨hkey, rfl⟩ | ⟨-, htransition⟩ := AList.lookup_insert_eq_some_iff.mp htransition
    · simp only [Prod.mk.injEq] at hkey
      obtain ⟨rfl, rfl, rfl⟩ := hkey
      exact ⟨event, hevent, rfl, rfl, hsubset snapshot hmem⟩
    · exact hs.transitions r at' e bytes htransition

/-- The subject of a settled reservation is active by then. -/
theorem Exact.active (h : Exact hash ⟨store, events⟩) {key : ClaimKey}
    (hseen : ∃ event ∈ events, event.claimKey = some key) :
    ∃ claim, store.activeUserClaims.lookup key = some claim ∧ claim.active = true := by
  have hstands := h.stands key
  have hsome := hstands.isSome_iff.mpr (.inl hseen)
  rw [markAt_isSome] at hsome
  obtain ⟨claim, hclaim⟩ := Option.isSome_iff_exists.mp hsome
  rw [markAt, hclaim] at hstands
  exact ⟨claim, hclaim, hstands.1.mpr hseen⟩

theorem releaseReservation_kept {id : List Char} {nowMs : Int} {status : ReservationStatus}
    (hclaims : ClaimsSubjects store) (h : releaseReservation store id nowMs = .ok (store', status)) :
    PeriodsKept store store' := by
  obtain ⟨row, hrow, ⟨-, -, released, hclaim, rfl⟩ | ⟨-, -, rfl⟩⟩ := releaseReservation_ok h
  · rw [releaseMauClaim_eq (hclaims id row hrow)] at hclaim
    obtain rfl := Except.ok.inj hclaim
    exact PeriodsKept.of_same rfl
  · exact PeriodsKept.of_same rfl

end Steps

section Calls
variable [DecidableEq δ] {store store' : Store δ} {events : List UsageEvent} {event : UsageEvent}
  {outcome : IngestOutcome}

theorem Sound.ingested (h : Sound hash ⟨store, events⟩) (hvalid : event.Valid)
    (hingest : ingestEvent hash store event = .ok (store', outcome)) :
    Sound hash ⟨store', events ++ outcome.events event⟩ := by
  obtain ⟨middle, hensure, ⟨stored, -, -, rfl, rfl⟩ | ⟨hnew, rfl, hfold⟩⟩ := ingestEvent_ok hingest
  · rw [IngestOutcome.events, List.append_nil]
    exact h.ensured hensure
  · have hmiddle := h.ensured hensure
    have hreceipts : middle.eventReceipts = store.eventReceipts := by rw [ensurePeriod_frame hensure]
    have hcounted := hmiddle.counted (registered_of_ensured hensure) hvalid (hreceipts ▸ hnew)
    exact hcounted.snapshots (by simp) (fun _ hsnapshot => hsnapshot) hfold

theorem Sound.recorded (h : Sound hash ⟨store, events⟩)
    (hrecord : recordEvent hash store event = .ok (store', outcome)) :
    Sound hash ⟨store', events ++ outcome.events event⟩ := by
  obtain ⟨hvalid, middle, hensure, -, hingest⟩ := recordEvent_ok hrecord
  exact (h.ensured hensure).ingested hvalid hingest

theorem Sound.reserved (h : Sound hash ⟨store, events⟩) {request : ReservationRequest} {limits : UsageLimits}
    {admission : ReservationAdmission} (hreserve : reserve hash store request limits = .ok (store', admission)) :
    Sound hash ⟨store', events⟩ := by
  have hexact := h.exact.reserved hreserve
  obtain ⟨-, ensured, swept, hensure, -, hexpire, ⟨_, -, -, rfl, -⟩ | ⟨-, -, -, claimed, hclaim, rfl⟩⟩ :=
    reserve_ok hreserve
  · exact (h.ensured hensure).swept hexpire
  · have hensured := h.ensured hensure
    have hswept := hensured.swept hexpire
    obtain rfl := claimSubject_ok hclaim
    refine hswept.claimed rfl hexact ?_
    have hregistered := registered_of_ensured hensure
    have hperiods : swept.periods = ensured.periods := by
      rw [expireReservations_eq hensured.exact.claims] at hexpire
      rw [← Except.ok.inj hexpire]
    have hend : periodEnd swept request.period.startMs = some request.period.endMs := by
      rw [periodEnd, hperiods]
      exact hregistered.periodEnd
    cases request.activeSubjectHash with
    | none => exact hswept.dated
    | some subject => exact hswept.dated.hold (request.period.startMs, subject) hend

theorem Sound.settled (hinj : Function.Injective hash) (h : Sound hash ⟨store, events⟩) {id : List Char}
    (hsettle : settleReservation hash store id event = .ok (store', outcome)) :
    Sound hash ⟨store', events ++ outcome.events event⟩ := by
  have hexact := h.exact.settled hinj hsettle
  obtain ⟨hvalid, row, hrow, ⟨-, -, hingest⟩ | ⟨-, hcovers, -, ingested, activated, hingest, hactivate, rfl⟩⟩ :=
    settleReservation_ok hsettle
  · exact h.ingested hvalid hingest
  · have hingested := h.ingested hvalid hingest
    obtain ⟨-, hreservations, hseen⟩ := h.exact.ingested hinj hvalid hingest
    have hrow' : ingested.reservations.lookup id = some row := hreservations ▸ hrow
    rw [activateMauClaim_eq (hingested.exact.claims id row hrow')] at hactivate
    obtain rfl := Except.ok.inj hactivate
    refine hingested.claimed rfl hexact ?_
    rw [← Reservation.claimKey_of_covers hcovers] at hseen
    cases hkey : row.claimKey with
    | none => exact hingested.dated
    | some key =>
      rw [hkey] at hseen
      obtain ⟨claim, hclaim, hactive⟩ := hingested.exact.active hseen
      exact hingested.dated.convert hclaim hactive

theorem ingestEvent_kept (h : ingestEvent hash store event = .ok (store', outcome)) : PeriodsKept store store' := by
  obtain ⟨middle, hensure, ⟨-, -, -, rfl, -⟩ | ⟨-, -, hfold⟩⟩ := ingestEvent_ok h
  · exact ensurePeriod_kept hensure
  · refine (ensurePeriod_kept hensure).trans (PeriodsKept.of_same ?_)
    rw [recordSnapshots_frame hfold]
    rfl

theorem recordEvent_kept (h : recordEvent hash store event = .ok (store', outcome)) : PeriodsKept store store' := by
  obtain ⟨-, middle, hensure, -, hingest⟩ := recordEvent_ok h
  exact (ensurePeriod_kept hensure).trans (ingestEvent_kept hingest)

theorem reserve_kept {request : ReservationRequest} {limits : UsageLimits} {admission : ReservationAdmission}
    (hclaims : ClaimsSubjects store) (h : reserve hash store request limits = .ok (store', admission)) :
    PeriodsKept store store' := by
  obtain ⟨-, ensured, swept, hensure, -, hexpire, hrest⟩ := reserve_ok h
  have hensured : ClaimsSubjects ensured := by
    rw [ensurePeriod_frame hensure]
    exact hclaims
  rw [expireReservations_eq hensured] at hexpire
  obtain rfl := Except.ok.inj hexpire
  refine (ensurePeriod_kept hensure).trans (PeriodsKept.of_same ?_)
  obtain ⟨_, -, -, rfl, -⟩ | ⟨-, -, -, claimed, hclaim, rfl⟩ := hrest
  · rfl
  · obtain rfl := claimSubject_ok hclaim
    rfl

theorem settleReservation_kept (hclaims : ClaimsSubjects store) {id : List Char}
    (h : settleReservation hash store id event = .ok (store', outcome)) : PeriodsKept store store' := by
  obtain ⟨-, row, hrow, ⟨-, -, hingest⟩ | ⟨-, -, -, ingested, activated, hingest, hactivate, rfl⟩⟩ :=
    settleReservation_ok h
  · exact ingestEvent_kept hingest
  · rw [activateMauClaim_eq (hclaims id row hrow)] at hactivate
    obtain rfl := Except.ok.inj hactivate
    exact (ingestEvent_kept hingest).trans (PeriodsKept.of_same rfl)

theorem step_kept {world : World δ} (hclaims : ClaimsSubjects world.store) (call : StoreCall) :
    PeriodsKept world.store (step hash world call).store := by
  refine step_keeps (P := fun world' => PeriodsKept world.store world'.store) (PeriodsKept.of_same rfl)
    fun world' hdone => ?_
  cases hdone with
  | reserve hreserve => exact reserve_kept hclaims hreserve
  | release hrelease => exact releaseReservation_kept hclaims hrelease
  | settle hsettle => exact settleReservation_kept hclaims hsettle
  | record hrecord => exact recordEvent_kept hrecord
  | close hclose => exact sealPeriod_kept hclose

theorem Sound.step (hinj : Function.Injective hash) {world : World δ} (h : Sound hash world) (call : StoreCall) :
    Sound hash (step hash world call) := by
  refine step_keeps h fun world' hdone => ?_
  cases hdone with
  | reserve hreserve => exact Sound.reserved h hreserve
  | release hrelease => exact Sound.released h hrelease
  | settle hsettle => exact Sound.settled hinj h hsettle
  | record hrecord => exact Sound.recorded h hrecord
  | close hclose => exact Sound.periods h (sealPeriod_frame hclose) (sealPeriod_kept hclose)

end Calls

theorem sound_empty : Sound hash ({} : World δ) where
  exact := exact_empty
  receipted := fun _ h => nomatch h
  distinct := List.nodup_nil
  sizes := ⟨fun _ _ _ _ => rfl, fun _ _ h => (nomatch h), fun _ _ h => (nomatch h)⟩
  transitions := fun _ _ _ _ h => nomatch h
  hourly := fun _ _ h => nomatch h
  dated := fun _ _ h => nomatch h

theorem sound_run [DecidableEq δ] (hinj : Function.Injective hash) (calls : List StoreCall) :
    Sound hash (Machine.run (step hash) {} calls) :=
  Machine.run_preserves (P := Sound hash) (fun _ call h => h.step hinj call) _ calls sound_empty

end Ffdb.Metrics
