import Ffdb.Commerce.Money
import Ffdb.Lib.Intake
import Ffdb.Lib.Keyed
import Ffdb.Lib.Sha256

/-! Events of the provider. A ledger knows every event that was accepted, and how far each stream has come. -/
namespace Ffdb.Commerce
open Fallible

structure EventKey where
  source : List Char
  idempotencyKey : List Char
  deriving DecidableEq

def EventKey.new (source idempotencyKey : List Char) : Except CommerceError EventKey := do
  validateNonemptyBounded "event_source".toList source 100
  validateNonemptyBounded "event_idempotency_key".toList idempotencyKey 255
  pure ⟨source, idempotencyKey⟩

structure AcceptedEventRecord where
  stream : List Char
  sequence : Nat
  payloadSha256 : List UInt8
  deriving DecidableEq

structure EventEnvelope where
  key : EventKey
  stream : List Char
  sequence : Nat
  payloadSha256 : List UInt8
  occurredAtMs : Int
  positive : 0 < sequence
  deriving DecidableEq

def EventEnvelope.fromPayload (key : EventKey) (stream : List Char) (sequence : Nat) (payload : List UInt8)
    (occurredAtMs : Int) : Except CommerceError EventEnvelope := do
  validateNonemptyBounded "event_stream".toList stream 255
  if h : 0 < sequence then pure ⟨key, stream, sequence, Sha256.digest payload, occurredAtMs, h⟩
  else .error .invalidEventSequence

def EventEnvelope.record (event : EventEnvelope) : AcceptedEventRecord :=
  ⟨event.stream, event.sequence, event.payloadSha256⟩

inductive EventClassification where
  | new
  | duplicate
  deriving DecidableEq

inductive EventApplication where
  | applied
  | duplicate
  deriving DecidableEq

structure EventLedger where
  accepted : Table EventKey AcceptedEventRecord := ∅
  streamSequences : Table (List Char) Nat := ∅
  deriving DecidableEq

namespace EventLedger
variable (ledger : EventLedger) (event : EventEnvelope)

def classify : Except CommerceError EventClassification :=
  match ledger.accepted.lookup event.key with
  | some existing =>
    if existing.payloadSha256 ≠ event.payloadSha256 then .error .eventHashConflict
    else if existing.stream = event.stream ∧ existing.sequence = event.sequence then .ok .duplicate
    else .error .eventMetadataConflict
  | none =>
    match ledger.streamSequences.lookup event.stream with
    | some last => if event.sequence ≤ last then .error (.eventOutOfOrder last event.sequence) else .ok .new
    | none => .ok .new

def record : Except CommerceError EventLedger := do
  let classification ← ledger.classify event
  require (classification = .new) .duplicateEvent
  pure {
    accepted := ledger.accepted.insert event.key event.record
    streamSequences := ledger.streamSequences.insert event.stream event.sequence }

def accept : Except CommerceError (EventLedger × EventApplication) := do
  match ← ledger.classify event with
  | .duplicate => pure (ledger, .duplicate)
  | .new => do
    let ledger ← ledger.record event
    pure (ledger, .applied)

variable {ledger event} {ledger' : EventLedger}

theorem classify_new_iff : ledger.classify event = .ok .new ↔ ledger.accepted.lookup event.key = none ∧
    ∀ last, ledger.streamSequences.lookup event.stream = some last → last < event.sequence := by
  unfold classify
  cases ledger.accepted.lookup event.key with
  | some existing =>
    dsimp only
    split
    · simp
    · split <;> simp
  | none =>
    cases ledger.streamSequences.lookup event.stream with
    | none => simp
    | some last =>
      dsimp only
      split
      · rename_i hlate
        simpa using hlate
      · rename_i hnew
        simpa using hnew

theorem classify_of_record (h : ledger.accepted.lookup event.key = some event.record) :
    ledger.classify event = .ok .duplicate := by
  unfold classify
  rw [h]
  simp [EventEnvelope.record]

theorem record_ok_iff : ledger.record event = .ok ledger' ↔ ledger.classify event = .ok .new ∧
    ledger' = ⟨ledger.accepted.insert event.key event.record,
      ledger.streamSequences.insert event.stream event.sequence⟩ := by
  simp only [record, bind_ok_iff, require_ok_iff, decide_eq_true_eq, pure_ok_iff]
  constructor
  · rintro ⟨_, hclassify, _, rfl, rfl⟩
    exact ⟨hclassify, rfl⟩
  · rintro ⟨hclassify, rfl⟩
    exact ⟨_, hclassify, (), rfl, rfl⟩

structure Tells (ledger : EventLedger) (events : List EventEnvelope) : Prop where
  accepted : ∀ event ∈ events, ledger.accepted.lookup event.key = some event.record
  known : ∀ key, (ledger.accepted.lookup key).isSome = true → ∃ event ∈ events, event.key = key
  sequences : ∀ event ∈ events, ∃ last, ledger.streamSequences.lookup event.stream = some last ∧ event.sequence ≤ last

variable {events : List EventEnvelope}

theorem tells_empty : Tells {} [] :=
  ⟨fun _ h => (nomatch h), fun _ h => (nomatch h), fun _ h => nomatch h⟩

/-- An event that is new has a key of its own and comes after all of its stream. -/
theorem Tells.new (h : ledger.Tells events) (hclassify : ledger.classify event = .ok .new) :
    ∀ old ∈ events, old.key ≠ event.key ∧ (old.stream = event.stream → old.sequence < event.sequence) := by
  obtain ⟨hnone, hlast⟩ := classify_new_iff.mp hclassify
  intro old hold
  constructor
  · intro hsame
    rw [← hsame, h.accepted old hold] at hnone
    cases hnone
  · intro hsame
    obtain ⟨last, hlookup, hle⟩ := h.sequences old hold
    rw [hsame] at hlookup
    exact hle.trans_lt (hlast last hlookup)

theorem Tells.record (h : ledger.Tells events) (hrecord : ledger.record event = .ok ledger') :
    ledger'.Tells (events ++ [event]) := by
  obtain ⟨hclassify, rfl⟩ := record_ok_iff.mp hrecord
  have hnew := h.new hclassify
  refine ⟨?_, ?_, ?_⟩
  · intro old hold
    obtain hold | hold := List.mem_append.mp hold
    · exact (AList.lookup_insert_ne (hnew old hold).1).trans (h.accepted old hold)
    · obtain rfl := List.mem_singleton.mp hold
      exact AList.lookup_insert _
  · intro key hkey
    obtain rfl | hkey := AList.isSome_lookup_insert.mp hkey
    · exact ⟨event, by simp, rfl⟩
    · obtain ⟨old, hold, hsame⟩ := h.known key hkey
      exact ⟨old, List.mem_append_left _ hold, hsame⟩
  · intro old hold
    obtain hold | hold := List.mem_append.mp hold
    · by_cases hsame : old.stream = event.stream
      · exact ⟨event.sequence, hsame ▸ AList.lookup_insert _, le_of_lt ((hnew old hold).2 hsame)⟩
      · obtain ⟨last, hlookup, hle⟩ := h.sequences old hold
        exact ⟨last, (AList.lookup_insert_ne hsame).trans hlookup, hle⟩
    · obtain rfl := List.mem_singleton.mp hold
      exact ⟨old.sequence, AList.lookup_insert _, le_rfl⟩

end EventLedger

def EventEnvelope.notice (event : EventEnvelope) : Intake.Notice EventKey (List Char) (List UInt8) :=
  ⟨event.key, event.stream, event.sequence, event.payloadSha256⟩

theorem EventLedger.Tells.again {ledger : EventLedger} {events : List EventEnvelope} (h : ledger.Tells events)
    {event old : EventEnvelope} (hold : old ∈ events) (hsame : event.notice = old.notice) :
    ledger.classify event = .ok .duplicate := by
  simp only [EventEnvelope.notice, Intake.Notice.mk.injEq] at hsame
  obtain ⟨hkey, hstream, hsequence, hdigest⟩ := hsame
  refine EventLedger.classify_of_record ?_
  rw [hkey, h.accepted old hold]
  simp [EventEnvelope.record, hstream, hsequence, hdigest]

section Consumer

def EventApplication.isApplied : EventApplication → Bool
  | .applied => true
  | .duplicate => false

def answersApplied : Except CommerceError EventApplication → Bool
  | .ok application => application.isApplied
  | .error _ => false

/-- An aggregate that keeps its events in a ledger, and applies none but what that finds new. -/
structure KeepsLedger {α ι ο : Type} (consumer : Intake.Consumer α ι ο EventKey (List Char) (List UInt8))
    (event : ι → Option EventEnvelope) (ledger : α → EventLedger) (sound : α → Prop) : Prop where
  notice : ∀ i, consumer.notice i = (event i).map (·.notice)
  kept : ∀ {a} i, sound a → sound (consumer.step a i).1
  other : ∀ {a i}, event i = none → ledger (consumer.step a i).1 = ledger a
  applied : ∀ {a i e}, sound a → event i = some e → consumer.applies (consumer.step a i).2 = true →
    (ledger a).classify e = .ok .new ∧ (ledger a).record e = .ok (ledger (consumer.step a i).1)
  refused : ∀ {a i e}, sound a → event i = some e → consumer.applies (consumer.step a i).2 = false →
    (consumer.step a i).1 = a
  duplicate : ∀ {a i e}, event i = some e → (ledger a).classify e = .ok .duplicate →
    consumer.step a i = (a, consumer.replay)

variable {α ι ο : Type} {consumer : Intake.Consumer α ι ο EventKey (List Char) (List UInt8)}
  {event : ι → Option EventEnvelope} {ledger : α → EventLedger} {sound : α → Prop}

theorem KeepsLedger.lawful (h : KeepsLedger consumer event ledger sound) :
    consumer.Lawful fun a history => sound a ∧ (∀ i ∈ history, (event i).isSome = true) ∧
      (ledger a).Tells (history.filterMap event) where
  other := by
    intro a history i ha hnone
    rw [h.notice, Option.map_eq_none_iff] at hnone
    refine ⟨h.kept i ha.1, ha.2.1, ?_⟩
    rw [h.other hnone]
    exact ha.2.2
  applied := by
    intro a history i e ha he happlies
    rw [h.notice] at he
    obtain ⟨event', hevent, rfl⟩ := Option.map_eq_some_iff.mp he
    obtain ⟨hclassify, hrecord⟩ := h.applied ha.1 hevent happlies
    refine ⟨⟨h.kept i ha.1, ?_, ?_⟩, ?_⟩
    · intro j hj
      obtain hj | hj := List.mem_append.mp hj
      · exact ha.2.1 j hj
      · rw [List.mem_singleton.mp hj, hevent]
        rfl
    · rw [List.filterMap_append, List.filterMap_cons_some hevent]
      exact ha.2.2.record hrecord
    · intro j hj e' he'
      rw [h.notice] at he'
      obtain ⟨old, hold, rfl⟩ := Option.map_eq_some_iff.mp he'
      exact ha.2.2.new hclassify old (List.mem_filterMap.mpr ⟨j, hj, hold⟩)
  refused := by
    intro a history i e ha he happlies
    rw [h.notice] at he
    obtain ⟨event', hevent, -⟩ := Option.map_eq_some_iff.mp he
    exact h.refused ha.1 hevent happlies
  again := by
    intro a history i j ha hj hsame
    obtain ⟨old, hold⟩ := Option.isSome_iff_exists.mp (ha.2.1 j hj)
    rw [h.notice, h.notice, hold, Option.map_some] at hsame
    obtain ⟨event', hevent, hsame⟩ := Option.map_eq_some_iff.mp hsame
    exact h.duplicate hevent (ha.2.2.again (List.mem_filterMap.mpr ⟨j, hj, hold⟩) hsame)

/-- An aggregate that has applied nothing applies everything once and in order. -/
theorem KeepsLedger.onceInOrder (h : KeepsLedger consumer event ledger sound) {a : α} (ha : sound a)
    (hempty : ledger a = {}) : consumer.OnceInOrder a := by
  refine h.lawful.onceInOrder ⟨ha, fun _ hfalse => (nomatch hfalse), ?_⟩
  rw [hempty]
  exact EventLedger.tells_empty

/-- What a call on an aggregate does to it: one that fails leaves it as it was. -/
def settle {α β : Type} (aggregate : α) : Except CommerceError (α × β) → α × Except CommerceError β
  | .ok (aggregate', answer) => (aggregate', .ok answer)
  | .error error => (aggregate, .error error)

def ledgerConsumer : Intake.Consumer EventLedger EventEnvelope (Except CommerceError EventApplication) EventKey
    (List Char) (List UInt8) where
  step := fun ledger event => settle ledger (ledger.accept event)
  notice := fun event => some event.notice
  applies := answersApplied
  replay := .ok .duplicate

theorem accept_of_duplicate {ledger : EventLedger} {event : EventEnvelope} (h : ledger.classify event = .ok .duplicate) :
    ledger.accept event = .ok (ledger, .duplicate) := by
  unfold EventLedger.accept
  rw [h]
  rfl

theorem accept_applied {ledger ledger' : EventLedger} {event : EventEnvelope}
    (h : ledger.accept event = .ok (ledger', .applied)) :
    ledger.classify event = .ok .new ∧ ledger.record event = .ok ledger' := by
  simp only [EventLedger.accept, bind_ok_iff] at h
  obtain ⟨classification, hclassify, hrest⟩ := h
  cases classification with
  | duplicate => cases hrest
  | new =>
    simp only [bind_ok_iff, pure_ok_iff, Prod.mk.injEq] at hrest
    obtain ⟨_, hrecord, rfl, -⟩ := hrest
    exact ⟨hclassify, hrecord⟩

theorem accept_duplicate {ledger ledger' : EventLedger} {event : EventEnvelope}
    (h : ledger.accept event = .ok (ledger', .duplicate)) : ledger' = ledger := by
  simp only [EventLedger.accept, bind_ok_iff] at h
  obtain ⟨classification, hclassify, hrest⟩ := h
  cases classification with
  | duplicate =>
    simp only [pure_ok_iff, Prod.mk.injEq] at hrest
    exact hrest.1.symm
  | new =>
    simp only [bind_ok_iff, pure_ok_iff, Prod.mk.injEq] at hrest
    obtain ⟨_, -, -, hfalse⟩ := hrest
    cases hfalse

theorem ledgerConsumer_keepsLedger : KeepsLedger ledgerConsumer some id (fun _ => True) where
  notice := fun _ => rfl
  kept := fun _ _ => trivial
  other := fun hfalse => nomatch hfalse
  applied := by
    intro ledger event e _ he happlies
    obtain rfl := Option.some.inj he
    simp only [ledgerConsumer, id] at happlies ⊢
    cases haccept : ledger.accept event with
    | error _ =>
      rw [haccept] at happlies
      cases happlies
    | ok result =>
      obtain ⟨ledger', application⟩ := result
      rw [haccept] at happlies
      cases application with
      | duplicate => cases happlies
      | applied => exact accept_applied haccept
  refused := by
    intro ledger event e _ _ happlies
    simp only [ledgerConsumer] at happlies ⊢
    cases haccept : ledger.accept event with
    | error _ => rfl
    | ok result =>
      obtain ⟨ledger', application⟩ := result
      rw [haccept] at happlies
      cases application with
      | applied => cases happlies
      | duplicate => exact accept_duplicate haccept
  duplicate := by
    intro ledger event e he hduplicate
    obtain rfl := Option.some.inj he
    exact congrArg (settle ledger) (accept_of_duplicate hduplicate)

end Consumer

end Ffdb.Commerce
