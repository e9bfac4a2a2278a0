import Ffdb.Commerce.Catalog
import Ffdb.Commerce.Events

/-! Subscriptions. They move on only by events of the provider. -/
namespace Ffdb.Commerce
open Fallible

inductive MembershipSubject where
  | individual (id : Uuid)
  | team (id : Uuid)
  | organization (id : Uuid)
  deriving DecidableEq

structure SubscriptionTermsSnapshot where
  priceId : Uuid
  productId : Uuid
  unitAmount : Money
  quantity : Nat
  interval : BillingInterval
  entitlements : Table EntitlementKey EntitlementValue
  deriving DecidableEq

inductive SubscriptionStatus where
  | incomplete
  | trialing
  | active
  | pastDue
  | paused
  | canceled
  | expired
  deriving DecidableEq

structure BillingPeriod where
  startMs : Int
  endMs : Int
  valid : startMs < endMs
  deriving DecidableEq

inductive SubscriptionTransition where
  | startTrial (period : BillingPeriod)
  | activate (period : BillingPeriod)
  | renew (period : BillingPeriod)
  | markPastDue
  | pause
  | cancel
  | expire
  deriving DecidableEq

structure Subscription where
  id : Uuid
  projectId : Uuid
  merchantAccountId : Uuid
  subject : MembershipSubject
  terms : SubscriptionTermsSnapshot
  status : SubscriptionStatus
  currentPeriod : Option BillingPeriod
  events : EventLedger
  createdAtMs : Int
  endedAtMs : Option Int
  deriving DecidableEq

def PriceKind.recurringInterval : PriceKind → Except CommerceError BillingInterval
  | .recurring interval => .ok interval
  | .oneTime => .error .priceKindMismatch

namespace Subscription

def new (id : Uuid) (merchant : MerchantAccount) (price : Price) (subject : MembershipSubject) (quantity : Nat)
    (createdAtMs : Int) : Except CommerceError Subscription := do
  merchant.requireCapability .recurringPayments
  require (merchant.projectId = price.projectId) .projectMismatch
  require price.active .priceInactive
  Money.validateQuantity quantity
  let interval ← price.terms.kind.recurringInterval
  let _ ← price.terms.amount.checkedMul quantity
  pure {
    id, projectId := merchant.projectId, merchantAccountId := merchant.id, subject
    terms := ⟨price.id, price.productId, price.terms.amount, quantity, interval, price.terms.entitlements⟩
    status := .incomplete, currentPeriod := none, events := {}, createdAtMs, endedAtMs := none }

variable (subscription : Subscription)

def previewTransition (transition : SubscriptionTransition) (appliedAtMs : Int) :
    Except CommerceError (SubscriptionStatus × Option BillingPeriod × Option Int) :=
  match subscription.status, transition with
  | .incomplete, .startTrial period => .ok (.trialing, some period, none)
  | .incomplete, .activate period | .trialing, .activate period | .pastDue, .activate period
  | .paused, .activate period => .ok (.active, some period, none)
  | .active, .renew period | .trialing, .renew period =>
    if subscription.currentPeriod.any fun current => period.startMs < current.endMs then .error .overlappingBillingPeriod
    else .ok (.active, some period, none)
  | .active, .markPastDue | .trialing, .markPastDue => .ok (.pastDue, subscription.currentPeriod, none)
  | .active, .pause | .trialing, .pause | .pastDue, .pause => .ok (.paused, subscription.currentPeriod, none)
  | .incomplete, .cancel | .trialing, .cancel | .active, .cancel | .pastDue, .cancel | .paused, .cancel =>
    .ok (.canceled, subscription.currentPeriod, some appliedAtMs)
  | .incomplete, .expire | .trialing, .expire | .active, .expire | .pastDue, .expire | .paused, .expire =>
    .ok (.expired, subscription.currentPeriod, some appliedAtMs)
  | _, _ => .error .invalidStateTransition

def applyEvent (event : EventEnvelope) (transition : SubscriptionTransition) (appliedAtMs : Int) :
    Except CommerceError (Subscription × EventApplication) := do
  match ← subscription.events.classify event with
  | .duplicate => pure (subscription, .duplicate)
  | .new => do
    let (status, currentPeriod, endedAtMs) ← subscription.previewTransition transition appliedAtMs
    let events ← subscription.events.record event
    pure ({ subscription with events, status, currentPeriod, endedAtMs }, .applied)

variable {subscription} {subscription' : Subscription} {event : EventEnvelope} {transition : SubscriptionTransition}
  {appliedAtMs : Int}

theorem applyEvent_of_duplicate (h : subscription.events.classify event = .ok .duplicate) :
    subscription.applyEvent event transition appliedAtMs = .ok (subscription, .duplicate) := by
  unfold applyEvent
  rw [h]
  rfl

theorem applyEvent_applied (h : subscription.applyEvent event transition appliedAtMs = .ok (subscription', .applied)) :
    subscription.events.classify event = .ok .new ∧ subscription.events.record event = .ok subscription'.events := by
  simp only [applyEvent, bind_ok_iff] at h
  obtain ⟨classification, hclassify, hrest⟩ := h
  cases classification with
  | duplicate => cases hrest
  | new =>
    simp only [bind_ok_iff, pure_ok_iff, Prod.mk.injEq] at hrest
    obtain ⟨_, -, events, hrecord, rfl, -⟩ := hrest
    exact ⟨hclassify, hrecord⟩

theorem applyEvent_duplicate
    (h : subscription.applyEvent event transition appliedAtMs = .ok (subscription', .duplicate)) :
    subscription' = subscription := by
  simp only [applyEvent, bind_ok_iff] at h
  obtain ⟨classification, hclassify, hrest⟩ := h
  cases classification with
  | duplicate =>
    simp only [pure_ok_iff, Prod.mk.injEq] at hrest
    exact hrest.1.symm
  | new =>
    simp only [bind_ok_iff, pure_ok_iff, Prod.mk.injEq] at hrest
    obtain ⟨_, -, _, -, -, hfalse⟩ := hrest
    cases hfalse

theorem new_ok {id : Uuid} {merchant : MerchantAccount} {price : Price} {subject : MembershipSubject} {quantity : Nat}
    {createdAtMs : Int} (h : new id merchant price subject quantity createdAtMs = .ok subscription) :
    subscription.events = {} := by
  simp only [new, bind_ok_iff, pure_ok_iff] at h
  obtain ⟨_, -, _, -, _, -, _, -, _, -, _, -, rfl⟩ := h
  rfl

end Subscription

structure SubscriptionDelivery where
  event : EventEnvelope
  transition : SubscriptionTransition
  appliedAtMs : Int

def subscriptionConsumer : Intake.Consumer Subscription SubscriptionDelivery (Except CommerceError EventApplication)
    EventKey (List Char) (List UInt8) where
  step := fun subscription delivery =>
    settle subscription (subscription.applyEvent delivery.event delivery.transition delivery.appliedAtMs)
  notice := fun delivery => some delivery.event.notice
  applies := answersApplied
  replay := .ok .duplicate

theorem subscriptionConsumer_keepsLedger :
    KeepsLedger subscriptionConsumer (fun delivery => some delivery.event) (·.events) (fun _ => True) where
  notice := fun _ => rfl
  kept := fun _ _ => trivial
  other := fun hfalse => nomatch hfalse
  applied := by
    intro subscription delivery e _ he happlies
    obtain rfl := Option.some.inj he
    simp only [subscriptionConsumer] at happlies ⊢
    cases happly : subscription.applyEvent delivery.event delivery.transition delivery.appliedAtMs with
    | error _ =>
      rw [happly] at happlies
      cases happlies
    | ok result =>
      obtain ⟨subscription', application⟩ := result
      rw [happly] at happlies
      cases application with
      | duplicate => cases happlies
      | applied => exact Subscription.applyEvent_applied happly
  refused := by
    intro subscription delivery e _ _ happlies
    simp only [subscriptionConsumer] at happlies ⊢
    cases happly : subscription.applyEvent delivery.event delivery.transition delivery.appliedAtMs with
    | error _ => rfl
    | ok result =>
      obtain ⟨subscription', application⟩ := result
      rw [happly] at happlies
      cases application with
      | applied => cases happlies
      | duplicate => exact Subscription.applyEvent_duplicate happly
  duplicate := by
    intro subscription delivery e he hduplicate
    obtain rfl := Option.some.inj he
    simp only [subscriptionConsumer]
    rw [Subscription.applyEvent_of_duplicate hduplicate]
    rfl

end Ffdb.Commerce
