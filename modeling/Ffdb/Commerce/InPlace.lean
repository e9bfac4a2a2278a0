import Ffdb.Lib.Act
import Ffdb.Commerce.Checkout
import Ffdb.Commerce.Fulfillment

/-! The operations as they change an aggregate in place, one assignment after the other. Each comes to what the same
operation of a value tells; one that fails leaves the aggregate as it was, also where an event and a refund are written
before the sum of the refunds is known. -/
namespace Ffdb.Commerce
open Fallible Act

namespace EventLedger.InPlace

def record (event : EventEnvelope) : Act EventLedger CommerceError Unit := do
  let classification ← ask fun ledger => ledger.classify event
  given (require (classification = .new) .duplicateEvent)
  modify fun ledger => { ledger with accepted := ledger.accepted.insert event.key event.record }
  modify fun ledger => { ledger with streamSequences := ledger.streamSequences.insert event.stream event.sequence }

theorem record_commits (event : EventEnvelope) (ledger : EventLedger) :
    Commits (·, ()) (record event) ledger (ledger.record event) :=
  .ask fun _ _ => .given fun _ _ => .pure rfl

end EventLedger.InPlace

namespace Payment.InPlace
variable {α : Type}

def events (x : Act EventLedger CommerceError α) : Act Payment CommerceError α :=
  zoom (·.events) (fun events payment => { payment with events }) x

def markAuthorized : Act Payment CommerceError Unit := do
  ask fun payment => require (payment.status = .pending) .invalidStateTransition
  modify fun payment => { payment with status := .authorized }

def recordCapture (event : EventEnvelope) (capturedAmount : Money) (providerReference : List Char)
    (capturedAtMs : Int) : Act Payment CommerceError EventApplication := do
  match ← ask fun payment => payment.events.classify event with
  | .duplicate => pure .duplicate
  | .new => do
    ask fun payment => require payment.status.isCapturable .invalidStateTransition
    given capturedAmount.requirePositive
    ask fun payment => capturedAmount.ensureSameCurrency payment.requestedAmount
    ask fun payment => require (capturedAmount.minor ≤ payment.requestedAmount.minor) .captureExceedsAuthorized
    events (EventLedger.InPlace.record event)
    modify fun payment => { payment with capturedAmount := some capturedAmount }
    modify fun payment => { payment with providerReference := some providerReference }
    modify fun payment => { payment with capturedAtMs := some capturedAtMs }
    modify fun payment => { payment with status := .captured }
    pure .applied

def markFailed : Act Payment CommerceError Unit := do
  ask fun payment => require payment.status.isCapturable .invalidStateTransition
  modify fun payment => { payment with status := .failed }

def cancel : Act Payment CommerceError Unit := do
  ask fun payment => require payment.status.isCapturable .invalidStateTransition
  modify fun payment => { payment with status := .canceled }

def requestRefund (merchant : MerchantAccount) (id : Uuid) (amount : Money) (requestedAtMs : Int) :
    Act Payment CommerceError Unit := do
  given (merchant.requireCapability .refunds)
  ask fun payment =>
    require (merchant.projectId = payment.projectId && merchant.id = payment.merchantAccountId) .projectMismatch
  ask fun payment => require (!payment.refunds.any fun refund => refund.id = id) .duplicateIdentifier
  given amount.requirePositive
  let available ← ask fun payment => payment.refundableAmount
  given (amount.ensureSameCurrency available)
  given (require (amount.minor ≤ available.minor) .refundExceedsAvailable)
  modify fun payment => { payment with
    refunds := payment.refunds ++ [⟨id, amount, .requested, requestedAtMs, none, none⟩] }

def recomputeRefundStatus : Act Payment CommerceError Unit := do
  let captured ← ask fun payment => orError payment.capturedAmount .paymentNotCaptured
  let succeeded ← ask fun payment => sumRefunds (·.isSucceeded) captured.currency payment.refunds
  modify fun payment => { payment with status := refundStatus succeeded.minor captured.minor }

def writeSettlement (id : Uuid) (event : EventEnvelope) (outcome : RefundSettlement) (settledAtMs : Int) :
    Act Payment CommerceError Unit := do
  let index ← ask fun payment => orError (payment.refunds.findIdx? fun refund => refund.id = id) .refundNotFound
  let refund ← ask fun payment => orError payment.refunds[index]? .refundNotFound
  given (require (refund.status = .requested) .refundAlreadySettled)
  events (EventLedger.InPlace.record event)
  modify fun payment => { payment with refunds := payment.refunds.set index (refund.settle outcome settledAtMs) }

/-- The event and the refund are written before the sum of the refunds, which may fail, is known. -/
def settleRefund (id : Uuid) (event : EventEnvelope) (outcome : RefundSettlement) (settledAtMs : Int) :
    Act Payment CommerceError EventApplication := do
  match ← ask fun payment => payment.events.classify event with
  | .duplicate => pure .duplicate
  | .new => do
    writeSettlement id event outcome settledAtMs
    recomputeRefundStatus
    pure .applied

variable (payment : Payment)

theorem markAuthorized_commits : Commits (·, ()) markAuthorized payment payment.markAuthorized :=
  .ask fun _ _ => .pure rfl

theorem markFailed_commits : Commits (·, ()) markFailed payment payment.markFailed :=
  .ask fun _ _ => .pure rfl

theorem cancel_commits : Commits (·, ()) cancel payment payment.cancel :=
  .ask fun _ _ => .pure rfl

theorem recordCapture_commits (event : EventEnvelope) (amount : Money) (providerReference : List Char)
    (capturedAtMs : Int) :
    Commits (fun result => result) (recordCapture event amount providerReference capturedAtMs) payment
      (payment.recordCapture event amount providerReference capturedAtMs) := by
  refine .ask fun classification _ => ?_
  cases classification with
  | duplicate => exact .pure rfl
  | new =>
    refine .ask fun _ _ => .given fun _ _ => .ask fun _ _ => .ask fun _ _ => ?_
    exact .zoom (EventLedger.InPlace.record_commits event payment.events) rfl fun _ _ => rfl

theorem requestRefund_commits (merchant : MerchantAccount) (id : Uuid) (amount : Money) (requestedAtMs : Int) :
    Commits (·, ()) (requestRefund merchant id amount requestedAtMs) payment
      (payment.requestRefund merchant id amount requestedAtMs) :=
  .given fun _ _ => .ask fun _ _ => .ask fun _ _ => .given fun _ _ => .ask fun _ _ => .given fun _ _ =>
    .given fun _ _ => .pure rfl

theorem recomputeRefundStatus_commits : Commits (·, ()) recomputeRefundStatus payment payment.recomputeRefundStatus :=
  .ask fun _ _ => .ask fun _ _ => .pure rfl

theorem writeSettlement_commits (id : Uuid) (event : EventEnvelope) (outcome : RefundSettlement) (settledAtMs : Int) :
    Commits (fun (index, refund, events) =>
        ({ payment with events, refunds := payment.refunds.set index (refund.settle outcome settledAtMs) }, ()))
      (writeSettlement id event outcome settledAtMs) payment (payment.settleable id event) :=
  .ask fun _ _ => .ask fun _ _ => .given fun _ _ =>
    .zoom (EventLedger.InPlace.record_commits event payment.events) rfl fun _ _ => rfl

/-- What is left when it fails is also what the source leaves. -/
theorem settleRefund_eq (id : Uuid) (event : EventEnvelope) (outcome : RefundSettlement) (settledAtMs : Int) :
    settleRefund id event outcome settledAtMs payment =
      ((payment.settleRefund id event outcome settledAtMs).2,
        (payment.settleRefund id event outcome settledAtMs).1) := by
  unfold settleRefund Payment.settleRefund
  cases hclassify : payment.events.classify event with
  | error error => exact ask_error (f := fun payment : Payment => payment.events.classify event) hclassify
  | ok classification =>
    refine (ask_ok (f := fun payment : Payment => payment.events.classify event) hclassify).trans ?_
    cases classification with
    | duplicate => rfl
    | new =>
      have hwrite := writeSettlement_commits payment id event outcome settledAtMs
      cases hsettleable : payment.settleable id event with
      | error error =>
        rw [hsettleable] at hwrite
        exact bind_error hwrite
      | ok begun =>
        obtain ⟨index, refund, events⟩ := begun
        rw [hsettleable] at hwrite
        refine (bind_ok hwrite).trans ?_
        dsimp only
        have hrecompute := recomputeRefundStatus_commits { payment with
          events, refunds := payment.refunds.set index (refund.settle outcome settledAtMs) }
        cases hstatus : Payment.recomputeRefundStatus { payment with
          events, refunds := payment.refunds.set index (refund.settle outcome settledAtMs) } with
        | error error =>
          rw [hstatus] at hrecompute
          exact bind_error hrecompute
        | ok payment' =>
          rw [hstatus] at hrecompute
          exact bind_ok hrecompute

end Payment.InPlace

section Calls
variable {σ τ α β : Type} {out : τ → σ × α} {x : Act σ CommerceError α} {s : σ}
  {result : Except CommerceError τ}

/-- With its answer told in another way, the computation comes to what the aggregate settles. -/
theorem settle_of_commits (h : Commits out x s result) (answer : α → β) :
    (do let a ← x; pure (answer a) : Act σ CommerceError β) s =
      ((settle s (result.map fun t => ((out t).1, answer (out t).2))).2,
        (settle s (result.map fun t => ((out t).1, answer (out t).2))).1) := by
  unfold Commits at h
  cases result with
  | ok t => exact bind_ok h
  | error error => exact bind_error h

def FailsUnchanged {κ : Type} (inPlace : κ → Act σ CommerceError α) (made : σ → Prop) : Prop :=
  ∀ s, made s → ∀ calls call error after,
    inPlace call (Machine.run (fun s call => (inPlace call s).2) s calls) = (.error error, after) →
      after = Machine.run (fun s call => (inPlace call s).2) s calls

theorem failsUnchanged_of_commits {κ : Type} {inPlace : κ → Act σ CommerceError α} {made : σ → Prop}
    {perform : σ → κ → Except CommerceError τ} (h : ∀ s call, Commits out (inPlace call) s (perform s call)) :
    FailsUnchanged inPlace made :=
  fun _ _ _ call _ _ hfails => (h _ call).unchanged hfails

/-- Runs of calls change nothing of what an aggregate is about, and nothing at all of one that is over. -/
def Settles {κ : Type} (inPlace : κ → Act σ CommerceError α) (about : σ → σ) (ended : σ → Prop) : Prop :=
  ∀ s calls, about (Machine.run (fun s call => (inPlace call s).2) s calls) = about s ∧
    (ended s → Machine.run (fun s call => (inPlace call s).2) s calls = s)

theorem settles_of_commits {κ : Type} {inPlace : κ → Act σ CommerceError α} {about : σ → σ} {ended : σ → Prop}
    {perform : σ → κ → Except CommerceError τ} (h : ∀ s call, Commits out (inPlace call) s (perform s call))
    (hstep : ∀ s call t, perform s call = .ok t → about (out t).1 = about s ∧ (ended s → (out t).1 = s)) :
    Settles inPlace about ended := by
  intro start calls
  refine Machine.run_preserves (P := fun s => about s = about start ∧ (ended start → s = start))
    (fun s call hs => ?_) start calls ⟨rfl, fun _ => rfl⟩
  have hcommits := h s call
  unfold Commits at hcommits
  rw [hcommits]
  cases hperform : perform s call with
  | error error => exact hs
  | ok t =>
    obtain ⟨habout, hover⟩ := hstep s call t hperform
    refine ⟨habout.trans hs.1, fun hstart => ?_⟩
    obtain rfl := hs.2 hstart
    exact hover hstart

end Calls

def PaymentCall.inPlace : PaymentCall → Act Payment CommerceError (Option EventApplication)
  | .markAuthorized => do
    Payment.InPlace.markAuthorized
    pure none
  | .recordCapture event capturedAmount providerReference capturedAtMs => do
    let application ← Payment.InPlace.recordCapture event capturedAmount providerReference capturedAtMs
    pure (some application)
  | .markFailed => do
    Payment.InPlace.markFailed
    pure none
  | .cancel => do
    Payment.InPlace.cancel
    pure none
  | .requestRefund merchant id amount requestedAtMs => do
    Payment.InPlace.requestRefund merchant id amount requestedAtMs
    pure none
  | .settleRefund id event outcome settledAtMs => do
    let application ← Payment.InPlace.settleRefund id event outcome settledAtMs
    pure (some application)

theorem Payment.inPlace_eq_perform (payment : Payment) (call : PaymentCall) :
    call.inPlace payment = ((payment.perform call).2, (payment.perform call).1) := by
  cases call with
  | markAuthorized => exact settle_of_commits (InPlace.markAuthorized_commits payment) fun _ => none
  | recordCapture event amount providerReference capturedAtMs =>
    exact settle_of_commits (InPlace.recordCapture_commits payment event amount providerReference capturedAtMs) some
  | markFailed => exact settle_of_commits (InPlace.markFailed_commits payment) fun _ => none
  | cancel => exact settle_of_commits (InPlace.cancel_commits payment) fun _ => none
  | requestRefund merchant id amount requestedAtMs =>
    exact settle_of_commits (InPlace.requestRefund_commits payment merchant id amount requestedAtMs) fun _ => none
  | settleRefund id event outcome settledAtMs =>
    have hsettle := InPlace.settleRefund_eq payment id event outcome settledAtMs
    simp only [perform]
    cases hresult : (payment.settleRefund id event outcome settledAtMs).2 with
    | ok application =>
      rw [hresult] at hsettle
      exact bind_ok hsettle
    | error error =>
      rw [hresult] at hsettle
      exact bind_error hsettle

theorem Payment.run_inPlace (payment : Payment) (calls : List PaymentCall) :
    Machine.run (fun payment call => (call.inPlace payment).2) payment calls = payment.after calls := by
  have hstep : (fun (payment : Payment) (call : PaymentCall) => (call.inPlace payment).2) =
      fun payment call => (payment.perform call).1 := by
    funext payment call
    rw [Payment.inPlace_eq_perform]
  rw [hstep, Payment.after]

theorem settle_error {σ α : Type} {s : σ} {result : Except CommerceError (σ × α)} {error : CommerceError}
    (h : (settle s result).2 = .error error) : (settle s result).1 = s := by
  cases result with
  | ok result => cases h
  | error error => rfl

/-- Of a sound payment the sum of the refunds is always known, so nothing is written that does not stay. -/
theorem Payment.Sound.perform_error {payment : Payment} (h : payment.Sound) {call : PaymentCall} {error : CommerceError}
    (hfails : (payment.perform call).2 = .error error) : (payment.perform call).1 = payment := by
  cases call with
  | markAuthorized | recordCapture | markFailed | cancel | requestRefund => exact settle_error hfails
  | settleRefund id event outcome settledAtMs =>
    obtain ⟨hsame, -⟩ | ⟨captured, index, refund, events, -, -, -, -, -, hsettled⟩ :=
      h.settleRefund id event outcome settledAtMs
    · exact hsame
    · simp only [Payment.perform, hsettled] at hfails
      cases hfails

theorem Payment.failsUnchanged : FailsUnchanged PaymentCall.inPlace Payment.Created := by
  intro payment hcreated calls call error after hfails
  rw [Payment.run_inPlace] at hfails ⊢
  rw [Payment.inPlace_eq_perform, Prod.mk.injEq] at hfails
  obtain ⟨hfails, rfl⟩ := hfails
  exact (hcreated.sound.after calls).perform_error hfails

namespace Order.InPlace

def verifyPaid (payments : List Payment) : Act Order CommerceError Unit := do
  ask fun order => require (order.status = .awaitingPayment) .invalidStateTransition
  ask fun order => ensureOrderPaid order payments
  modify fun order => { order with status := .paid }

def beginFulfillment (payments : List Payment) : Act Order CommerceError Unit := do
  ask fun order => require (order.status = .paid) .orderNotPaid
  ask fun order => ensureOrderPaid order payments
  modify fun order => { order with status := .fulfillmentInProgress }

def markFulfilled (fulfilledAtMs : Int) : Act Order CommerceError Unit := do
  ask fun order => require (order.status = .fulfillmentInProgress) .invalidStateTransition
  modify fun order => { order with status := .fulfilled }
  modify fun order => { order with fulfilledAtMs := some fulfilledAtMs }

def cancel : Act Order CommerceError Unit := do
  ask fun order => require (order.status = .awaitingPayment) .invalidStateTransition
  modify fun order => { order with status := .canceled }

end Order.InPlace

def Order.Created (order : Order) : Prop :=
  ∃ id merchant lines createdAtMs, Order.new id merchant lines createdAtMs = .ok order

inductive OrderCall where
  | verifyPaid (payments : List Payment)
  | beginFulfillment (payments : List Payment)
  | markFulfilled (fulfilledAtMs : Int)
  | cancel

def OrderCall.inPlace : OrderCall → Act Order CommerceError Unit
  | .verifyPaid payments => Order.InPlace.verifyPaid payments
  | .beginFulfillment payments => Order.InPlace.beginFulfillment payments
  | .markFulfilled fulfilledAtMs => Order.InPlace.markFulfilled fulfilledAtMs
  | .cancel => Order.InPlace.cancel

def Order.perform (order : Order) : OrderCall → Except CommerceError Order
  | .verifyPaid payments => order.verifyPaid payments
  | .beginFulfillment payments => order.beginFulfillment payments
  | .markFulfilled fulfilledAtMs => order.markFulfilled fulfilledAtMs
  | .cancel => order.cancel

theorem Order.inPlace_commits (order : Order) (call : OrderCall) :
    Commits (·, ()) call.inPlace order (order.perform call) := by
  cases call with
  | verifyPaid payments => exact .ask fun _ _ => .ask fun _ _ => .pure rfl
  | beginFulfillment payments => exact .ask fun _ _ => .ask fun _ _ => .pure rfl
  | markFulfilled fulfilledAtMs => exact .ask fun _ _ => .pure rfl
  | cancel => exact .ask fun _ _ => .pure rfl

def Subscription.Created (subscription : Subscription) : Prop :=
  ∃ id merchant price subject quantity createdAtMs,
    Subscription.new id merchant price subject quantity createdAtMs = .ok subscription

def SubscriptionDelivery.inPlace (delivery : SubscriptionDelivery) :
    Act Subscription CommerceError EventApplication := do
  match ← ask fun subscription => subscription.events.classify delivery.event with
  | .duplicate => pure .duplicate
  | .new => do
    let (status, currentPeriod, endedAtMs) ← ask fun subscription =>
      subscription.previewTransition delivery.transition delivery.appliedAtMs
    zoom (·.events) (fun events subscription => { subscription with events })
      (EventLedger.InPlace.record delivery.event)
    modify fun subscription => { subscription with status }
    modify fun subscription => { subscription with currentPeriod }
    modify fun subscription => { subscription with endedAtMs }
    pure .applied

theorem Subscription.inPlace_commits (subscription : Subscription) (delivery : SubscriptionDelivery) :
    Commits (fun result => result) delivery.inPlace subscription
      (subscription.applyEvent delivery.event delivery.transition delivery.appliedAtMs) := by
  refine .ask fun classification _ => ?_
  cases classification with
  | duplicate => exact .pure rfl
  | new =>
    refine .ask fun _ _ => ?_
    exact .zoom (EventLedger.InPlace.record_commits delivery.event subscription.events) rfl fun _ _ => rfl

namespace CheckoutIntent.InPlace

def completeOneTime (payment : Payment) (completedAtMs : Int) : Act CheckoutIntent CommerceError Unit := do
  ask fun intent => intent.ensureCompletable completedAtMs
  ask fun intent => intent.requirePaid payment
  modify fun intent => { intent with status := .completed (.payment payment.id) }

def completeRecurring (subscription : Subscription) (completedAtMs : Int) : Act CheckoutIntent CommerceError Unit := do
  ask fun intent => intent.ensureCompletable completedAtMs
  let subscriptionId ← ask fun intent => intent.requireEntitled subscription
  modify fun intent => { intent with status := .completed (.subscription subscriptionId) }

def expire (atMs : Int) : Act CheckoutIntent CommerceError Unit := do
  ask fun intent => require (intent.status = .created && intent.expiresAtMs ≤ atMs) .invalidStateTransition
  modify fun intent => { intent with status := .expired }

def cancel : Act CheckoutIntent CommerceError Unit := do
  ask fun intent => require (intent.status = .created) .invalidStateTransition
  modify fun intent => { intent with status := .canceled }

end CheckoutIntent.InPlace

inductive CheckoutCall where
  | completeOneTime (payment : Payment) (completedAtMs : Int)
  | completeRecurring (subscription : Subscription) (completedAtMs : Int)
  | expire (atMs : Int)
  | cancel

def CheckoutCall.inPlace : CheckoutCall → Act CheckoutIntent CommerceError Unit
  | .completeOneTime payment completedAtMs => CheckoutIntent.InPlace.completeOneTime payment completedAtMs
  | .completeRecurring subscription completedAtMs => CheckoutIntent.InPlace.completeRecurring subscription completedAtMs
  | .expire atMs => CheckoutIntent.InPlace.expire atMs
  | .cancel => CheckoutIntent.InPlace.cancel

def CheckoutIntent.perform (intent : CheckoutIntent) : CheckoutCall → Except CommerceError CheckoutIntent
  | .completeOneTime payment completedAtMs => do
    intent.ensureCompletable completedAtMs
    intent.requirePaid payment
    pure { intent with status := .completed (.payment payment.id) }
  | .completeRecurring subscription completedAtMs => do
    intent.ensureCompletable completedAtMs
    let subscriptionId ← intent.requireEntitled subscription
    pure { intent with status := .completed (.subscription subscriptionId) }
  | .expire atMs => do
    require (intent.status = .created && intent.expiresAtMs ≤ atMs) .invalidStateTransition
    pure { intent with status := .expired }
  | .cancel => do
    require (intent.status = .created) .invalidStateTransition
    pure { intent with status := .canceled }

theorem CheckoutIntent.inPlace_commits (intent : CheckoutIntent) (call : CheckoutCall) :
    Commits (·, ()) call.inPlace intent (intent.perform call) := by
  cases call with
  | completeOneTime payment completedAtMs => exact .ask fun _ _ => .ask fun _ _ => .pure rfl
  | completeRecurring subscription completedAtMs => exact .ask fun _ _ => .ask fun _ _ => .pure rfl
  | expire atMs => exact .ask fun _ _ => .pure rfl
  | cancel => exact .ask fun _ _ => .pure rfl

/-- An operation on what was made and used by the operations alone changes nothing when it fails. -/
theorem operations_atomic :
    FailsUnchanged PaymentCall.inPlace Payment.Created ∧
      FailsUnchanged SubscriptionDelivery.inPlace Subscription.Created ∧
      FailsUnchanged OrderCall.inPlace Order.Created ∧
      FailsUnchanged CheckoutCall.inPlace CheckoutIntent.Created :=
  ⟨Payment.failsUnchanged, failsUnchanged_of_commits Subscription.inPlace_commits,
    failsUnchanged_of_commits Order.inPlace_commits, failsUnchanged_of_commits CheckoutIntent.inPlace_commits⟩

/-- Orders, checkouts and subscriptions change in their status and what belongs to it only, and no call or event brings one
back that is fulfilled, completed, expired or canceled. -/
theorem aggregates_settle :
    Settles OrderCall.inPlace (fun order => { order with status := .awaitingPayment, fulfilledAtMs := none })
      (fun order => order.status = .fulfilled ∨ order.status = .canceled) ∧
    Settles CheckoutCall.inPlace (fun intent => { intent with status := .created }) (·.status ≠ .created) ∧
    Settles SubscriptionDelivery.inPlace
      (fun s => { s with status := .incomplete, currentPeriod := none, events := {}, endedAtMs := none })
      (fun s => s.status = .canceled ∨ s.status = .expired) := by
  refine ⟨settles_of_commits Order.inPlace_commits fun order call t ht => ?_,
    settles_of_commits CheckoutIntent.inPlace_commits fun intent call t ht => ?_,
    settles_of_commits Subscription.inPlace_commits fun subscription delivery t ht => ?_⟩
  · cases call <;> simp only [Order.perform, Order.verifyPaid, Order.beginFulfillment, Order.markFulfilled, Order.cancel,
      bind_ok_iff, require_ok_iff, pure_ok_iff, decide_eq_true_eq] at ht <;> grind
  · cases call <;> simp only [CheckoutIntent.perform, CheckoutIntent.ensureCompletable, bind_ok_iff, require_ok_iff,
      pure_ok_iff, Bool.and_eq_true, decide_eq_true_eq] at ht <;> grind
  · simp only [Subscription.applyEvent, bind_ok_iff] at ht
    obtain ⟨classification, -, hrest⟩ := ht
    cases classification with
    | duplicate =>
      cases hrest
      exact ⟨rfl, fun _ => rfl⟩
    | new =>
      simp only [bind_ok_iff, pure_ok_iff] at hrest
      obtain ⟨_, hpreview, _, -, rfl⟩ := hrest
      refine ⟨rfl, fun hover => ?_⟩
      obtain hover | hover := hover <;> simp [Subscription.previewTransition, hover] at hpreview

end Ffdb.Commerce
