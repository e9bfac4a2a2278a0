import Mathlib.Algebra.Order.BigOperators.Group.List
import Ffdb.Commerce.Subscriptions

/-! Payments. What is captured is never more than what was asked for, and what is given back, or may still have to
be, is never more than what was captured. -/
namespace Ffdb.Commerce
open Fallible

inductive PaymentStatus where
  | pending
  | authorized
  | captured
  | partiallyRefunded
  | refunded
  | failed
  | canceled
  deriving DecidableEq

inductive RefundStatus where
  | requested
  | succeeded
  | failed
  deriving DecidableEq

structure Refund where
  id : Uuid
  amount : Money
  status : RefundStatus
  requestedAtMs : Int
  settledAtMs : Option Int
  providerReference : Option (List Char)
  deriving DecidableEq

inductive PaymentTarget where
  | order (id : Uuid)
  | subscription (id : Uuid)
  deriving DecidableEq

inductive RefundSettlement where
  | succeeded (providerReference : List Char)
  | failed
  deriving DecidableEq

structure Payment where
  id : Uuid
  projectId : Uuid
  merchantAccountId : Uuid
  target : PaymentTarget
  requestedAmount : Money
  capturedAmount : Option Money
  status : PaymentStatus
  providerReference : Option (List Char)
  refunds : List Refund
  events : EventLedger
  createdAtMs : Int
  capturedAtMs : Option Int
  deriving DecidableEq

def sumRefunds (counts : RefundStatus → Bool) (currency : Currency) (refunds : List Refund) : Except CommerceError Money :=
  refunds.foldlM (fun total refund => if counts refund.status then total.checkedAdd refund.amount else pure total)
    (Money.zero currency)

def RefundStatus.isReserved (status : RefundStatus) : Bool := status ≠ .failed

def RefundStatus.isSucceeded (status : RefundStatus) : Bool := status = .succeeded

def refundStatus (succeeded captured : Nat) : PaymentStatus :=
  if succeeded = 0 then .captured
  else if succeeded = captured then .refunded
  else .partiallyRefunded

def PaymentStatus.isCapturable (status : PaymentStatus) : Bool := status = .pending || status = .authorized

def PaymentStatus.isVerified (status : PaymentStatus) : Bool :=
  status = .captured || status = .partiallyRefunded || status = .refunded

def Refund.settle (refund : Refund) (outcome : RefundSettlement) (settledAtMs : Int) : Refund :=
  match outcome with
  | .succeeded providerReference =>
    { refund with status := .succeeded, providerReference := some providerReference, settledAtMs := some settledAtMs }
  | .failed => { refund with status := .failed, settledAtMs := some settledAtMs }

namespace Payment

def new (id : Uuid) (order : Order) (requestedAmount : Money) (createdAtMs : Int) : Except CommerceError Payment := do
  requestedAmount.requirePositive
  requestedAmount.ensureSameCurrency order.total
  require (requestedAmount.minor ≤ order.total.minor) .paymentExceedsOrderTotal
  pure {
    id, projectId := order.projectId, merchantAccountId := order.merchantAccountId, target := .order order.id
    requestedAmount, capturedAmount := none, status := .pending, providerReference := none, refunds := [], events := {}
    createdAtMs, capturedAtMs := none }

def forSubscription (id : Uuid) (merchant : MerchantAccount) (subscription : Subscription) (createdAtMs : Int) :
    Except CommerceError Payment := do
  merchant.requireCapability .recurringPayments
  require (merchant.projectId = subscription.projectId && merchant.id = subscription.merchantAccountId) .projectMismatch
  require (subscription.status ≠ .canceled && subscription.status ≠ .expired) .invalidStateTransition
  let requestedAmount ← subscription.terms.unitAmount.checkedMul subscription.terms.quantity
  requestedAmount.requirePositive
  pure {
    id, projectId := subscription.projectId, merchantAccountId := subscription.merchantAccountId
    target := .subscription subscription.id, requestedAmount, capturedAmount := none, status := .pending
    providerReference := none, refunds := [], events := {}, createdAtMs, capturedAtMs := none }

variable (payment : Payment)

def orderId : Option Uuid :=
  match payment.target with
  | .order id => some id
  | .subscription _ => none

def markAuthorized : Except CommerceError Payment := do
  require (payment.status = .pending) .invalidStateTransition
  pure { payment with status := .authorized }

def recordCapture (event : EventEnvelope) (capturedAmount : Money) (providerReference : List Char) (capturedAtMs : Int) :
    Except CommerceError (Payment × EventApplication) := do
  match ← payment.events.classify event with
  | .duplicate => pure (payment, .duplicate)
  | .new => do
    require payment.status.isCapturable .invalidStateTransition
    capturedAmount.requirePositive
    capturedAmount.ensureSameCurrency payment.requestedAmount
    require (capturedAmount.minor ≤ payment.requestedAmount.minor) .captureExceedsAuthorized
    let events ← payment.events.record event
    pure ({ payment with
      events, capturedAmount := some capturedAmount, providerReference := some providerReference
      capturedAtMs := some capturedAtMs, status := .captured }, .applied)

def markFailed : Except CommerceError Payment := do
  require payment.status.isCapturable .invalidStateTransition
  pure { payment with status := .failed }

def cancel : Except CommerceError Payment := do
  require payment.status.isCapturable .invalidStateTransition
  pure { payment with status := .canceled }

/-- The amount that is neither refunded nor reserved by a refund on its way. -/
def refundableAmount : Except CommerceError Money := do
  let captured ← orError payment.capturedAmount .paymentNotCaptured
  let reserved ← sumRefunds (·.isReserved) captured.currency payment.refunds
  captured.checkedSub reserved

def fulfillableAmount : Except CommerceError Money := do
  require payment.status.isVerified .paymentNotVerified
  payment.refundableAmount

def recomputeRefundStatus : Except CommerceError Payment := do
  let captured ← orError payment.capturedAmount .paymentNotCaptured
  let succeeded ← sumRefunds (·.isSucceeded) captured.currency payment.refunds
  pure { payment with status := refundStatus succeeded.minor captured.minor }

def requestRefund (merchant : MerchantAccount) (id : Uuid) (amount : Money) (requestedAtMs : Int) :
    Except CommerceError Payment := do
  merchant.requireCapability .refunds
  require (merchant.projectId = payment.projectId && merchant.id = payment.merchantAccountId) .projectMismatch
  require (!payment.refunds.any fun refund => refund.id = id) .duplicateIdentifier
  amount.requirePositive
  let available ← payment.refundableAmount
  amount.ensureSameCurrency available
  require (amount.minor ≤ available.minor) .refundExceedsAvailable
  pure { payment with refunds := payment.refunds ++ [⟨id, amount, .requested, requestedAtMs, none, none⟩] }

def settleable (id : Uuid) (event : EventEnvelope) : Except CommerceError (Nat × Refund × EventLedger) := do
  let index ← orError (payment.refunds.findIdx? fun refund => refund.id = id) .refundNotFound
  let refund ← orError payment.refunds[index]? .refundNotFound
  require (refund.status = .requested) .refundAlreadySettled
  let events ← payment.events.record event
  pure (index, refund, events)

/-- The refund and the event are recorded before the status is computed again, so they stay even if that fails. -/
def settleRefund (id : Uuid) (event : EventEnvelope) (outcome : RefundSettlement) (settledAtMs : Int) :
    Payment × Except CommerceError EventApplication :=
  match payment.events.classify event with
  | .error error => (payment, .error error)
  | .ok .duplicate => (payment, .ok .duplicate)
  | .ok .new =>
    match payment.settleable id event with
    | .error error => (payment, .error error)
    | .ok (index, refund, events) =>
      let settled := { payment with events, refunds := payment.refunds.set index (refund.settle outcome settledAtMs) }
      match settled.recomputeRefundStatus with
      | .error error => (settled, .error error)
      | .ok payment => (payment, .ok .applied)

end Payment

def Payment.Created (payment : Payment) : Prop :=
  (∃ id order requestedAmount createdAtMs, Payment.new id order requestedAmount createdAtMs = .ok payment) ∨
    ∃ id merchant subscription createdAtMs, Payment.forSubscription id merchant subscription createdAtMs = .ok payment

inductive PaymentCall where
  | markAuthorized
  | recordCapture (event : EventEnvelope) (capturedAmount : Money) (providerReference : List Char) (capturedAtMs : Int)
  | markFailed
  | cancel
  | requestRefund (merchant : MerchantAccount) (id : Uuid) (amount : Money) (requestedAtMs : Int)
  | settleRefund (id : Uuid) (event : EventEnvelope) (outcome : RefundSettlement) (settledAtMs : Int)

abbrev PaymentAnswer := Except CommerceError (Option EventApplication)

def Payment.perform (payment : Payment) : PaymentCall → Payment × PaymentAnswer
  | .markAuthorized => settle payment (payment.markAuthorized.map (·, none))
  | .recordCapture event capturedAmount providerReference capturedAtMs =>
    settle payment
      ((payment.recordCapture event capturedAmount providerReference capturedAtMs).map fun result => (result.1, some result.2))
  | .markFailed => settle payment (payment.markFailed.map (·, none))
  | .cancel => settle payment (payment.cancel.map (·, none))
  | .requestRefund merchant id amount requestedAtMs =>
    settle payment ((payment.requestRefund merchant id amount requestedAtMs).map (·, none))
  | .settleRefund id event outcome settledAtMs =>
    ((payment.settleRefund id event outcome settledAtMs).1, (payment.settleRefund id event outcome settledAtMs).2.map some)

def PaymentCall.event : PaymentCall → Option EventEnvelope
  | .recordCapture event _ _ _ => some event
  | .settleRefund _ event _ _ => some event
  | _ => none

def refundedMinor (counts : RefundStatus → Bool) (refunds : List Refund) : Nat :=
  (refunds.map fun refund => if counts refund.status then refund.amount.minor else 0).sum

theorem sumRefunds_ok_iff {counts : RefundStatus → Bool} {currency : Currency} {refunds : List Refund} {result : Money} :
    sumRefunds counts currency refunds = .ok result ↔
      (∀ refund ∈ refunds, counts refund.status = true → refund.amount.currency = currency) ∧
        result.currency = currency ∧ result.minor = refundedMinor counts refunds := by
  have hfilter : ∀ refunds : List Refund, ((refunds.filter fun refund => counts refund.status).map (·.amount.minor)).sum =
      refundedMinor counts refunds := by
    intro refunds
    induction refunds with
    | nil => rfl
    | cons refund refunds ih =>
      unfold refundedMinor at ih ⊢
      by_cases hcounts : counts refund.status = true
      · simp [hcounts, ih]
      · simp [hcounts, ih]
  unfold sumRefunds
  rw [← List.foldlM_filter, Money.foldlM_add_ok_iff, hfilter]
  simp [Money.zero]

theorem refundedMinor_append (counts : RefundStatus → Bool) (refunds : List Refund) (refund : Refund) :
    refundedMinor counts (refunds ++ [refund]) =
      refundedMinor counts refunds + if counts refund.status then refund.amount.minor else 0 := by
  simp [refundedMinor]

theorem refundedMinor_succeeded_le (refunds : List Refund) :
    refundedMinor (·.isSucceeded) refunds ≤ refundedMinor (·.isReserved) refunds := by
  refine List.sum_le_sum fun refund _ => ?_
  cases hstatus : refund.status with
  | requested => simp [RefundStatus.isSucceeded]
  | succeeded => simp [RefundStatus.isSucceeded, RefundStatus.isReserved]
  | failed => simp [RefundStatus.isSucceeded]

/-- A refund that was asked for stays reserved or is released when it is settled. -/
theorem refundedMinor_settle_le {refunds : List Refund} {index : Nat} {refund : Refund} (outcome : RefundSettlement)
    (settledAtMs : Int) (hget : refunds[index]? = some refund) (hrequested : refund.status = .requested) :
    refundedMinor (·.isReserved) (refunds.set index (refund.settle outcome settledAtMs)) ≤
      refundedMinor (·.isReserved) refunds := by
  induction refunds generalizing index with
  | nil => simp at hget
  | cons first rest ih =>
    cases index with
    | zero =>
      obtain rfl := Option.some.inj hget
      cases outcome with
      | succeeded _ => simp [refundedMinor, Refund.settle, RefundStatus.isReserved, hrequested]
      | failed => simp [refundedMinor, Refund.settle, RefundStatus.isReserved, hrequested]
    | succ index =>
      have := ih (by simpa using hget)
      simp only [refundedMinor, List.set_cons_succ, List.map_cons, List.sum_cons] at this ⊢
      omega

theorem Refund.settle_id (refund : Refund) (outcome : RefundSettlement) (settledAtMs : Int) :
    (refund.settle outcome settledAtMs).id = refund.id ∧ (refund.settle outcome settledAtMs).amount = refund.amount := by
  cases outcome with
  | succeeded _ => exact ⟨rfl, rfl⟩
  | failed => exact ⟨rfl, rfl⟩

namespace Payment

structure Funds (payment : Payment) (captured : Money) : Prop where
  currency : captured.currency = payment.requestedAmount.currency
  atMost : captured.minor ≤ payment.requestedAmount.minor
  refundCurrency : ∀ refund ∈ payment.refunds, refund.amount.currency = captured.currency
  reserved : refundedMinor (·.isReserved) payment.refunds ≤ captured.minor
  status : payment.status = refundStatus (refundedMinor (·.isSucceeded) payment.refunds) captured.minor

structure Sound (payment : Payment) : Prop where
  verified : payment.capturedAmount.isSome = payment.status.isVerified
  funds : ∀ captured, payment.capturedAmount = some captured → payment.Funds captured
  unrefunded : payment.capturedAmount = none → payment.refunds = []
  unique : (payment.refunds.map (·.id)).Nodup

variable {payment payment' : Payment}

theorem refundStatus_isVerified (succeeded captured : Nat) : (refundStatus succeeded captured).isVerified = true := by
  unfold refundStatus
  split
  · rfl
  · split
    · rfl
    · rfl

theorem not_verified_of_capturable {status : PaymentStatus} (h : status.isCapturable = true) : status.isVerified = false := by
  cases status with
  | pending | authorized => rfl
  | captured | partiallyRefunded | refunded | failed | canceled => cases h

/-- A payment that nothing was captured of may change to any such status. -/
theorem Sound.withStatus (h : payment.Sound) {status : PaymentStatus} (hold : payment.status.isVerified = false)
    (hnew : status.isVerified = false) : Sound { payment with status } where
  verified := h.verified.trans (hold.trans hnew.symm)
  funds := by
    intro captured hcaptured
    have hsome := h.verified
    rw [hold, show payment.capturedAmount = some captured from hcaptured] at hsome
    cases hsome
  unrefunded := h.unrefunded
  unique := h.unique

theorem Created.fresh (h : payment.Created) :
    payment.capturedAmount = none ∧ payment.status = .pending ∧ payment.refunds = [] ∧ payment.events = {} := by
  obtain ⟨id, order, requestedAmount, createdAtMs, hnew⟩ | ⟨id, merchant, subscription, createdAtMs, hnew⟩ := h
  · simp only [new, bind_ok_iff, pure_ok_iff] at hnew
    obtain ⟨_, -, _, -, _, -, rfl⟩ := hnew
    exact ⟨rfl, rfl, rfl, rfl⟩
  · simp only [forSubscription, bind_ok_iff, pure_ok_iff] at hnew
    obtain ⟨_, -, _, -, _, -, _, -, _, -, rfl⟩ := hnew
    exact ⟨rfl, rfl, rfl, rfl⟩

theorem Created.sound (h : payment.Created) : payment.Sound := by
  obtain ⟨hcaptured, hstatus, hrefunds, -⟩ := h.fresh
  refine ⟨?_, ?_, fun _ => hrefunds, ?_⟩
  · rw [hcaptured, hstatus]
    rfl
  · intro captured hsome
    rw [hcaptured] at hsome
    cases hsome
  · rw [hrefunds]
    exact List.nodup_nil

end Payment

end Ffdb.Commerce
