import Ffdb.Commerce.Payments

/-! Checkouts. A checkout is completed at most once, by the payment or the subscription that it was made for. -/
namespace Ffdb.Commerce
open Fallible

inductive CheckoutKind where
  | oneTime (orderId : Uuid) (amount : Money)
  | recurring (subscriptionId : Uuid) (terms : SubscriptionTermsSnapshot) (subject : MembershipSubject)
  deriving DecidableEq

inductive CheckoutOutcome where
  | payment (paymentId : Uuid)
  | subscription (subscriptionId : Uuid)
  deriving DecidableEq

inductive CheckoutStatus where
  | created
  | completed (outcome : CheckoutOutcome)
  | expired
  | canceled
  deriving DecidableEq

structure CheckoutIntent where
  id : Uuid
  projectId : Uuid
  merchantAccountId : Uuid
  kind : CheckoutKind
  status : CheckoutStatus
  createdAtMs : Int
  expiresAtMs : Int
  deriving DecidableEq

def validateExpiration (createdAtMs expiresAtMs : Int) : Except CommerceError Unit :=
  require (createdAtMs < expiresAtMs) .invalidCheckoutExpiration

namespace CheckoutIntent

def oneTime (id : Uuid) (merchant : MerchantAccount) (order : Order) (createdAtMs expiresAtMs : Int) :
    Except CommerceError CheckoutIntent := do
  merchant.requireCapability .oneTimePayments
  validateExpiration createdAtMs expiresAtMs
  require (merchant.projectId = order.projectId && merchant.id = order.merchantAccountId) .projectMismatch
  require (order.status = .awaitingPayment) .invalidStateTransition
  pure ⟨id, merchant.projectId, merchant.id, .oneTime order.id order.total, .created, createdAtMs, expiresAtMs⟩

def recurring (id : Uuid) (merchant : MerchantAccount) (subscription : Subscription) (createdAtMs expiresAtMs : Int) :
    Except CommerceError CheckoutIntent := do
  merchant.requireCapability .recurringPayments
  validateExpiration createdAtMs expiresAtMs
  require (merchant.projectId = subscription.projectId && merchant.id = subscription.merchantAccountId) .projectMismatch
  require (subscription.status = .incomplete) .invalidStateTransition
  pure ⟨id, merchant.projectId, merchant.id, .recurring subscription.id subscription.terms subscription.subject,
    .created, createdAtMs, expiresAtMs⟩

variable (intent : CheckoutIntent)

def ensureCompletable (atMs : Int) : Except CommerceError Unit := do
  require (intent.status = .created) .invalidStateTransition
  require (atMs < intent.expiresAtMs) .checkoutExpired

def oneTimeTerms : Except CommerceError (Uuid × Money) :=
  match intent.kind with
  | .oneTime orderId amount => .ok (orderId, amount)
  | .recurring _ _ _ => .error .checkoutKindMismatch

def recurringSubscription : Except CommerceError Uuid :=
  match intent.kind with
  | .recurring subscriptionId _ _ => .ok subscriptionId
  | .oneTime _ _ => .error .checkoutKindMismatch

def requirePaid (payment : Payment) : Except CommerceError Unit := do
  let (orderId, amount) ← intent.oneTimeTerms
  require (payment.projectId = intent.projectId && payment.orderId = some orderId) .projectMismatch
  let available ← payment.fulfillableAmount
  available.ensureSameCurrency amount
  require (amount.minor ≤ available.minor) .insufficientVerifiedPayment

def requireEntitled (subscription : Subscription) : Except CommerceError Uuid := do
  let subscriptionId ← intent.recurringSubscription
  require (subscription.projectId = intent.projectId && subscription.id = subscriptionId) .projectMismatch
  require (subscription.status = .trialing || subscription.status = .active) .subscriptionNotEntitled
  pure subscriptionId

end CheckoutIntent

def CheckoutIntent.Created (intent : CheckoutIntent) : Prop :=
  (∃ id merchant order createdAtMs expiresAtMs,
    CheckoutIntent.oneTime id merchant order createdAtMs expiresAtMs = .ok intent) ∨
  ∃ id merchant subscription createdAtMs expiresAtMs,
    CheckoutIntent.recurring id merchant subscription createdAtMs expiresAtMs = .ok intent

end Ffdb.Commerce
