import Ffdb.Commerce.Refunds

/-! Events of the provider on payments, on subscriptions and on a ledger by itself: they take effect once and in
order. -/
namespace Ffdb.Commerce
open Fallible

def paymentConsumer : Intake.Consumer Payment PaymentCall PaymentAnswer EventKey (List Char) (List UInt8) where
  step := Payment.perform
  notice := fun call => call.event.map (·.notice)
  applies := fun answer =>
    match answer with
    | .ok (some application) => application.isApplied
    | _ => false
  replay := .ok (some .duplicate)

namespace Payment
variable {payment : Payment}

theorem recordCapture_of_duplicate {event : EventEnvelope} {amount : Money} {providerReference : List Char}
    {capturedAtMs : Int} (h : payment.events.classify event = .ok .duplicate) :
    payment.recordCapture event amount providerReference capturedAtMs = .ok (payment, .duplicate) := by
  unfold recordCapture
  rw [h]
  rfl

theorem settleRefund_of_duplicate {id : Uuid} {event : EventEnvelope} {outcome : RefundSettlement} {settledAtMs : Int}
    (h : payment.events.classify event = .ok .duplicate) :
    payment.settleRefund id event outcome settledAtMs = (payment, .ok .duplicate) := by
  unfold settleRefund
  rw [h]

theorem perform_events_of_none {call : PaymentCall} (h : call.event = none) :
    (payment.perform call).1.events = payment.events := by
  cases call with
  | markAuthorized =>
    simp only [perform, markAuthorized]
    cases hpending : decide (payment.status = .pending) with
    | true => rfl
    | false => rfl
  | markFailed =>
    simp only [perform, markFailed]
    cases hcapturable : payment.status.isCapturable with
    | true => rfl
    | false => rfl
  | cancel =>
    simp only [perform, cancel]
    cases hcapturable : payment.status.isCapturable with
    | true => rfl
    | false => rfl
  | recordCapture event amount providerReference capturedAtMs => cases h
  | requestRefund merchant id amount requestedAtMs =>
    simp only [perform]
    cases hrequest : payment.requestRefund merchant id amount requestedAtMs with
    | error _ => rfl
    | ok payment' =>
      obtain ⟨-, -, rfl⟩ := requestRefund_ok hrequest
      rfl
  | settleRefund id event outcome settledAtMs => cases h

/-- A delivery is applied, and recorded with its event, or it changes nothing. -/
theorem Sound.deliver (h : payment.Sound) {call : PaymentCall} {event : EventEnvelope} (hevent : call.event = some event) :
    (paymentConsumer.applies (payment.perform call).2 = true ∧ payment.events.classify event = .ok .new ∧
      payment.events.record event = .ok (payment.perform call).1.events) ∨
    (paymentConsumer.applies (payment.perform call).2 = false ∧ (payment.perform call).1 = payment) := by
  cases call with
  | markAuthorized | markFailed | cancel | requestRefund => cases hevent
  | recordCapture event amount providerReference capturedAtMs =>
    obtain rfl := Option.some.inj hevent
    simp only [Payment.perform]
    cases hcapture : payment.recordCapture event amount providerReference capturedAtMs with
    | error _ => exact .inr ⟨rfl, rfl⟩
    | ok result =>
      obtain ⟨payment', application⟩ := result
      obtain ⟨rfl, rfl⟩ | ⟨rfl, hclassify, -, -, -, events, hrecord, rfl⟩ := recordCapture_ok hcapture
      · exact .inr ⟨rfl, rfl⟩
      · exact .inl ⟨rfl, hclassify, hrecord⟩
  | settleRefund id event outcome settledAtMs =>
    obtain rfl := Option.some.inj hevent
    simp only [Payment.perform]
    obtain ⟨hsame, hanswer⟩ | ⟨captured, index, refund, events, -, -, -, hclassify, hrecord, hsettled⟩ :=
      h.settleRefund id event outcome settledAtMs
    · refine .inr ⟨?_, hsame⟩
      cases hresult : (payment.settleRefund id event outcome settledAtMs).2 with
      | error _ => rfl
      | ok application =>
        cases application with
        | applied => exact absurd hresult hanswer
        | duplicate => rfl
    · rw [hsettled]
      exact .inl ⟨rfl, hclassify, hrecord⟩

end Payment

theorem paymentConsumer_keepsLedger :
    KeepsLedger paymentConsumer PaymentCall.event (·.events) Payment.Sound where
  notice := fun _ => rfl
  kept := fun call hsound => hsound.perform call
  other := fun hnone => Payment.perform_events_of_none hnone
  applied := by
    intro payment call event hsound hevent happlies
    obtain ⟨-, hclassify, hrecord⟩ | ⟨hrefused, -⟩ := hsound.deliver hevent
    · exact ⟨hclassify, hrecord⟩
    · exact absurd happlies (by rw [show paymentConsumer.step payment call = payment.perform call from rfl, hrefused]; simp)
  refused := by
    intro payment call event hsound hevent hrefused
    obtain ⟨happlies, -⟩ | ⟨-, hsame⟩ := hsound.deliver hevent
    · exact absurd hrefused (by rw [show paymentConsumer.step payment call = payment.perform call from rfl, happlies]; simp)
    · exact hsame
  duplicate := by
    intro payment call event hevent hduplicate
    cases call with
    | markAuthorized | markFailed | cancel | requestRefund => cases hevent
    | recordCapture event amount providerReference capturedAtMs =>
      obtain rfl := Option.some.inj hevent
      simp only [paymentConsumer, Payment.perform, Payment.recordCapture_of_duplicate hduplicate]
      rfl
    | settleRefund id event outcome settledAtMs =>
      obtain rfl := Option.some.inj hevent
      simp only [paymentConsumer, Payment.perform, Payment.settleRefund_of_duplicate hduplicate]
      rfl

/-- Provider events take effect once and in order, on a payment from when it is made, on a subscription from when it
is made, and on a ledger from when it is empty. -/
theorem provider_events_once_in_order :
    (∀ payment : Payment, payment.Created → paymentConsumer.OnceInOrder payment) ∧
      (∀ id merchant price subject quantity createdAtMs subscription,
        Subscription.new id merchant price subject quantity createdAtMs = .ok subscription →
        subscriptionConsumer.OnceInOrder subscription) ∧
      ledgerConsumer.OnceInOrder {} := by
  refine ⟨?_, ?_, ?_⟩
  · intro payment hcreated
    exact paymentConsumer_keepsLedger.onceInOrder hcreated.sound hcreated.fresh.2.2.2
  · intro id merchant price subject quantity createdAtMs subscription hnew
    exact subscriptionConsumer_keepsLedger.onceInOrder trivial (Subscription.new_ok hnew)
  · exact ledgerConsumer_keepsLedger.onceInOrder trivial rfl

theorem sample_events_once_in_order : paymentConsumer.OnceInOrder (samplePayment 7 ⟨usd, 100, by decide⟩) :=
  provider_events_once_in_order.1 _ samplePayment_created

end Ffdb.Commerce
