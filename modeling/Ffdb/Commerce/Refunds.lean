import Ffdb.Commerce.Payments
import Ffdb.Lib.Machine

/-! Payments over whole runs of calls. Every call keeps a payment's funds in balance, and what is settled of them
stays. -/
namespace Ffdb.Commerce
open Fallible

namespace Payment
variable {payment payment' : Payment} {captured : Money}

/-- What is left to refund is what was captured less the refunds that have not failed. -/
theorem Funds.refundableAmount (h : payment.Funds captured) (hcaptured : payment.capturedAmount = some captured) :
    ∃ available, payment.refundableAmount = .ok available ∧ available.currency = captured.currency ∧
      available.minor = captured.minor - refundedMinor (·.isReserved) payment.refunds := by
  have hreserved : sumRefunds (·.isReserved) captured.currency payment.refunds =
      .ok ⟨captured.currency, refundedMinor (·.isReserved) payment.refunds, h.reserved.trans captured.inRange⟩ :=
    sumRefunds_ok_iff.mpr ⟨fun refund hrefund _ => h.refundCurrency refund hrefund, rfl, rfl⟩
  refine ⟨⟨captured.currency, captured.minor - refundedMinor (·.isReserved) payment.refunds,
    (Nat.sub_le _ _).trans captured.inRange⟩, ?_, rfl, rfl⟩
  simp only [Payment.refundableAmount, bind_ok_iff]
  refine ⟨captured, ?_, _, hreserved, ?_⟩
  · rw [hcaptured]
    rfl
  · exact Money.checkedSub_ok_iff.mpr ⟨rfl, h.reserved, rfl, rfl⟩

theorem refundableAmount_captured {available : Money} (h : payment.refundableAmount = .ok available) :
    ∃ captured, payment.capturedAmount = some captured := by
  simp only [Payment.refundableAmount, bind_ok_iff, orError_ok_iff] at h
  obtain ⟨captured, hcaptured, -⟩ := h
  exact ⟨captured, hcaptured⟩

theorem recomputeRefundStatus_ok (hcaptured : payment.capturedAmount = some captured)
    (events : EventLedger) {refunds : List Refund} (hcurrency : ∀ refund ∈ refunds, refund.amount.currency = captured.currency)
    (hreserved : refundedMinor (·.isReserved) refunds ≤ captured.minor) :
    recomputeRefundStatus { payment with events, refunds } = .ok { payment with
      events, refunds, status := refundStatus (refundedMinor (·.isSucceeded) refunds) captured.minor } := by
  have hsucceeded : sumRefunds (·.isSucceeded) captured.currency refunds =
      .ok ⟨captured.currency, refundedMinor (·.isSucceeded) refunds,
        (refundedMinor_succeeded_le refunds).trans (hreserved.trans captured.inRange)⟩ :=
    sumRefunds_ok_iff.mpr ⟨fun refund hrefund _ => hcurrency refund hrefund, rfl, rfl⟩
  simp only [recomputeRefundStatus, bind_ok_iff, orError_ok_iff, pure_ok_iff]
  exact ⟨captured, hcaptured, _, hsucceeded, rfl⟩

theorem settleable_ok {id : Uuid} {event : EventEnvelope} {index : Nat} {refund : Refund} {events : EventLedger}
    (h : payment.settleable id event = .ok (index, refund, events)) :
    payment.refunds[index]? = some refund ∧ refund.status = .requested ∧ payment.events.record event = .ok events := by
  simp only [settleable, bind_ok_iff, orError_ok_iff, require_ok_iff, decide_eq_true_eq, pure_ok_iff, Prod.mk.injEq] at h
  obtain ⟨_, -, _, hget, _, hrequested, _, hrecord, rfl, rfl, rfl⟩ := h
  exact ⟨hget, hrequested, hrecord⟩

def settled (payment : Payment) (captured : Money) (index : Nat) (refund : Refund) (events : EventLedger) : Payment :=
  { payment with
    events, refunds := payment.refunds.set index refund
    status := refundStatus (refundedMinor (·.isSucceeded) (payment.refunds.set index refund)) captured.minor }

theorem Funds.settle (h : payment.Funds captured) {index : Nat} {refund : Refund} (outcome : RefundSettlement)
    (settledAtMs : Int) (hget : payment.refunds[index]? = some refund) (hrequested : refund.status = .requested)
    (events : EventLedger) :
    (payment.settled captured index (refund.settle outcome settledAtMs) events).Funds captured where
  currency := h.currency
  atMost := h.atMost
  refundCurrency := by
    intro other hother
    obtain hother | rfl := List.mem_or_eq_of_mem_set hother
    · exact h.refundCurrency other hother
    · rw [(refund.settle_id outcome settledAtMs).2]
      exact h.refundCurrency refund (List.mem_of_getElem? hget)
  reserved := (refundedMinor_settle_le outcome settledAtMs hget hrequested).trans h.reserved
  status := rfl

theorem Sound.captured_of_refund (h : payment.Sound) {index : Nat} {refund : Refund}
    (hget : payment.refunds[index]? = some refund) : ∃ captured, payment.capturedAmount = some captured := by
  refine Option.ne_none_iff_exists'.mp ?_
  intro hnone
  rw [h.unrefunded hnone] at hget
  cases hget

/-- A settlement is refused or is known and changes nothing, or it settles a refund that was asked for. -/
theorem Sound.settleRefund (h : payment.Sound) (id : Uuid) (event : EventEnvelope) (outcome : RefundSettlement)
    (settledAtMs : Int) :
    ((payment.settleRefund id event outcome settledAtMs).1 = payment ∧
      (payment.settleRefund id event outcome settledAtMs).2 ≠ .ok .applied) ∨
    ∃ captured index refund events, payment.capturedAmount = some captured ∧ payment.refunds[index]? = some refund ∧
      refund.status = .requested ∧ payment.events.classify event = .ok .new ∧
      payment.events.record event = .ok events ∧ payment.settleRefund id event outcome settledAtMs =
        (payment.settled captured index (refund.settle outcome settledAtMs) events, .ok .applied) := by
  unfold Payment.settleRefund
  cases hclassify : payment.events.classify event with
  | error _ => exact .inl ⟨rfl, fun hfalse => nomatch hfalse⟩
  | ok classification =>
    cases classification with
    | duplicate => exact .inl ⟨rfl, fun hfalse => by cases hfalse⟩
    | new =>
      dsimp only
      cases hsettleable : payment.settleable id event with
      | error _ => exact .inl ⟨rfl, fun hfalse => nomatch hfalse⟩
      | ok found =>
        obtain ⟨index, refund, events⟩ := found
        obtain ⟨hget, hrequested, hrecord⟩ := settleable_ok hsettleable
        obtain ⟨captured, hcaptured⟩ := h.captured_of_refund hget
        have hfunds := (h.funds captured hcaptured).settle outcome settledAtMs hget hrequested events
        have hrecompute := recomputeRefundStatus_ok hcaptured events hfunds.refundCurrency hfunds.reserved
        refine .inr ⟨captured, index, refund, events, hcaptured, hget, hrequested, rfl, hrecord, ?_⟩
        dsimp only [settled] at hrecompute ⊢
        rw [hrecompute]

theorem recordCapture_ok {event : EventEnvelope} {amount : Money} {providerReference : List Char} {capturedAtMs : Int}
    {application : EventApplication}
    (h : payment.recordCapture event amount providerReference capturedAtMs = .ok (payment', application)) :
    (payment' = payment ∧ application = .duplicate) ∨ (application = .applied ∧ payment.events.classify event = .ok .new ∧
      payment.status.isCapturable = true ∧ amount.currency = payment.requestedAmount.currency ∧
      amount.minor ≤ payment.requestedAmount.minor ∧ ∃ events, payment.events.record event = .ok events ∧
      payment' = { payment with
        events, capturedAmount := some amount, providerReference := some providerReference
        capturedAtMs := some capturedAtMs, status := .captured }) := by
  simp only [recordCapture, bind_ok_iff] at h
  obtain ⟨classification, hclassify, hrest⟩ := h
  cases classification with
  | duplicate =>
    simp only [pure_ok_iff, Prod.mk.injEq] at hrest
    exact .inl ⟨hrest.1.symm, hrest.2.symm⟩
  | new =>
    simp only [bind_ok_iff, require_ok_iff, Money.ensureSameCurrency_ok_iff, decide_eq_true_eq, pure_ok_iff,
      Prod.mk.injEq] at hrest
    obtain ⟨_, hstatus, _, -, _, hcurrency, _, hatMost, events, hrecord, rfl, rfl⟩ := hrest
    exact .inr ⟨rfl, hclassify, hstatus, hcurrency, hatMost, events, hrecord, rfl⟩

theorem requestRefund_ok {merchant : MerchantAccount} {id : Uuid} {amount : Money} {requestedAtMs : Int}
    (h : payment.requestRefund merchant id amount requestedAtMs = .ok payment') :
    (∀ refund ∈ payment.refunds, refund.id ≠ id) ∧ (∃ available, payment.refundableAmount = .ok available ∧
      amount.currency = available.currency ∧ amount.minor ≤ available.minor) ∧
      payment' = { payment with
        refunds := payment.refunds ++ [⟨id, amount, .requested, requestedAtMs, none, none⟩] } := by
  simp only [requestRefund, bind_ok_iff, require_ok_iff, Money.ensureSameCurrency_ok_iff, decide_eq_true_eq,
    pure_ok_iff] at h
  obtain ⟨_, -, _, -, _, hfresh, _, -, available, havailable, _, hcurrency, _, hatMost, rfl⟩ := h
  refine ⟨?_, ⟨available, havailable, hcurrency, hatMost⟩, rfl⟩
  simpa using hfresh

theorem Sound.capture (h : payment.Sound) (hcapturable : payment.status.isCapturable = true) {amount : Money}
    (hcurrency : amount.currency = payment.requestedAmount.currency) (hatMost : amount.minor ≤ payment.requestedAmount.minor)
    {events : EventLedger} {providerReference : List Char} {capturedAtMs : Int} : Sound { payment with
      events, capturedAmount := some amount, providerReference := some providerReference
      capturedAtMs := some capturedAtMs, status := .captured } := by
  have hnone : payment.capturedAmount = none := by
    have hverified := h.verified
    rw [not_verified_of_capturable hcapturable] at hverified
    simpa using hverified
  have hrefunds := h.unrefunded hnone
  refine ⟨rfl, ?_, fun hfalse => (nomatch hfalse), h.unique⟩
  intro captured hcaptured
  obtain rfl := Option.some.inj hcaptured
  refine ⟨hcurrency, hatMost, ?_, ?_, ?_⟩
  · simp [hrefunds]
  · simp [hrefunds, refundedMinor]
  · simp [hrefunds, refundedMinor, refundStatus]

theorem Sound.request (h : payment.Sound) {id : Uuid} (hfresh : ∀ refund ∈ payment.refunds, refund.id ≠ id)
    {amount available : Money} (havailable : payment.refundableAmount = .ok available)
    (hcurrency : amount.currency = available.currency) (hatMost : amount.minor ≤ available.minor) {requestedAtMs : Int} :
    Sound { payment with refunds := payment.refunds ++ [⟨id, amount, .requested, requestedAtMs, none, none⟩] } := by
  obtain ⟨captured, hcaptured⟩ := refundableAmount_captured havailable
  have hfunds := h.funds captured hcaptured
  obtain ⟨_, havailable', hsame, hminor⟩ := hfunds.refundableAmount hcaptured
  obtain rfl := Except.ok.inj (havailable.symm.trans havailable')
  refine ⟨h.verified, ?_, ?_, ?_⟩
  · intro captured' hcaptured'
    obtain rfl := Option.some.inj (hcaptured.symm.trans hcaptured')
    refine ⟨hfunds.currency, hfunds.atMost, ?_, ?_, ?_⟩
    · intro refund hrefund
      obtain hrefund | hrefund := List.mem_append.mp hrefund
      · exact hfunds.refundCurrency refund hrefund
      · rw [List.mem_singleton.mp hrefund]
        exact hcurrency.trans hsame
    · have hreserved := hfunds.reserved
      rw [refundedMinor_append]
      simp only [RefundStatus.isReserved, ne_eq, reduceCtorEq, not_false_eq_true, decide_true, if_true]
      simp only [RefundStatus.isReserved, ne_eq] at hminor hreserved
      omega
    · rw [refundedMinor_append]
      simpa [RefundStatus.isSucceeded] using hfunds.status
  · intro hnone
    rw [show payment.capturedAmount = none from hnone] at hcaptured
    cases hcaptured
  · rw [List.map_append]
    refine List.nodup_append.mpr ⟨h.unique, List.nodup_singleton _, ?_⟩
    intro old hold new hnew
    obtain ⟨refund, hrefund, rfl⟩ := List.mem_map.mp hold
    rw [List.mem_singleton.mp hnew]
    exact hfresh refund hrefund

theorem Sound.settle (h : payment.Sound) (hcaptured : payment.capturedAmount = some captured) {index : Nat}
    {refund : Refund} (outcome : RefundSettlement) (settledAtMs : Int) (hget : payment.refunds[index]? = some refund)
    (hrequested : refund.status = .requested) (events : EventLedger) :
    (payment.settled captured index (refund.settle outcome settledAtMs) events).Sound := by
  refine ⟨?_, ?_, ?_, ?_⟩
  · exact (congrArg _ hcaptured).trans (refundStatus_isVerified _ _).symm
  · intro captured' hcaptured'
    obtain rfl := Option.some.inj (hcaptured.symm.trans hcaptured')
    exact (h.funds captured hcaptured).settle outcome settledAtMs hget hrequested events
  · intro hnone
    rw [show payment.capturedAmount = none from hnone] at hcaptured
    cases hcaptured
  · have hids : (payment.refunds.set index (refund.settle outcome settledAtMs)).map (·.id) = payment.refunds.map (·.id) := by
      obtain ⟨hlt, hget⟩ := List.getElem?_eq_some_iff.mp hget
      rw [List.map_set, (refund.settle_id outcome settledAtMs).1, ← hget]
      have hself := @List.set_getElem_self _ (payment.refunds.map (·.id)) index (by simpa using hlt)
      simpa using hself
    exact hids ▸ h.unique

/-- What one call may do to a sound payment. -/
theorem Sound.perform (h : payment.Sound) (call : PaymentCall) : (payment.perform call).1.Sound := by
  cases call with
  | markAuthorized =>
    simp only [Payment.perform, markAuthorized]
    cases hstatus : payment.status with
    | pending => exact h.withStatus (by rw [hstatus]; rfl) rfl
    | authorized | captured | partiallyRefunded | refunded | failed | canceled => exact h
  | markFailed =>
    simp only [Payment.perform, markFailed]
    cases hcapturable : payment.status.isCapturable with
    | true => exact h.withStatus (not_verified_of_capturable hcapturable) rfl
    | false => exact h
  | cancel =>
    simp only [Payment.perform, Payment.cancel]
    cases hcapturable : payment.status.isCapturable with
    | true => exact h.withStatus (not_verified_of_capturable hcapturable) rfl
    | false => exact h
  | recordCapture event amount providerReference capturedAtMs =>
    simp only [Payment.perform]
    cases hcapture : payment.recordCapture event amount providerReference capturedAtMs with
    | error _ => exact h
    | ok result =>
      obtain ⟨payment', application⟩ := result
      obtain ⟨rfl, -⟩ | ⟨-, -, hcapturable, hcurrency, hatMost, events, -, rfl⟩ := recordCapture_ok hcapture
      · exact h
      · exact h.capture hcapturable hcurrency hatMost
  | requestRefund merchant id amount requestedAtMs =>
    simp only [Payment.perform]
    cases hrequest : payment.requestRefund merchant id amount requestedAtMs with
    | error _ => exact h
    | ok payment' =>
      obtain ⟨hfresh, ⟨available, havailable, hcurrency, hatMost⟩, rfl⟩ := requestRefund_ok hrequest
      exact h.request hfresh havailable hcurrency hatMost
  | settleRefund id event outcome settledAtMs =>
    simp only [Payment.perform]
    obtain ⟨hsame, -⟩ | ⟨captured, index, refund, events, hcaptured, hget, hrequested, -, -, hsettled⟩ :=
      h.settleRefund id event outcome settledAtMs
    · rw [hsame]
      exact h
    · rw [hsettled]
      exact h.settle hcaptured outcome settledAtMs hget hrequested events

def KeepsSettled (payment payment' : Payment) : Prop :=
  ∀ refund ∈ payment.refunds, refund.status ≠ .requested → refund ∈ payment'.refunds

theorem keepsSettled_of_refunds (h : payment'.refunds = payment.refunds) : payment.KeepsSettled payment' :=
  fun _ hrefund _ => h ▸ hrefund

theorem Sound.keepsSettled (h : payment.Sound) (call : PaymentCall) : payment.KeepsSettled (payment.perform call).1 := by
  cases call with
  | markAuthorized =>
    simp only [Payment.perform, markAuthorized]
    cases hpending : decide (payment.status = .pending) with
    | true => exact keepsSettled_of_refunds rfl
    | false => exact keepsSettled_of_refunds rfl
  | markFailed =>
    simp only [Payment.perform, markFailed]
    cases hcapturable : payment.status.isCapturable with
    | true => exact keepsSettled_of_refunds rfl
    | false => exact keepsSettled_of_refunds rfl
  | cancel =>
    simp only [Payment.perform, Payment.cancel]
    cases hcapturable : payment.status.isCapturable with
    | true => exact keepsSettled_of_refunds rfl
    | false => exact keepsSettled_of_refunds rfl
  | recordCapture event amount providerReference capturedAtMs =>
    simp only [Payment.perform]
    cases hcapture : payment.recordCapture event amount providerReference capturedAtMs with
    | error _ => exact keepsSettled_of_refunds rfl
    | ok result =>
      obtain ⟨payment', application⟩ := result
      obtain ⟨rfl, -⟩ | ⟨-, -, -, -, -, events, -, rfl⟩ := recordCapture_ok hcapture
      · exact keepsSettled_of_refunds rfl
      · exact keepsSettled_of_refunds rfl
  | requestRefund merchant id amount requestedAtMs =>
    simp only [Payment.perform]
    cases hrequest : payment.requestRefund merchant id amount requestedAtMs with
    | error _ => exact keepsSettled_of_refunds rfl
    | ok payment' =>
      obtain ⟨-, -, rfl⟩ := requestRefund_ok hrequest
      exact fun refund hrefund _ => List.mem_append_left _ hrefund
  | settleRefund id event outcome settledAtMs =>
    simp only [Payment.perform]
    obtain ⟨hsame, -⟩ | ⟨captured, index, refund, events, -, hget, hrequested, -, -, hsettled⟩ :=
      h.settleRefund id event outcome settledAtMs
    · rw [hsame]
      exact keepsSettled_of_refunds rfl
    · rw [hsettled]
      intro other hother hsettled
      -- a refund that is settled is not the one that is settled here
      obtain ⟨at', hat⟩ := List.mem_iff_getElem?.mp hother
      have hne : index ≠ at' := by
        rintro rfl
        obtain rfl := Option.some.inj (hget.symm.trans hat)
        exact hsettled hrequested
      refine List.mem_iff_getElem?.mpr ⟨at', ?_⟩
      exact (List.getElem?_set_ne hne).trans hat

def after (payment : Payment) (calls : List PaymentCall) : Payment :=
  Machine.run (fun payment call => (payment.perform call).1) payment calls

theorem Sound.after (h : payment.Sound) (calls : List PaymentCall) : (payment.after calls).Sound :=
  Machine.run_preserves (fun _ call hsound => hsound.perform call) payment calls h

theorem Sound.keepsSettled_after (h : payment.Sound) (calls : List PaymentCall) :
    payment.KeepsSettled (payment.after calls) := by
  induction calls generalizing payment with
  | nil => exact keepsSettled_of_refunds rfl
  | cons call calls ih =>
    intro refund hrefund hsettled
    exact ih (h.perform call) refund (h.keepsSettled call refund hrefund hsettled) hsettled

end Payment

/-- Refunds never exceed what was captured, whatever is called on a payment, and one that is settled stays as it is. -/
theorem refunds_within_captured (payment : Payment) (hcreated : payment.Created) (calls : List PaymentCall) :
    (payment.after calls).Sound ∧
      (∀ captured, (payment.after calls).capturedAmount = some captured →
        ∃ available, (payment.after calls).refundableAmount = .ok available ∧ available.currency = captured.currency ∧
          available.minor + refundedMinor (·.isReserved) (payment.after calls).refunds = captured.minor) ∧
      ∀ more, (payment.after calls).KeepsSettled (payment.after (calls ++ more)) := by
  have hsound := hcreated.sound.after calls
  refine ⟨hsound, ?_, ?_⟩
  · intro captured hcaptured
    have hfunds := hsound.funds captured hcaptured
    obtain ⟨available, havailable, hcurrency, hminor⟩ := hfunds.refundableAmount hcaptured
    have hreserved := hfunds.reserved
    exact ⟨available, havailable, hcurrency, by omega⟩
  · intro more
    unfold Payment.after
    rw [Machine.run_append]
    exact hsound.keepsSettled_after more

section Sample

def usd : Currency := (Currency.new ['U', 'S', 'D']).toOption.get rfl

def sampleMerchant : MerchantAccount := ⟨10, 20, .active, {.oneTimePayments, .refunds}⟩

def sampleProduct : Product := ⟨30, 20, ['S', 'e', 'a', 't'], .active⟩

def sampleLine : OrderLineSnapshot :=
  (Except.toOption do
    let terms ← PriceTerms.oneTime ⟨usd, 100, by decide⟩
    let price ← Price.new 40 sampleProduct terms
    OrderLineSnapshot.fromPrice sampleProduct price 1).get rfl

def sampleOrder : Order := (Order.new 1 sampleMerchant [sampleLine] 0).toOption.get rfl

def samplePayment (id : Uuid) (amount : Money) : Payment where
  id := id
  projectId := 20
  merchantAccountId := 10
  target := .order 1
  requestedAmount := amount
  capturedAmount := none
  status := .pending
  providerReference := none
  refunds := []
  events := {}
  createdAtMs := 0
  capturedAtMs := none

def captureEvent : EventEnvelope :=
  (Except.toOption do
    let key ← EventKey.new ['p', 's', 'p'] ['e', 'v', 't']
    EventEnvelope.fromPayload key ['p', 'a', 'y'] 1 [] 0).get rfl

def captureReference : List Char := ['c', 'h', '_', '1']

theorem samplePayment_created : (samplePayment 7 ⟨usd, 100, by decide⟩).Created :=
  .inl ⟨7, sampleOrder, ⟨usd, 100, by decide⟩, 0, rfl⟩

theorem refunds_within_captured_sample :
    ((samplePayment 7 ⟨usd, 100, by decide⟩).after
      [.recordCapture captureEvent ⟨usd, 100, by decide⟩ captureReference 1,
        .requestRefund sampleMerchant 8 ⟨usd, 30, by decide⟩ 2]).Sound :=
  (refunds_within_captured _ samplePayment_created _).1

/-- Nothing can be refunded before a capture, and a refund that is only asked for reserves its amount. -/
theorem requested_refund_reserves :
    (samplePayment 7 ⟨usd, 100, by decide⟩).Created ∧
      (samplePayment 7 ⟨usd, 100, by decide⟩).refundableAmount = .error .paymentNotCaptured ∧
      ∃ calls, ((samplePayment 7 ⟨usd, 100, by decide⟩).after calls).capturedAmount = some ⟨usd, 100, by decide⟩ ∧
        refundedMinor (·.isSucceeded) ((samplePayment 7 ⟨usd, 100, by decide⟩).after calls).refunds = 0 ∧
        ((samplePayment 7 ⟨usd, 100, by decide⟩).after calls).refundableAmount = .ok ⟨usd, 70, by decide⟩ :=
  ⟨samplePayment_created, rfl,
    [.recordCapture captureEvent ⟨usd, 100, by decide⟩ captureReference 1,
      .requestRefund sampleMerchant 8 ⟨usd, 30, by decide⟩ 2],
    by decide, by decide, by decide⟩

end Sample

end Ffdb.Commerce
