import Ffdb.Commerce.Refunds

/-! When an order counts as paid. The payments that are named for it are added up as they are listed, so one that is
named twice counts twice. -/
namespace Ffdb.Commerce
open Fallible

def Order.addPayment (order : Order) (paid : Money) (payment : Payment) : Except CommerceError Money := do
  require (payment.projectId = order.projectId && payment.orderId = some order.id) .projectMismatch
  let amount ← payment.fulfillableAmount
  paid.checkedAdd amount

def ensureOrderPaid (order : Order) (payments : List Payment) : Except CommerceError Unit := do
  let paid ← payments.foldlM order.addPayment (Money.zero order.total.currency)
  require (order.total.minor ≤ paid.minor) .insufficientVerifiedPayment

def Order.verifyPaid (order : Order) (payments : List Payment) : Except CommerceError Order := do
  require (order.status = .awaitingPayment) .invalidStateTransition
  ensureOrderPaid order payments
  pure { order with status := .paid }

/-- The payments are counted again, so that a refund since then is not overlooked. -/
def Order.beginFulfillment (order : Order) (payments : List Payment) : Except CommerceError Order := do
  require (order.status = .paid) .orderNotPaid
  ensureOrderPaid order payments
  pure { order with status := .fulfillmentInProgress }

def Payment.netMinor (payment : Payment) : Nat :=
  match payment.capturedAmount with
  | some captured => captured.minor - refundedMinor (·.isReserved) payment.refunds
  | none => 0

def netSum (payments : List Payment) : Nat := (payments.map (·.netMinor)).sum

def distinctPayments : List Payment → List Payment
  | [] => []
  | payment :: rest => payment :: (distinctPayments rest).filter fun other => other.id ≠ payment.id

def Payment.BelongsTo (payment : Payment) (order : Order) : Prop :=
  payment.projectId = order.projectId ∧ payment.orderId = some order.id

def Payment.CountsFor (payment : Payment) (order : Order) : Prop :=
  payment.BelongsTo order ∧ ∃ amount, payment.fulfillableAmount = .ok amount ∧ amount.currency = order.total.currency

/-- The payments, each counted once, cover the order, whose total is what its lines come to. -/
structure Order.CoveredBy (order : Order) (payments : List Payment) : Prop where
  belong : ∀ payment ∈ distinctPayments payments, payment.BelongsTo order
  enough : order.total.minor ≤ netSum (distinctPayments payments)
  total : order.total.minor = (order.lines.map fun line => line.unitAmount.minor * line.quantity).sum

/-- The payments cover the order only when those that are named again are counted again. -/
structure Order.Recounted (order : Order) (payments : List Payment) : Prop where
  counts : ∀ payment ∈ payments, payment.CountsFor order
  inRange : netSum payments ≤ maxMinorAmount
  once : netSum (distinctPayments payments) < order.total.minor
  again : order.total.minor ≤ netSum payments

variable {order order' : Order} {payments : List Payment} {payment : Payment}

theorem Payment.fulfillableAmount_ok {amount : Money} (h : payment.fulfillableAmount = .ok amount) :
    amount.minor = payment.netMinor := by
  simp only [fulfillableAmount, refundableAmount, bind_ok_iff, orError_ok_iff, sumRefunds_ok_iff,
    Money.checkedSub_ok_iff] at h
  obtain ⟨_, -, captured, hcaptured, reserved, ⟨-, -, hreserved⟩, -, -, -, hminor⟩ := h
  rw [hminor, hreserved, netMinor, hcaptured]

theorem addPayments_ok_iff (start : Money) {paid : Money} (hcurrency : start.currency = order.total.currency) :
    payments.foldlM order.addPayment start = .ok paid ↔ (∀ payment ∈ payments, payment.CountsFor order) ∧
      paid.currency = order.total.currency ∧ paid.minor = start.minor + netSum payments := by
  induction payments generalizing start with
  | nil =>
    rw [List.foldlM_nil, pure_ok_iff, eq_comm, Money.ext_iff', hcurrency]
    simp [netSum]
  | cons payment payments ih =>
    rw [List.foldlM_cons, bind_ok_iff, List.forall_mem_cons]
    simp only [Order.addPayment, bind_ok_iff, require_ok_iff, Bool.and_eq_true, decide_eq_true_eq, Money.checkedAdd_ok_iff,
      netSum, List.map_cons, List.sum_cons]
    constructor
    · rintro ⟨middle, ⟨_, hbelongs, amount, hamount, hsame, hmiddle, hminor⟩, hrest⟩
      obtain ⟨hcounts, hpaid, hsum⟩ := (ih middle (hmiddle.trans hcurrency)).mp hrest
      have hnet := Payment.fulfillableAmount_ok hamount
      refine ⟨⟨⟨hbelongs, amount, hamount, hsame.symm.trans hcurrency⟩, hcounts⟩, hpaid, ?_⟩
      rw [hsum, hminor, hnet, netSum]
      omega
    · rintro ⟨⟨⟨hbelongs, amount, hamount, hsame⟩, hcounts⟩, hpaid, hsum⟩
      have hnet := Payment.fulfillableAmount_ok hamount
      have hrange := paid.inRange
      refine ⟨⟨start.currency, start.minor + amount.minor, by omega⟩,
        ⟨(), hbelongs, amount, hamount, hcurrency.trans hsame.symm, rfl, rfl⟩, ?_⟩
      refine (ih ⟨start.currency, start.minor + amount.minor, _⟩ hcurrency).mpr ⟨hcounts, hpaid, ?_⟩
      dsimp only
      rw [hsum, hnet, netSum]
      omega

/-- An order counts as paid when all that is listed counts and covers it, listed as it is. -/
theorem ensureOrderPaid_ok_iff {u : Unit} : ensureOrderPaid order payments = .ok u ↔
    (∀ payment ∈ payments, payment.CountsFor order) ∧ netSum payments ≤ maxMinorAmount ∧
      order.total.minor ≤ netSum payments := by
  simp only [ensureOrderPaid, bind_ok_iff, require_ok_iff, decide_eq_true_eq,
    addPayments_ok_iff (Money.zero order.total.currency) rfl]
  constructor
  · rintro ⟨paid, ⟨hcounts, -, hsum⟩, henough⟩
    have hrange := paid.inRange
    simp only [Money.zero, Nat.zero_add] at hsum
    exact ⟨hcounts, hsum ▸ hrange, hsum ▸ henough⟩
  · rintro ⟨hcounts, hrange, henough⟩
    exact ⟨⟨order.total.currency, netSum payments, hrange⟩, ⟨hcounts, rfl, (Nat.zero_add _).symm⟩, henough⟩

theorem mem_of_mem_distinctPayments (h : payment ∈ distinctPayments payments) : payment ∈ payments := by
  induction payments with
  | nil => exact h
  | cons first rest ih =>
    obtain rfl | h := List.mem_cons.mp h
    · exact List.mem_cons_self
    · exact List.mem_cons_of_mem _ (ih (List.mem_filter.mp h).1)

theorem verifyPaid_ok (h : order.verifyPaid payments = .ok order') :
    order.status = .awaitingPayment ∧ ensureOrderPaid order payments = .ok () := by
  simp only [Order.verifyPaid, bind_ok_iff, require_ok_iff, decide_eq_true_eq] at h
  obtain ⟨_, hstatus, _, hpaid, -⟩ := h
  exact ⟨hstatus, hpaid⟩

theorem beginFulfillment_ok (h : order.beginFulfillment payments = .ok order') :
    order.status = .paid ∧ ensureOrderPaid order payments = .ok () := by
  simp only [Order.beginFulfillment, bind_ok_iff, require_ok_iff, decide_eq_true_eq] at h
  obtain ⟨_, hstatus, _, hpaid, -⟩ := h
  exact ⟨hstatus, hpaid⟩

theorem coveredBy_of_not_recounted (hpaid : ensureOrderPaid order payments = .ok ()) (h : ¬order.Recounted payments) :
    order.CoveredBy payments := by
  obtain ⟨hcounts, hrange, henough⟩ := ensureOrderPaid_ok_iff.mp hpaid
  refine ⟨fun payment hmem => (hcounts payment (mem_of_mem_distinctPayments hmem)).1, ?_, order.total_eq⟩
  by_contra hless
  exact h ⟨hcounts, hrange, Nat.lt_of_not_le hless, henough⟩

theorem distinctPayments_of_nodup (h : (payments.map (·.id)).Nodup) : distinctPayments payments = payments := by
  induction payments with
  | nil => rfl
  | cons payment payments ih =>
    rw [List.map_cons, List.nodup_cons] at h
    rw [distinctPayments, ih h.2, List.filter_eq_self.mpr]
    intro other hother
    have hne : other.id ≠ payment.id := fun heq => h.1 (heq ▸ List.mem_map_of_mem hother)
    simpa using hne

/-- Payments of which none is listed twice are counted once. -/
theorem not_recounted_of_nodup (h : (payments.map (·.id)).Nodup) : ¬order.Recounted payments := by
  intro hrecounted
  have honce := hrecounted.once
  rw [distinctPayments_of_nodup h] at honce
  exact absurd hrecounted.again (Nat.not_le_of_lt honce)

/-- Nothing is fulfilled unpaid exactly if the payments do not cover the order by being counted again. -/
theorem fulfilled_only_paid_iff (order : Order) (payments : List Payment) :
    ((∀ order', order.verifyPaid payments = .ok order' → order.CoveredBy payments) ∧
      ∀ order', order.beginFulfillment payments = .ok order' → order.CoveredBy payments) ↔
      ((order.status = .awaitingPayment ∨ order.status = .paid) → ¬order.Recounted payments) := by
  constructor
  · rintro ⟨hverify, hbegin⟩ hstatus hrecounted
    have hpaid : ensureOrderPaid order payments = .ok () :=
      ensureOrderPaid_ok_iff.mpr ⟨hrecounted.counts, hrecounted.inRange, hrecounted.again⟩
    have hcovered : order.CoveredBy payments := by
      obtain hstatus | hstatus := hstatus
      · exact hverify { order with status := .paid } (by simp [Order.verifyPaid, hstatus, hpaid, require])
      · exact hbegin { order with status := .fulfillmentInProgress } (by simp [Order.beginFulfillment, hstatus, hpaid, require])
    exact absurd hcovered.enough (Nat.not_le_of_lt hrecounted.once)
  · intro h
    refine ⟨?_, ?_⟩
    · intro order' hverify
      obtain ⟨hstatus, hpaid⟩ := verifyPaid_ok hverify
      exact coveredBy_of_not_recounted hpaid (h (.inl hstatus))
    · intro order' hbegin
      obtain ⟨hstatus, hpaid⟩ := beginFulfillment_ok hbegin
      exact coveredBy_of_not_recounted hpaid (h (.inr hstatus))

def samplePaid : Payment :=
  (samplePayment 7 ⟨usd, 60, by decide⟩).after [.recordCapture captureEvent ⟨usd, 60, by decide⟩ captureReference 1]

/-- A payment of 60 that is listed twice pays an order of 100. -/
theorem payment_counted_twice :
    Order.new 1 sampleMerchant sampleOrder.lines 0 = .ok sampleOrder ∧
      Payment.new 7 sampleOrder ⟨usd, 60, by decide⟩ 0 = .ok (samplePayment 7 ⟨usd, 60, by decide⟩) ∧
      sampleOrder.verifyPaid [samplePaid, samplePaid] = .ok { sampleOrder with status := .paid } ∧
      ¬sampleOrder.CoveredBy [samplePaid, samplePaid] := by
  refine ⟨rfl, rfl, rfl, ?_⟩
  intro hcovered
  exact absurd hcovered.enough (by decide)

end Ffdb.Commerce
