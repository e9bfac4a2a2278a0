import Ffdb.Lib.Serde
import Ffdb.Commerce.Deliveries
import Ffdb.Commerce.Fulfillment
import Ffdb.Commerce.Checkout

/-! The JSON of the aggregates, as their derived implementations write and read it. The types of the model carry what
their constructors check, so reading checks it again; integers have no bounds to be checked. -/
namespace Ffdb.Commerce
open Fields (one maybe)

section Identifiers

def hexDigits : Nat → Nat → List Char
  | 0, _ => []
  | count+1, n => hexDigits count (n/16) ++ [Text.hexDigit (n%16)]

def hexValue (c : Char) : Option Nat :=
  if c.isDigit then some (c.toNat-48)
  else if 'a' ≤ c ∧ c ≤ 'f' then some (c.toNat-87)
  else none

def readHex (digits : List Char) : Option Nat :=
  digits.foldlM (fun n c => (hexValue c).map (16*n + ·)) 0

def hyphenated : List Nat → List Char → List Char
  | [], digits => digits
  | length :: lengths, digits => digits.take length ++ '-' :: hyphenated lengths (digits.drop length)

def uuidText (id : Uuid) : List Char := hyphenated [8, 4, 4, 4] (hexDigits 32 id.toNat)

def readUuid (text : List Char) : Option Uuid :=
  (readHex (text.filter (· ≠ '-'))).map (BitVec.ofNat 128)

theorem hexValue_hexDigit : ∀ n : Fin 16, hexValue (Text.hexDigit n) = some n.val := by decide

theorem hexDigit_ne_hyphen : ∀ n : Fin 16, Text.hexDigit n ≠ '-' := by decide

theorem hyphen_not_mem_hexDigits (count n : Nat) : '-' ∉ hexDigits count n := by
  induction count generalizing n with
  | zero => exact List.not_mem_nil
  | succ count ih =>
    have hlast := hexDigit_ne_hyphen ⟨n%16, Nat.mod_lt _ (by decide)⟩
    simp only [hexDigits, List.mem_append, List.mem_singleton, not_or]
    exact ⟨ih (n/16), Ne.symm hlast⟩

theorem filter_hyphenated (lengths : List Nat) {digits : List Char} (h : '-' ∉ digits) :
    (hyphenated lengths digits).filter (· ≠ '-') = digits := by
  have hkept {part : List Char} (hpart : '-' ∉ part) : part.filter (· ≠ '-') = part :=
    List.filter_eq_self.mpr fun c hc => by
      have hne : c ≠ '-' := fun hsame => hpart (hsame ▸ hc)
      simpa using hne
  induction lengths generalizing digits with
  | nil => exact hkept h
  | cons length lengths ih =>
    have hrest : '-' ∉ digits.drop length := fun hmem => h (List.mem_of_mem_drop hmem)
    have hfirst : '-' ∉ digits.take length := fun hmem => h (List.mem_of_mem_take hmem)
    simp only [hyphenated, List.filter_append]
    rw [hkept hfirst, List.filter_cons_of_neg (by simp), ih hrest, List.take_append_drop]

theorem readHex_hexDigits (count n : Nat) : readHex (hexDigits count n) = some (n%16^count) := by
  induction count generalizing n with
  | zero => simp [hexDigits, readHex, Nat.mod_one]
  | succ count ih =>
    have hlast := hexValue_hexDigit ⟨n%16, Nat.mod_lt _ (by decide)⟩
    unfold readHex at ih ⊢
    simp only [hexDigits, List.foldlM_append, ih, List.foldlM_cons, List.foldlM_nil]
    simp only at hlast
    simp [hlast]
    rw [Nat.pow_succ, Nat.mul_comm (16^count), Nat.mod_mul]
    omega

theorem readUuid_uuidText (id : Uuid) : readUuid (uuidText id) = some id := by
  unfold readUuid uuidText
  rw [filter_hyphenated _ (hyphen_not_mem_hexDigits 32 id.toNat), readHex_hexDigits]
  have hlt : id.toNat < 16^32 := id.isLt
  rw [Nat.mod_eq_of_lt hlt, Option.map_some, BitVec.ofNat_toNat, BitVec.setWidth_eq]

end Identifiers

namespace Formats

section Values

def natural : Format Int Nat := Format.number.as (fun n => (n : Int)) fun i => if 0 ≤ i then some i.toNat else none

def uuid : Format Int Uuid := Format.string.as uuidText readUuid

def currency : Format Int Currency :=
  Format.string.as (·.code) fun code => if h : isCurrencyCode code = true then some ⟨code, h⟩ else none

def money : Format Int Money :=
  .struct (((one "currency".toList currency).and (one "minor".toList natural)).as
    (fun money => (money.currency, money.minor))
    fun (currency, minor) => if h : minor ≤ maxMinorAmount then some ⟨currency, minor, h⟩ else none)

theorem keeps_natural (n : Nat) : natural.Keeps n := (keeps_number (n : Int)).as (by simp)

theorem keeps_uuid (id : Uuid) : uuid.Keeps id := (keeps_string (uuidText id)).as (readUuid_uuidText id)

theorem keeps_currency (value : Currency) : currency.Keeps value := (keeps_string value.code).as (dif_pos value.valid)

theorem keeps_money (value : Money) : money.Keeps value := by
  refine Fields.Keeps.struct (.as (.and (keeps_currency _).one (keeps_natural _).one) ?_) (by simp)
  exact dif_pos value.inRange

end Values

section Catalog

def BillingIntervalUnit.name : BillingIntervalUnit → String
  | .day => "day"
  | .week => "week"
  | .month => "month"
  | .year => "year"

def billingIntervalUnit : Format Int BillingIntervalUnit :=
  .enumeration [.day, .week, .month, .year] BillingIntervalUnit.name

def billingInterval : Format Int BillingInterval :=
  .struct (((one "unit".toList billingIntervalUnit).and (one "count".toList natural)).as
    (fun interval => (interval.unit, interval.count))
    fun (unit, count) => if h : 0 < count ∧ count ≤ 365 then some ⟨unit, count, h⟩ else none)

def entitlementKey : Format Int EntitlementKey :=
  Format.string.as (·.value) fun value => if h : isEntitlementKey value = true then some ⟨value, h⟩ else none

def entitlementValue : Format Int EntitlementValue :=
  .tagged "type".toList [
    .of "enabled".toList (one "value".toList .bool) (fun | .enabled value => some value | _ => none) .enabled,
    .of "quantity".toList (one "value".toList natural) (fun | .quantity value => some value | _ => none) .quantity,
    .of "text".toList (one "value".toList .string) (fun | .text value => some value | _ => none) .text]

def integerText (i : Int) : List Char := i.repr.toList

def entitlements : Format Int (Table EntitlementKey EntitlementValue) :=
  .table integerText entitlementKey entitlementValue

def orderLine : Format Int OrderLineSnapshot :=
  .struct (((one "project_id".toList uuid).and ((one "product_id".toList uuid).and ((one "price_id".toList uuid).and
      ((one "product_name".toList .string).and ((one "unit_amount".toList money).and
        ((one "quantity".toList natural).and (one "total".toList money))))))).as
    (fun line => (line.projectId, line.productId, line.priceId, line.productName, line.unitAmount, line.quantity,
      line.total))
    fun (projectId, productId, priceId, productName, unitAmount, quantity, total) =>
      if h : unitAmount.checkedMul quantity = .ok total then
        some ⟨projectId, productId, priceId, productName, unitAmount, quantity, total, h⟩
      else none)

def OrderStatus.name : OrderStatus → String
  | .awaitingPayment => "awaiting_payment"
  | .paid => "paid"
  | .fulfillmentInProgress => "fulfillment_in_progress"
  | .fulfilled => "fulfilled"
  | .canceled => "canceled"

def orderStatus : Format Int OrderStatus :=
  .enumeration [.awaitingPayment, .paid, .fulfillmentInProgress, .fulfilled, .canceled] OrderStatus.name

def order : Format Int Order :=
  .struct (((one "id".toList uuid).and ((one "project_id".toList uuid).and ((one "merchant_account_id".toList uuid).and
      ((one "lines".toList orderLine.list).and ((one "total".toList money).and ((one "status".toList orderStatus).and
        ((one "created_at_ms".toList .number).and (maybe "fulfilled_at_ms".toList .number)))))))).as
    (fun order => (order.id, order.projectId, order.merchantAccountId, order.lines, order.total, order.status,
      order.createdAtMs, order.fulfilledAtMs))
    fun (id, projectId, merchantAccountId, lines, total, status, createdAtMs, fulfilledAtMs) =>
      if h : orderTotal projectId lines = .ok total ∧ 0 < total.minor then
        some ⟨id, projectId, merchantAccountId, lines, total, status, createdAtMs, fulfilledAtMs, h.1, h.2⟩
      else none)

theorem keeps_billingIntervalUnit (unit : BillingIntervalUnit) : billingIntervalUnit.Keeps unit :=
  keeps_enumeration (by cases unit <;> decide) (by simp [BillingIntervalUnit.name])

theorem keeps_billingInterval (interval : BillingInterval) : billingInterval.Keeps interval := by
  refine Fields.Keeps.struct (.as (.and (keeps_billingIntervalUnit _).one (keeps_natural _).one) ?_) (by simp)
  exact dif_pos interval.valid

theorem keeps_entitlementValue (value : EntitlementValue) : entitlementValue.Keeps value := by
  cases value with
  | enabled value => exact keeps_tagged (by simp) rfl (by simp) (.form (keeps_bool value).one rfl rfl)
  | quantity value => exact keeps_tagged (by simp) rfl (by simp) (.form (keeps_natural value).one rfl rfl)
  | text value => exact keeps_tagged (by simp) rfl (by simp) (.form (keeps_string value).one rfl rfl)

theorem keeps_entitlements (table : Table EntitlementKey EntitlementValue) : entitlements.Keeps table :=
  keeps_table (fun entry _ => ⟨entry.1.value, rfl, dif_pos entry.1.valid⟩) fun entry _ => keeps_entitlementValue entry.2

theorem keeps_orderLine (line : OrderLineSnapshot) : orderLine.Keeps line := by
  refine Fields.Keeps.struct (.as (.and (keeps_uuid _).one (.and (keeps_uuid _).one (.and (keeps_uuid _).one
    (.and (keeps_string _).one (.and (keeps_money _).one (.and (keeps_natural _).one (keeps_money _).one)))))) ?_)
    (by simp)
  exact dif_pos line.priced

theorem keeps_orderStatus (status : OrderStatus) : orderStatus.Keeps status :=
  keeps_enumeration (by cases status <;> decide) (by simp [OrderStatus.name])

theorem keeps_time (atMs : Option Int) : (Format.number : Format Int Int).option.Keeps atMs :=
  .option (fun _ _ => keeps_number _) rfl

theorem keeps_order (value : Order) : order.Keeps value := by
  refine Fields.Keeps.struct (.as (.and (keeps_uuid _).one (.and (keeps_uuid _).one (.and (keeps_uuid _).one
    (.and (Format.Keeps.list fun line _ => keeps_orderLine line).one (.and (keeps_money _).one
      (.and (keeps_orderStatus _).one (.and (keeps_number _).one (keeps_time _).maybe))))))) ?_) (by simp)
  exact dif_pos ⟨value.summed, value.positive⟩

end Catalog

section Ledger

def byte : Format Int UInt8 := natural.as (·.toNat) fun n => if n < 256 then some (UInt8.ofNat n) else none

def eventKey : Format Int EventKey :=
  .struct (((one "source".toList .string).and (one "idempotency_key".toList .string)).as
    (fun key => (key.source, key.idempotencyKey)) fun (source, idempotencyKey) => some ⟨source, idempotencyKey⟩)

def acceptedEventRecord : Format Int AcceptedEventRecord :=
  .struct (((one "stream".toList .string).and ((one "sequence".toList natural).and
      (one "payload_sha256".toList byte.list))).as
    (fun record => (record.stream, record.sequence, record.payloadSha256))
    fun (stream, sequence, payloadSha256) => some ⟨stream, sequence, payloadSha256⟩)

def eventLedger : Format Int EventLedger :=
  .struct (((one "accepted".toList (.table integerText eventKey acceptedEventRecord)).and
      (one "stream_sequences".toList (.table integerText .string natural))).as
    (fun ledger => (ledger.accepted, ledger.streamSequences))
    fun (accepted, streamSequences) => some ⟨accepted, streamSequences⟩)

theorem keeps_eventLedger {ledger : EventLedger} (h : ledger.accepted = ∅) : eventLedger.Keeps ledger := by
  have haccepted : (Format.table integerText eventKey acceptedEventRecord).Keeps ledger.accepted :=
    h ▸ keeps_table_empty
  have hsequences : (Format.table integerText .string natural).Keeps ledger.streamSequences :=
    keeps_table (fun entry _ => ⟨entry.1, rfl, rfl⟩) fun entry _ => keeps_natural entry.2
  exact Fields.Keeps.struct (.as (.and haccepted.one hsequences.one) rfl) (by simp)

/-- The key of an event that was accepted is no key of an object. -/
theorem write_eventLedger {ledger : EventLedger} (h : ledger.accepted ≠ ∅) : eventLedger.write ledger = none := by
  obtain ⟨entry, hentry⟩ := List.exists_mem_of_ne_nil ledger.accepted.entries fun hnil => h (AList.ext hnil)
  have haccepted : (Format.table integerText eventKey acceptedEventRecord).write ledger.accepted = none :=
    write_table_eq_none hentry rfl
  exact Format.write_struct (Fields.write_and_left (Fields.write_one haccepted))

end Ledger

section Payments

def PaymentStatus.name : PaymentStatus → String
  | .pending => "pending"
  | .authorized => "authorized"
  | .captured => "captured"
  | .partiallyRefunded => "partially_refunded"
  | .refunded => "refunded"
  | .failed => "failed"
  | .canceled => "canceled"

def paymentStatus : Format Int PaymentStatus :=
  .enumeration [.pending, .authorized, .captured, .partiallyRefunded, .refunded, .failed, .canceled] PaymentStatus.name

def RefundStatus.name : RefundStatus → String
  | .requested => "requested"
  | .succeeded => "succeeded"
  | .failed => "failed"

def refundStatus : Format Int RefundStatus := .enumeration [.requested, .succeeded, .failed] RefundStatus.name

def refund : Format Int Refund :=
  .struct (((one "id".toList uuid).and ((one "amount".toList money).and ((one "status".toList refundStatus).and
      ((one "requested_at_ms".toList .number).and ((maybe "settled_at_ms".toList .number).and
        (maybe "provider_reference".toList .string)))))).as
    (fun refund => (refund.id, refund.amount, refund.status, refund.requestedAtMs, refund.settledAtMs,
      refund.providerReference))
    fun (id, amount, status, requestedAtMs, settledAtMs, providerReference) =>
      some ⟨id, amount, status, requestedAtMs, settledAtMs, providerReference⟩)

def paymentTarget : Format Int PaymentTarget :=
  .tagged "type".toList [
    .of "order".toList (one "id".toList uuid) (fun | .order id => some id | _ => none) .order,
    .of "subscription".toList (one "id".toList uuid) (fun | .subscription id => some id | _ => none) .subscription]

def payment : Format Int Payment :=
  .struct (((one "id".toList uuid).and ((one "project_id".toList uuid).and ((one "merchant_account_id".toList uuid).and
      ((one "target".toList paymentTarget).and ((one "requested_amount".toList money).and
        ((maybe "captured_amount".toList money).and ((one "status".toList paymentStatus).and
          ((maybe "provider_reference".toList .string).and ((one "refunds".toList refund.list).and
            ((one "events".toList eventLedger).and ((one "created_at_ms".toList .number).and
              (maybe "captured_at_ms".toList .number)))))))))))).as
    (fun payment => (payment.id, payment.projectId, payment.merchantAccountId, payment.target, payment.requestedAmount,
      payment.capturedAmount, payment.status, payment.providerReference, payment.refunds, payment.events,
      payment.createdAtMs, payment.capturedAtMs))
    fun (id, projectId, merchantAccountId, target, requestedAmount, capturedAmount, status, providerReference, refunds,
        events, createdAtMs, capturedAtMs) =>
      some ⟨id, projectId, merchantAccountId, target, requestedAmount, capturedAmount, status, providerReference,
        refunds, events, createdAtMs, capturedAtMs⟩)

theorem keeps_reference (reference : Option (List Char)) : (Format.string : Format Int _).option.Keeps reference :=
  .option (fun _ _ => keeps_string _) rfl

theorem keeps_refundStatus (status : RefundStatus) : refundStatus.Keeps status :=
  keeps_enumeration (by cases status <;> decide) (by simp [RefundStatus.name])

theorem keeps_paymentStatus (status : PaymentStatus) : paymentStatus.Keeps status :=
  keeps_enumeration (by cases status <;> decide) (by simp [PaymentStatus.name])

theorem keeps_refund (value : Refund) : refund.Keeps value :=
  Fields.Keeps.struct (.as (.and (keeps_uuid _).one (.and (keeps_money _).one (.and (keeps_refundStatus _).one
    (.and (keeps_number _).one (.and (keeps_time _).maybe (keeps_reference _).maybe))))) rfl) (by simp)

theorem keeps_paymentTarget (target : PaymentTarget) : paymentTarget.Keeps target := by
  cases target with
  | order id => exact keeps_tagged (by simp) rfl (by simp) (.form (keeps_uuid id).one rfl rfl)
  | subscription id => exact keeps_tagged (by simp) rfl (by simp) (.form (keeps_uuid id).one rfl rfl)

theorem keeps_payment {value : Payment} (h : value.events.accepted = ∅) : payment.Keeps value := by
  have hcaptured : money.option.Keeps value.capturedAmount := .option (fun _ _ => keeps_money _) rfl
  exact Fields.Keeps.struct (.as (.and (keeps_uuid _).one (.and (keeps_uuid _).one (.and (keeps_uuid _).one
    (.and (keeps_paymentTarget _).one (.and (keeps_money _).one (.and hcaptured.maybe
      (.and (keeps_paymentStatus _).one (.and (keeps_reference _).maybe
        (.and (Format.Keeps.list fun refund _ => keeps_refund refund).one (.and (keeps_eventLedger h).one
          (.and (keeps_number _).one (keeps_time _).maybe))))))))))) rfl) (by simp)

open Fields in
theorem write_payment {value : Payment} (h : value.events.accepted ≠ ∅) : payment.write value = .none := by
  have hledger := write_eventLedger h
  exact Format.write_struct (write_and_right (write_and_right (write_and_right (write_and_right (write_and_right
    (write_and_right (write_and_right (write_and_right (write_and_right (write_and_left (write_one hledger)))))))))))

end Payments

section Subscriptions

def membershipSubject : Format Int MembershipSubject :=
  .tagged "type".toList [
    .of "individual".toList (one "id".toList uuid) (fun | .individual id => some id | _ => none) .individual,
    .of "team".toList (one "id".toList uuid) (fun | .team id => some id | _ => none) .team,
    .of "organization".toList (one "id".toList uuid) (fun | .organization id => some id | _ => none) .organization]

def terms : Format Int SubscriptionTermsSnapshot :=
  .struct (((one "price_id".toList uuid).and ((one "product_id".toList uuid).and ((one "unit_amount".toList money).and
      ((one "quantity".toList natural).and ((one "interval".toList billingInterval).and
        (one "entitlements".toList entitlements)))))).as
    (fun terms => (terms.priceId, terms.productId, terms.unitAmount, terms.quantity, terms.interval,
      terms.entitlements))
    fun (priceId, productId, unitAmount, quantity, interval, entitlements) =>
      some ⟨priceId, productId, unitAmount, quantity, interval, entitlements⟩)

def SubscriptionStatus.name : SubscriptionStatus → String
  | .incomplete => "incomplete"
  | .trialing => "trialing"
  | .active => "active"
  | .pastDue => "past_due"
  | .paused => "paused"
  | .canceled => "canceled"
  | .expired => "expired"

def subscriptionStatus : Format Int SubscriptionStatus :=
  .enumeration [.incomplete, .trialing, .active, .pastDue, .paused, .canceled, .expired] SubscriptionStatus.name

def billingPeriod : Format Int BillingPeriod :=
  .struct (((one "start_ms".toList .number).and (one "end_ms".toList .number)).as
    (fun period => (period.startMs, period.endMs))
    fun (startMs, endMs) => if h : startMs < endMs then some ⟨startMs, endMs, h⟩ else none)

def subscription : Format Int Subscription :=
  .struct (((one "id".toList uuid).and ((one "project_id".toList uuid).and ((one "merchant_account_id".toList uuid).and
      ((one "subject".toList membershipSubject).and ((one "terms".toList terms).and
        ((one "status".toList subscriptionStatus).and ((maybe "current_period".toList billingPeriod).and
          ((one "events".toList eventLedger).and ((one "created_at_ms".toList .number).and
            (maybe "ended_at_ms".toList .number)))))))))).as
    (fun subscription => (subscription.id, subscription.projectId, subscription.merchantAccountId, subscription.subject,
      subscription.terms, subscription.status, subscription.currentPeriod, subscription.events,
      subscription.createdAtMs, subscription.endedAtMs))
    fun (id, projectId, merchantAccountId, subject, terms, status, currentPeriod, events, createdAtMs, endedAtMs) =>
      some ⟨id, projectId, merchantAccountId, subject, terms, status, currentPeriod, events, createdAtMs, endedAtMs⟩)

theorem keeps_membershipSubject (subject : MembershipSubject) : membershipSubject.Keeps subject := by
  cases subject with
  | individual id => exact keeps_tagged (by simp) rfl (by simp) (.form (keeps_uuid id).one rfl rfl)
  | team id => exact keeps_tagged (by simp) rfl (by simp) (.form (keeps_uuid id).one rfl rfl)
  | organization id => exact keeps_tagged (by simp) rfl (by simp) (.form (keeps_uuid id).one rfl rfl)

theorem keeps_terms (value : SubscriptionTermsSnapshot) : terms.Keeps value :=
  Fields.Keeps.struct (.as (.and (keeps_uuid _).one (.and (keeps_uuid _).one (.and (keeps_money _).one
    (.and (keeps_natural _).one (.and (keeps_billingInterval _).one (keeps_entitlements _).one))))) rfl)
    (by simp)

theorem keeps_subscriptionStatus (status : SubscriptionStatus) : subscriptionStatus.Keeps status :=
  keeps_enumeration (by cases status <;> decide) (by simp [SubscriptionStatus.name])

theorem keeps_billingPeriod (period : BillingPeriod) : billingPeriod.Keeps period := by
  refine Fields.Keeps.struct (.as (.and (keeps_number _).one (keeps_number _).one) ?_) (by simp)
  exact dif_pos period.valid

theorem keeps_subscription {value : Subscription} (h : value.events.accepted = ∅) : subscription.Keeps value := by
  have hperiod : billingPeriod.option.Keeps value.currentPeriod := .option (fun _ _ => keeps_billingPeriod _) rfl
  exact Fields.Keeps.struct (.as (.and (keeps_uuid _).one (.and (keeps_uuid _).one (.and (keeps_uuid _).one
    (.and (keeps_membershipSubject _).one (.and (keeps_terms _).one (.and (keeps_subscriptionStatus _).one
      (.and hperiod.maybe (.and (keeps_eventLedger h).one (.and (keeps_number _).one (keeps_time _).maybe)))))))))
    rfl) (by simp)

open Fields in
theorem write_subscription {value : Subscription} (h : value.events.accepted ≠ ∅) :
    subscription.write value = .none := by
  have hledger := write_eventLedger h
  exact Format.write_struct (write_and_right (write_and_right (write_and_right (write_and_right (write_and_right
    (write_and_right (write_and_right (write_and_left (write_one hledger)))))))))

end Subscriptions

section Checkouts

def checkoutKind : Format Int CheckoutKind :=
  .tagged "type".toList [
    .of "one_time".toList ((one "order_id".toList uuid).and (one "amount".toList money))
      (fun | .oneTime orderId amount => some (orderId, amount) | _ => none)
      fun (orderId, amount) => .oneTime orderId amount,
    .of "recurring".toList
      ((one "subscription_id".toList uuid).and ((one "terms".toList terms).and
        (one "subject".toList membershipSubject)))
      (fun | .recurring subscriptionId terms subject => some (subscriptionId, terms, subject) | _ => none)
      fun (subscriptionId, terms, subject) => .recurring subscriptionId terms subject]

def checkoutOutcome : Format Int CheckoutOutcome :=
  .tagged "type".toList [
    .of "payment".toList (one "payment_id".toList uuid) (fun | .payment id => some id | _ => none) .payment,
    .of "subscription".toList (one "subscription_id".toList uuid) (fun | .subscription id => some id | _ => none)
      .subscription]

def checkoutStatus : Format Int CheckoutStatus :=
  .tagged "status".toList [
    .of "created".toList .nothing (fun | .created => some () | _ => none) fun _ => .created,
    .of "completed".toList (one "outcome".toList checkoutOutcome) (fun | .completed outcome => some outcome | _ => none)
      .completed,
    .of "expired".toList .nothing (fun | .expired => some () | _ => none) fun _ => .expired,
    .of "canceled".toList .nothing (fun | .canceled => some () | _ => none) fun _ => .canceled]

def checkoutIntent : Format Int CheckoutIntent :=
  .struct (((one "id".toList uuid).and ((one "project_id".toList uuid).and ((one "merchant_account_id".toList uuid).and
      ((one "kind".toList checkoutKind).and ((one "status".toList checkoutStatus).and
        ((one "created_at_ms".toList .number).and (one "expires_at_ms".toList .number))))))).as
    (fun intent => (intent.id, intent.projectId, intent.merchantAccountId, intent.kind, intent.status,
      intent.createdAtMs, intent.expiresAtMs))
    fun (id, projectId, merchantAccountId, kind, status, createdAtMs, expiresAtMs) =>
      some ⟨id, projectId, merchantAccountId, kind, status, createdAtMs, expiresAtMs⟩)

theorem keeps_checkoutKind (kind : CheckoutKind) : checkoutKind.Keeps kind := by
  cases kind with
  | oneTime orderId amount =>
    exact keeps_tagged (by simp) rfl (by simp)
      (.form (.and (keeps_uuid orderId).one (keeps_money amount).one) rfl rfl)
  | recurring subscriptionId value subject =>
    exact keeps_tagged (by simp) rfl (by simp) (.form (.and (keeps_uuid subscriptionId).one
      (.and (keeps_terms value).one (keeps_membershipSubject subject).one)) rfl rfl)

theorem keeps_checkoutOutcome (outcome : CheckoutOutcome) : checkoutOutcome.Keeps outcome := by
  cases outcome with
  | payment id => exact keeps_tagged (by simp) rfl (by simp) (.form (keeps_uuid id).one rfl rfl)
  | subscription id => exact keeps_tagged (by simp) rfl (by simp) (.form (keeps_uuid id).one rfl rfl)

theorem keeps_checkoutStatus (status : CheckoutStatus) : checkoutStatus.Keeps status := by
  cases status with
  | created => exact keeps_tagged (by simp) rfl (by simp) (.form keeps_nothing rfl rfl)
  | completed outcome =>
    exact keeps_tagged (by simp) rfl (by simp) (.form (keeps_checkoutOutcome outcome).one rfl rfl)
  | expired => exact keeps_tagged (by simp) rfl (by simp) (.form keeps_nothing rfl rfl)
  | canceled => exact keeps_tagged (by simp) rfl (by simp) (.form keeps_nothing rfl rfl)

theorem keeps_checkoutIntent (intent : CheckoutIntent) : checkoutIntent.Keeps intent :=
  Fields.Keeps.struct (.as (.and (keeps_uuid _).one (.and (keeps_uuid _).one (.and (keeps_uuid _).one
    (.and (keeps_checkoutKind _).one (.and (keeps_checkoutStatus _).one (.and (keeps_number _).one
      (keeps_number _).one)))))) rfl) (by simp)

end Checkouts

theorem keeps_payment_iff (value : Payment) : payment.Keeps value ↔ value.events.accepted = ∅ := by
  constructor
  · intro hkeeps
    by_contra haccepted
    exact hkeeps.ne_none (write_payment haccepted)
  · exact keeps_payment

theorem keeps_subscription_iff (value : Subscription) : subscription.Keeps value ↔ value.events.accepted = ∅ := by
  constructor
  · intro hkeeps
    by_contra haccepted
    exact hkeeps.ne_none (write_subscription haccepted)
  · exact keeps_subscription

end Formats

section Runs
variable {α ι ο : Type} {consumer : Intake.Consumer α ι ο EventKey (List Char) (List UInt8)}
  {event : ι → Option EventEnvelope} {ledger : α → EventLedger} {sound : α → Prop}

theorem EventLedger.Tells.accepted_eq_empty_iff {ledger : EventLedger} {events : List EventEnvelope}
    (h : ledger.Tells events) : ledger.accepted = ∅ ↔ events = [] := by
  constructor
  · intro hempty
    cases events with
    | nil => rfl
    | cons event _ =>
      have hknown := h.accepted event (by simp)
      rw [hempty, AList.lookup_empty] at hknown
      cases hknown
  · rintro rfl
    by_contra hne
    obtain ⟨entry, hentry⟩ := List.exists_mem_of_ne_nil ledger.accepted.entries fun hnil => hne (AList.ext hnil)
    obtain ⟨_, hfalse, -⟩ := h.known entry.1 (AList.lookup_isSome.mpr (List.mem_map_of_mem hentry))
    cases hfalse

/-- An aggregate has accepted no event as long as no delivery took effect. -/
theorem KeepsLedger.accepted_eq_empty_iff (h : KeepsLedger consumer event ledger sound) {a : α} (ha : sound a)
    (hempty : ledger a = {}) (is : List ι) :
    (ledger (consumer.run a is).1).accepted = ∅ ↔ consumer.taken a is = [] := by
  have hstart : (ledger a).Tells [] := hempty ▸ EventLedger.tells_empty
  obtain ⟨-, hevents, htells⟩ := h.lawful.run ⟨ha, fun _ hfalse => (List.not_mem_nil hfalse).elim, hstart⟩ is
  rw [htells.accepted_eq_empty_iff, List.filterMap_eq_nil_iff]
  constructor
  · intro hnone
    refine List.eq_nil_iff_forall_not_mem.mpr fun i hi => ?_
    have hsome := hevents i hi
    rw [hnone i hi] at hsome
    cases hsome
  · intro htaken
    simp [htaken]

end Runs

/-- A payment and a subscription survive being stored exactly as long as they have accepted no event, and so after every
run in which no delivery took effect; orders and checkouts always do. -/
theorem aggregates_persist_iff (calls : List PaymentCall) (deliveries : List SubscriptionDelivery) :
    (∀ payment, Formats.payment.Keeps payment ↔ payment.events.accepted = ∅) ∧
      (∀ subscription, Formats.subscription.Keeps subscription ↔ subscription.events.accepted = ∅) ∧
      (∀ payment : Payment, payment.Created →
        (Formats.payment.Keeps (paymentConsumer.run payment calls).1 ↔ paymentConsumer.taken payment calls = [])) ∧
      (∀ id merchant price subject quantity createdAtMs subscription,
        Subscription.new id merchant price subject quantity createdAtMs = .ok subscription →
        (Formats.subscription.Keeps (subscriptionConsumer.run subscription deliveries).1 ↔
          subscriptionConsumer.taken subscription deliveries = [])) ∧
      (∀ order, Formats.order.Keeps order) ∧ ∀ intent, Formats.checkoutIntent.Keeps intent := by
  refine ⟨Formats.keeps_payment_iff, Formats.keeps_subscription_iff, ?_, ?_, Formats.keeps_order,
    Formats.keeps_checkoutIntent⟩
  · intro payment hcreated
    rw [Formats.keeps_payment_iff]
    exact paymentConsumer_keepsLedger.accepted_eq_empty_iff hcreated.sound hcreated.fresh.2.2.2 calls
  · intro id merchant price subject quantity createdAtMs subscription hnew
    rw [Formats.keeps_subscription_iff]
    exact subscriptionConsumer_keepsLedger.accepted_eq_empty_iff trivial (Subscription.new_ok hnew) deliveries

theorem sample_persists_until_captured :
    Formats.payment.Keeps (paymentConsumer.run (samplePayment 7 ⟨usd, 100, by decide⟩) [.markAuthorized]).1 :=
  ((aggregates_persist_iff [.markAuthorized] []).2.2.1 _ samplePayment_created).mpr rfl

/-- The capture of a payment is an event, after which the payment cannot be written. -/
theorem captured_payment_not_written :
    ∃ payment : Payment, payment.Created ∧
      ∃ call, Formats.payment.write (paymentConsumer.run payment [call]).1 = none := by
  refine ⟨samplePayment 7 ⟨usd, 100, by decide⟩, samplePayment_created,
    .recordCapture captureEvent ⟨usd, 100, by decide⟩ captureReference 1, ?_⟩
  refine Formats.write_payment fun hempty => ?_
  have hkeys := congrArg AList.keys hempty
  exact absurd hkeys (by decide +kernel)

end Ffdb.Commerce
