import Ffdb.Lib.Fallible
import Ffdb.Sync.Types

/-! Platform billing at the provider: what a verified event says of an organization's account. -/
namespace Ffdb.Billing
open Fallible
open Sync (Value JsonMap)

abbrev OrganizationId := BitVec 128

inductive PlatformBillingTier where
  | free
  | payAsYouGo
  | pro
  deriving DecidableEq

inductive PlatformBillingUnit where
  | organization
  | seat
  deriving DecidableEq

inductive ProviderSubscriptionStatus where
  | checkoutPending
  | trialing
  | active
  | pastDue
  | unpaid
  | canceled
  | paused
  | incomplete
  deriving DecidableEq

inductive ProviderInvoiceStatus where
  | draft
  | opened
  | paid
  | uncollectible
  | void
  | paymentFailed
  deriving DecidableEq

inductive BillingError where
  | invalidConfiguration
  | invalidRequest
  | invalidWebhookSignature
  | invalidWebhookPayload
  | providerUnavailable
  | providerRejected
  deriving DecidableEq

structure PlatformBillingUpdate where
  organizationId : OrganizationId
  customerId : String
  subscriptionId : Option String
  tier : PlatformBillingTier
  status : ProviderSubscriptionStatus
  quantity : Nat
  currentPeriodStartMs : Option Int
  currentPeriodEndMs : Option Int
  cancelAtPeriodEnd : Bool
  deriving DecidableEq

structure PlatformInvoiceUpdate where
  organizationId : OrganizationId
  invoiceId : String
  customerId : String
  subscriptionId : Option String
  status : ProviderInvoiceStatus
  currency : String
  amountDueMinor : Nat
  amountPaidMinor : Nat
  periodStartMs : Option Int
  periodEndMs : Option Int
  hostedInvoiceUrl : Option String
  invoicePdfUrl : Option String
  deriving DecidableEq

structure VerifiedBillingEvent where
  providerEventId : String
  eventType : String
  livemode : Bool
  createdAtMs : Int
  platformUpdate : Option PlatformBillingUpdate
  invoiceUpdate : Option PlatformInvoiceUpdate
  deriving DecidableEq

structure StripeUsageMeterConfig where
  paygPriceId : String
  proPriceId : String

structure StripeBillingConfig where
  secretKey : String
  connectedAccount : Option String
  proBasePriceId : String
  usageMeters : List StripeUsageMeterConfig

structure StripeEvent where
  id : String
  eventType : String
  created : Int
  livemode : Bool
  account : Option String
  object : Value

structure Url where
  text : String
  scheme : String
  username : String
  password : Option String
  host : Option String

structure Readers where
  uuid : String → Option OrganizationId
  url : String → Option Url

section Fields

def Value.get (key : String) : Value → Option Value
  | .object fields => fields.lookup key
  | _ => none

def Value.asObject : Value → Option JsonMap
  | .object fields => some fields
  | _ => none

def Value.asArray : Value → Option (List Value)
  | .array items => some items
  | _ => none

def Value.asBool : Value → Option Bool
  | .bool value => some value
  | _ => none

def Value.asI64 : Value → Option Int
  | .number (.posInt value) => if value < 2^63 then some value else none
  | .number (.negInt value) => some value
  | _ => none

def Value.asU64 : Value → Option Nat
  | .number (.posInt value) => some value
  | _ => none

def Value.pointer (keys : List String) (value : Value) : Option Value :=
  keys.foldlM (fun value key => Value.get key value) value

def isI64 (n : Int) : Bool := -2^63 ≤ n && n < 2^63

def validProviderId (value lead : String) : Bool :=
  lead.toList.isPrefixOf value.toList && (lead.utf8ByteSize + 4 ≤ value.utf8ByteSize && value.utf8ByteSize ≤ 255) &&
    value.toList.all fun c => c.isAlphanum || c = '_'

def providerReference (value : Option Value) (lead : String) : Except BillingError String := do
  let value ← orError value .invalidWebhookPayload
  let identifier ← orError (value.asStr <|> (Value.get "id" value).bind Value.asStr) .invalidWebhookPayload
  require (validProviderId identifier lead) .invalidWebhookPayload
  pure identifier

def providerReferenceOptional (value : Option Value) (lead : String) : Except BillingError (Option String) :=
  match value with
  | none | some .null => pure none
  | some value => do
    let identifier ← providerReference (some value) lead
    pure (some identifier)

def platformMetadata (object : Value) : Option JsonMap := do
  let metadata ← (Value.get "metadata" object).bind Value.asObject
  if (metadata.lookup "ffdb_scope").bind Value.asStr = some "platform" then some metadata else none

def organizationFromMetadata (readers : Readers) (metadata : JsonMap) : Except BillingError OrganizationId :=
  orError (((metadata.lookup "ffdb_organization_id").bind Value.asStr).bind readers.uuid) .invalidWebhookPayload

def tierFromMetadata (metadata : JsonMap) : Except BillingError PlatformBillingTier :=
  match (metadata.lookup "ffdb_tier").bind Value.asStr with
  | some "pay_as_you_go" => pure .payAsYouGo
  | some "pro" => pure .pro
  | some "free" => pure .free
  | _ => .error .invalidWebhookPayload

def providerStatus (value : String) : Except BillingError ProviderSubscriptionStatus :=
  match value with
  | "trialing" => pure .trialing
  | "active" => pure .active
  | "past_due" => pure .pastDue
  | "unpaid" => pure .unpaid
  | "canceled" | "incomplete_expired" => pure .canceled
  | "paused" => pure .paused
  | "incomplete" => pure .incomplete
  | _ => .error .invalidWebhookPayload

def checkedMilliseconds (seconds : Option Int) : Except BillingError (Option Int) :=
  match seconds with
  | none => pure none
  | some value => do
    require (isI64 (value*1000)) .invalidWebhookPayload
    pure (some (value*1000))

def nonNegativeAmount (object : Value) (key : String) : Except BillingError Nat := do
  let value ← orError ((Value.get key object).bind Value.asI64) .invalidWebhookPayload
  require (0 ≤ value) .invalidWebhookPayload
  pure value.toNat

def verifiedStripeUrl (readers : Readers) (object : Value) (key : String) : Except BillingError (Option String) :=
  match Value.get key object with
  | none | some .null => pure none
  | some value => do
    let raw ← orError value.asStr .invalidWebhookPayload
    let url ← orError (readers.url raw) .invalidWebhookPayload
    let host ← orError url.host .invalidWebhookPayload
    require (url.scheme = "https" && url.username = "" && url.password.isNone &&
      (host = "stripe.com" || ".stripe.com".toList.isSuffixOf host.toList)) .invalidWebhookPayload
    pure (some url.text)

end Fields

section Updates
variable (readers : Readers) (config : StripeBillingConfig)

def checkoutUpdate (object : Value) : Except BillingError (Option PlatformBillingUpdate) :=
  match platformMetadata object with
  | none => pure none
  | some metadata => do
    let organizationId ← organizationFromMetadata readers metadata
    let tier ← tierFromMetadata metadata
    require (tier ≠ .free) .invalidWebhookPayload
    let customerId ← providerReference (Value.get "customer" object) "cus_"
    let subscriptionId ← providerReferenceOptional (Value.get "subscription" object) "sub_"
    pure (some
      { organizationId, customerId, subscriptionId, tier
        status := .checkoutPending
        quantity := 1
        currentPeriodStartMs := none
        currentPeriodEndMs := none
        cancelAtPeriodEnd := false })

def expectedPrices (tier : PlatformBillingTier) : List String :=
  (config.usageMeters.map fun meter =>
    match tier with
    | .payAsYouGo => meter.paygPriceId
    | .pro => meter.proPriceId
    | .free => "") ++ if tier = .pro then [config.proBasePriceId] else []

structure ItemTotals where
  prices : List String := []
  baseQuantity : Nat := 1
  periodStartSeconds : Option Int := none
  periodEndSeconds : Option Int := none

def itemQuantity (totals : ItemTotals) (priceId : String) (fields : JsonMap) : Except BillingError Nat :=
  if priceId = config.proBasePriceId then
    orError (((fields.lookup "quantity").bind Value.asU64).filter fun quantity => 1 ≤ quantity && quantity ≤ 100000)
      .invalidWebhookPayload
  else pure totals.baseQuantity

def addItem (totals : ItemTotals) (item : Value) : Except BillingError ItemTotals := do
  let fields ← orError (Value.asObject item) .invalidWebhookPayload
  let priceId ← orError ((fields.lookup "price").bind fun price => (providerReference (some price) "price_").toOption)
    .invalidWebhookPayload
  require (!totals.prices.contains priceId) .invalidWebhookPayload
  let baseQuantity ← itemQuantity config totals priceId fields
  pure
    { prices := totals.prices ++ [priceId]
      baseQuantity
      periodStartSeconds := match (fields.lookup "current_period_start").bind Value.asI64 with
        | some value => some ((totals.periodStartSeconds.map (min · value)).getD value)
        | none => totals.periodStartSeconds
      periodEndSeconds := match (fields.lookup "current_period_end").bind Value.asI64 with
        | some value => some ((totals.periodEndSeconds.map (max · value)).getD value)
        | none => totals.periodEndSeconds }

def subscriptionStatus (object : Value) (eventType : String) : Except BillingError ProviderSubscriptionStatus :=
  if eventType = "customer.subscription.deleted" then pure .canceled
  else do
    let status ← orError ((Value.get "status" object).bind Value.asStr) .invalidWebhookPayload
    providerStatus status

def subscriptionUpdate (object : Value) (eventType : String) : Except BillingError (Option PlatformBillingUpdate) :=
  match platformMetadata object with
  | none => pure none
  | some metadata => do
    let organizationId ← organizationFromMetadata readers metadata
    let customerId ← providerReference (Value.get "customer" object) "cus_"
    let subscriptionId ← providerReference (Value.get "id" object) "sub_"
    let tier ← tierFromMetadata metadata
    require (tier ≠ .free) .invalidWebhookPayload
    let items ← orError ((Value.pointer ["items", "data"] object).bind Value.asArray) .invalidWebhookPayload
    require (!items.isEmpty) .invalidWebhookPayload
    let totals ← items.foldlM (addItem config) {}
    require (totals.prices.all (expectedPrices config tier).contains &&
      (expectedPrices config tier).all totals.prices.contains) .invalidWebhookPayload
    let status ← subscriptionStatus object eventType
    let currentPeriodStartMs ← checkedMilliseconds totals.periodStartSeconds
    let currentPeriodEndMs ← checkedMilliseconds totals.periodEndSeconds
    pure (some
      { organizationId, customerId, tier, status, currentPeriodStartMs, currentPeriodEndMs
        subscriptionId := some subscriptionId
        quantity := if tier = .pro then totals.baseQuantity else 1
        cancelAtPeriodEnd := ((Value.get "cancel_at_period_end" object).bind Value.asBool).getD false })

def invoiceMetadata (object : Value) : Option JsonMap :=
  (Value.pointer ["parent", "subscription_details", "metadata"] object <|>
    Value.pointer ["subscription_details", "metadata"] object <|> Value.get "metadata" object).bind Value.asObject

def invoiceStatus (object : Value) (eventType : String) : Except BillingError ProviderInvoiceStatus :=
  if eventType = "invoice.payment_failed" then pure .paymentFailed
  else
    match (Value.get "status" object).bind Value.asStr with
    | some "draft" => pure .draft
    | some "open" => pure .opened
    | some "paid" => pure .paid
    | some "uncollectible" => pure .uncollectible
    | some "void" => pure .void
    | _ => .error .invalidWebhookPayload

def invoiceUpdate (object : Value) (eventType : String) : Except BillingError (Option PlatformInvoiceUpdate) :=
  match invoiceMetadata object with
  | none => pure none
  | some metadata =>
    if (metadata.lookup "ffdb_scope").bind Value.asStr ≠ some "platform" then pure none
    else do
      let organizationId ← organizationFromMetadata readers metadata
      let invoiceId ← providerReference (Value.get "id" object) "in_"
      let customerId ← providerReference (Value.get "customer" object) "cus_"
      let subscriptionId ← providerReferenceOptional
        (Value.pointer ["parent", "subscription_details", "subscription"] object <|> Value.get "subscription" object) "sub_"
      let status ← invoiceStatus object eventType
      let currency ← orError (((Value.get "currency" object).bind Value.asStr).filter fun value =>
        value.utf8ByteSize = 3 && value.toList.all fun c => 'a' ≤ c && c ≤ 'z') .invalidWebhookPayload
      let amountDueMinor ← nonNegativeAmount object "amount_due"
      let amountPaidMinor ← nonNegativeAmount object "amount_paid"
      let periodStartMs ← checkedMilliseconds ((Value.get "period_start" object).bind Value.asI64)
      let periodEndMs ← checkedMilliseconds ((Value.get "period_end" object).bind Value.asI64)
      let hostedInvoiceUrl ← verifiedStripeUrl readers object "hosted_invoice_url"
      let invoicePdfUrl ← verifiedStripeUrl readers object "invoice_pdf"
      pure (some
        { organizationId, invoiceId, customerId, subscriptionId, status, currency, amountDueMinor, amountPaidMinor,
          periodStartMs, periodEndMs, hostedInvoiceUrl, invoicePdfUrl })

def subscriptionEvents : List String :=
  ["customer.subscription.created", "customer.subscription.updated", "customer.subscription.deleted",
    "customer.subscription.paused", "customer.subscription.resumed"]

def invoiceEvents : List String :=
  ["invoice.created", "invoice.finalized", "invoice.paid", "invoice.payment_failed", "invoice.voided",
    "invoice.marked_uncollectible"]

def platformUpdateOf (event : StripeEvent) : Except BillingError (Option PlatformBillingUpdate) :=
  if event.eventType = "checkout.session.completed" then checkoutUpdate readers event.object
  else if subscriptionEvents.contains event.eventType then subscriptionUpdate readers config event.object event.eventType
  else pure none

def invoiceUpdateOf (event : StripeEvent) : Except BillingError (Option PlatformInvoiceUpdate) :=
  if invoiceEvents.contains event.eventType then invoiceUpdate readers event.object event.eventType else pure none

def parseEvent (event : StripeEvent) : Except BillingError VerifiedBillingEvent := do
  require (validProviderId event.id "evt_" && event.eventType.utf8ByteSize ≤ 128) .invalidWebhookPayload
  require (event.account = config.connectedAccount) .invalidWebhookPayload
  require (event.livemode = "sk_live_".toList.isPrefixOf config.secretKey.toList) .invalidWebhookPayload
  require (isI64 (event.created*1000)) .invalidWebhookPayload
  let platformUpdate ← platformUpdateOf readers config event
  let invoiceUpdate ← invoiceUpdateOf readers event
  pure
    { providerEventId := event.id
      eventType := event.eventType
      livemode := event.livemode
      createdAtMs := event.created*1000
      platformUpdate
      invoiceUpdate }

end Updates

section Shapes

/-- What a completed checkout says: nothing but that a subscription is to come. -/
structure PlatformBillingUpdate.IsCheckout (update : PlatformBillingUpdate) : Prop where
  tier : update.tier ≠ .free
  status : update.status = .checkoutPending
  quantity : update.quantity = 1
  period : update.currentPeriodStartMs = none ∧ update.currentPeriodEndMs = none

structure PlatformBillingUpdate.IsSubscription (update : PlatformBillingUpdate) : Prop where
  tier : update.tier ≠ .free
  status : update.status ≠ .checkoutPending
  quantity : 1 ≤ update.quantity ∧ update.quantity ≤ 100000
  identified : update.subscriptionId.isSome = true

variable {readers : Readers} {config : StripeBillingConfig} {object : Value} {eventType : String}
  {update : PlatformBillingUpdate}

theorem isCheckout_of_parsed (h : checkoutUpdate readers object = .ok (some update)) : update.IsCheckout := by
  unfold checkoutUpdate at h
  cases hmetadata : platformMetadata object with
  | none =>
    rw [hmetadata] at h
    cases h
  | some metadata =>
    rw [hmetadata] at h
    simp only [bind_ok_iff, require_ok_iff, decide_eq_true_eq, pure_ok_iff, Option.some.injEq] at h
    obtain ⟨_, -, tier, -, _, htier, _, -, _, -, rfl⟩ := h
    exact ⟨htier, rfl, rfl, rfl, rfl⟩

theorem providerStatus_ne {value : String} {status : ProviderSubscriptionStatus} (h : providerStatus value = .ok status) :
    status ≠ .checkoutPending := by
  unfold providerStatus at h
  split at h <;> cases h <;> decide

theorem subscriptionStatus_ne {status : ProviderSubscriptionStatus}
    (h : subscriptionStatus object eventType = .ok status) : status ≠ .checkoutPending := by
  unfold subscriptionStatus at h
  split at h
  · cases h
    decide
  · simp only [bind_ok_iff] at h
    obtain ⟨_, -, hstatus⟩ := h
    exact providerStatus_ne hstatus

theorem addItem_quantity {totals totals' : ItemTotals} {item : Value}
    (hquantity : 1 ≤ totals.baseQuantity ∧ totals.baseQuantity ≤ 100000) (h : addItem config totals item = .ok totals') :
    1 ≤ totals'.baseQuantity ∧ totals'.baseQuantity ≤ 100000 := by
  simp only [addItem, bind_ok_iff, pure_ok_iff] at h
  obtain ⟨fields, -, priceId, -, _, -, quantity, hbase, rfl⟩ := h
  unfold itemQuantity at hbase
  split at hbase
  · simp only [orError_ok_iff, Option.filter_eq_some_iff, Bool.and_eq_true, decide_eq_true_eq] at hbase
    exact hbase.2
  · obtain rfl := (pure_ok_iff _ _).mp hbase
    exact hquantity

theorem isSubscription_of_parsed (h : subscriptionUpdate readers config object eventType = .ok (some update)) :
    update.IsSubscription := by
  unfold subscriptionUpdate at h
  cases hmetadata : platformMetadata object with
  | none =>
    rw [hmetadata] at h
    cases h
  | some metadata =>
    rw [hmetadata] at h
    simp only [bind_ok_iff, require_ok_iff, decide_eq_true_eq, pure_ok_iff, Option.some.injEq] at h
    obtain ⟨_, -, _, -, subscriptionId, -, tier, -, _, htier, items, -, _, -, totals, htotals, _, -, status, hstatus, _, -, _,
      -, rfl⟩ := h
    have hquantity : 1 ≤ totals.baseQuantity ∧ totals.baseQuantity ≤ 100000 := by
      refine foldlM_keeps (P := fun totals : ItemTotals => 1 ≤ totals.baseQuantity ∧ totals.baseQuantity ≤ 100000) ?_
        htotals (by decide)
      intro totals item totals' _ hbefore hitem
      exact addItem_quantity hbefore hitem
    refine ⟨htier, subscriptionStatus_ne hstatus, ?_, rfl⟩
    dsimp only
    split
    · exact hquantity
    · decide

/-- What a verified event says of an account it says as a checkout or as a subscription. -/
theorem update_of_parsed {sent : StripeEvent} {event : VerifiedBillingEvent} (h : parseEvent readers config sent = .ok event)
    (hupdate : event.platformUpdate = some update) :
    (update.IsCheckout ∨ update.IsSubscription) ∧ event.invoiceUpdate = none := by
  simp only [parseEvent, bind_ok_iff, pure_ok_iff] at h
  obtain ⟨_, -, _, -, _, -, _, -, platform, hplatform, invoice, hinvoice, rfl⟩ := h
  obtain rfl : platform = some update := hupdate
  unfold platformUpdateOf at hplatform
  unfold invoiceUpdateOf at hinvoice
  by_cases hcheckout : sent.eventType = "checkout.session.completed"
  · rw [if_pos hcheckout] at hplatform
    have hnot : invoiceEvents.contains sent.eventType = false := by
      rw [hcheckout]
      decide
    rw [hnot] at hinvoice
    exact ⟨.inl (isCheckout_of_parsed hplatform), (Except.ok.inj hinvoice).symm⟩
  · rw [if_neg hcheckout] at hplatform
    by_cases hsubscription : subscriptionEvents.contains sent.eventType = true
    · rw [if_pos hsubscription] at hplatform
      have hnot : invoiceEvents.contains sent.eventType = false := by
        rw [List.contains_iff_mem] at hsubscription
        revert hsubscription
        generalize sent.eventType = eventType
        revert eventType
        decide
      rw [hnot] at hinvoice
      exact ⟨.inr (isSubscription_of_parsed hplatform), (Except.ok.inj hinvoice).symm⟩
    · rw [if_neg hsubscription] at hplatform
      cases hplatform

end Shapes

end Ffdb.Billing
