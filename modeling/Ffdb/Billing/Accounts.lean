import Ffdb.Billing.Stripe
import Ffdb.Lib.Keyed

/-! The billing accounts of organizations, and how a verified event is recorded and applied to one. Times are
milliseconds. -/
namespace Ffdb.Billing
open Fallible

variable {δ : Type} [DecidableEq δ]

structure Collation where
  le : String → String → Bool
  total : ∀ a b, le a b = true ∨ le b a = true
  trans : ∀ a b c, le a b = true → le b c = true → le a c = true
  antisymm : ∀ a b, le a b = true → le b a = true → a = b

def byteCollation : Collation where
  le a b := decide (a ≤ b)
  total a b := by simpa using le_total a b
  trans a b c := by simpa using le_trans
  antisymm a b := by simpa using le_antisymm

inductive ServiceError where
  | invalidRequest
  | invalidSignature
  | invalidEvent
  | forbidden
  | customerMissing
  | replayConflict
  | providerUnavailable
  | unavailable
  | provider (error : BillingError)
  deriving DecidableEq

inductive WebhookOutcome where
  | processed
  | duplicate
  deriving DecidableEq

structure WebhookRow (δ : Type) where
  eventType : String
  livemode : Bool
  payloadSha256 : δ
  organizationId : Option OrganizationId
  providerCreatedAtMs : Int

structure BillingAccount where
  customerId : String
  subscriptionId : Option String
  tier : PlatformBillingTier
  status : ProviderSubscriptionStatus
  billingUnit : PlatformBillingUnit
  seatQuantity : Nat
  currentPeriodStartMs : Option Int
  currentPeriodEndMs : Option Int
  cancelAtPeriodEnd : Bool
  lastEventMs : Int
  lastEventId : String
  deriving DecidableEq

structure InvoiceRow where
  organizationId : OrganizationId
  subscriptionId : Option String
  status : ProviderInvoiceStatus
  currency : String
  amountDueCents : Nat
  amountPaidCents : Nat
  periodStartMs : Option Int
  periodEndMs : Option Int
  hostedInvoiceUrl : Option String
  invoicePdfUrl : Option String
  providerCreatedAtMs : Int
  lastEventMs : Int
  lastEventId : String

structure BillingTables (δ : Type) where
  organizations : List OrganizationId
  webhookEvents : Table String (WebhookRow δ) := ∅
  accounts : Table OrganizationId BillingAccount := ∅
  invoices : Table String InvoiceRow := ∅

section Freshness

/-- Whether an event comes before one that was applied, by time and then by the bytes of the identifiers. -/
def VerifiedBillingEvent.isBefore (event : VerifiedBillingEvent) (lastEventMs : Int) (lastEventId : String) : Bool :=
  event.createdAtMs < lastEventMs || (event.createdAtMs = lastEventMs && event.providerEventId < lastEventId)

/-- Whether the database takes an event to come no earlier than one that was applied. -/
def VerifiedBillingEvent.isFresh (collation : Collation) (event : VerifiedBillingEvent) (lastEventMs : Int)
    (lastEventId : String) : Bool :=
  lastEventMs < event.createdAtMs ||
    (lastEventMs = event.createdAtMs && collation.le lastEventId event.providerEventId)

end Freshness

section Accounts
variable (collation : Collation) (proBillingUnit : PlatformBillingUnit)

def BillingAccount.accepts (account : BillingAccount) (update : PlatformBillingUpdate) : Bool :=
  account.customerId = update.customerId &&
    (account.status = .canceled || account.subscriptionId.all fun existing =>
      update.subscriptionId.all fun incoming => incoming = existing)

def PlatformBillingUpdate.account (update : PlatformBillingUpdate) (event : VerifiedBillingEvent)
    (subscriptionId : Option String) : BillingAccount where
  customerId := update.customerId
  subscriptionId := update.subscriptionId <|> subscriptionId
  tier := update.tier
  status := update.status
  billingUnit := if update.tier = .pro then proBillingUnit else .organization
  seatQuantity := update.quantity
  currentPeriodStartMs := update.currentPeriodStartMs
  currentPeriodEndMs := update.currentPeriodEndMs
  cancelAtPeriodEnd := update.cancelAtPeriodEnd
  lastEventMs := event.createdAtMs
  lastEventId := event.providerEventId

def takenElsewhere (accounts : Table OrganizationId BillingAccount) (organizationId : OrganizationId)
    (account : BillingAccount) : Bool :=
  accounts.entries.any fun entry => entry.1 ≠ organizationId &&
    (entry.2.customerId = account.customerId ||
      (account.subscriptionId.isSome && entry.2.subscriptionId = account.subscriptionId))

def writeAccount (tables : BillingTables δ) (organizationId : OrganizationId) (account : BillingAccount) :
    Except ServiceError (BillingTables δ) := do
  require (tables.organizations.contains organizationId && account.tier ≠ .free && 0 < account.seatQuantity &&
    !takenElsewhere tables.accounts organizationId account) .unavailable
  pure { tables with accounts := tables.accounts.insert organizationId account }

def applyUpdate (tables : BillingTables δ) (event : VerifiedBillingEvent) (update : PlatformBillingUpdate) :
    Except ServiceError (BillingTables δ) :=
  match tables.accounts.lookup update.organizationId with
  | some existing => do
    require (existing.accepts update) .invalidEvent
    if event.isBefore existing.lastEventMs existing.lastEventId then pure tables
    else do
      require (update.quantity < 2^31) .invalidEvent
      if event.isFresh collation existing.lastEventMs existing.lastEventId then
        writeAccount tables update.organizationId (update.account proBillingUnit event existing.subscriptionId)
      else pure tables
  | none => do
    require (update.quantity < 2^31) .invalidEvent
    writeAccount tables update.organizationId (update.account proBillingUnit event none)

end Accounts

section Invoices

def PlatformInvoiceUpdate.row (update : PlatformInvoiceUpdate) (event : VerifiedBillingEvent) : InvoiceRow where
  organizationId := update.organizationId
  subscriptionId := update.subscriptionId
  status := update.status
  currency := update.currency
  amountDueCents := update.amountDueMinor
  amountPaidCents := update.amountPaidMinor
  periodStartMs := update.periodStartMs
  periodEndMs := update.periodEndMs
  hostedInvoiceUrl := update.hostedInvoiceUrl
  invoicePdfUrl := update.invoicePdfUrl
  providerCreatedAtMs := event.createdAtMs
  lastEventMs := event.createdAtMs
  lastEventId := event.providerEventId

/-- A newer row keeps what it does not name. -/
def InvoiceRow.over (row old : InvoiceRow) : InvoiceRow :=
  { row with
    subscriptionId := row.subscriptionId <|> old.subscriptionId
    hostedInvoiceUrl := row.hostedInvoiceUrl <|> old.hostedInvoiceUrl
    invoicePdfUrl := row.invoicePdfUrl <|> old.invoicePdfUrl
    providerCreatedAtMs := old.providerCreatedAtMs }

def InvoiceRow.isAllowed (row : InvoiceRow) : Bool :=
  (row.amountPaidCents ≤ row.amountDueCents || row.status = .paid) &&
    (row.hostedInvoiceUrl.all fun url => "https://".toList.isPrefixOf url.toList) &&
    row.invoicePdfUrl.all fun url => "https://".toList.isPrefixOf url.toList

def applyInvoiceUpdate (collation : Collation) (tables : BillingTables δ) (event : VerifiedBillingEvent)
    (update : PlatformInvoiceUpdate) : Except ServiceError (BillingTables δ) := do
  let account ← orError (tables.accounts.lookup update.organizationId) .invalidEvent
  require (account.customerId = update.customerId &&
    account.subscriptionId.all fun expected => update.subscriptionId = some expected) .invalidEvent
  require (update.amountDueMinor < 2^63 && update.amountPaidMinor < 2^63) .invalidEvent
  require (update.row event).isAllowed .unavailable
  match tables.invoices.lookup update.invoiceId with
  | none => pure { tables with invoices := tables.invoices.insert update.invoiceId (update.row event) }
  | some old => do
    require (old.organizationId = update.organizationId) .invalidEvent
    if event.isFresh collation old.lastEventMs old.lastEventId then
      pure { tables with invoices := tables.invoices.insert update.invoiceId ((update.row event).over old) }
    else pure tables

end Invoices

section Events
variable (collation : Collation) (proBillingUnit : PlatformBillingUnit) (sha : List UInt8 → δ)

def VerifiedBillingEvent.organization (event : VerifiedBillingEvent) : Option OrganizationId :=
  event.platformUpdate.map (·.organizationId) <|> event.invoiceUpdate.map (·.organizationId)

def VerifiedBillingEvent.row (event : VerifiedBillingEvent) (payload : List UInt8) : WebhookRow δ where
  eventType := event.eventType
  livemode := event.livemode
  payloadSha256 := sha payload
  organizationId := event.organization
  providerCreatedAtMs := event.createdAtMs

def persistEvent (tables : BillingTables δ) (payload : List UInt8) (event : VerifiedBillingEvent) :
    Except ServiceError (BillingTables δ × WebhookOutcome) :=
  match tables.webhookEvents.lookup event.providerEventId with
  | some stored => do
    require (stored.payloadSha256 = sha payload) .replayConflict
    pure (tables, .duplicate)
  | none => do
    require (event.organization.all tables.organizations.contains) .unavailable
    let recorded := { tables with
      webhookEvents := tables.webhookEvents.insert event.providerEventId (event.row sha payload) }
    let applied ← match event.platformUpdate with
      | some update => applyUpdate collation proBillingUnit recorded event update
      | none => pure recorded
    let applied ← match event.invoiceUpdate with
      | some update => applyInvoiceUpdate collation applied event update
      | none => pure applied
    pure (applied, .processed)

end Events

end Ffdb.Billing
