import Ffdb.Commerce.Money
import Ffdb.Lib.Keyed

/-! What merchants sell. A price keeps the terms it was made with, and an order line is a copy of them. -/
namespace Ffdb.Commerce
open Fallible

inductive MerchantAccountStatus where
  | pending
  | restricted
  | active
  | disabled
  deriving DecidableEq

structure MerchantAccount where
  id : Uuid
  projectId : Uuid
  status : MerchantAccountStatus
  capabilities : Finset MerchantCapability
  deriving DecidableEq

def MerchantAccount.requireCapability (merchant : MerchantAccount) (capability : MerchantCapability) :
    Except CommerceError Unit := do
  require (merchant.status = .active) .merchantUnavailable
  require (capability ∈ merchant.capabilities) (.missingCapability capability)

inductive ProductStatus where
  | draft
  | active
  | archived
  deriving DecidableEq

structure Product where
  id : Uuid
  projectId : Uuid
  name : List Char
  status : ProductStatus
  deriving DecidableEq

inductive BillingIntervalUnit where
  | day
  | week
  | month
  | year
  deriving DecidableEq

structure BillingInterval where
  unit : BillingIntervalUnit
  count : Nat
  valid : 0 < count ∧ count ≤ 365
  deriving DecidableEq

inductive PriceKind where
  | oneTime
  | recurring (interval : BillingInterval)
  deriving DecidableEq

def isEntitlementKey : List Char → Bool
  | [] => false
  | first :: rest => first.isLower && Text.byteLength (first :: rest) ≤ 128 &&
    rest.all fun c => c.isLower || c.isDigit || c = '_' || c = '-' || c = '.' || c = ':'

structure EntitlementKey where
  value : List Char
  valid : isEntitlementKey value = true
  deriving DecidableEq

inductive EntitlementValue where
  | enabled (value : Bool)
  | quantity (value : Nat)
  | text (value : List Char)
  deriving DecidableEq

structure PriceTerms where
  amount : Money
  kind : PriceKind
  entitlements : Table EntitlementKey EntitlementValue
  positive : 0 < amount.minor
  deriving DecidableEq

def PriceTerms.new (amount : Money) (kind : PriceKind) (entitlements : Table EntitlementKey EntitlementValue) :
    Except CommerceError PriceTerms :=
  if h : 0 < amount.minor then .ok ⟨amount, kind, entitlements, h⟩ else .error .nonPositiveAmount

def PriceTerms.oneTime (amount : Money) : Except CommerceError PriceTerms := PriceTerms.new amount .oneTime ∅

structure Price where
  id : Uuid
  projectId : Uuid
  productId : Uuid
  terms : PriceTerms
  active : Bool
  deriving DecidableEq

def Price.new (id : Uuid) (product : Product) (terms : PriceTerms) : Except CommerceError Price := do
  require (product.status = .active) .productNotActive
  pure ⟨id, product.projectId, product.id, terms, true⟩

/-- A line of an order: its total is the unit amount as often as the quantity says. -/
structure OrderLineSnapshot where
  projectId : Uuid
  productId : Uuid
  priceId : Uuid
  productName : List Char
  unitAmount : Money
  quantity : Nat
  total : Money
  priced : unitAmount.checkedMul quantity = .ok total
  deriving DecidableEq

def OrderLineSnapshot.fromPrice (product : Product) (price : Price) (quantity : Nat) :
    Except CommerceError OrderLineSnapshot := do
  Money.validateQuantity quantity
  require price.active .priceInactive
  require (product.projectId = price.projectId && product.id = price.productId) .productPriceMismatch
  require (product.status = .active) .productNotActive
  require (price.terms.kind = .oneTime) .priceKindMismatch
  match h : price.terms.amount.checkedMul quantity with
  | .error error => .error error
  | .ok total => pure ⟨product.projectId, product.id, price.id, product.name, price.terms.amount, quantity, total, h⟩

theorem OrderLineSnapshot.total_eq (line : OrderLineSnapshot) :
    line.total.minor = line.unitAmount.minor * line.quantity :=
  (Money.checkedMul_ok_iff.mp line.priced).2.2

inductive OrderStatus where
  | awaitingPayment
  | paid
  | fulfillmentInProgress
  | fulfilled
  | canceled
  deriving DecidableEq

def addLine (projectId : Uuid) (total : Money) (line : OrderLineSnapshot) : Except CommerceError Money := do
  require (line.projectId = projectId) .projectMismatch
  total.checkedAdd line.total

def orderTotal (projectId : Uuid) : List OrderLineSnapshot → Except CommerceError Money
  | [] => .error .emptyOrder
  | first :: rest => (first :: rest).foldlM (addLine projectId) (Money.zero first.total.currency)

structure Order where
  id : Uuid
  projectId : Uuid
  merchantAccountId : Uuid
  lines : List OrderLineSnapshot
  total : Money
  status : OrderStatus
  createdAtMs : Int
  fulfilledAtMs : Option Int
  summed : orderTotal projectId lines = .ok total
  positive : 0 < total.minor
  deriving DecidableEq

def Order.new (id : Uuid) (merchant : MerchantAccount) (lines : List OrderLineSnapshot) (createdAtMs : Int) :
    Except CommerceError Order := do
  merchant.requireCapability .oneTimePayments
  match h : orderTotal merchant.projectId lines with
  | .error error => .error error
  | .ok total =>
    if hpositive : 0 < total.minor then
      pure ⟨id, merchant.projectId, merchant.id, lines, total, .awaitingPayment, createdAtMs, none, h, hpositive⟩
    else .error .nonPositiveAmount

def Order.markFulfilled (order : Order) (fulfilledAtMs : Int) : Except CommerceError Order := do
  require (order.status = .fulfillmentInProgress) .invalidStateTransition
  pure { order with status := .fulfilled, fulfilledAtMs := some fulfilledAtMs }

def Order.cancel (order : Order) : Except CommerceError Order := do
  require (order.status = .awaitingPayment) .invalidStateTransition
  pure { order with status := .canceled }

theorem sum_of_addLine {projectId : Uuid} {lines : List OrderLineSnapshot} {start total : Money}
    (h : lines.foldlM (addLine projectId) start = .ok total) :
    total.minor = start.minor + (lines.map fun line => line.unitAmount.minor * line.quantity).sum := by
  induction lines generalizing start with
  | nil =>
    rw [List.foldlM_nil, pure_ok_iff] at h
    rw [← h]
    rfl
  | cons line lines ih =>
    rw [List.foldlM_cons, bind_ok_iff] at h
    obtain ⟨middle, hline, hrest⟩ := h
    simp only [addLine, bind_ok_iff, require_ok_iff, Money.checkedAdd_ok_iff] at hline
    obtain ⟨_, -, -, -, hminor⟩ := hline
    rw [ih hrest, hminor, line.total_eq, List.map_cons, List.sum_cons]
    omega

/-- An order's total is what its lines come to. -/
theorem Order.total_eq (order : Order) :
    order.total.minor = (order.lines.map fun line => line.unitAmount.minor * line.quantity).sum := by
  have hsummed := order.summed
  cases hlines : order.lines with
  | nil =>
    rw [hlines] at hsummed
    cases hsummed
  | cons first rest =>
    rw [hlines] at hsummed
    rw [sum_of_addLine hsummed]
    exact Nat.zero_add _

end Ffdb.Commerce
