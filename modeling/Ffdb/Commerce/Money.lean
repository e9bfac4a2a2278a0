import Mathlib.Data.Finset.Basic
import Ffdb.Lib.Fallible
import Ffdb.Lib.Text

/-! Amounts of money: an amount is in one currency and within the range of exact JSON integers, and
arithmetic that would leave either fails. -/
namespace Ffdb.Commerce
open Fallible

abbrev Uuid := BitVec 128

def maxMinorAmount : Nat := 9007199254740991

def maxQuantity : Nat := 1000000

def u64Max : Nat := 2^64-1

inductive MerchantCapability where
  | oneTimePayments
  | recurringPayments
  | refunds
  deriving DecidableEq

inductive CommerceError where
  | invalidText (field : List Char) (maxLen : Nat)
  | invalidCurrency
  | amountOutOfRange
  | nonPositiveAmount
  | currencyMismatch
  | arithmeticOverflow
  | amountUnderflow
  | merchantUnavailable
  | missingCapability (capability : MerchantCapability)
  | productNotActive
  | priceInactive
  | productPriceMismatch
  | priceKindMismatch
  | invalidQuantity
  | invalidBillingInterval
  | invalidBillingPeriod
  | overlappingBillingPeriod
  | invalidEntitlementKey
  | emptyOrder
  | projectMismatch
  | invalidStateTransition
  | paymentExceedsOrderTotal
  | captureExceedsAuthorized
  | paymentNotCaptured
  | paymentNotVerified
  | insufficientVerifiedPayment
  | refundExceedsAvailable
  | refundNotFound
  | refundAlreadySettled
  | duplicateIdentifier
  | orderNotPaid
  | checkoutKindMismatch
  | checkoutExpired
  | invalidCheckoutExpiration
  | subscriptionNotEntitled
  | invalidEventSequence
  | eventHashConflict
  | eventMetadataConflict
  | eventOutOfOrder (lastSequence incomingSequence : Nat)
  | duplicateEvent
  deriving DecidableEq

def isCurrencyCode (value : List Char) : Bool :=
  value.length = 3 && value.all fun c => 'A' ≤ c && c ≤ 'Z'

structure Currency where
  code : List Char
  valid : isCurrencyCode code = true
  deriving DecidableEq

structure Money where
  currency : Currency
  minor : Nat
  inRange : minor ≤ maxMinorAmount
  deriving DecidableEq

def validateNonemptyBounded (field value : List Char) (maxLen : Nat) : Except CommerceError Unit :=
  require (!(Text.trim value).isEmpty && Text.byteLength value ≤ maxLen) (.invalidText field maxLen)

def Currency.new (value : List Char) : Except CommerceError Currency :=
  if h : isCurrencyCode value = true then .ok ⟨value, h⟩ else .error .invalidCurrency

namespace Money

def new (currency : Currency) (minor : Nat) : Except CommerceError Money :=
  if h : minor ≤ maxMinorAmount then .ok ⟨currency, minor, h⟩ else .error .amountOutOfRange

def zero (currency : Currency) : Money := ⟨currency, 0, Nat.zero_le _⟩

variable (amount other : Money)

def ensureSameCurrency : Except CommerceError Unit := require (amount.currency = other.currency) .currencyMismatch

def checkedAdd : Except CommerceError Money := do
  amount.ensureSameCurrency other
  require (amount.minor + other.minor ≤ u64Max) .arithmeticOverflow
  new amount.currency (amount.minor + other.minor)

def checkedSub : Except CommerceError Money := do
  amount.ensureSameCurrency other
  require (other.minor ≤ amount.minor) .amountUnderflow
  new amount.currency (amount.minor - other.minor)

def validateQuantity (quantity : Nat) : Except CommerceError Unit :=
  require (0 < quantity && quantity ≤ maxQuantity) .invalidQuantity

def checkedMul (quantity : Nat) : Except CommerceError Money := do
  validateQuantity quantity
  require (amount.minor * quantity ≤ u64Max) .arithmeticOverflow
  new amount.currency (amount.minor * quantity)

def requirePositive : Except CommerceError Unit := require (0 < amount.minor) .nonPositiveAmount

variable {amount other : Money} {result : Money} {currency : Currency} {minor quantity : Nat}

theorem ext_iff' : amount = other ↔ amount.currency = other.currency ∧ amount.minor = other.minor := by
  cases amount
  cases other
  simp

theorem new_ok_iff : new currency minor = .ok result ↔ result.currency = currency ∧ result.minor = minor := by
  unfold new
  by_cases h : minor ≤ maxMinorAmount
  · rw [dif_pos h, Except.ok.injEq, eq_comm, ext_iff']
  · rw [dif_neg h]
    refine iff_of_false (fun hfalse => nomatch hfalse) ?_
    rintro ⟨-, rfl⟩
    exact h result.inRange

@[simp] theorem ensureSameCurrency_ok_iff {u : Unit} :
    amount.ensureSameCurrency other = .ok u ↔ amount.currency = other.currency := by
  simp [ensureSameCurrency]

/-- A sum that stays in range is not too large for 64 bits. -/
theorem checkedAdd_ok_iff : amount.checkedAdd other = .ok result ↔
    amount.currency = other.currency ∧ result.currency = amount.currency ∧ result.minor = amount.minor + other.minor := by
  have hrange := result.inRange
  have hfits : maxMinorAmount ≤ u64Max := by decide
  simp only [checkedAdd, bind_ok_iff, ensureSameCurrency_ok_iff, require_ok_iff, decide_eq_true_eq, new_ok_iff,
    exists_const]
  constructor
  · rintro ⟨hsame, -, hcurrency, hminor⟩
    exact ⟨hsame, hcurrency, hminor⟩
  · rintro ⟨hsame, hcurrency, hminor⟩
    exact ⟨hsame, by omega, hcurrency, hminor⟩

theorem checkedSub_ok_iff : amount.checkedSub other = .ok result ↔
    amount.currency = other.currency ∧ other.minor ≤ amount.minor ∧ result.currency = amount.currency ∧
      result.minor = amount.minor - other.minor := by
  simp [checkedSub, new_ok_iff]

theorem checkedMul_ok_iff : amount.checkedMul quantity = .ok result ↔
    (0 < quantity ∧ quantity ≤ maxQuantity) ∧ result.currency = amount.currency ∧ result.minor = amount.minor * quantity := by
  have hrange := result.inRange
  have hfits : maxMinorAmount ≤ u64Max := by decide
  simp only [checkedMul, validateQuantity, bind_ok_iff, require_ok_iff, Bool.and_eq_true, decide_eq_true_eq, new_ok_iff,
    exists_const]
  constructor
  · rintro ⟨hquantity, -, hcurrency, hminor⟩
    exact ⟨hquantity, hcurrency, hminor⟩
  · rintro ⟨hquantity, hcurrency, hminor⟩
    exact ⟨hquantity, by omega, hcurrency, hminor⟩

/-- Adding up a list stays in one currency and in range, and is then exact. -/
theorem foldlM_add_ok_iff {ι : Type} {items : List ι} {amountOf : ι → Money} {start : Money} :
    items.foldlM (fun total item => total.checkedAdd (amountOf item)) start = .ok result ↔
      (∀ item ∈ items, (amountOf item).currency = start.currency) ∧ result.currency = start.currency ∧
        result.minor = start.minor + (items.map fun item => (amountOf item).minor).sum := by
  induction items generalizing start with
  | nil =>
    rw [List.foldlM_nil, pure_ok_iff, eq_comm, ext_iff']
    simp
  | cons item items ih =>
    rw [List.foldlM_cons, bind_ok_iff]
    simp only [checkedAdd_ok_iff, ih, List.forall_mem_cons, List.map_cons, List.sum_cons]
    constructor
    · rintro ⟨middle, ⟨hsame, hcurrency, hminor⟩, hall, hresult, hsum⟩
      rw [hcurrency] at hall hresult
      exact ⟨⟨hsame.symm, hall⟩, hresult, by omega⟩
    · rintro ⟨⟨hsame, hall⟩, hresult, hsum⟩
      have hrange := result.inRange
      refine ⟨⟨start.currency, start.minor + (amountOf item).minor, by omega⟩, ⟨hsame.symm, rfl, rfl⟩, hall, hresult, ?_⟩
      dsimp only
      omega

end Money

end Ffdb.Commerce
