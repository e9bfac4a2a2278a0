import Ffdb.Billing.Accounts
import Ffdb.Lib.Latest
import Ffdb.Lib.Machine
import Mathlib.Data.String.Basic

/-! The account of an organization after its events came in some order, any of them repeatedly: the account shows the
last of the newest ones, and a subscription if one of them named it. -/
namespace Ffdb.Billing
open Fallible

structure PlatformWebhook (readers : Readers) (config : StripeBillingConfig) where
  payload : List UInt8
  event : VerifiedBillingEvent
  update : PlatformBillingUpdate
  carries : event.platformUpdate = some update
  verified : ∃ sent, parseEvent readers config sent = .ok event

variable {readers : Readers} {config : StripeBillingConfig}

structure AccountView where
  tier : PlatformBillingTier
  status : ProviderSubscriptionStatus
  quantity : Nat
  currentPeriodStartMs : Option Int
  currentPeriodEndMs : Option Int
  subscriptionId : Option String
  deriving DecidableEq

def BillingAccount.view (account : BillingAccount) : AccountView :=
  ⟨account.tier, account.status, account.seatQuantity, account.currentPeriodStartMs, account.currentPeriodEndMs,
    account.subscriptionId⟩

def PlatformBillingUpdate.view (update : PlatformBillingUpdate) : AccountView :=
  ⟨update.tier, update.status, update.quantity, update.currentPeriodStartMs, update.currentPeriodEndMs,
    update.subscriptionId⟩

/-- Events of one organization that agree on the customer and on the subscription. -/
structure Agreeing (organization : OrganizationId) (webhooks : List (PlatformWebhook readers config)) : Prop where
  organization : ∀ webhook ∈ webhooks, webhook.update.organizationId = organization
  customer : ∀ webhook ∈ webhooks, ∀ other ∈ webhooks, webhook.update.customerId = other.update.customerId
  subscription : ∀ webhook ∈ webhooks, ∀ other ∈ webhooks, ∀ id id', webhook.update.subscriptionId = some id →
    other.update.subscriptionId = some id' → id = id'
  identified : ∀ webhook ∈ webhooks, ∀ other ∈ webhooks,
    webhook.event.providerEventId = other.event.providerEventId → webhook = other

section Standing
variable (collation : Collation)

/-- One event is newer than another: created later, or at the same time with an identifier that comes later both as
bytes and for the database. -/
def IsNewer (webhook other : PlatformWebhook readers config) : Prop :=
  other.event.createdAtMs < webhook.event.createdAtMs ∨
    other.event.createdAtMs = webhook.event.createdAtMs ∧ other.event.providerEventId < webhook.event.providerEventId ∧
      collation.le other.event.providerEventId webhook.event.providerEventId = true

instance (webhook other : PlatformWebhook readers config) : Decidable (IsNewer collation webhook other) := by
  unfold IsNewer
  infer_instance

theorem not_isNewer_self (webhook : PlatformWebhook readers config) : ¬IsNewer collation webhook webhook := by
  rintro (h | ⟨-, h, -⟩)
  · exact lt_irrefl _ h
  · exact lt_irrefl _ h

theorem isNewer_trans (a b c : PlatformWebhook readers config) (hab : IsNewer collation a b) (hbc : IsNewer collation b c) :
    IsNewer collation a c := by
  obtain hab | ⟨hab, hid, hle⟩ := hab
  · obtain hbc | ⟨hbc, -⟩ := hbc
    · exact .inl (hbc.trans hab)
    · exact .inl (by omega)
  · obtain hbc | ⟨hbc, hid', hle'⟩ := hbc
    · exact .inl (by omega)
    · exact .inr ⟨hbc.trans hab, hid'.trans hid, collation.trans _ _ _ hle' hle⟩

abbrev Standing (readers : Readers) (config : StripeBillingConfig) := PlatformWebhook readers config × Option String

def place (standing : Option (Standing readers config)) (webhook : PlatformWebhook readers config) :
    Option (Standing readers config) :=
  match standing with
  | none => some (webhook, webhook.update.subscriptionId)
  | some (current, subscriptionId) =>
    if IsNewer collation webhook current then some (webhook, webhook.update.subscriptionId <|> subscriptionId)
    else some (current, subscriptionId)

def standing (deliveries : List (PlatformWebhook readers config)) : Option (Standing readers config) :=
  deliveries.foldl (place collation) none

def Standing.account (unit : PlatformBillingUnit) (standing : Standing readers config) : BillingAccount :=
  standing.1.update.account unit standing.1.event standing.2

variable {collation} {deliveries : List (PlatformWebhook readers config)} {webhook : PlatformWebhook readers config}

theorem standing_snoc :
    standing collation (deliveries ++ [webhook]) = place collation (standing collation deliveries) webhook := by
  simp [standing]

theorem shown_of_standing : (standing collation deliveries).map (·.1) = Latest.shown (IsNewer collation) deliveries := by
  induction deliveries using List.reverseRecOn with
  | nil => rfl
  | append_singleton deliveries webhook ih =>
    rw [standing_snoc, Latest.shown_snoc, ← ih]
    cases standing collation deliveries with
    | none => rfl
    | some current =>
      by_cases hnewer : IsNewer collation webhook current.1 <;> simp [place, Latest.put, hnewer]

theorem unsurpassed_of_standing {current : Standing readers config} (h : standing collation deliveries = some current) :
    Latest.Unsurpassed (IsNewer collation) deliveries current.1 := by
  refine Latest.unsurpassed_of_shown (not_isNewer_self collation) (isNewer_trans collation) ?_
  rw [← shown_of_standing, h]
  rfl

theorem place_again (h : webhook ∈ deliveries) :
    place collation (standing collation deliveries) webhook = standing collation deliveries := by
  cases hstanding : standing collation deliveries with
  | none =>
    have hshown : Latest.shown (IsNewer collation) deliveries = none := by rw [← shown_of_standing, hstanding]; rfl
    rw [Latest.shown_eq_none_iff.mp hshown] at h
    cases h
  | some current =>
    have hnot := (unsurpassed_of_standing hstanding).2 webhook h
    simp [place, hnot]

/-- Where the subscription of an account comes from. -/
theorem subscription_of_standing {current : Standing readers config} (h : standing collation deliveries = some current) :
    (∀ id, current.1.update.subscriptionId = some id → current.2 = some id) ∧
      (∀ id, current.2 = some id → ∃ webhook ∈ deliveries, webhook.update.subscriptionId = some id) := by
  induction deliveries using List.reverseRecOn generalizing current with
  | nil => cases h
  | append_singleton deliveries webhook ih =>
    rw [standing_snoc] at h
    cases hbefore : standing collation deliveries with
    | none =>
      rw [hbefore] at h
      obtain rfl := Option.some.inj h
      exact ⟨fun _ hid => hid, fun _ hid => ⟨webhook, by simp, hid⟩⟩
    | some old =>
      rw [hbefore] at h
      obtain ⟨hown, hfrom⟩ := ih hbefore
      dsimp only [place] at h
      by_cases hnewer : IsNewer collation webhook old.1
      · rw [if_pos hnewer] at h
        obtain rfl := Option.some.inj h
        refine ⟨?_, ?_⟩
        · intro id hid
          simp [show webhook.update.subscriptionId = some id from hid]
        · intro id hid
          dsimp only at hid
          cases hsubscription : webhook.update.subscriptionId with
          | some id' =>
            rw [hsubscription] at hid
            exact ⟨webhook, by simp, hsubscription.trans hid⟩
          | none =>
            rw [hsubscription] at hid
            obtain ⟨other, hother, hothers⟩ := hfrom id hid
            exact ⟨other, by simp [hother], hothers⟩
      · rw [if_neg hnewer] at h
        obtain rfl := Option.some.inj h
        refine ⟨hown, ?_⟩
        intro id hid
        obtain ⟨other, hother, hothers⟩ := hfrom id hid
        exact ⟨other, by simp [hother], hothers⟩

/-- The first event that is delivered stays if none is newer. -/
theorem standing_of_first (h : ∀ other ∈ deliveries, ¬IsNewer collation other webhook) :
    standing collation (webhook :: deliveries) = some (webhook, webhook.update.subscriptionId) := by
  have hfold : ∀ subscriptionId : Option String,
      deliveries.foldl (place collation) (some (webhook, subscriptionId)) = some (webhook, subscriptionId) := by
    intro subscriptionId
    induction deliveries with
    | nil => rfl
    | cons first deliveries ih =>
      rw [List.foldl_cons]
      have hfirst : place collation (some (webhook, subscriptionId)) first = some (webhook, subscriptionId) := by
        simp [place, h first List.mem_cons_self]
      rw [hfirst]
      exact ih fun other hother => h other (List.mem_cons_of_mem _ hother)
  exact hfold _

theorem subscription_kept {current : Standing readers config} (hcurrent : current.2.isSome = true)
    {later : Standing readers config} (h : deliveries.foldl (place collation) (some current) = some later) :
    later.2.isSome = true := by
  induction deliveries generalizing current with
  | nil =>
    obtain rfl := Option.some.inj h
    exact hcurrent
  | cons first deliveries ih =>
    rw [List.foldl_cons] at h
    by_cases hnewer : IsNewer collation first current.1
    · have hfirst : place collation (some current) first =
          some (first, first.update.subscriptionId <|> current.2) := by simp [place, hnewer]
      rw [hfirst] at h
      refine ih ?_ h
      cases hsubscription : first.update.subscriptionId <;> simp [hcurrent]
    · have hfirst : place collation (some current) first = some current := by simp [place, hnewer]
      rw [hfirst] at h
      exact ih hcurrent h

end Standing

section Deliveries
variable {δ : Type} [DecidableEq δ] (sha : List UInt8 → δ) (collation : Collation) (unit : PlatformBillingUnit)

def deliver (tables : BillingTables δ) (webhook : PlatformWebhook readers config) : BillingTables δ :=
  match persistEvent collation unit sha tables webhook.payload webhook.event with
  | .ok (tables', _) => tables'
  | .error _ => tables

def deliverAll (organization : OrganizationId) (deliveries : List (PlatformWebhook readers config)) : BillingTables δ :=
  Machine.run (deliver sha collation unit) { organizations := [organization] } deliveries

structure Tracks (organization : OrganizationId) (tables : BillingTables δ)
    (deliveries : List (PlatformWebhook readers config)) : Prop where
  organizations : tables.organizations = [organization]
  account : tables.accounts.lookup organization = (standing collation deliveries).map (Standing.account unit)
  others : ∀ other ≠ organization, tables.accounts.lookup other = none
  known : ∀ id stored, tables.webhookEvents.lookup id = some stored → ∃ webhook ∈ deliveries,
    webhook.event.providerEventId = id ∧ stored.payloadSha256 = sha webhook.payload
  recorded : ∀ webhook ∈ deliveries, (tables.webhookEvents.lookup webhook.event.providerEventId).isSome = true

variable {sha collation unit} {organization : OrganizationId} {tables : BillingTables δ}
  {webhooks deliveries : List (PlatformWebhook readers config)} {webhook : PlatformWebhook readers config}

omit [DecidableEq δ] in
theorem not_takenElsewhere (h : ∀ other ≠ organization, tables.accounts.lookup other = none) (account : BillingAccount) :
    takenElsewhere tables.accounts organization account = false := by
  rw [takenElsewhere, List.any_eq_false]
  intro entry hentry
  by_cases hother : entry.1 = organization
  · simp [hother]
  · have hlookup := AList.mem_entries.mp hentry
    rw [h entry.1 hother] at hlookup
    cases hlookup

/-- Whether an event is applied over another is a matter of which one is newer. -/
theorem fresh_iff {other : PlatformWebhook readers config}
    (hne : webhook.event.providerEventId ≠ other.event.providerEventId) :
    webhook.event.isBefore other.event.createdAtMs other.event.providerEventId = false ∧
      webhook.event.isFresh collation other.event.createdAtMs other.event.providerEventId = true ↔
    IsNewer collation webhook other := by
  unfold VerifiedBillingEvent.isBefore VerifiedBillingEvent.isFresh IsNewer
  simp only [Bool.or_eq_false_iff, Bool.and_eq_false_iff, Bool.or_eq_true, Bool.and_eq_true, decide_eq_true_eq,
    decide_eq_false_iff_not, not_lt]
  constructor
  · rintro ⟨⟨-, hid⟩, hcreated | ⟨hcreated, hle⟩⟩
    · exact .inl hcreated
    · refine .inr ⟨hcreated, ?_, hle⟩
      obtain hid | hid := hid
      · exact absurd hcreated.symm hid
      · exact lt_of_le_of_ne hid (Ne.symm hne)
  · rintro (hcreated | ⟨hcreated, hid, hle⟩)
    · exact ⟨⟨by omega, .inl (by omega)⟩, .inl hcreated⟩
    · exact ⟨⟨by omega, .inr hid.le⟩, .inr ⟨hcreated, hle⟩⟩

theorem update_shape (webhook : PlatformWebhook readers config) :
    (webhook.update.IsCheckout ∨ webhook.update.IsSubscription) ∧ webhook.event.invoiceUpdate = none := by
  obtain ⟨sent, hsent⟩ := webhook.verified
  exact update_of_parsed hsent webhook.carries

theorem update_plain (webhook : PlatformWebhook readers config) :
    webhook.update.tier ≠ .free ∧ 0 < webhook.update.quantity ∧ webhook.update.quantity < 2^31 := by
  obtain ⟨h | h, -⟩ := update_shape webhook
  · refine ⟨h.tier, ?_, ?_⟩ <;> rw [h.quantity] <;> decide
  · obtain ⟨hpos, hmax⟩ := h.quantity
    exact ⟨h.tier, hpos, by omega⟩

omit [DecidableEq δ] in
theorem writeAccount_ok {account : BillingAccount} (horganizations : tables.organizations = [organization])
    (hothers : ∀ other ≠ organization, tables.accounts.lookup other = none) (htier : account.tier ≠ .free)
    (hquantity : 0 < account.seatQuantity) : writeAccount tables organization account =
      .ok { tables with accounts := tables.accounts.insert organization account } := by
  simp [writeAccount, horganizations, htier, hquantity, not_takenElsewhere hothers, require, bind, Except.bind, pure,
    Except.pure]

theorem account_subscription {current : Standing readers config} (h : standing collation deliveries = some current) :
    (Standing.account unit current).subscriptionId = current.2 := by
  obtain ⟨hown, -⟩ := subscription_of_standing h
  cases hsubscription : current.1.update.subscriptionId with
  | none => simp [Standing.account, PlatformBillingUpdate.account, hsubscription]
  | some id => simp [Standing.account, PlatformBillingUpdate.account, hsubscription, hown id hsubscription]

theorem accepts_of_agreeing (hagree : Agreeing organization webhooks) (hwebhook : webhook ∈ webhooks)
    (hdeliveries : ∀ other ∈ deliveries, other ∈ webhooks) {current : Standing readers config}
    (h : standing collation deliveries = some current) : (Standing.account unit current).accepts webhook.update = true := by
  obtain ⟨hcurrent, -⟩ := unsurpassed_of_standing h
  have hcustomer := hagree.customer current.1 (hdeliveries _ hcurrent) webhook hwebhook
  simp only [BillingAccount.accepts, account_subscription h, Bool.and_eq_true, decide_eq_true_eq, Bool.or_eq_true]
  refine ⟨hcustomer, .inr ?_⟩
  rw [Option.all_eq_true]
  intro existing hexisting
  rw [Option.all_eq_true]
  intro incoming hincoming
  obtain ⟨other, hother, hothers⟩ := (subscription_of_standing h).2 existing hexisting
  exact decide_eq_true (hagree.subscription webhook hwebhook other (hdeliveries _ hother) incoming existing hincoming hothers)

omit [DecidableEq δ] in
/-- An update is applied if it is newer than what the account stands on. -/
theorem applyUpdate_ok (hagree : Agreeing organization webhooks) (hwebhook : webhook ∈ webhooks)
    (hdeliveries : ∀ other ∈ deliveries, other ∈ webhooks) (hnew : webhook ∉ deliveries)
    (horganizations : tables.organizations = [organization])
    (haccount : tables.accounts.lookup organization = (standing collation deliveries).map (Standing.account unit))
    (hothers : ∀ other ≠ organization, tables.accounts.lookup other = none) :
    ∃ accounts, applyUpdate collation unit tables webhook.event webhook.update = .ok { tables with accounts := accounts } ∧
      accounts.lookup organization = (standing collation (deliveries ++ [webhook])).map (Standing.account unit) ∧
      ∀ other ≠ organization, accounts.lookup other = none := by
  obtain ⟨htier, hpos, hmax⟩ := update_plain webhook
  have horganization := hagree.organization webhook hwebhook
  have hinserted (account : BillingAccount) (other : OrganizationId) (hother : other ≠ organization) :
      (tables.accounts.insert organization account).lookup other = none := by
    rw [AList.lookup_insert_ne hother]
    exact hothers other hother
  rw [standing_snoc]
  unfold applyUpdate
  rw [horganization, haccount]
  cases hstanding : standing collation deliveries with
  | none =>
    refine ⟨tables.accounts.insert organization (webhook.update.account unit webhook.event none), ?_, ?_, hinserted _⟩
    · have hwrite := @writeAccount_ok _ _ _ (webhook.update.account unit webhook.event none) horganizations hothers htier
        hpos
      simp only [Option.map_none, require, decide_eq_true hmax, if_true, bind, Except.bind, hwrite]
    · rw [AList.lookup_insert]
      cases hsubscription : webhook.update.subscriptionId <;>
        simp [place, Standing.account, PlatformBillingUpdate.account, hsubscription]
  | some current =>
    obtain ⟨hcurrent, -⟩ := unsurpassed_of_standing hstanding
    have hne : webhook.event.providerEventId ≠ current.1.event.providerEventId := by
      intro hsame
      rw [hagree.identified webhook hwebhook current.1 (hdeliveries _ hcurrent) hsame] at hnew
      exact hnew hcurrent
    have haccepts : (Standing.account unit current).accepts webhook.update = true :=
      accepts_of_agreeing hagree hwebhook hdeliveries hstanding
    rw [Option.map_some]
    by_cases hnewer : IsNewer collation webhook current.1
    · obtain ⟨hbefore, hfresh⟩ := (fresh_iff hne).mpr hnewer
      have hwrite := @writeAccount_ok _ _ _ (webhook.update.account unit webhook.event current.2) horganizations hothers
        htier hpos
      refine ⟨tables.accounts.insert organization (webhook.update.account unit webhook.event current.2), ?_, ?_, hinserted _⟩
      · have hbefore : webhook.event.isBefore (Standing.account unit current).lastEventMs
            (Standing.account unit current).lastEventId = false := hbefore
        have hfresh : webhook.event.isFresh collation (Standing.account unit current).lastEventMs
            (Standing.account unit current).lastEventId = true := hfresh
        simp only [haccepts, hbefore, hfresh, account_subscription hstanding, require, decide_eq_true hmax, if_true, bind,
          Except.bind]
        exact hwrite
      · rw [AList.lookup_insert]
        simp only [place, hnewer, if_true, Option.map_some, Standing.account]
        cases hsubscription : webhook.update.subscriptionId <;> simp [PlatformBillingUpdate.account, hsubscription]
    · refine ⟨tables.accounts, ?_, ?_, hothers⟩
      · cases hbefore : webhook.event.isBefore (Standing.account unit current).lastEventMs
            (Standing.account unit current).lastEventId with
        | true => simp [haccepts, hbefore, require, bind, Except.bind, pure, Except.pure]
        | false =>
          have hfresh : webhook.event.isFresh collation (Standing.account unit current).lastEventMs
              (Standing.account unit current).lastEventId = false := by
            rw [Bool.eq_false_iff]
            exact fun hfresh => hnewer ((fresh_iff hne).mp ⟨hbefore, hfresh⟩)
          simp only [haccepts, hbefore, hfresh, require, decide_eq_true hmax, if_true, bind, Except.bind]
          rfl
      · simp [haccount, hstanding, place, hnewer]

theorem Tracks.deliver (hagree : Agreeing organization webhooks) (hwebhook : webhook ∈ webhooks)
    (hdeliveries : ∀ other ∈ deliveries, other ∈ webhooks) (h : Tracks sha collation unit organization tables deliveries) :
    Tracks sha collation unit organization (Billing.deliver sha collation unit tables webhook) (deliveries ++ [webhook]) := by
  have hinvoice := (update_shape webhook).2
  cases hlookup : tables.webhookEvents.lookup webhook.event.providerEventId with
  | some stored =>
    obtain ⟨other, hother, hid, hpayload⟩ := h.known _ stored hlookup
    obtain rfl := hagree.identified other (hdeliveries _ hother) webhook hwebhook hid
    have hsame : Billing.deliver sha collation unit tables other = tables := by
      simp [Billing.deliver, persistEvent, hlookup, hpayload, require, bind, Except.bind, pure, Except.pure]
    rw [hsame]
    refine ⟨h.organizations, ?_, h.others, ?_, ?_⟩
    · rw [standing_snoc, place_again hother]
      exact h.account
    · intro id stored hstored
      obtain ⟨known, hknown, hrest⟩ := h.known id stored hstored
      exact ⟨known, by simp [hknown], hrest⟩
    · intro known hknown
      obtain hknown | hknown := List.mem_append.mp hknown
      · exact h.recorded known hknown
      · obtain rfl : known = other := by simpa using hknown
        exact h.recorded known hother
  | none =>
    have hnew : webhook ∉ deliveries := by
      intro hmem
      have hrecorded := h.recorded webhook hmem
      rw [hlookup] at hrecorded
      cases hrecorded
    have horganization : webhook.event.organization = some organization := by
      simp [VerifiedBillingEvent.organization, webhook.carries, hagree.organization webhook hwebhook]
    have hexists : (some organization).all tables.organizations.contains = true := by simp [h.organizations]
    obtain ⟨accounts, happly, haccount, hothers⟩ := @applyUpdate_ok _ _ _ collation unit organization
      { tables with webhookEvents :=
          tables.webhookEvents.insert webhook.event.providerEventId (webhook.event.row sha webhook.payload) }
      webhooks deliveries webhook hagree hwebhook hdeliveries hnew h.organizations h.account h.others
    have hdeliver : Billing.deliver sha collation unit tables webhook = { tables with
        webhookEvents := tables.webhookEvents.insert webhook.event.providerEventId (webhook.event.row sha webhook.payload)
        accounts } := by
      simp only [Billing.deliver, persistEvent, hlookup, horganization, hexists, webhook.carries, hinvoice, happly, require,
        if_true, bind, Except.bind, pure, Except.pure]
    rw [hdeliver]
    refine ⟨h.organizations, haccount, hothers, ?_, ?_⟩
    · intro id stored hstored
      obtain ⟨rfl, rfl⟩ | ⟨-, hold⟩ := AList.lookup_insert_eq_some_iff.mp hstored
      · exact ⟨webhook, by simp, rfl, rfl⟩
      · obtain ⟨known, hknown, hrest⟩ := h.known id stored hold
        exact ⟨known, by simp [hknown], hrest⟩
    · intro known hknown
      refine AList.isSome_lookup_insert.mpr ?_
      obtain hknown | hknown := List.mem_append.mp hknown
      · exact .inr (h.recorded known hknown)
      · obtain rfl : known = webhook := by simpa using hknown
        exact .inl rfl

theorem tracks_run (hagree : Agreeing organization webhooks) (hdeliveries : ∀ delivery ∈ deliveries, delivery ∈ webhooks) :
    Tracks sha collation unit organization (deliverAll sha collation unit organization deliveries) deliveries := by
  induction deliveries using List.reverseRecOn with
  | nil => exact ⟨rfl, rfl, fun _ _ => rfl, fun _ _ hnone => (nomatch hnone), fun _ hnone => (nomatch hnone)⟩
  | append_singleton deliveries webhook ih =>
    have hbefore : ∀ delivery ∈ deliveries, delivery ∈ webhooks := fun delivery hmem => hdeliveries delivery (by simp [hmem])
    have hrun : deliverAll sha collation unit organization (deliveries ++ [webhook]) =
        Billing.deliver sha collation unit (deliverAll sha collation unit organization deliveries) webhook := by
      simp [deliverAll, Machine.run_append, Machine.run]
    rw [hrun]
    exact (ih hbefore).deliver hagree (hdeliveries webhook (by simp)) hbefore

end Deliveries

section Confluence
variable {δ : Type} [DecidableEq δ] (sha : List UInt8 → δ) (collation : Collation) (unit : PlatformBillingUnit)
  (organization : OrganizationId) (webhooks : List (PlatformWebhook readers config))

def Covers (deliveries : List (PlatformWebhook readers config)) : Prop := ∀ webhook, webhook ∈ deliveries ↔ webhook ∈ webhooks

structure IsNewest (webhook : PlatformWebhook readers config) : Prop where
  mem : webhook ∈ webhooks
  subscription : webhook.update.IsSubscription
  newest : ∀ other ∈ webhooks, other.update.IsSubscription →
    webhook.event.isBefore other.event.createdAtMs other.event.providerEventId = false

def viewAfter (deliveries : List (PlatformWebhook readers config)) : Option AccountView :=
  ((deliverAll sha collation unit organization deliveries).accounts.lookup organization).map BillingAccount.view

structure Confluent : Prop where
  same : ∀ deliveries deliveries', Covers webhooks deliveries → Covers webhooks deliveries' →
    viewAfter sha collation unit organization deliveries = viewAfter sha collation unit organization deliveries'
  newest : ∀ deliveries webhook, Covers webhooks deliveries → IsNewest webhooks webhook →
    viewAfter sha collation unit organization deliveries = some webhook.update.view
  active : ∀ deliveries webhook, (∀ delivery ∈ deliveries, delivery ∈ webhooks) → webhook ∈ webhooks →
    webhook.update.IsCheckout →
    (viewAfter sha collation unit organization deliveries).map (·.status) = some .active →
    (viewAfter sha collation unit organization (deliveries ++ [webhook])).map (·.status) ≠ some .checkoutPending

structure InOrder : Prop where
  newest : ∀ webhook last, IsNewest webhooks webhook → Latest.Unsurpassed (IsNewer collation) webhooks last →
    last.update.view = webhook.update.view
  checkouts : (∀ webhook ∈ webhooks, ¬webhook.update.IsSubscription) →
    ∀ last last', Latest.Unsurpassed (IsNewer collation) webhooks last →
      Latest.Unsurpassed (IsNewer collation) webhooks last' → last.update.tier = last'.update.tier ∧
        (last.update.subscriptionId = none → ∀ webhook ∈ webhooks, webhook.update.subscriptionId = none)
  active : ∀ checkout ∈ webhooks, ∀ webhook ∈ webhooks, checkout.update.IsCheckout → webhook.update.status = .active →
    ¬IsNewer collation checkout webhook

variable {sha collation unit organization webhooks} {deliveries : List (PlatformWebhook readers config)}
  {webhook : PlatformWebhook readers config}

theorem isSubscription_iff (webhook : PlatformWebhook readers config) :
    webhook.update.IsSubscription ↔ webhook.update.status ≠ .checkoutPending := by
  constructor
  · exact fun h => h.status
  · intro hstatus
    obtain ⟨h | h, -⟩ := update_shape webhook
    · exact absurd h.status hstatus
    · exact h

def ComesAfter (webhook other : PlatformWebhook readers config) : Prop :=
  other.event.isBefore webhook.event.createdAtMs webhook.event.providerEventId = true

instance (webhook other : PlatformWebhook readers config) : Decidable (ComesAfter webhook other) := by
  unfold ComesAfter
  infer_instance

theorem comesAfter_iff {webhook other : PlatformWebhook readers config} : ComesAfter webhook other ↔
    other.event.createdAtMs < webhook.event.createdAtMs ∨
      other.event.createdAtMs = webhook.event.createdAtMs ∧ other.event.providerEventId < webhook.event.providerEventId := by
  simp only [ComesAfter, VerifiedBillingEvent.isBefore, Bool.or_eq_true, Bool.and_eq_true, decide_eq_true_eq]

theorem not_comesAfter_self (webhook : PlatformWebhook readers config) : ¬ComesAfter webhook webhook := by
  rw [comesAfter_iff]
  rintro (h | ⟨-, h⟩)
  · exact lt_irrefl _ h
  · exact lt_irrefl _ h

theorem comesAfter_trans (a b c : PlatformWebhook readers config) (hab : ComesAfter a b) (hbc : ComesAfter b c) :
    ComesAfter a c := by
  rw [comesAfter_iff] at hab hbc ⊢
  obtain hab | ⟨hab, hid⟩ := hab
  · obtain hbc | ⟨hbc, -⟩ := hbc
    · exact .inl (hbc.trans hab)
    · exact .inl (by omega)
  · obtain hbc | ⟨hbc, hid'⟩ := hbc
    · exact .inl (by omega)
    · exact .inr ⟨hbc.trans hab, hid'.trans hid⟩

theorem exists_newest (h : ∃ webhook ∈ webhooks, webhook.update.IsSubscription) : ∃ webhook, IsNewest webhooks webhook := by
  obtain ⟨webhook, hmem, hwebhook⟩ := h
  have hsome : webhook ∈ webhooks.filter fun webhook => webhook.update.status ≠ .checkoutPending := by
    simp [hmem, (isSubscription_iff webhook).mp hwebhook]
  cases hshown : Latest.shown ComesAfter (webhooks.filter fun webhook => webhook.update.status ≠ .checkoutPending) with
  | none =>
    rw [Latest.shown_eq_none_iff.mp hshown] at hsome
    cases hsome
  | some newest =>
    obtain ⟨hnewest, hnone⟩ := Latest.unsurpassed_of_shown not_comesAfter_self comesAfter_trans hshown
    simp only [List.mem_filter, decide_eq_true_eq] at hnewest hnone
    refine ⟨newest, hnewest.1, (isSubscription_iff newest).mpr hnewest.2, ?_⟩
    intro other hother hsubscription
    rw [Bool.eq_false_iff]
    exact hnone other ⟨hother, (isSubscription_iff other).mp hsubscription⟩

theorem Covers.subset (h : Covers webhooks deliveries) : ∀ delivery ∈ deliveries, delivery ∈ webhooks :=
  fun delivery hdelivery => (h delivery).mp hdelivery

theorem covers_cons (h : webhook ∈ webhooks) : Covers webhooks (webhook :: webhooks) := by
  intro other
  simp only [List.mem_cons, or_iff_right_iff_imp]
  rintro rfl
  exact h

theorem Covers.unsurpassed (h : Covers webhooks deliveries)
    (hlast : Latest.Unsurpassed (IsNewer collation) deliveries webhook) :
    Latest.Unsurpassed (IsNewer collation) webhooks webhook :=
  ⟨(h webhook).mp hlast.1, fun other hother => hlast.2 other ((h other).mpr hother)⟩

/-- What the owner sees is the event that the account stands on, with the subscription that is known. -/
theorem viewAfter_eq (hagree : Agreeing organization webhooks) (hdeliveries : ∀ delivery ∈ deliveries, delivery ∈ webhooks) :
    viewAfter sha collation unit organization deliveries =
      (standing collation deliveries).map fun current => { current.1.update.view with subscriptionId := current.2 } := by
  rw [viewAfter, (tracks_run hagree hdeliveries).account]
  cases hstanding : standing collation deliveries with
  | none => rfl
  | some current =>
    have hsubscription : (Standing.account unit current).subscriptionId = current.2 := account_subscription hstanding
    simp only [Option.map_some, BillingAccount.view, hsubscription]
    rfl

theorem viewAfter_of_first (hagree : Agreeing organization webhooks)
    (hlast : Latest.Unsurpassed (IsNewer collation) webhooks webhook) :
    viewAfter sha collation unit organization (webhook :: webhooks) = some webhook.update.view := by
  rw [viewAfter_eq hagree (covers_cons hlast.1).subset, standing_of_first hlast.2]
  rfl

theorem Confluent.inOrder (hagree : Agreeing organization webhooks)
    (h : Confluent sha collation unit organization webhooks) : InOrder collation webhooks := by
  refine ⟨?_, ?_, ?_⟩
  · intro webhook last hnewest hlast
    have hview := h.newest (last :: webhooks) webhook (covers_cons hlast.1) hnewest
    rw [viewAfter_of_first hagree hlast] at hview
    exact Option.some.inj hview
  · intro _ last last' hlast hlast'
    have hcovers := covers_cons hlast.1
    refine ⟨?_, ?_⟩
    · have hsame := h.same _ _ hcovers (covers_cons hlast'.1)
      rw [viewAfter_of_first hagree hlast, viewAfter_of_first hagree hlast'] at hsame
      exact congrArg AccountView.tier (Option.some.inj hsame)
    · intro hnone webhook hwebhook
      by_contra hnamed
      have hsame := h.same _ _ hcovers (covers_cons hwebhook)
      rw [viewAfter_of_first hagree hlast, viewAfter_eq hagree (covers_cons hwebhook).subset] at hsame
      cases hstanding : standing collation (webhook :: webhooks) with
      | none =>
        rw [hstanding] at hsame
        cases hsame
      | some current =>
        rw [hstanding] at hsame
        have hknown : current.2.isSome = true :=
          @subscription_kept _ _ collation webhooks (webhook, webhook.update.subscriptionId)
            (Option.ne_none_iff_isSome.mp hnamed) current hstanding
        have hsubscription : last.update.subscriptionId = current.2 :=
          congrArg AccountView.subscriptionId (Option.some.inj hsame)
        rw [← hsubscription, hnone] at hknown
        cases hknown
  · intro checkout hcheckout webhook hwebhook hshape hactive hnewer
    have hone : ∀ delivery ∈ [webhook], delivery ∈ webhooks := by simp [hwebhook]
    have htwo : ∀ delivery ∈ [webhook] ++ [checkout], delivery ∈ webhooks := by simp [hwebhook, hcheckout]
    refine h.active [webhook] checkout hone hcheckout hshape ?_ ?_
    · rw [viewAfter_eq hagree hone]
      exact congrArg some hactive
    · rw [viewAfter_eq hagree htwo, standing_snoc]
      have hplace : place collation (standing collation [webhook]) checkout =
          some (checkout, checkout.update.subscriptionId <|> webhook.update.subscriptionId) := by
        simp [standing, place, hnewer]
      rw [hplace]
      exact congrArg some hshape.status

/-- The account stands on an event that no other is newer than; all of these say the same. -/
theorem InOrder.viewAfter (hagree : Agreeing organization webhooks) (h : InOrder collation webhooks)
    (hcovers : Covers webhooks deliveries) (hnewest : IsNewest webhooks webhook) :
    viewAfter sha collation unit organization deliveries = some webhook.update.view := by
  rw [viewAfter_eq hagree hcovers.subset]
  cases hstanding : standing collation deliveries with
  | none =>
    have hshown : Latest.shown (IsNewer collation) deliveries = none := by rw [← shown_of_standing, hstanding]; rfl
    have hmem := (hcovers webhook).mpr hnewest.mem
    rw [Latest.shown_eq_none_iff.mp hshown] at hmem
    cases hmem
  | some current =>
    have hview := h.newest webhook current.1 hnewest (hcovers.unsurpassed (unsurpassed_of_standing hstanding))
    obtain ⟨id, hid⟩ := Option.isSome_iff_exists.mp hnewest.subscription.identified
    have hown : current.1.update.subscriptionId = some id := (congrArg AccountView.subscriptionId hview).trans hid
    have hknown := (subscription_of_standing hstanding).1 id hown
    rw [Option.map_some, ← hview, hknown, ← hown]
    rfl

theorem viewAfter_none (hagree : Agreeing organization webhooks) (hcovers : Covers webhooks deliveries)
    (hnone : webhooks = []) : Billing.viewAfter sha collation unit organization deliveries = none := by
  have hempty : deliveries = [] := by
    rw [List.eq_nil_iff_forall_not_mem]
    intro delivery hdelivery
    have hmem := hcovers.subset delivery hdelivery
    rw [hnone] at hmem
    cases hmem
  rw [viewAfter_eq hagree hcovers.subset, hempty]
  rfl

/-- Without an event of a subscription the account shows the checkout that it stands on. -/
theorem InOrder.viewAfter_checkouts (hagree : Agreeing organization webhooks) (h : InOrder collation webhooks)
    (hcovers : Covers webhooks deliveries) (hnone : ∀ webhook ∈ webhooks, ¬webhook.update.IsSubscription)
    (hsome : webhooks ≠ []) : ∃ last, Latest.Unsurpassed (IsNewer collation) webhooks last ∧
      Billing.viewAfter sha collation unit organization deliveries = some last.update.view := by
  cases hstanding : standing collation deliveries with
  | none =>
    have hshown : Latest.shown (IsNewer collation) deliveries = none := by rw [← shown_of_standing, hstanding]; rfl
    have hempty := Latest.shown_eq_none_iff.mp hshown
    obtain ⟨webhook, hwebhook⟩ := List.exists_mem_of_ne_nil webhooks hsome
    have hmem := (hcovers webhook).mpr hwebhook
    rw [hempty] at hmem
    cases hmem
  | some current =>
    have hlast := hcovers.unsurpassed (unsurpassed_of_standing hstanding)
    obtain ⟨hown, hfrom⟩ := subscription_of_standing hstanding
    refine ⟨current.1, hlast, ?_⟩
    have hknown : current.2 = current.1.update.subscriptionId := by
      cases hsubscription : current.1.update.subscriptionId with
      | some id => exact hown id hsubscription
      | none =>
        rw [Option.eq_none_iff_forall_ne_some]
        intro id hid
        obtain ⟨webhook, hwebhook, hnamed⟩ := hfrom id hid
        rw [(h.checkouts hnone _ _ hlast hlast).2 hsubscription webhook (hcovers.subset webhook hwebhook)] at hnamed
        cases hnamed
    rw [viewAfter_eq hagree hcovers.subset, hstanding, Option.map_some, hknown]
    rfl

theorem checkouts_alike (hagree : Agreeing organization webhooks) (h : InOrder collation webhooks)
    (hnone : ∀ webhook ∈ webhooks, ¬webhook.update.IsSubscription) {last last' : PlatformWebhook readers config}
    (hlast : Latest.Unsurpassed (IsNewer collation) webhooks last)
    (hlast' : Latest.Unsurpassed (IsNewer collation) webhooks last') : last.update.view = last'.update.view := by
  have hcheckout (webhook : PlatformWebhook readers config) (hwebhook : webhook ∈ webhooks) : webhook.update.IsCheckout :=
    (update_shape webhook).1.resolve_right (hnone webhook hwebhook)
  have hshape := hcheckout last hlast.1
  have hshape' := hcheckout last' hlast'.1
  obtain ⟨htier, hunnamed⟩ := h.checkouts hnone last last' hlast hlast'
  have hsubscription : last.update.subscriptionId = last'.update.subscriptionId := by
    cases hid : last.update.subscriptionId with
    | none => exact (hunnamed hid last' hlast'.1).symm
    | some id =>
      cases hid' : last'.update.subscriptionId with
      | none =>
        have hboth := (h.checkouts hnone last' last hlast' hlast).2 hid' last hlast.1
        rw [hid] at hboth
        cases hboth
      | some id' => rw [hagree.subscription last hlast.1 last' hlast'.1 id id' hid hid']
  simp only [PlatformBillingUpdate.view, htier, hsubscription, hshape.status, hshape'.status, hshape.quantity,
    hshape'.quantity, hshape.period, hshape'.period]

theorem InOrder.same (hagree : Agreeing organization webhooks) (h : InOrder collation webhooks)
    {deliveries' : List (PlatformWebhook readers config)} (hcovers : Covers webhooks deliveries)
    (hcovers' : Covers webhooks deliveries') :
    Billing.viewAfter sha collation unit organization deliveries =
      Billing.viewAfter sha collation unit organization deliveries' := by
  by_cases hsome : ∃ webhook ∈ webhooks, webhook.update.IsSubscription
  · obtain ⟨webhook, hnewest⟩ := exists_newest hsome
    rw [h.viewAfter hagree hcovers hnewest, h.viewAfter hagree hcovers' hnewest]
  · have hnone : ∀ webhook ∈ webhooks, ¬webhook.update.IsSubscription :=
      fun webhook hwebhook hsubscription => hsome ⟨webhook, hwebhook, hsubscription⟩
    by_cases hempty : webhooks = []
    · rw [viewAfter_none hagree hcovers hempty, viewAfter_none hagree hcovers' hempty]
    · obtain ⟨last, hlast, hview⟩ : ∃ last, Latest.Unsurpassed (IsNewer collation) webhooks last ∧
          Billing.viewAfter sha collation unit organization deliveries = some last.update.view :=
        h.viewAfter_checkouts hagree hcovers hnone hempty
      obtain ⟨last', hlast', hview'⟩ : ∃ last, Latest.Unsurpassed (IsNewer collation) webhooks last ∧
          Billing.viewAfter sha collation unit organization deliveries' = some last.update.view :=
        h.viewAfter_checkouts hagree hcovers' hnone hempty
      rw [hview, hview', checkouts_alike hagree h hnone hlast hlast']

/-- A checkout does not come after an event that made the account active. -/
theorem InOrder.stays_active (hagree : Agreeing organization webhooks) (h : InOrder collation webhooks)
    (hdeliveries : ∀ delivery ∈ deliveries, delivery ∈ webhooks) (hwebhook : webhook ∈ webhooks)
    (hcheckout : webhook.update.IsCheckout)
    (hactive : (Billing.viewAfter sha collation unit organization deliveries).map (·.status) = some .active) :
    (Billing.viewAfter sha collation unit organization (deliveries ++ [webhook])).map (·.status) = some .active := by
  have hboth : ∀ delivery ∈ deliveries ++ [webhook], delivery ∈ webhooks := by
    intro delivery hdelivery
    obtain hdelivery | hdelivery := List.mem_append.mp hdelivery
    · exact hdeliveries delivery hdelivery
    · obtain rfl : delivery = webhook := by simpa using hdelivery
      exact hwebhook
  rw [viewAfter_eq hagree hdeliveries] at hactive
  rw [viewAfter_eq hagree hboth, standing_snoc]
  cases hstanding : standing collation deliveries with
  | none =>
    rw [hstanding] at hactive
    cases hactive
  | some current =>
    rw [hstanding] at hactive
    have hstatus : current.1.update.status = .active := Option.some.inj hactive
    obtain ⟨hcurrent, -⟩ := unsurpassed_of_standing hstanding
    have hnot := h.active webhook hwebhook current.1 (hdeliveries _ hcurrent) hcheckout hstatus
    have hplace : place collation (some current) webhook = some current := by simp [place, hnot]
    rw [hplace]
    exact congrArg some hstatus

/-- The account of an organization does not depend on the order of the deliveries, and is that of the newest event of
a subscription, exactly if no checkout and nothing else that says something different comes last. -/
theorem confluent_iff (hagree : Agreeing organization webhooks) :
    Confluent sha collation unit organization webhooks ↔ InOrder collation webhooks := by
  constructor
  · exact fun h => h.inOrder hagree
  · intro h
    refine ⟨?_, ?_, ?_⟩
    · intro deliveries deliveries' hcovers hcovers'
      exact h.same hagree hcovers hcovers'
    · intro deliveries webhook hcovers hnewest
      exact h.viewAfter hagree hcovers hnewest
    · intro deliveries webhook hdeliveries hwebhook hcheckout hactive
      rw [h.stays_active hagree hdeliveries hwebhook hcheckout hactive]
      decide

end Confluence

section Sample
open Sync (Value)

def sampleReaders : Readers := ⟨fun _ => some 1, fun _ => none⟩

def sampleConfig : StripeBillingConfig where
  secretKey := "sk_test_1"
  connectedAccount := none
  proBasePriceId := "price_base"
  usageMeters := [⟨"price_payg", "price_prom"⟩]

def sampleMetadata : String × Value :=
  ("metadata", .object [("ffdb_scope", .string "platform"), ("ffdb_organization_id", .string "1"),
    ("ffdb_tier", .string "pay_as_you_go")])

def sampleCheckoutSent (id : String) (created : Int) : StripeEvent where
  id := id
  eventType := "checkout.session.completed"
  created := created
  livemode := false
  account := none
  object := .object [("customer", .string "cus_0001"), ("subscription", .string "sub_0001"), sampleMetadata]

def sampleActiveSent : StripeEvent where
  id := "evt_0002"
  eventType := "customer.subscription.created"
  created := 1000
  livemode := false
  account := none
  object := .object [("id", .string "sub_0001"), ("customer", .string "cus_0001"), ("status", .string "active"),
    ("items", .object [("data", .array [.object [("price", .string "price_payg"),
      ("current_period_start", .number (.posInt 1000)), ("current_period_end", .number (.posInt 2000))]])]), sampleMetadata]

def sampleUpdate (status : ProviderSubscriptionStatus) (start finish : Option Int) : PlatformBillingUpdate :=
  ⟨1, "cus_0001", some "sub_0001", .payAsYouGo, status, 1, start, finish, false⟩

def sampleActive : PlatformWebhook sampleReaders sampleConfig where
  payload := [2]
  event := ⟨"evt_0002", "customer.subscription.created", false, 1000000,
    some (sampleUpdate .active (some 1000000) (some 2000000)), none⟩
  update := sampleUpdate .active (some 1000000) (some 2000000)
  carries := rfl
  verified := ⟨sampleActiveSent, by decide +kernel⟩

def sampleLate : PlatformWebhook sampleReaders sampleConfig where
  payload := [3]
  event := ⟨"evt_0003", "checkout.session.completed", false, 1001000, some (sampleUpdate .checkoutPending none none), none⟩
  update := sampleUpdate .checkoutPending none none
  carries := rfl
  verified := ⟨sampleCheckoutSent "evt_0003" 1001, by decide +kernel⟩

def sampleEarly : PlatformWebhook sampleReaders sampleConfig where
  payload := [1]
  event := ⟨"evt_0001", "checkout.session.completed", false, 999000, some (sampleUpdate .checkoutPending none none), none⟩
  update := sampleUpdate .checkoutPending none none
  carries := rfl
  verified := ⟨sampleCheckoutSent "evt_0001" 999, by decide +kernel⟩

/-- A checkout that was created after the subscription became active takes the account back. -/
theorem checkout_takes_back : ¬Confluent id byteCollation .organization 1 [sampleActive, sampleLate] := by
  intro h
  have hstays := h.active [sampleActive] sampleLate (by simp) (by simp) ⟨by decide, rfl, rfl, rfl, rfl⟩ (by decide +kernel)
  exact hstays (by decide +kernel)

theorem sample_agreeing : Agreeing 1 [sampleActive, sampleEarly] := by
  refine ⟨?_, ?_, ?_, ?_⟩
  · simp [sampleActive, sampleEarly, sampleUpdate]
  · simp [sampleActive, sampleEarly, sampleUpdate]
  · simp [sampleActive, sampleEarly, sampleUpdate]
  · have hapart : ¬sampleActive.event.providerEventId = sampleEarly.event.providerEventId := by decide +kernel
    simp [hapart, Ne.symm hapart]

theorem unsurpassed_sample {webhook : PlatformWebhook sampleReaders sampleConfig}
    (h : Latest.Unsurpassed (IsNewer byteCollation) [sampleActive, sampleEarly] webhook) : webhook = sampleActive := by
  obtain rfl | rfl : webhook = sampleActive ∨ webhook = sampleEarly := by simpa using h.1
  · rfl
  · exact absurd (by decide +kernel) (h.2 sampleActive (by simp))

theorem sample_confluent : Confluent id byteCollation .organization 1 [sampleActive, sampleEarly] := by
  refine (confluent_iff sample_agreeing).mpr ⟨?_, ?_, ?_⟩
  · intro webhook last hnewest hlast
    obtain rfl | rfl : webhook = sampleActive ∨ webhook = sampleEarly := by simpa using hnewest.mem
    · rw [unsurpassed_sample hlast]
    · exact absurd rfl hnewest.subscription.status
  · intro hnone
    exact absurd ((isSubscription_iff sampleActive).mpr (by decide)) (hnone sampleActive (by simp))
  · intro checkout hcheckout webhook hwebhook hshape hactive
    obtain rfl | rfl : checkout = sampleActive ∨ checkout = sampleEarly := by simpa using hcheckout
    · exact absurd hshape.status (by decide)
    · obtain rfl | rfl : webhook = sampleActive ∨ webhook = sampleEarly := by simpa using hwebhook
      · decide +kernel
      · exact absurd hactive (by decide)

end Sample

end Ffdb.Billing
