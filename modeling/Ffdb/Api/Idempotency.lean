import Ffdb.Lib.Keyed
import Ffdb.Lib.Machine
import Ffdb.Lib.Sha256
import Ffdb.Lib.Text
import Mathlib.Data.List.Induction

/-! Idempotency keys of requests. A claimant owns a key under a lease until it completes or abandons it, or
until its lease has expired and another one takes over. -/
namespace Ffdb.Api
open Text

abbrev Uuid := BitVec 128

def leaseMicros : Int := 30*1000000

def retentionMicros : Int := 24*60*60*1000000

def maxResponseBytes : Nat := 512*1024

inductive Scope where
  | project (id : Uuid)
  | organization (id : Uuid)
  deriving DecidableEq

structure KeyRef where
  scope : Scope
  operation : List Char
  keyHash : List UInt8
  deriving DecidableEq

structure Claim where
  key : KeyRef
  ownerToken : Uuid
  deriving DecidableEq

structure StatusCode where
  code : Nat
  lower : 100 ≤ code
  upper : code < 1000
  deriving DecidableEq

namespace StatusCode

def isServerError (status : StatusCode) : Bool := 500 ≤ status.code && status.code < 600

def fromStored (status : Int) : Option StatusCode :=
  if h : 100 ≤ status.toNat ∧ status.toNat < 1000 then some ⟨status.toNat, h.1, h.2⟩ else none

end StatusCode

inductive Admission (Body : Type) where
  | owner (claim : Claim)
  | replay (status : StatusCode) (body : Body)
  | conflict
  | inProgress
  deriving DecidableEq

inductive IdempotencyError where
  | invalidKey
  | invalidRequest
  | invalidStoredResponse
  | responseTooLarge
  | unavailable
  deriving DecidableEq

structure KeyRow (Body : Type) where
  requestHash : List UInt8
  responseStatus : Option Int := none
  responseBody : Option Body := none
  ownerToken : Option Uuid
  leaseExpiresAt : Option Int
  expiresAt : Int
  deriving DecidableEq

structure Bodies (Body : Type) where
  encodedLength : Body → Nat
  storedLength : Body → Nat

abbrev KeyStore (Body : Type) := Table KeyRef (KeyRow Body)

def isKeyChar (c : Char) : Bool := 33 ≤ c.toNat && c.toNat ≤ 126 && c ≠ ',' && c ≠ ';'

def keyHash (key : List Char) : Except IdempotencyError (List UInt8) :=
  if 8 ≤ byteLength key && byteLength key ≤ 256 && key.all isKeyChar then
    .ok (Sha256.digest (key.map fun c => UInt8.ofNat c.toNat))
  else .error .invalidKey

def keyRef (scope : Scope) (operation key : List Char) : Except IdempotencyError KeyRef :=
  if operation.isEmpty || 128 < byteLength operation then .error .invalidRequest
  else (keyHash key).map fun keyHash => ⟨scope, operation, keyHash⟩

section Rows
variable {Body : Type} (now : Int)

namespace KeyRow
variable (row : KeyRow Body)

def expired : Bool := row.expiresAt ≤ now

def leaseExpired : Bool := row.leaseExpiresAt.all fun lease => lease ≤ now

def isPurgeable : Bool := row.expired now && (row.ownerToken.isNone || row.leaseExpired now)

end KeyRow

def candidate (requestHash : List UInt8) (ownerToken : Uuid) : KeyRow Body where
  requestHash
  ownerToken := some ownerToken
  leaseExpiresAt := some (now + leaseMicros)
  expiresAt := now + retentionMicros

/-- A new owner for the row; the request and the retention stay. -/
def takeOver (ownerToken : Uuid) (row : KeyRow Body) : KeyRow Body :=
  { row with ownerToken := some ownerToken, leaseExpiresAt := some (now + leaseMicros) }

def decideRow (key : KeyRef) (requestHash : List UInt8) (ownerToken : Uuid) (row : KeyRow Body) :
    KeyRow Body × Except IdempotencyError (Admission Body) :=
  let owner := Admission.owner ⟨key, ownerToken⟩
  if row.ownerToken = some ownerToken then (row, .ok owner)
  else if row.expired now && (row.leaseExpired now || row.ownerToken.isNone) then
    (candidate now requestHash ownerToken, .ok owner)
  else if row.requestHash ≠ requestHash then (row, .ok .conflict)
  else match row.responseStatus, row.responseBody with
    | some status, some body =>
      match (StatusCode.fromStored status).filter fun status => !status.isServerError with
      | some status => (row, .ok (.replay status body))
      | none => (row, .error .invalidStoredResponse)
    | _, _ =>
      if row.leaseExpired now || row.ownerToken.isNone then (takeOver now ownerToken row, .ok owner)
      else (row, .ok .inProgress)

end Rows

section Calls
variable {Body : Type} (bodies : Bodies Body) (store : KeyStore Body) (now : Int)

/-- An admission. A key that was there when the candidate was to be inserted may be gone by the time it is
to be locked. -/
def admitKey (key : KeyRef) (requestHash : List UInt8) (ownerToken : Uuid) (conflicted : Bool) :
    KeyStore Body × Except IdempotencyError (Admission Body) :=
  match store.lookup key with
  | none =>
    if conflicted then (store, .error .unavailable)
    else (store.insert key (candidate now requestHash ownerToken), .ok (.owner ⟨key, ownerToken⟩))
  | some row =>
    let decided := decideRow now key requestHash ownerToken row
    (store.insert key decided.1, decided.2)

def KeyRow.isOwnedBy (claim : Claim) (row : KeyRow Body) : Bool :=
  row.ownerToken = some claim.ownerToken && row.responseBody.isNone

def KeyRow.respond (row : KeyRow Body) (status : StatusCode) (body : Body) : KeyRow Body :=
  { row with responseStatus := some status.code, responseBody := some body, ownerToken := none, leaseExpiresAt := none }

def complete (claim : Claim) (status : StatusCode) (body : Body) : KeyStore Body × Except IdempotencyError Unit :=
  if status.isServerError || status.code = 401 || status.code = 403 then (store, .error .invalidStoredResponse)
  else if maxResponseBytes < bodies.encodedLength body then (store, .error .responseTooLarge)
  else match store.lookup claim.key with
    | some row =>
      -- the table itself bounds the text of a body
      if row.isOwnedBy claim && bodies.storedLength body ≤ maxResponseBytes then
        (store.insert claim.key (row.respond status body), .ok ())
      else (store, .error .unavailable)
    | none => (store, .error .unavailable)

def abandon (claim : Claim) : KeyStore Body :=
  match store.lookup claim.key with
  | some row => if row.isOwnedBy claim then store.erase claim.key else store
  | none => store

def renew (claim : Claim) : KeyStore Body × Bool :=
  match store.lookup claim.key with
  | some row =>
    if row.isOwnedBy claim then
      (store.insert claim.key { row with leaseExpiresAt := some (now + leaseMicros) }, true)
    else (store, false)
  | none => (store, false)

def purgeExpired (limit : Nat) (picked : List KeyRef) : KeyStore Body × Except IdempotencyError Nat :=
  if limit = 0 ∨ 10000 < limit then (store, .error .invalidRequest)
  else
    let purged := ((picked.filter fun key => (store.lookup key).any fun row => row.isPurgeable now).take limit).foldl
      (fun store key => store.erase key) store
    (purged, .ok (store.size - purged.size))

end Calls

/-- What reaches the database. An admission is preceded by a removal of its own. -/
inductive KeyCall (Body : Type) where
  | admitKey (scope : Scope) (operation key : List Char) (requestHash : List UInt8) (ownerToken : Uuid) (conflicted : Bool)
  | renew (claim : Claim)
  | complete (claim : Claim) (status : StatusCode) (body : Body)
  | abandon (claim : Claim)
  | purgeExpired (limit : Nat) (picked : List KeyRef)

inductive KeyAnswer (Body : Type) where
  | admission (result : Except IdempotencyError (Admission Body))
  | renewed (owned : Bool)
  | completed (result : Except IdempotencyError Unit)
  | abandoned
  | purged (result : Except IdempotencyError Nat)
  deriving DecidableEq

/-- A call with the time its transaction began at, which is the time it reads, and the time it takes effect. -/
structure KeyEvent (Body : Type) where
  startedAt : Int
  effectiveAt : Int
  call : KeyCall Body

section Runs
variable {Body : Type} (bodies : Bodies Body)

def keyCall (store : KeyStore Body) (event : KeyEvent Body) : KeyStore Body × KeyAnswer Body :=
  match event.call with
  | .admitKey scope operation key requestHash ownerToken conflicted =>
    match keyRef scope operation key with
    | .error error => (store, .admission (.error error))
    | .ok key =>
      let admitted := admitKey store event.startedAt key requestHash ownerToken conflicted
      (admitted.1, .admission admitted.2)
  | .renew claim =>
    let renewed := renew store event.startedAt claim
    (renewed.1, .renewed renewed.2)
  | .complete claim status body =>
    let completed := complete bodies store claim status body
    (completed.1, .completed completed.2)
  | .abandon claim => (abandon store claim, .abandoned)
  | .purgeExpired limit picked =>
    let purged := purgeExpired store event.startedAt limit picked
    (purged.1, .purged purged.2)

abbrev Beliefs := Claim → Option Int

def learn (beliefs : Beliefs) (event : KeyEvent Body) (answer : KeyAnswer Body) : Beliefs :=
  match event.call, answer with
  | .admitKey _ _ _ _ _ _, .admission (.ok (.owner claim)) =>
    Function.update beliefs claim (some (event.startedAt + leaseMicros))
  | .renew claim, .renewed owned =>
    Function.update beliefs claim (if owned then some (event.startedAt + leaseMicros) else none)
  | .complete claim _ _, .completed (.ok ()) => Function.update beliefs claim none
  | .abandon claim, _ => Function.update beliefs claim none
  | _, _ => beliefs

structure KeyWorld (Body : Type) where
  store : KeyStore Body := ∅
  beliefs : Beliefs := fun _ => none

def keyStep (world : KeyWorld Body) (event : KeyEvent Body) : KeyWorld Body :=
  let called := keyCall bodies world.store event
  ⟨called.1, learn world.beliefs event called.2⟩

def keyRun (events : List (KeyEvent Body)) : KeyWorld Body := Machine.run (keyStep bodies) {} events

end Runs

def Timely {Body : Type} (clock : Int) : List (KeyEvent Body) → Prop
  | [] => True
  | event :: events => clock ≤ event.effectiveAt ∧ event.startedAt ≤ event.effectiveAt ∧
      Timely event.effectiveAt events

def KeyEvent.tokens {Body : Type} (event : KeyEvent Body) : List Uuid :=
  match event.call with
  | .admitKey _ _ _ _ ownerToken _ => [ownerToken]
  | _ => []

section Leases
variable {Body : Type} {bodies : Bodies Body} {store : KeyStore Body} {now until' : Int} {claim holder : Claim}
  {key : KeyRef} {requestHash : List UInt8} {ownerToken : Uuid} {conflicted : Bool}

def Holds (store : KeyStore Body) (claim : Claim) (lease : Int) : Prop :=
  ∃ row, store.lookup claim.key = some row ∧ row.ownerToken = some claim.ownerToken ∧ row.leaseExpiresAt = some lease

theorem Holds.insert {lease : Int} {row : KeyRow Body} (h : Holds store holder lease)
    (hsame : holder.key = key → row.ownerToken = some holder.ownerToken ∧ row.leaseExpiresAt = some lease) :
    Holds (store.insert key row) holder lease := by
  obtain ⟨row', hlookup, howner, hlease⟩ := h
  by_cases hkey : holder.key = key
  · exact ⟨row, by rw [hkey, AList.lookup_insert], hsame hkey⟩
  · exact ⟨row', by rw [AList.lookup_insert_ne hkey, hlookup], howner, hlease⟩

/-- The row of a holder is not touched by a decision for another claimant. -/
theorem decideRow_of_lease {row : KeyRow Body} {token : Uuid} {lease : Int} (howner : row.ownerToken = some token)
    (hlease : row.leaseExpiresAt = some lease) (hlive : now < lease) :
    (decideRow now key requestHash ownerToken row).1 = row := by
  have hexpired : row.leaseExpired now = false := by
    simp only [KeyRow.leaseExpired, hlease, Option.all_some, decide_eq_false_iff_not]
    omega
  have hsome : row.ownerToken.isNone = false := by rw [howner]; rfl
  unfold decideRow
  simp only [hexpired, hsome, Bool.or_false, Bool.and_false, Bool.false_eq_true, if_false]
  split_ifs
  · rfl
  · rfl
  · cases row.responseStatus with
    | none => rfl
    | some status =>
      cases row.responseBody with
      | none => rfl
      | some body =>
        simp only
        cases (StatusCode.fromStored status).filter fun status => !status.isServerError with
        | none => rfl
        | some _ => rfl

theorem Holds.admitKey {lease : Int} (h : Holds store holder lease) (hlive : now < lease) :
    Holds (admitKey store now key requestHash ownerToken conflicted).1 holder lease := by
  unfold Api.admitKey
  cases hrow : store.lookup key with
  | none =>
    simp only
    split_ifs
    · exact h
    · refine h.insert ?_
      rintro rfl
      obtain ⟨row, hlookup, -⟩ := h
      rw [hrow] at hlookup
      cases hlookup
  | some row =>
    refine h.insert ?_
    rintro rfl
    obtain ⟨row', hlookup, howner, hlease⟩ := h
    obtain rfl := Option.some.inj (hlookup.symm.trans hrow)
    rw [decideRow_of_lease howner hlease hlive]
    exact ⟨howner, hlease⟩

theorem not_isOwnedBy {row : KeyRow Body} (howner : row.ownerToken = some holder.ownerToken)
    (hkey : holder.key = claim.key) (hne : holder ≠ claim) : row.isOwnedBy claim = false := by
  have htoken : holder.ownerToken ≠ claim.ownerToken := by
    intro htoken
    rcases holder with ⟨key, token⟩
    rcases claim with ⟨key', token'⟩
    obtain rfl : key = key' := hkey
    obtain rfl : token = token' := htoken
    exact hne rfl
  simp [KeyRow.isOwnedBy, howner, htoken]

theorem Holds.renew {lease : Int} (h : Holds store holder lease) (hne : holder ≠ claim) :
    Holds (renew store now claim).1 holder lease := by
  unfold Api.renew
  cases hrow : store.lookup claim.key with
  | none => exact h
  | some row =>
    simp only
    by_cases howned : row.isOwnedBy claim = true
    · rw [if_pos howned]
      refine h.insert ?_
      intro hkey
      obtain ⟨row', hlookup, howner, -⟩ := h
      rw [hkey] at hlookup
      obtain rfl := Option.some.inj (hlookup.symm.trans hrow)
      rw [not_isOwnedBy howner hkey hne] at howned
      cases howned
    · rw [if_neg howned]
      exact h

theorem Holds.complete {lease : Int} {status : StatusCode} {body : Body} (h : Holds store holder lease)
    (hne : holder ≠ claim) : Holds (complete bodies store claim status body).1 holder lease := by
  unfold Api.complete
  split_ifs
  · exact h
  · exact h
  · cases hrow : store.lookup claim.key with
    | none => exact h
    | some row =>
      simp only
      by_cases howned : (row.isOwnedBy claim && bodies.storedLength body ≤ maxResponseBytes) = true
      · rw [if_pos howned]
        refine h.insert ?_
        intro hkey
        obtain ⟨row', hlookup, howner, -⟩ := h
        rw [hkey] at hlookup
        obtain rfl := Option.some.inj (hlookup.symm.trans hrow)
        rw [not_isOwnedBy howner hkey hne] at howned
        cases howned
      · rw [if_neg howned]
        exact h

theorem Holds.abandon {lease : Int} (h : Holds store holder lease) (hne : holder ≠ claim) :
    Holds (abandon store claim) holder lease := by
  unfold Api.abandon
  cases hrow : store.lookup claim.key with
  | none => exact h
  | some row =>
    simp only
    by_cases howned : row.isOwnedBy claim = true
    · rw [if_pos howned]
      obtain ⟨row', hlookup, howner, hlease⟩ := h
      by_cases hkey : holder.key = claim.key
      · rw [hkey] at hlookup
        obtain rfl := Option.some.inj (hlookup.symm.trans hrow)
        rw [not_isOwnedBy howner hkey hne] at howned
        cases howned
      · exact ⟨row', (AList.lookup_erase_ne hkey).trans hlookup, howner, hlease⟩
    · rw [if_neg howned]
      exact h

theorem lookup_foldl_erase {keys : List KeyRef} (h : key ∉ keys) :
    (keys.foldl (fun store key => store.erase key) store).lookup key = store.lookup key := by
  induction keys generalizing store with
  | nil => rfl
  | cons first keys ih =>
    rw [List.mem_cons, not_or] at h
    rw [List.foldl_cons, ih h.2, AList.lookup_erase_ne h.1]

theorem lookup_purgeExpired {limit : Nat} {picked : List KeyRef}
    (h : (store.lookup key).any (fun row => row.isPurgeable now) = false) :
    (purgeExpired store now limit picked).1.lookup key = store.lookup key := by
  unfold purgeExpired
  split_ifs
  · rfl
  · refine lookup_foldl_erase ?_
    intro hmem
    have hfilter := (List.mem_filter.mp (List.mem_of_mem_take hmem)).2
    rw [h] at hfilter
    cases hfilter

theorem Holds.purgeExpired {lease : Int} (limit : Nat) (picked : List KeyRef) (h : Holds store holder lease)
    (hlive : now < lease) : Holds (purgeExpired store now limit picked).1 holder lease := by
  obtain ⟨row, hlookup, howner, hlease⟩ := h
  refine ⟨row, ?_, howner, hlease⟩
  rw [lookup_purgeExpired, hlookup]
  have hexpired : row.leaseExpired now = false := by
    simp only [KeyRow.leaseExpired, hlease, Option.all_some, decide_eq_false_iff_not]
    omega
  simp [hlookup, KeyRow.isPurgeable, howner, hexpired]

theorem Holds.of_insert {row : KeyRow Body} {lease : Int} (howner : row.ownerToken = some ownerToken)
    (hlease : row.leaseExpiresAt = some lease) : Holds (store.insert key row) ⟨key, ownerToken⟩ lease :=
  ⟨row, AList.lookup_insert _, howner, hlease⟩

/-- A decision makes an owner only by writing its token and a new lease into the row. -/
theorem decideRow_owner {row : KeyRow Body} (hfresh : row.ownerToken ≠ some ownerToken)
    (h : (decideRow now key requestHash ownerToken row).2 = .ok (.owner claim)) :
    claim = ⟨key, ownerToken⟩ ∧ (decideRow now key requestHash ownerToken row).1.ownerToken = some ownerToken ∧
      (decideRow now key requestHash ownerToken row).1.leaseExpiresAt = some (now + leaseMicros) := by
  unfold decideRow at h ⊢
  rw [if_neg hfresh] at h ⊢
  by_cases hreset : (row.expired now && (row.leaseExpired now || row.ownerToken.isNone)) = true
  · rw [if_pos hreset] at h ⊢
    cases h
    exact ⟨rfl, rfl, rfl⟩
  rw [if_neg hreset] at h ⊢
  by_cases hhash : row.requestHash ≠ requestHash
  · rw [if_pos hhash] at h
    cases h
  rw [if_neg hhash] at h ⊢
  split at h
  case h_1 status body _ _ =>
    cases hstatus : (StatusCode.fromStored status).filter fun status => !status.isServerError with
    | none =>
      rw [hstatus] at h
      cases h
    | some status =>
      rw [hstatus] at h
      cases h
  case h_2 =>
    split_ifs at h ⊢
    · cases h
      exact ⟨rfl, rfl, rfl⟩
    · cases h

theorem admit_owner (hfresh : ∀ row, store.lookup key = some row → row.ownerToken ≠ some ownerToken)
    (h : (admitKey store now key requestHash ownerToken conflicted).2 = .ok (.owner claim)) :
    claim = ⟨key, ownerToken⟩ ∧
      Holds (admitKey store now key requestHash ownerToken conflicted).1 claim (now + leaseMicros) := by
  unfold admitKey at h ⊢
  cases hrow : store.lookup key with
  | none =>
    simp only [hrow] at h ⊢
    split_ifs at h ⊢
    cases h
    exact ⟨rfl, Holds.of_insert rfl rfl⟩
  | some row =>
    simp only [hrow] at h ⊢
    obtain ⟨rfl, howner, hlease⟩ := decideRow_owner (hfresh row hrow) h
    exact ⟨rfl, Holds.of_insert howner hlease⟩

theorem renew_owner (h : (renew store now claim).2 = true) : Holds (renew store now claim).1 claim (now + leaseMicros) := by
  unfold renew at h ⊢
  cases hrow : store.lookup claim.key with
  | none =>
    simp only [hrow] at h
    cases h
  | some row =>
    simp only [hrow] at h ⊢
    by_cases howned : row.isOwnedBy claim = true
    · rw [if_pos howned]
      simp only [KeyRow.isOwnedBy, Bool.and_eq_true, decide_eq_true_eq] at howned
      exact Holds.of_insert howned.1 rfl
    · rw [if_neg howned] at h
      cases h

/-- A completion that succeeds was the owner's, and settles the row. -/
theorem complete_ok {status : StatusCode} {body : Body} (h : (complete bodies store claim status body).2 = .ok ()) :
    ∃ row, store.lookup claim.key = some row ∧ row.ownerToken = some claim.ownerToken ∧
      status.isServerError = false ∧
      (complete bodies store claim status body).1 = store.insert claim.key (row.respond status body) := by
  unfold complete at h ⊢
  by_cases hstatus : (status.isServerError || status.code = 401 || status.code = 403) = true
  · rw [if_pos hstatus] at h
    cases h
  rw [if_neg hstatus] at h ⊢
  by_cases hlength : maxResponseBytes < bodies.encodedLength body
  · rw [if_pos hlength] at h
    cases h
  rw [if_neg hlength] at h ⊢
  cases hrow : store.lookup claim.key with
  | none =>
    simp only [hrow] at h
    cases h
  | some row =>
    simp only [hrow] at h ⊢
    by_cases howned : (row.isOwnedBy claim && bodies.storedLength body ≤ maxResponseBytes) = true
    · rw [if_pos howned]
      simp only [KeyRow.isOwnedBy, Bool.and_eq_true, decide_eq_true_eq] at howned
      simp only [Bool.or_eq_true, not_or, Bool.not_eq_true] at hstatus
      exact ⟨row, rfl, howned.1.1, hstatus.1.1, rfl⟩
    · rw [if_neg howned] at h
      cases h

theorem complete_error {status : StatusCode} {body : Body} (h : (complete bodies store claim status body).2 ≠ .ok ()) :
    (complete bodies store claim status body).1 = store := by
  unfold complete at h ⊢
  split_ifs at h ⊢
  · rfl
  · rfl
  · cases hrow : store.lookup claim.key with
    | none => rfl
    | some row =>
      simp only [hrow] at h ⊢
      by_cases howned : (row.isOwnedBy claim && bodies.storedLength body ≤ maxResponseBytes) = true
      · rw [if_pos howned] at h
        exact absurd rfl h
      · rw [if_neg howned]

theorem abandon_owner (h : abandon store claim ≠ store) :
    ∃ row, store.lookup claim.key = some row ∧ row.ownerToken = some claim.ownerToken := by
  unfold abandon at h
  cases hrow : store.lookup claim.key with
  | none =>
    simp only [hrow] at h
    exact absurd rfl h
  | some row =>
    simp only [hrow] at h
    by_cases howned : row.isOwnedBy claim = true
    · simp only [KeyRow.isOwnedBy, Bool.and_eq_true, decide_eq_true_eq] at howned
      exact ⟨row, rfl, howned.1⟩
    · rw [if_neg howned] at h
      exact absurd rfl h

end Leases

section Lineage
variable {Body : Type} {bodies : Bodies Body} {store : KeyStore Body} {event : KeyEvent Body} {key : KeyRef}

structure KeyEvent.Admits (event : KeyEvent Body) (key : KeyRef) (requestHash : List UInt8) (ownerToken : Uuid) :
    Prop where
  of_call : ∃ scope operation text conflicted,
    event.call = .admitKey scope operation text requestHash ownerToken conflicted ∧ keyRef scope operation text = .ok key

structure Comes (events : List (KeyEvent Body)) (key : KeyRef) (row : KeyRow Body) : Prop where
  owner : ∀ token, row.ownerToken = some token → ∃ event ∈ events, event.Admits key row.requestHash token
  opened : ∃ event ∈ events, ∃ requestHash token, event.Admits key requestHash token ∧
    row.expiresAt = event.startedAt + retentionMicros

theorem Comes.mono {events events' : List (KeyEvent Body)} {row : KeyRow Body} (h : Comes events key row)
    (hsubset : events ⊆ events') : Comes events' key row where
  owner token howner := by
    obtain ⟨event, hmem, hadmits⟩ := h.owner token howner
    exact ⟨event, hsubset hmem, hadmits⟩
  opened := by
    obtain ⟨event, hmem, hopened⟩ := h.opened
    exact ⟨event, hsubset hmem, hopened⟩

/-- A row that keeps its request and its retention, and its owner if it has one. -/
theorem Comes.of_kept {events : List (KeyEvent Body)} {row row' : KeyRow Body} (h : Comes events key row)
    (hhash : row'.requestHash = row.requestHash) (hexpires : row'.expiresAt = row.expiresAt)
    (howner : ∀ token, row'.ownerToken = some token → row.ownerToken = some token) : Comes events key row' where
  owner token hrow := hhash ▸ h.owner token (howner token hrow)
  opened := hexpires ▸ h.opened

theorem comes_candidate {events : List (KeyEvent Body)} {requestHash : List UInt8} {ownerToken : Uuid}
    (hmem : event ∈ events) (hadmits : event.Admits key requestHash ownerToken) :
    Comes events key (candidate event.startedAt requestHash ownerToken) where
  owner token howner := by
    cases howner
    exact ⟨event, hmem, hadmits⟩
  opened := ⟨event, hmem, requestHash, ownerToken, hadmits, rfl⟩

theorem comes_decideRow {events : List (KeyEvent Body)} {requestHash : List UInt8} {ownerToken : Uuid}
    {row : KeyRow Body} (hmem : event ∈ events) (hadmits : event.Admits key requestHash ownerToken)
    (h : Comes events key row) : Comes events key (decideRow event.startedAt key requestHash ownerToken row).1 := by
  unfold decideRow
  by_cases hown : row.ownerToken = some ownerToken
  · rw [if_pos hown]
    exact h
  rw [if_neg hown]
  by_cases hreset : (row.expired event.startedAt && (row.leaseExpired event.startedAt || row.ownerToken.isNone)) = true
  · rw [if_pos hreset]
    exact comes_candidate hmem hadmits
  rw [if_neg hreset]
  by_cases hhash : row.requestHash ≠ requestHash
  · rw [if_pos hhash]
    exact h
  rw [if_neg hhash]
  split
  case h_1 status body _ _ =>
    cases (StatusCode.fromStored status).filter fun status => !status.isServerError with
    | none => exact h
    | some status => exact h
  case h_2 =>
    split_ifs
    · refine ⟨?_, h.opened⟩
      intro token howner
      cases howner
      rw [not_not] at hhash
      exact ⟨event, hmem, hhash ▸ hadmits⟩
    · exact h

def AllCome (events : List (KeyEvent Body)) (store : KeyStore Body) : Prop :=
  ∀ key row, store.lookup key = some row → Comes events key row

theorem AllCome.insert {events : List (KeyEvent Body)} {row : KeyRow Body} (h : AllCome events store)
    (hrow : Comes events key row) : AllCome events (store.insert key row) := by
  intro key' row' hlookup
  obtain ⟨rfl, rfl⟩ | ⟨-, hold⟩ := AList.lookup_insert_eq_some_iff.mp hlookup
  · exact hrow
  · exact h key' row' hold

theorem AllCome.erase {events : List (KeyEvent Body)} (h : AllCome events store) (key : KeyRef) :
    AllCome events (store.erase key) := by
  intro key' row' hlookup
  by_cases hkey : key' = key
  · subst hkey
    simp at hlookup
  · rw [AList.lookup_erase_ne hkey] at hlookup
    exact h key' row' hlookup

theorem AllCome.purgeExpired {events : List (KeyEvent Body)} (h : AllCome events store) (now : Int) (limit : Nat)
    (picked : List KeyRef) : AllCome events (purgeExpired store now limit picked).1 := by
  unfold Api.purgeExpired
  split_ifs
  · exact h
  · generalize ((picked.filter fun key => (store.lookup key).any fun row => row.isPurgeable now).take limit) = keys
    induction keys generalizing store with
    | nil => exact h
    | cons key keys ih => exact ih (h.erase key)

theorem AllCome.keyCall {events : List (KeyEvent Body)} (h : AllCome events store) :
    AllCome (events ++ [event]) (keyCall bodies store event).1 := by
  have hall : AllCome (events ++ [event]) store := fun key row hlookup =>
    (h key row hlookup).mono (List.subset_append_left _ _)
  have hmem : event ∈ events ++ [event] := by simp
  unfold Api.keyCall
  cases hcall : event.call with
  | admitKey scope operation text requestHash ownerToken conflicted =>
    simp only
    cases hkey : keyRef scope operation text with
    | error error => exact hall
    | ok key =>
      have hadmits : event.Admits key requestHash ownerToken := ⟨scope, operation, text, conflicted, hcall, hkey⟩
      simp only [admitKey]
      cases hrow : store.lookup key with
      | none =>
        simp only
        split_ifs
        · exact hall
        · exact hall.insert (comes_candidate hmem hadmits)
      | some row => exact hall.insert (comes_decideRow hmem hadmits (hall key row hrow))
  | renew claim =>
    simp only [renew]
    cases hrow : store.lookup claim.key with
    | none => exact hall
    | some row =>
      simp only
      split_ifs
      · exact hall.insert ((hall claim.key row hrow).of_kept rfl rfl fun _ h => h)
      · exact hall
  | complete claim status body =>
    by_cases hok : (complete bodies store claim status body).2 = .ok ()
    · obtain ⟨row, hrow, -, -, hstore⟩ := complete_ok hok
      simp only [hstore]
      exact hall.insert ((hall claim.key row hrow).of_kept rfl rfl fun _ h => nomatch h)
    · simp only [complete_error hok]
      exact hall
  | abandon claim =>
    simp only [abandon]
    cases hrow : store.lookup claim.key with
    | none => exact hall
    | some row =>
      simp only
      split_ifs
      · exact hall.erase claim.key
      · exact hall
  | purgeExpired limit picked => exact hall.purgeExpired event.startedAt limit picked

end Lineage

section Protocol
variable {Body : Type} {bodies : Bodies Body}

def Believed (clock : Int) (world : KeyWorld Body) : Prop :=
  ∀ claim lease, world.beliefs claim = some lease → clock < lease → Holds world.store claim lease

def FreshIn (store : KeyStore Body) (event : KeyEvent Body) : Prop :=
  ∀ token ∈ event.tokens, ∀ key row, store.lookup key = some row → row.ownerToken ≠ some token

theorem Believed.keyStep {clock : Int} {world : KeyWorld Body} {event : KeyEvent Body} (h : Believed clock world)
    (hclock : clock ≤ event.effectiveAt) (hstarted : event.startedAt ≤ event.effectiveAt)
    (hfresh : FreshIn world.store event) : Believed event.effectiveAt (keyStep bodies world event) := by
  rcases event with ⟨startedAt, effectiveAt, call⟩
  simp only at hclock hstarted
  intro holder lease hbelief hlive
  change effectiveAt < lease at hlive
  have hahead : startedAt < lease := by omega
  have hheld : world.beliefs holder = some lease → Holds world.store holder lease :=
    fun hbelief => h holder lease hbelief (by omega)
  unfold Api.keyStep keyCall at hbelief ⊢
  cases call with
  | admitKey scope operation text requestHash ownerToken conflicted =>
    cases hkey : keyRef scope operation text with
    | error error =>
      simp only [hkey, learn] at hbelief ⊢
      exact hheld hbelief
    | ok key =>
      simp only [hkey] at hbelief ⊢
      cases hadmitted : (admitKey world.store startedAt key requestHash ownerToken conflicted).2 with
      | error error =>
        simp only [hadmitted, learn] at hbelief
        exact (hheld hbelief).admitKey hahead
      | ok admission =>
        cases admission with
        | owner claim =>
          obtain ⟨rfl, hholds⟩ := admit_owner
            (fun row hrow => hfresh ownerToken (by simp [KeyEvent.tokens]) key row hrow) hadmitted
          simp only [hadmitted, learn] at hbelief
          by_cases hsame : holder = ⟨key, ownerToken⟩
          · subst hsame
            rw [Function.update_self] at hbelief
            cases hbelief
            exact hholds
          · rw [Function.update_of_ne hsame] at hbelief
            exact (hheld hbelief).admitKey hahead
        | replay status body =>
          simp only [hadmitted, learn] at hbelief
          exact (hheld hbelief).admitKey hahead
        | conflict =>
          simp only [hadmitted, learn] at hbelief
          exact (hheld hbelief).admitKey hahead
        | inProgress =>
          simp only [hadmitted, learn] at hbelief
          exact (hheld hbelief).admitKey hahead
  | renew claim =>
    simp only [learn] at hbelief ⊢
    by_cases hsame : holder = claim
    · subst hsame
      rw [Function.update_self] at hbelief
      by_cases howned : (renew world.store startedAt holder).2 = true
      · rw [if_pos howned] at hbelief
        cases hbelief
        exact renew_owner howned
      · rw [if_neg howned] at hbelief
        cases hbelief
    · rw [Function.update_of_ne hsame] at hbelief
      exact (hheld hbelief).renew hsame
  | complete claim status body =>
    by_cases hok : (complete bodies world.store claim status body).2 = .ok ()
    · simp only [learn, hok] at hbelief ⊢
      by_cases hsame : holder = claim
      · subst hsame
        rw [Function.update_self] at hbelief
        cases hbelief
      · rw [Function.update_of_ne hsame] at hbelief
        exact (hheld hbelief).complete hsame
    · have hkept : learn world.beliefs ⟨startedAt, effectiveAt, .complete claim status body⟩
          (.completed (complete bodies world.store claim status body).2) = world.beliefs := by
        cases hresult : (complete bodies world.store claim status body).2 with
        | error error => rfl
        | ok _ => exact absurd hresult hok
      simp only [hkept] at hbelief
      simp only [complete_error hok]
      exact hheld hbelief
  | abandon claim =>
    simp only [learn] at hbelief ⊢
    by_cases hsame : holder = claim
    · subst hsame
      rw [Function.update_self] at hbelief
      cases hbelief
    · rw [Function.update_of_ne hsame] at hbelief
      exact (hheld hbelief).abandon hsame
  | purgeExpired limit picked =>
    simp only [learn] at hbelief ⊢
    exact (hheld hbelief).purgeExpired limit picked hahead

theorem keyRun_append (events after : List (KeyEvent Body)) :
    keyRun bodies (events ++ after) = Machine.run (keyStep bodies) (keyRun bodies events) after := by
  unfold keyRun
  exact Machine.run_append _ events after

theorem allCome_keyRun (events : List (KeyEvent Body)) : AllCome events (keyRun bodies events).store := by
  induction events using List.reverseRecOn with
  | nil =>
    intro key row hlookup
    cases hlookup
  | append_singleton events event ih =>
    rw [keyRun_append]
    exact ih.keyCall

theorem Timely.append {clock : Int} {events after : List (KeyEvent Body)} (h : Timely clock (events ++ after)) :
    Timely clock events ∧ ∃ clock', clock ≤ clock' ∧ (∀ event ∈ events, event.effectiveAt ≤ clock') ∧
      (∀ now, clock ≤ now → (∀ event ∈ events, event.effectiveAt ≤ now) → clock' ≤ now) ∧ Timely clock' after := by
  induction events generalizing clock with
  | nil => exact ⟨trivial, clock, le_rfl, by simp, fun _ h _ => h, h⟩
  | cons event events ih =>
    obtain ⟨hclock, hstarted, hrest⟩ := h
    obtain ⟨hevents, clock', hle, hall, hleast, hafter⟩ := ih hrest
    refine ⟨⟨hclock, hstarted, hevents⟩, clock', hclock.trans hle, ?_, ?_, hafter⟩
    · intro event' hmem
      obtain rfl | hmem := List.mem_cons.mp hmem
      · exact hle
      · exact hall event' hmem
    · intro now hnow hbefore
      exact hleast now (hbefore event List.mem_cons_self) fun event' hmem => hbefore event' (List.mem_cons_of_mem _ hmem)

theorem Timely.started {clock : Int} {events : List (KeyEvent Body)} (h : Timely clock events) :
    ∀ event ∈ events, event.startedAt ≤ event.effectiveAt := by
  induction events generalizing clock with
  | nil => simp
  | cons event events ih =>
    obtain ⟨-, hstarted, hrest⟩ := h
    intro event' hmem
    obtain rfl | hmem := List.mem_cons.mp hmem
    · exact hstarted
    · exact ih hrest event' hmem

theorem freshIn_keyRun {events : List (KeyEvent Body)} {event : KeyEvent Body}
    (hunique : ((events ++ [event]).flatMap KeyEvent.tokens).Nodup) : FreshIn (keyRun bodies events).store event := by
  intro token htoken key row hlookup howner
  obtain ⟨admitted, hmem, ⟨scope, operation, text, conflicted, hcall, -⟩⟩ :=
    (allCome_keyRun events key row hlookup).owner token howner
  rw [List.flatMap_append, List.nodup_append] at hunique
  refine hunique.2.2 token (List.mem_flatMap.mpr ⟨admitted, hmem, ?_⟩) token (by simpa using htoken) rfl
  simp [KeyEvent.tokens, hcall]

theorem believed_keyRun {clock : Int} {events : List (KeyEvent Body)} (htimely : Timely clock events)
    (hunique : (events.flatMap KeyEvent.tokens).Nodup) {now : Int} (hclock : clock ≤ now)
    (hnow : ∀ event ∈ events, event.effectiveAt ≤ now) : Believed now (keyRun bodies events) := by
  induction events using List.reverseRecOn generalizing now with
  | nil =>
    intro claim lease hbelief
    cases hbelief
  | append_singleton events event ih =>
    obtain ⟨hevents, clock', hle, hall, -, hcurrent, hstarted, -⟩ := htimely.append
    have hfresh : FreshIn (keyRun bodies events).store event := freshIn_keyRun hunique
    rw [List.flatMap_append, List.nodup_append] at hunique
    have hbelieved : Believed event.effectiveAt (keyStep bodies (keyRun bodies events) event) :=
      (ih hevents hunique.1 hle hall).keyStep hcurrent hstarted hfresh
    rw [keyRun_append]
    intro claim lease hbelief hlive
    exact hbelieved claim lease hbelief (lt_of_le_of_lt (hnow event (by simp)) hlive)

structure Settled (store : KeyStore Body) (key : KeyRef) (status : StatusCode) (body : Body) (row : KeyRow Body) :
    Prop where
  lookup : store.lookup key = some row
  client : status.isServerError = false
  storedStatus : row.responseStatus = some (status.code : Int)
  storedBody : row.responseBody = some body
  ownerless : row.ownerToken = none

theorem fromStored_code (status : StatusCode) : StatusCode.fromStored status.code = some status := by
  unfold StatusCode.fromStored
  rw [dif_pos ⟨status.lower, status.upper⟩]
  rfl

/-- What an admission is answered on the row of a completed request. -/
theorem Settled.decideRow {store : KeyStore Body} {key : KeyRef} {status : StatusCode} {body : Body}
    {row : KeyRow Body} {now : Int} {requestHash : List UInt8} {ownerToken : Uuid}
    (h : Settled store key status body row) (hnow : now < row.expiresAt) :
    decideRow now key requestHash ownerToken row =
      (row, .ok (if requestHash = row.requestHash then .replay status body else .conflict)) := by
  have hexpired : row.expired now = false := by
    simp only [KeyRow.expired, decide_eq_false_iff_not]
    omega
  unfold Api.decideRow
  rw [if_neg (by simp [h.ownerless]), if_neg (by simp [hexpired])]
  by_cases hhash : row.requestHash ≠ requestHash
  · rw [if_pos hhash, if_neg fun he => hhash he.symm]
  · rw [if_neg hhash, if_pos (not_not.mp hhash).symm]
    have hfilter : (some status).filter (fun status => !status.isServerError) = some status := by
      simp [Option.filter, h.client]
    simp [h.storedStatus, h.storedBody, fromStored_code, hfilter]

theorem not_isOwnedBy_of_none {row : KeyRow Body} (h : row.ownerToken = none) (claim : Claim) :
    row.isOwnedBy claim = false := by
  simp [KeyRow.isOwnedBy, h]

/-- A row that nobody owns is left alone by what owners do, and until it expires by everything. -/
theorem Settled.keyCall {store : KeyStore Body} {key : KeyRef} {status : StatusCode} {body : Body}
    {row : KeyRow Body} {event : KeyEvent Body} (h : Settled store key status body row)
    (hnow : event.startedAt < row.expiresAt) : Settled (keyCall bodies store event).1 key status body row := by
  suffices hlookup : (Api.keyCall bodies store event).1.lookup key = some row from
    ⟨hlookup, h.client, h.storedStatus, h.storedBody, h.ownerless⟩
  have hinsert : ∀ {key' : KeyRef} {row' : KeyRow Body}, (key' = key → row' = row) →
      (store.insert key' row').lookup key = some row := by
    intro key' row' hsame
    by_cases hkey : key' = key
    · rw [hkey, AList.lookup_insert, hsame hkey]
    · rw [AList.lookup_insert_ne fun h => hkey h.symm, h.lookup]
  unfold Api.keyCall
  cases event.call with
  | admitKey scope operation text requestHash ownerToken conflicted =>
    simp only
    cases keyRef scope operation text with
    | error error => exact h.lookup
    | ok key' =>
      simp only [admitKey]
      cases hrow : store.lookup key' with
      | none =>
        simp only
        split_ifs
        · exact h.lookup
        · refine hinsert ?_
          rintro rfl
          rw [h.lookup] at hrow
          cases hrow
      | some row' =>
        refine hinsert ?_
        rintro rfl
        obtain rfl := Option.some.inj (h.lookup.symm.trans hrow)
        rw [h.decideRow hnow]
  | renew claim =>
    simp only [renew]
    cases hrow : store.lookup claim.key with
    | none => exact h.lookup
    | some row' =>
      simp only
      by_cases howned : row'.isOwnedBy claim = true
      · rw [if_pos howned]
        refine hinsert ?_
        rintro rfl
        obtain rfl := Option.some.inj (h.lookup.symm.trans hrow)
        rw [not_isOwnedBy_of_none h.ownerless] at howned
        cases howned
      · rw [if_neg howned]
        exact h.lookup
  | complete claim status' body' =>
    by_cases hok : (complete bodies store claim status' body').2 = .ok ()
    · obtain ⟨row', hrow, howner, -, hstore⟩ := complete_ok hok
      simp only [hstore]
      refine hinsert ?_
      rintro rfl
      obtain rfl := Option.some.inj (h.lookup.symm.trans hrow)
      rw [h.ownerless] at howner
      cases howner
    · simp only [complete_error hok]
      exact h.lookup
  | abandon claim =>
    simp only [abandon]
    cases hrow : store.lookup claim.key with
    | none => exact h.lookup
    | some row' =>
      simp only
      by_cases howned : row'.isOwnedBy claim = true
      · rw [if_pos howned]
        refine (AList.lookup_erase_ne ?_).trans h.lookup
        rintro rfl
        obtain rfl := Option.some.inj (h.lookup.symm.trans hrow)
        rw [not_isOwnedBy_of_none h.ownerless] at howned
        cases howned
      · rw [if_neg howned]
        exact h.lookup
  | purgeExpired limit picked =>
    refine (lookup_purgeExpired ?_).trans h.lookup
    simp only [h.lookup, Option.any_some, KeyRow.isPurgeable, KeyRow.expired, Bool.and_eq_false_iff,
      decide_eq_false_iff_not]
    exact .inl (by omega)

theorem Settled.run {world : KeyWorld Body} {key : KeyRef} {status : StatusCode} {body : Body} {row : KeyRow Body}
    {events : List (KeyEvent Body)} (h : Settled world.store key status body row)
    (hnow : ∀ event ∈ events, event.startedAt < row.expiresAt) :
    Settled (Machine.run (keyStep bodies) world events).store key status body row := by
  induction events generalizing world with
  | nil => exact h
  | cons event events ih =>
    have hnext : Settled (Api.keyStep bodies world event).store key status body row :=
      h.keyCall (hnow event List.mem_cons_self)
    exact ih hnext fun event' hmem => hnow event' (List.mem_cons_of_mem _ hmem)

/-- The protocol, for every interleaving of calls under a clock that does not go back. An unexpired lease has
one holder; only the owner completes or abandons; what is completed is replayed for the same request and
a conflict for any other one, for as long as it is retained; and nothing under an unexpired lease is purged. -/
theorem idempotency_keys_protect (bodies : Bodies Body) (clock : Int) (events : List (KeyEvent Body))
    (htimely : Timely clock events) (hunique : (events.flatMap KeyEvent.tokens).Nodup) :
    (∀ now, clock ≤ now → (∀ event ∈ events, event.effectiveAt ≤ now) →
      ∀ claim claim' lease lease', (keyRun bodies events).beliefs claim = some lease →
        (keyRun bodies events).beliefs claim' = some lease' → claim.key = claim'.key → now < lease → now < lease' →
        claim = claim' ∧ Holds (keyRun bodies events).store claim lease) ∧
    (∀ before event after, events = before ++ event :: after →
      let store := (keyRun bodies before).store
      ∀ claim, ((∃ status body, event.call = .complete claim status body ∧
          (keyCall bodies store event).2 = .completed (.ok ())) ∨
        (event.call = .abandon claim ∧ (keyCall bodies store event).1 ≠ store)) →
        ∃ row, store.lookup claim.key = some row ∧ row.ownerToken = some claim.ownerToken) ∧
    (∀ before event after, events = before ++ event :: after →
      ∀ claim status body, event.call = .complete claim status body →
        (keyCall bodies (keyRun bodies before).store event).2 = .completed (.ok ()) →
        ∃ row, (keyRun bodies (before ++ [event])).store.lookup claim.key = some row ∧
          (∃ admitted ∈ before, admitted.Admits claim.key row.requestHash claim.ownerToken) ∧
          (∃ opened ∈ before, ∃ requestHash token, opened.Admits claim.key requestHash token ∧
            row.expiresAt = opened.startedAt + retentionMicros) ∧
          ∀ between later rest, after = between ++ later :: rest → later.effectiveAt < row.expiresAt →
            ∀ requestHash token, later.Admits claim.key requestHash token →
              (keyCall bodies (keyRun bodies (before ++ event :: between)).store later).2 =
                .admission (.ok (if requestHash = row.requestHash then .replay status body else .conflict))) ∧
    ∀ before event after, events = before ++ event :: after →
      ∀ limit picked, event.call = .purgeExpired limit picked →
        ∀ key row, (keyRun bodies before).store.lookup key = some row →
          (keyRun bodies (before ++ [event])).store.lookup key = none →
          ∀ token lease, row.ownerToken = some token → row.leaseExpiresAt = some lease → lease ≤ event.effectiveAt := by
  refine ⟨?_, ?_, ?_, ?_⟩
  · intro now hclock hnow claim claim' lease lease' hbelief hbelief' hkey hlive hlive'
    have hbelieved : Believed now (keyRun bodies events) := believed_keyRun htimely hunique hclock hnow
    obtain ⟨row, hlookup, howner, hlease⟩ := hbelieved claim lease hbelief hlive
    obtain ⟨row', hlookup', howner', -⟩ := hbelieved claim' lease' hbelief' hlive'
    rw [← hkey] at hlookup'
    obtain rfl := Option.some.inj (hlookup.symm.trans hlookup')
    refine ⟨?_, row, hlookup, howner, hlease⟩
    rcases claim with ⟨key, token⟩
    rcases claim' with ⟨key', token'⟩
    obtain rfl : key = key' := hkey
    obtain rfl := Option.some.inj (howner.symm.trans howner')
    rfl
  · rintro before event after rfl store claim (⟨status, body, hcall, hanswer⟩ | ⟨hcall, hchanged⟩)
    · simp only [keyCall, hcall] at hanswer
      obtain ⟨row, hlookup, howner, -⟩ := complete_ok (KeyAnswer.completed.inj hanswer)
      exact ⟨row, hlookup, howner⟩
    · simp only [keyCall, hcall] at hchanged
      exact abandon_owner hchanged
  · rintro before event after rfl claim status body hcall hanswer
    simp only [keyCall, hcall] at hanswer
    obtain ⟨row, hlookup, howner, hclient, hstore⟩ := complete_ok (KeyAnswer.completed.inj hanswer)
    have hall : AllCome before (keyRun bodies before).store := allCome_keyRun before
    have hcomes := hall claim.key row hlookup
    have hsettled : Settled (keyRun bodies (before ++ [event])).store claim.key status body
        (row.respond status body) := by
      rw [keyRun_append]
      refine ⟨?_, hclient, rfl, rfl, rfl⟩
      simp only [Machine.run, keyStep, keyCall, hcall, hstore]
      exact AList.lookup_insert _
    refine ⟨_, hsettled.lookup, hcomes.owner _ howner, hcomes.opened, ?_⟩
    rintro between later rest rfl hlater requestHash token ⟨scope, operation, text, conflicted, hcall, hkey⟩
    obtain ⟨-, clock', -, -, -, -, -, hafter⟩ := htimely.append
    obtain ⟨-, clock'', -, hbetween, -, hle, hstarted, -⟩ := hafter.append
    have hrun : Settled (keyRun bodies (before ++ event :: between)).store claim.key status body
        (row.respond status body) := by
      rw [show before ++ event :: between = (before ++ [event]) ++ between by simp, keyRun_append]
      refine hsettled.run ?_
      intro earlier hmem
      have hearlier := hafter.append.1.started earlier hmem
      have hmiddle := hbetween earlier hmem
      omega
    simp only [keyCall, hcall, hkey, admitKey, hrun.lookup, hrun.decideRow (lt_of_le_of_lt hstarted hlater)]
  · rintro before event after rfl limit picked hcall key row hlookup hgone token lease howner hlease
    obtain ⟨-, clock', -, -, -, -, hstarted, -⟩ := htimely.append
    rw [keyRun_append] at hgone
    simp only [Machine.run, keyStep, keyCall, hcall] at hgone
    by_contra hlive
    rw [not_le] at hlive
    have hholds : Holds (keyRun bodies before).store ⟨key, token⟩ lease := ⟨row, hlookup, howner, hlease⟩
    obtain ⟨row', hlookup', -⟩ := hholds.purgeExpired limit picked (lt_of_le_of_lt hstarted hlive)
    rw [hgone] at hlookup'
    cases hlookup'

end Protocol

section Samples

private def plainBodies : Bodies Nat := ⟨fun _ => 1, fun _ => 1⟩

private def retryKey : KeyRef :=
  ⟨.project 1, "order.create".toList, Sha256.digest ("retry-key-123".toList.map fun c => UInt8.ofNat c.toNat)⟩

private def ownerClaim : Claim := ⟨retryKey, 7⟩

private def retried : List (KeyEvent Nat) :=
  [⟨0, 0, .admitKey (.project 1) "order.create".toList "retry-key-123".toList [1] 7 false⟩,
    ⟨1, 2, .complete ownerClaim ⟨201, by decide, by decide⟩ 5⟩,
    ⟨3, 3, .admitKey (.project 1) "order.create".toList "retry-key-123".toList [1] 8 false⟩]

theorem retried_replays :
    ∃ row, (keyRun plainBodies (retried.take 2)).store.lookup retryKey = some row ∧
      (keyCall plainBodies (keyRun plainBodies (retried.take 2)).store
        ⟨3, 3, .admitKey (.project 1) "order.create".toList "retry-key-123".toList [1] 8 false⟩).2 =
          .admission (.ok (if [1] = row.requestHash then .replay ⟨201, by decide, by decide⟩ 5 else .conflict)) := by
  have htimely : Timely 0 retried := ⟨by decide, by decide, by decide, by decide, by decide, by decide, trivial⟩
  obtain ⟨-, -, hreplay, -⟩ := idempotency_keys_protect plainBodies 0 retried htimely (by decide +kernel)
  obtain ⟨row, hrow, -, ⟨opened, hopened, -, -, -, hexpires⟩, hlater⟩ :=
    hreplay (retried.take 1) _ _ rfl ownerClaim _ _ rfl (by decide +kernel)
  obtain rfl := List.mem_singleton.mp hopened
  exact ⟨row, hrow, hlater [] _ [] rfl (by rw [hexpires]; decide) [1] 8
    ⟨.project 1, _, _, false, rfl, by decide +kernel⟩⟩

end Samples

end Ffdb.Api
