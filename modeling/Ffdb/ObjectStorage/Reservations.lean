import Ffdb.Lib.Keyed
import Ffdb.Lib.Machine
import Ffdb.ObjectStorage.Grant

/-! The reservations that a gateway holds in memory. They are changed in short critical sections,
between which calls wait for the project's database. -/
namespace Ffdb.ObjectStorage
open Fallible Saturating

structure StorageLimits where
  grantTtlMs : Int64
  maxPendingReservations : Nat

structure Reservation where
  projectId : List Char
  bytes : Nat
  expiresAtMs : Int64
  deriving DecidableEq

structure Reservations where
  byNonce : Table (List Char) Reservation := ∅
  byProject : Table (List Char) Nat := ∅

inductive LedgerEvent where
  | reserved (nonce : List Char) (reservation : Reservation)
  | released (nonce : List Char) (reservation : Reservation)
  deriving DecidableEq

def saturatingAdd (a b : Nat) : Nat := min (a + b) u64Max

namespace Reservations
variable (reservations : Reservations)

def reserved (project : List Char) : Nat := (reservations.byProject.lookup project).getD 0

def remove (nonce : List Char) (reservation : Reservation) : Reservations :=
  let remaining := reservations.reserved reservation.projectId - reservation.bytes
  ⟨reservations.byNonce.erase nonce,
    if remaining = 0 then reservations.byProject.erase reservation.projectId
    else reservations.byProject.insert reservation.projectId remaining⟩

end Reservations

abbrev Section := Reservations × List LedgerEvent

def sweepOne (before : Section) (nonce : List Char) : Section :=
  match before.1.byNonce.lookup nonce with
  | some reservation => (before.1.remove nonce reservation, before.2 ++ [.released nonce reservation])
  | none => before

def sweepExpired (reservations : Reservations) (nowMs : Int64) : Section :=
  ((reservations.byNonce.entries.filter fun entry => entry.2.expiresAtMs ≤ nowMs).map Sigma.fst).foldl sweepOne
    (reservations, [])

def admitReservation (limits : StorageLimits) (authorization : MetadataAuthorization) (project nonce : List Char)
    (nowMs : Int64) (reservations : Reservations) : Section × Except StorageError Unit :=
  let bytes := authorization.reservationBytes
  if bytes = 0 then ((reservations, []), .ok ())
  else
    let swept := sweepExpired reservations nowMs
    if (swept.1.byNonce.lookup nonce).isSome then (swept, .error .duplicateReservation)
    else if limits.maxPendingReservations ≤ swept.1.byNonce.size then (swept, .error .tooManyReservations)
    else
      let reserved := swept.1.reserved project
      if authorization.projectQuotaBytes <
          saturatingAdd (saturatingAdd authorization.currentProjectBytes reserved) bytes then
        (swept, .error .projectQuotaExceeded)
      else
        let reservation := ⟨project, bytes, Saturating.add nowMs limits.grantTtlMs⟩
        ((⟨swept.1.byNonce.insert nonce reservation,
            swept.1.byProject.insert project (saturatingAdd reserved bytes)⟩,
          swept.2 ++ [.reserved nonce reservation]), .ok ())

def releaseLocalReservation (project nonce : List Char) (expectedBytes : Nat) (expectedExpiresAtMs nowMs : Int64)
    (reservations : Reservations) : Section × Except StorageError Nat :=
  let swept := sweepExpired reservations nowMs
  match swept.1.byNonce.lookup nonce with
  | none => (swept, .ok 0)
  | some reservation =>
    if reservation ≠ ⟨project, expectedBytes, expectedExpiresAtMs⟩ then (swept, .error .invalidGrant)
    else ((swept.1.remove nonce reservation, swept.2 ++ [.released nonce reservation]), .ok reservation.bytes)

def validateLocalReservation (claims : GrantClaims) (nowMs : Int64) (reservations : Reservations) :
    Section × Except StorageError Unit :=
  if claims.reservationBytes = 0 then ((reservations, []), .ok ())
  else
    let swept := sweepExpired reservations nowMs
    match swept.1.byNonce.lookup claims.nonce with
    | some reservation =>
      (swept, require (reservation =
        ⟨claims.projectId, claims.reservationBytes, claims.reservationExpiresAtMs⟩) .invalidGrant)
    | none => (swept, .ok ())

inductive GatewayCall where
  /-- for the decision of the policies -/
  | authorizing (request : AuthorizationRequest) (nonce : List Char) (nowMs : Int64)
  /-- for the durable reservation -/
  | reserving (request : AuthorizationRequest) (authorization : MetadataAuthorization) (nonce : List Char)
      (nowMs : Int64)
  /-- for a prior receipt -/
  | committing (claims : GrantClaims) (result : StorageCommitResult) (nowMs : Int64)
  /-- for the commit -/
  | persisting (claims : GrantClaims) (nowMs : Int64)
  /-- for the durable release -/
  | releasing (claims : GrantClaims) (nowMs : Int64)
  /-- for the lock only -/
  | unlocked (claims : GrantClaims) (nowMs : Int64)

inductive Reply where
  | decision (authorization : Except StorageError MetadataAuthorization)
  | done (result : Except StorageError Unit)
  | receipt (result : Except StorageError (Option StorageCommitResult))

abbrev Progress := Section × Option GatewayCall

def releaseClaims (claims : GrantClaims) (nowMs : Int64) (reservations : Reservations) : Progress :=
  ((releaseLocalReservation claims.projectId claims.nonce claims.reservationBytes claims.reservationExpiresAtMs nowMs
    reservations).1, none)

section Calls
variable {Token : Type} (doubles : Runtime.Doubles) (codec : GrantCodec Token) (limits : StorageLimits)
  (reservations : Reservations)

def checkAuthorization (request : AuthorizationRequest) (authorization : MetadataAuthorization) :
    Except StorageError Unit := do
  validateProviderKey authorization.providerKey
  require (!(authorization.scopeFingerprint.isEmpty || 256 < Text.byteLength authorization.scopeFingerprint))
    .invalidAuthorizationDecision
  checkObjectBytes request authorization

def startAuthorize (request : AuthorizationRequest) (nonce : List Char) (nowMs : Int64) : Progress :=
  match validateRequest doubles request with
  | .error _ => ((reservations, []), none)
  | .ok () =>
    if Text.byteLength nonce < 16 || 128 < Text.byteLength nonce then ((reservations, []), none)
    else ((reservations, []), some (.authorizing request nonce nowMs))

def startCommit (token : Token) (auth : AuthContext) (result : StorageCommitResult) (nowMs : Int64) : Progress :=
  match codec.verify token nowMs with
  | .error _ => ((reservations, []), none)
  | .ok claims =>
    if claims.isFor auth && claims.allowsResult result then
      ((reservations, []), some (.committing claims result nowMs))
    else ((reservations, []), none)

def startRelease (token : Token) (auth : AuthContext) (nowMs : Int64) : Progress :=
  match codec.verifyAuthenticated token with
  | .error _ => ((reservations, []), none)
  | .ok claims =>
    if !claims.isFor auth then ((reservations, []), none)
    else
      let validated := validateLocalReservation claims nowMs reservations
      match validated.2 with
      | .error _ => (validated.1, none)
      | .ok () =>
        (validated.1, some (if requiresDurableReservation claims.action then .releasing claims nowMs
          else .unlocked claims nowMs))

def advance : GatewayCall → Reply → Progress
  | .authorizing request nonce nowMs, .decision (.ok authorization) =>
    match checkAuthorization request authorization with
    | .error _ => ((reservations, []), none)
    | .ok () =>
      let admitted := admitReservation limits authorization request.auth.projectId nonce nowMs reservations
      match admitted.2 with
      | .error _ => (admitted.1, none)
      | .ok () =>
        (admitted.1, if requiresDurableReservation request.action then
          some (.reserving request authorization nonce nowMs) else none)
  | .reserving request authorization nonce nowMs, .done (.error _) =>
    if authorization.reservationBytes = 0 then ((reservations, []), none)
    else
      ((releaseLocalReservation request.auth.projectId nonce authorization.reservationBytes
        (Saturating.add nowMs limits.grantTtlMs) nowMs reservations).1, none)
  | .committing claims result nowMs, .receipt (.ok (some committed)) =>
    if committed ≠ result then ((reservations, []), none) else releaseClaims claims nowMs reservations
  | .committing claims _ nowMs, .receipt (.ok none) =>
    let validated := validateLocalReservation claims nowMs reservations
    match validated.2 with
    | .error _ => (validated.1, none)
    | .ok () => (validated.1, some (.persisting claims nowMs))
  | .persisting claims nowMs, .done (.ok ()) => releaseClaims claims nowMs reservations
  | .releasing claims nowMs, .done (.ok ()) => releaseClaims claims nowMs reservations
  | .unlocked claims nowMs, _ => releaseClaims claims nowMs reservations
  | _, _ => ((reservations, []), none)

end Calls

structure Gateway where
  reservations : Reservations := {}
  calls : List GatewayCall := []

inductive GatewayEvent (Token : Type) where
  | authorize (request : AuthorizationRequest) (nonce : List Char) (nowMs : Int64)
  | commitMetadata (token : Token) (auth : AuthContext) (result : StorageCommitResult) (nowMs : Int64)
  | releaseReservation (token : Token) (auth : AuthContext) (nowMs : Int64)
  | reply (call : Nat) (reply : Reply)
  /-- the caller is gone -/
  | cancel (call : Nat)
  | cleanupLocalReservations (nowMs : Int64)

section Steps
variable {Token : Type} (doubles : Runtime.Doubles) (codec : GrantCodec Token) (limits : StorageLimits)

def criticalSection (gateway : Gateway) : GatewayEvent Token → Progress
  | .authorize request nonce nowMs => startAuthorize doubles gateway.reservations request nonce nowMs
  | .commitMetadata token auth result nowMs => startCommit codec gateway.reservations token auth result nowMs
  | .releaseReservation token auth nowMs => startRelease codec gateway.reservations token auth nowMs
  | .reply call reply =>
    match gateway.calls[call]? with
    | some waiting => advance limits gateway.reservations waiting reply
    | none => ((gateway.reservations, []), none)
  | .cancel _ => ((gateway.reservations, []), none)
  | .cleanupLocalReservations nowMs => (sweepExpired gateway.reservations nowMs, none)

def gatewayStep (gateway : Gateway) (event : GatewayEvent Token) : Gateway :=
  let progress := criticalSection doubles codec limits gateway event
  let calls := match event with
    | .reply call _ | .cancel call => gateway.calls.eraseIdx call
    | _ => gateway.calls
  ⟨progress.1.1, calls ++ progress.2.toList⟩

def gatewayTrace (gateway : Gateway) (event : GatewayEvent Token) : List LedgerEvent :=
  (criticalSection doubles codec limits gateway event).1.2

end Steps

def bytesFor (project : List Char) (_ : List Char) (reservation : Reservation) : Nat :=
  if reservation.projectId = project then reservation.bytes else 0

def Reservations.pendingBytes (reservations : Reservations) (project : List Char) : Nat :=
  reservations.byNonce.total (bytesFor project)

/-- The two maps agree, nothing in them is empty, and they stay within the limit. -/
structure Reservations.Balanced (limits : StorageLimits) (reservations : Reservations) : Prop where
  byProject : ∀ project, reservations.byProject.lookup project =
    if reservations.pendingBytes project = 0 then none else some (reservations.pendingBytes project)
  positive : ∀ nonce reservation, reservations.byNonce.lookup nonce = some reservation → 0 < reservation.bytes
  bounded : reservations.byNonce.size ≤ limits.maxPendingReservations

def Reservations.held (reservations : Reservations) (nonce : List Char) (reservation : Reservation) : Nat :=
  if reservations.byNonce.lookup nonce = some reservation then 1 else 0

/-- Every reservation that is made is released or still held, and none more than once. -/
def Accounts (before : Reservations) (events : List LedgerEvent) (after : Reservations) : Prop :=
  ∀ nonce reservation,
    events.count (.released nonce reservation) + after.held nonce reservation =
      events.count (.reserved nonce reservation) + before.held nonce reservation

def Keeps (limits : StorageLimits) (before : Reservations) (after : Section) : Prop :=
  before.Balanced limits → after.1.Balanced limits ∧ Accounts before after.2 after.1

section Ledger
variable {limits : StorageLimits} {reservations : Reservations}

theorem Reservations.Balanced.reserved_eq (h : reservations.Balanced limits) (project : List Char) :
    reservations.reserved project = reservations.pendingBytes project := by
  unfold Reservations.reserved
  rw [h.byProject]
  by_cases hzero : reservations.pendingBytes project = 0
  · simp [hzero]
  · simp [hzero]

theorem balanced_empty : ({} : Reservations).Balanced limits where
  byProject _ := rfl
  positive nonce reservation h := by cases h
  bounded := Nat.zero_le _

theorem Keeps.refl : Keeps limits reservations (reservations, []) :=
  fun h => ⟨h, fun _ _ => rfl⟩

theorem Accounts.trans {first second third : Reservations} {events events' : List LedgerEvent}
    (h : Accounts first events second) (h' : Accounts second events' third) :
    Accounts first (events ++ events') third := by
  intro nonce reservation
  have hfirst := h nonce reservation
  have hsecond := h' nonce reservation
  rw [List.count_append, List.count_append]
  omega

theorem Keeps.trans {middle : Section} {last : Reservations} {events : List LedgerEvent}
    (h : Keeps limits reservations middle) (h' : Keeps limits middle.1 (last, events)) :
    Keeps limits reservations (last, middle.2 ++ events) := by
  intro hbalanced
  obtain ⟨hmiddle, haccounts⟩ := h hbalanced
  obtain ⟨hlast, haccounts'⟩ := h' hmiddle
  exact ⟨hlast, haccounts.trans haccounts'⟩

theorem accounts_remove {nonce : List Char} {reservation : Reservation}
    (h : reservations.byNonce.lookup nonce = some reservation) :
    Accounts reservations [.released nonce reservation] (reservations.remove nonce reservation) := by
  intro nonce' reservation'
  unfold Reservations.held Reservations.remove
  by_cases hnonce : nonce' = nonce
  · subst hnonce
    by_cases hreservation : reservation = reservation'
    · simp [hreservation, h]
    · simp [hreservation, h]
  · have hne : nonce ≠ nonce' := fun h => hnonce h.symm
    simp [AList.lookup_erase_ne hnonce, hne]

theorem balanced_remove {nonce : List Char} {reservation : Reservation}
    (h : reservations.byNonce.lookup nonce = some reservation) (hbalanced : reservations.Balanced limits) :
    (reservations.remove nonce reservation).Balanced limits := by
  have htotal : ∀ project, (reservations.remove nonce reservation).pendingBytes project +
      bytesFor project nonce reservation = reservations.pendingBytes project :=
    fun project => AList.total_erase (bytesFor project) h
  refine ⟨?_, ?_, ?_⟩
  · intro project
    have hproject := htotal project
    have hremaining : reservations.reserved reservation.projectId - reservation.bytes =
        (reservations.remove nonce reservation).pendingBytes reservation.projectId := by
      have hown := htotal reservation.projectId
      rw [show bytesFor reservation.projectId nonce reservation = reservation.bytes from if_pos rfl] at hown
      rw [hbalanced.reserved_eq]
      omega
    by_cases hown : project = reservation.projectId
    · subst hown
      rw [← hremaining]
      unfold Reservations.remove
      by_cases hzero : reservations.reserved reservation.projectId - reservation.bytes = 0
      · simp [hzero]
      · simp [hzero]
    · have hsame : (reservations.remove nonce reservation).byProject.lookup project =
          reservations.byProject.lookup project := by
        unfold Reservations.remove
        by_cases hzero : reservations.reserved reservation.projectId - reservation.bytes = 0
        · simp [hzero, AList.lookup_erase_ne hown]
        · simp [hzero, AList.lookup_insert_ne hown]
      rw [show bytesFor project nonce reservation = 0 from if_neg fun h => hown h.symm, Nat.add_zero] at hproject
      rw [hsame, hbalanced.byProject, hproject]
  · intro nonce' reservation' hlookup
    by_cases hnonce : nonce' = nonce
    · subst hnonce
      unfold Reservations.remove at hlookup
      simp at hlookup
    · unfold Reservations.remove at hlookup
      rw [AList.lookup_erase_ne hnonce] at hlookup
      exact hbalanced.positive nonce' reservation' hlookup
  · have hsize := AList.size_erase h
    have hbounded := hbalanced.bounded
    change (reservations.byNonce.erase nonce).size ≤ _
    omega

theorem keeps_remove {nonce : List Char} {reservation : Reservation}
    (h : reservations.byNonce.lookup nonce = some reservation) :
    Keeps limits reservations (reservations.remove nonce reservation, [.released nonce reservation]) :=
  fun hbalanced => ⟨balanced_remove h hbalanced, accounts_remove h⟩

theorem keeps_sweepOne {before : Section} (nonce : List Char) (h : Keeps limits reservations before) :
    Keeps limits reservations (sweepOne before nonce) := by
  unfold sweepOne
  cases hlookup : before.1.byNonce.lookup nonce with
  | none => exact h
  | some reservation => exact h.trans (keeps_remove hlookup)

theorem keeps_sweepExpired (nowMs : Int64) : Keeps limits reservations (sweepExpired reservations nowMs) := by
  unfold sweepExpired
  generalize ((reservations.byNonce.entries.filter fun entry => entry.2.expiresAtMs ≤ nowMs).map Sigma.fst) = nonces
  have hstart : Keeps limits reservations (reservations, []) := Keeps.refl
  generalize (reservations, ([] : List LedgerEvent)) = before at hstart
  induction nonces generalizing before with
  | nil => exact hstart
  | cons nonce nonces ih => exact ih _ (keeps_sweepOne nonce hstart)

theorem keeps_insert {project nonce : List Char} {reservation : Reservation}
    (hproject : reservation.projectId = project) (hnonce : reservations.byNonce.lookup nonce = none)
    (hpositive : 0 < reservation.bytes) (hsize : reservations.byNonce.size < limits.maxPendingReservations)
    {sum : Nat} (hsum : sum = reservations.reserved project + reservation.bytes) :
    Keeps limits reservations (⟨reservations.byNonce.insert nonce reservation,
      reservations.byProject.insert project sum⟩, [.reserved nonce reservation]) := by
  intro hbalanced
  subst hproject
  refine ⟨⟨?_, ?_, ?_⟩, ?_⟩
  · intro project
    have htotal := AList.total_insert (bytesFor project) hnonce reservation
    unfold Reservations.pendingBytes
    rw [htotal]
    change AList.lookup project (reservations.byProject.insert reservation.projectId sum) =
      if reservations.pendingBytes project + _ = 0 then none else some (reservations.pendingBytes project + _)
    by_cases hown : project = reservation.projectId
    · subst hown
      rw [AList.lookup_insert, show bytesFor reservation.projectId nonce reservation = reservation.bytes from if_pos rfl,
        if_neg (by omega), hsum, hbalanced.reserved_eq]
    · rw [AList.lookup_insert_ne hown, show bytesFor project nonce reservation = 0 from if_neg fun h => hown h.symm]
      exact hbalanced.byProject project
  · intro nonce' reservation' hlookup
    by_cases hsame : nonce' = nonce
    · subst hsame
      rw [AList.lookup_insert] at hlookup
      cases hlookup
      exact hpositive
    · rw [AList.lookup_insert_ne hsame] at hlookup
      exact hbalanced.positive nonce' reservation' hlookup
  · change (reservations.byNonce.insert nonce reservation).size ≤ _
    rw [AList.size_insert hnonce]
    omega
  · intro nonce' reservation'
    unfold Reservations.held
    by_cases hsame : nonce' = nonce
    · subst hsame
      by_cases hreservation : reservation = reservation'
      · simp [hreservation, hnonce]
      · simp [hreservation, hnonce]
    · have hne : nonce ≠ nonce' := fun h => hsame h.symm
      simp [AList.lookup_insert_ne hsame, hne]

/-- Below the quota no sum saturates. -/
theorem saturatingAdd_eq {authorization : MetadataAuthorization} {reserved bytes : Nat}
    (h : ¬ authorization.projectQuotaBytes <
      saturatingAdd (saturatingAdd authorization.currentProjectBytes reserved) bytes) :
    saturatingAdd reserved bytes = reserved + bytes := by
  have hquota := authorization.quota_lt
  unfold saturatingAdd u64Max at *
  omega

theorem keeps_admit (authorization : MetadataAuthorization) (project nonce : List Char) (nowMs : Int64) :
    Keeps limits reservations (admitReservation limits authorization project nonce nowMs reservations).1 := by
  unfold admitReservation
  by_cases hbytes : authorization.reservationBytes = 0
  · simp only [hbytes, ↓reduceIte]
    exact Keeps.refl
  simp only [hbytes, ↓reduceIte]
  have hswept : Keeps limits reservations (sweepExpired reservations nowMs) := keeps_sweepExpired nowMs
  generalize sweepExpired reservations nowMs = swept at hswept ⊢
  by_cases hnonce : (swept.1.byNonce.lookup nonce).isSome
  · simp only [hnonce, ↓reduceIte]
    exact hswept
  by_cases hsize : limits.maxPendingReservations ≤ swept.1.byNonce.size
  · simp only [hnonce, hsize, ↓reduceIte, Bool.false_eq_true]
    exact hswept
  by_cases hquota : authorization.projectQuotaBytes <
      saturatingAdd (saturatingAdd authorization.currentProjectBytes (swept.1.reserved project))
        authorization.reservationBytes
  · simp only [hnonce, hsize, hquota, ↓reduceIte, Bool.false_eq_true]
    exact hswept
  simp only [hnonce, hsize, hquota, ↓reduceIte, Bool.false_eq_true]
  exact hswept.trans (keeps_insert rfl (Option.not_isSome_iff_eq_none.mp hnonce) (Nat.pos_of_ne_zero hbytes)
    (Nat.lt_of_not_le hsize) (saturatingAdd_eq hquota))

theorem keeps_releaseLocalReservation (project nonce : List Char) (expectedBytes : Nat)
    (expectedExpiresAtMs nowMs : Int64) :
    Keeps limits reservations
      (releaseLocalReservation project nonce expectedBytes expectedExpiresAtMs nowMs reservations).1 := by
  unfold releaseLocalReservation
  have hswept : Keeps limits reservations (sweepExpired reservations nowMs) := keeps_sweepExpired nowMs
  generalize sweepExpired reservations nowMs = swept at hswept ⊢
  cases hlookup : swept.1.byNonce.lookup nonce with
  | none =>
    simp only [hlookup]
    exact hswept
  | some reservation =>
    simp only [hlookup]
    by_cases hsame : reservation ≠ ⟨project, expectedBytes, expectedExpiresAtMs⟩
    · rw [if_pos hsame]
      exact hswept
    · rw [if_neg hsame]
      exact hswept.trans (keeps_remove hlookup)

theorem keeps_validateLocalReservation (claims : GrantClaims) (nowMs : Int64) :
    Keeps limits reservations (validateLocalReservation claims nowMs reservations).1 := by
  unfold validateLocalReservation
  by_cases hbytes : claims.reservationBytes = 0
  · simp only [hbytes, ↓reduceIte]
    exact Keeps.refl
  simp only [hbytes, ↓reduceIte]
  have hswept : Keeps limits reservations (sweepExpired reservations nowMs) := keeps_sweepExpired nowMs
  generalize sweepExpired reservations nowMs = swept at hswept ⊢
  cases hlookup : swept.1.byNonce.lookup claims.nonce with
  | none => exact hswept
  | some reservation => exact hswept

theorem keeps_releaseClaims (claims : GrantClaims) (nowMs : Int64) :
    Keeps limits reservations (releaseClaims claims nowMs reservations).1 :=
  keeps_releaseLocalReservation claims.projectId claims.nonce claims.reservationBytes claims.reservationExpiresAtMs
    nowMs

variable {Token : Type} {doubles : Runtime.Doubles} {codec : GrantCodec Token}

theorem keeps_startAuthorize (request : AuthorizationRequest) (nonce : List Char) (nowMs : Int64) :
    Keeps limits reservations (startAuthorize doubles reservations request nonce nowMs).1 := by
  unfold startAuthorize
  cases validateRequest doubles request with
  | error _ => exact Keeps.refl
  | ok _ =>
    by_cases hlength : (Text.byteLength nonce < 16 || 128 < Text.byteLength nonce) = true
    · simp only [hlength, ↓reduceIte]
      exact Keeps.refl
    · simp only [hlength, ↓reduceIte, Bool.false_eq_true]
      exact Keeps.refl

theorem keeps_startCommit (token : Token) (auth : AuthContext) (result : StorageCommitResult) (nowMs : Int64) :
    Keeps limits reservations (startCommit codec reservations token auth result nowMs).1 := by
  unfold startCommit
  cases codec.verify token nowMs with
  | error _ => exact Keeps.refl
  | ok claims =>
    by_cases hfor : (claims.isFor auth && claims.allowsResult result) = true
    · simp only [hfor, ↓reduceIte]
      exact Keeps.refl
    · simp only [hfor, ↓reduceIte, Bool.false_eq_true]
      exact Keeps.refl

theorem keeps_startRelease (token : Token) (auth : AuthContext) (nowMs : Int64) :
    Keeps limits reservations (startRelease codec reservations token auth nowMs).1 := by
  unfold startRelease
  cases codec.verifyAuthenticated token with
  | error _ => exact Keeps.refl
  | ok claims =>
    by_cases hfor : (!claims.isFor auth) = true
    · simp only [hfor, ↓reduceIte]
      exact Keeps.refl
    simp only [hfor, ↓reduceIte, Bool.false_eq_true]
    have hvalidated : Keeps limits reservations (validateLocalReservation claims nowMs reservations).1 :=
      keeps_validateLocalReservation claims nowMs
    cases (validateLocalReservation claims nowMs reservations).2 with
    | error _ => exact hvalidated
    | ok _ => exact hvalidated

theorem keeps_advance (call : GatewayCall) (reply : Reply) :
    Keeps limits reservations (advance limits reservations call reply).1 := by
  unfold advance
  split
  case h_1 request nonce nowMs authorization =>
    cases checkAuthorization request authorization with
    | error _ => exact Keeps.refl
    | ok _ =>
      have hadmitted : Keeps limits reservations
          (admitReservation limits authorization request.auth.projectId nonce nowMs reservations).1 :=
        keeps_admit authorization request.auth.projectId nonce nowMs
      simp only
      cases (admitReservation limits authorization request.auth.projectId nonce nowMs reservations).2 with
      | error _ => exact hadmitted
      | ok _ => exact hadmitted
  case h_2 request authorization nonce nowMs _ =>
    by_cases hbytes : authorization.reservationBytes = 0
    · rw [if_pos hbytes]
      exact Keeps.refl
    · rw [if_neg hbytes]
      exact keeps_releaseLocalReservation _ _ _ _ _
  case h_3 claims result nowMs committed =>
    by_cases hresult : committed ≠ result
    · rw [if_pos hresult]
      exact Keeps.refl
    · rw [if_neg hresult]
      exact keeps_releaseClaims claims nowMs
  case h_4 claims result nowMs =>
    have hvalidated : Keeps limits reservations (validateLocalReservation claims nowMs reservations).1 :=
      keeps_validateLocalReservation claims nowMs
    simp only
    cases (validateLocalReservation claims nowMs reservations).2 with
    | error _ => exact hvalidated
    | ok _ => exact hvalidated
  case h_5 claims nowMs => exact keeps_releaseClaims claims nowMs
  case h_6 claims nowMs => exact keeps_releaseClaims claims nowMs
  case h_7 claims nowMs => exact keeps_releaseClaims claims nowMs
  case h_8 => exact Keeps.refl

theorem keeps_criticalSection (gateway : Gateway) (event : GatewayEvent Token) :
    Keeps limits gateway.reservations (criticalSection doubles codec limits gateway event).1 := by
  cases event with
  | authorize request nonce nowMs => exact keeps_startAuthorize request nonce nowMs
  | commitMetadata token auth result nowMs => exact keeps_startCommit token auth result nowMs
  | releaseReservation token auth nowMs => exact keeps_startRelease token auth nowMs
  | reply call reply =>
    simp only [criticalSection]
    cases gateway.calls[call]? with
    | none => exact Keeps.refl
    | some waiting => exact keeps_advance waiting reply
  | cancel call => exact Keeps.refl
  | cleanupLocalReservations nowMs => exact keeps_sweepExpired nowMs

theorem keeps_run (doubles : Runtime.Doubles) (codec : GrantCodec Token) (gateway : Gateway) (events : List (GatewayEvent Token)) :
    Keeps limits gateway.reservations
      ((Machine.run (gatewayStep doubles codec limits) gateway events).reservations,
        Machine.trace (gatewayStep doubles codec limits) (gatewayTrace doubles codec limits) gateway events) := by
  induction events generalizing gateway with
  | nil => exact Keeps.refl
  | cons event events ih =>
    have hnext := ih (gatewayStep doubles codec limits gateway event)
    exact (keeps_criticalSection gateway event).trans hnext

/-- After any interleaving of calls, with any clock, what is booked for a project is the sum of what is
held for it, and nothing is released that is not held. -/
theorem reservation_ledger_holds (doubles : Runtime.Doubles) (codec : GrantCodec Token) (limits : StorageLimits)
    (events : List (GatewayEvent Token)) :
    let gateway := Machine.run (gatewayStep doubles codec limits) {} events
    let trace := Machine.trace (gatewayStep doubles codec limits) (gatewayTrace doubles codec limits) {} events
    (∀ project, gateway.reservations.byProject.lookup project =
      if gateway.reservations.pendingBytes project = 0 then none
      else some (gateway.reservations.pendingBytes project)) ∧
    (∀ nonce reservation, gateway.reservations.byNonce.lookup nonce = some reservation → 0 < reservation.bytes) ∧
    gateway.reservations.byNonce.size ≤ limits.maxPendingReservations ∧
    ∀ nonce reservation,
      trace.count (.released nonce reservation) + gateway.reservations.held nonce reservation =
        trace.count (.reserved nonce reservation) := by
  obtain ⟨hbalanced, haccounts⟩ := keeps_run doubles codec {} events balanced_empty
  exact ⟨hbalanced.byProject, hbalanced.positive, hbalanced.bounded, haccounts⟩

end Ledger

end Ffdb.ObjectStorage
