import Ffdb.Sync.Authority

/-! Paging through the log. The cursor of a full page is set to the first event that no
longer fits, so the next page starts behind it. -/
namespace Ffdb.Sync
open Saturating Fallible
variable (crates : Crates)

def ClaimsRoundTrip : Prop :=
  ∀ claims bytes, crates.claimsToVec claims = some bytes → crates.claimsFromSlice bytes = some claims

variable {crates}

/-- A cursor is read back as it was issued, if it is read at all. -/
theorem decode_encode {codec : CursorCodec} {claims claims' : CursorClaims} {cursor : OpaqueCursor}
    (hround : ClaimsRoundTrip crates) (henc : codec.encode crates claims = .ok cursor)
    (hdec : codec.decode crates cursor = .ok claims') : claims' = claims := by
  simp only [CursorCodec.encode, bind_ok_iff, orError_ok_iff, pure_ok_iff] at henc
  obtain ⟨payload, hpayload, mac, _, rfl⟩ := henc
  simp only [CursorCodec.decode, bind_ok_iff, require_ok_iff, orError_ok_iff,
    Text.splitOnce_append _ _ (Base64.dot_notMem_encode payload), Option.some.injEq] at hdec
  obtain ⟨_, _, _, rfl, _, _, payload', hpayload', _, _, _, _, _, _, _, _, _, _, hclaims⟩ := hdec
  rw [Base64.decode_encode] at hpayload'
  cases hpayload'
  rw [hround claims payload hpayload] at hclaims
  exact (Option.some.inj hclaims).symm

/-- Every issued cursor whose claims fit a kilobyte is read back. -/
theorem decode_issued {codec : CursorCodec} {claims : CursorClaims} {cursor : OpaqueCursor}
    {payload mac : Bytes} (henc : codec.encode crates claims = .ok cursor)
    (hpayload : crates.claimsToVec claims = some payload) (hsize : payload.length ≤ maxPayloadBytes)
    (hmac : crates.hmacSha256 codec.secret payload = some mac) (hlength : mac.length = 32)
    (hread : crates.claimsFromSlice payload = some claims) :
    codec.decode crates cursor = .ok claims := by
  simp only [CursorCodec.encode, bind_ok_iff, orError_ok_iff, pure_ok_iff] at henc
  obtain ⟨payload', hpayload', mac', hmac', rfl⟩ := henc
  rw [hpayload] at hpayload'
  cases hpayload'
  rw [hmac] at hmac'
  cases hmac'
  have htext : Text.byteLength (Base64.encode payload ++ '.' :: Base64.encode mac) =
      (4*payload.length+2)/3+(1+(4*mac.length+2)/3) := by
    rw [Text.byteLength_append, Base64.byteLength_encode]
    congr 1
    exact congrArg (1+·) (Base64.byteLength_encode mac)
  unfold maxPayloadBytes at hsize
  simp only [CursorCodec.decode, bind_ok_iff, require_ok_iff, orError_ok_iff, decide_eq_true_eq,
    Bool.and_eq_true, Text.splitOnce_append _ _ (Base64.dot_notMem_encode payload),
    Option.some.injEq, htext, maxCursorBytes]
  refine ⟨(), by omega, _, rfl, (), ?_, payload, Base64.decode_encode _, (), hsize, mac,
    Base64.decode_encode _, (), hlength, mac, hmac, (), rfl, hread⟩
  rw [Base64.byteLength_encode, Base64.byteLength_encode, hlength]
  unfold maxPayloadEncodedBytes
  omega

theorem decode_of_acceptCursor {engine : SyncEngine} {context : SyncContext}
    {cursor : OpaqueCursor} {nowMs : Int64} {claims : CursorClaims}
    (h : engine.acceptCursor crates context cursor nowMs = .ok claims) :
    engine.cursorCodec.decode crates cursor = .ok claims := by
  simp only [SyncEngine.acceptCursor, bind_ok_iff, pure_ok_iff] at h
  obtain ⟨_, _, claims', hdecode, _, _, _, _, _, _, _, _, _, _, _, _, _, _, rfl⟩ := h
  exact hdecode

section Listing
variable {known : List CursorClaims}

/-- The crates write the known claims and read them back by looking them up. -/
def Crates.Lists (crates : Crates) (known : List CursorClaims) : Prop :=
  crates.claimsToVec = writeListed (fun claims => some (renderClaims claims)) known ∧
  crates.claimsFromSlice = readListed (fun claims => some (renderClaims claims)) known ∧
  crates.hmacSha256 = fun secret message => some (Sha256.hmac secret message)

def issuedCursor (secret : Bytes) (claims : CursorClaims) : OpaqueCursor :=
  ⟨Base64.encode (utf8 (renderClaims claims)) ++ '.' ::
    Base64.encode (Sha256.hmac secret (utf8 (renderClaims claims)))⟩

theorem Crates.Lists.written (h : crates.Lists known) {claims : CursorClaims}
    (hmem : claims ∈ known) : crates.claimsToVec claims = some (utf8 (renderClaims claims)) := by
  rw [h.1]
  exact writeListed_of_mem _ hmem

theorem Crates.Lists.encode (h : crates.Lists known) (codec : CursorCodec) {claims : CursorClaims}
    (hmem : claims ∈ known) :
    codec.encode crates claims = .ok (issuedCursor codec.secret claims) := by
  simp only [CursorCodec.encode, bind_ok_iff, orError_ok_iff, pure_ok_iff, h.2.2]
  exact ⟨_, h.written hmem, _, rfl, rfl⟩

theorem Crates.Lists.roundTrip (h : crates.Lists known)
    (hdistinct : known.Pairwise fun c d => utf8 (renderClaims c) ≠ utf8 (renderClaims d)) :
    ClaimsRoundTrip crates := by
  rw [ClaimsRoundTrip, h.1, h.2.1]
  exact readListed_writeListed _ (hdistinct.imp fun h he => h (Option.some.inj he))

/-- A listed cursor is accepted by whoever it was issued for. -/
theorem Crates.Lists.acceptCursor (h : crates.Lists known) {engine : SyncEngine}
    {context : SyncContext} {claims : CursorClaims} {nowMs : Int64}
    (hround : ClaimsRoundTrip crates) (hmem : claims ∈ known)
    (hsize : (utf8 (renderClaims claims)).length ≤ maxPayloadBytes)
    (hv : engine.verifyContext context = .ok ())
    (howner : claims.projectId = engine.projectId ∧ claims.subject = context.subject ∧
      claims.trustedClientId = context.trustedClientId ∧
      claims.scopeFingerprint = context.scopeFingerprint ∧
      claims.schemaVersion = engine.schemaVersion)
    (htime : claims.issuedAtMs ≤ nowMs ∧ nowMs < claims.expiresAtMs)
    (hsequence : engine.state.minimumAvailableSequence ≤ claims.sequence) :
    engine.acceptCursor crates context (issuedCursor engine.cursorCodec.secret claims) nowMs =
      .ok claims := by
  have hwritten := h.written hmem
  have hdecode := decode_issued (h.encode engine.cursorCodec hmem) hwritten hsize
    (by rw [h.2.2]) (Sha256.length_hmac _ _) (hround _ _ hwritten)
  obtain ⟨hproject, hsubject, hclient, hscope, hschema⟩ := howner
  simp only [SyncEngine.acceptCursor, bind_ok_iff, require_ok_iff, pure_ok_iff]
  exact ⟨(), hv, claims, hdecode, (), decide_eq_true hproject, (), by simp [hsubject, hclient], (),
    decide_eq_true htime.1, (), decide_eq_true htime.2, (), decide_eq_true hschema, (),
    decide_eq_true hscope, (), decide_eq_true hsequence, rfl⟩

end Listing

section Pages
variable (crates)

def SyncEngine.visibleAfter (engine : SyncEngine) (context : SyncContext)
    (authorizer : SyncAuthorizer) (sequence : Nat) : List LogicalEvent :=
  (engine.state.events.filter fun event => sequence < event.sequence).filter
    fun event => isVisible event context authorizer

/-- A client that pulls until `has_more` is false, feeding back each page's cursor.
Requests are limits with the times of the calls. -/
inductive PullRun (engine : SyncEngine) (context : SyncContext) (authorizer : SyncAuthorizer) :
    OpaqueCursor → List (Nat × Int64) → List PullResult → Prop where
  | last {cursor limit nowMs page} :
    engine.pull crates context cursor limit authorizer nowMs = .ok page → page.hasMore = false →
    PullRun engine context authorizer cursor [(limit, nowMs)] [page]
  | more {cursor limit nowMs page requests pages} :
    engine.pull crates context cursor limit authorizer nowMs = .ok page → page.hasMore = true →
    PullRun engine context authorizer page.cursor requests pages →
    PullRun engine context authorizer cursor ((limit, nowMs) :: requests) (page :: pages)

end Pages

def twoRows : List Op :=
  [pushAs alice (sampleUpsert "m1" "a" "alice") 0, pushAs alice (sampleUpsert "m2" "b" "alice") 1]

def aliceClaims (sequence : Nat) (nowMs : Int64) : CursorClaims :=
  sampleEngine.claims alice sequence nowMs

def pagedClaims : List CursorClaims :=
  [aliceClaims 1 0, aliceClaims 2 1, aliceClaims 0 5, aliceClaims 2 10, aliceClaims 2 11]

def pagedCrates : Crates := .listing pagedClaims []

def pagedEngine : SyncEngine := sampleEngine.run pagedCrates twoRows

theorem pagedEngine_reachable : Reachable pagedCrates pagedEngine :=
  ⟨sampleEngine, twoRows, sampleEngine_started _, rfl⟩

theorem pagedCrates_lists : pagedCrates.Lists pagedClaims := ⟨rfl, rfl, rfl⟩

theorem pagedClaims_roundTrip : ClaimsRoundTrip pagedCrates :=
  pagedCrates_lists.roundTrip (by decide +kernel)

def aliceCursor (sequence : Nat) (nowMs : Int64) : OpaqueCursor :=
  issuedCursor sampleSecret (aliceClaims sequence nowMs)

theorem pagedEngine_frame : pagedEngine.latestSequence = 2 ∧
    pagedEngine.state.minimumAvailableSequence = 0 ∧ pagedEngine.verifyContext alice = .ok () ∧
    pagedEngine.projectId = "p" ∧ pagedEngine.schemaVersion = 1 ∧
    pagedEngine.config = sampleConfig := by
  decide +kernel

theorem pagedEngine_codec : pagedEngine.cursorCodec = sampleEngine.cursorCodec :=
  (run_framed (sampleEngine_started pagedCrates) twoRows).2.2.1

theorem aliceCursor_issued {sequence : Nat} {nowMs : Int64}
    (h : aliceClaims sequence nowMs ∈ pagedClaims) :
    pagedEngine.cursor pagedCrates alice sequence nowMs = .ok (aliceCursor sequence nowMs) := by
  obtain ⟨_, _, _, hproject, hschema, hconfig⟩ := pagedEngine_frame
  have hclaims : pagedEngine.claims alice sequence nowMs = aliceClaims sequence nowMs := by
    simp only [SyncEngine.claims, hproject, hschema, hconfig]
    rfl
  rw [SyncEngine.cursor, hclaims, pagedEngine_codec]
  exact pagedCrates_lists.encode _ h

theorem aliceCursor_accepted {sequence : Nat} {issuedAt nowMs : Int64}
    (h : aliceClaims sequence issuedAt ∈ pagedClaims)
    (hsize : (utf8 (renderClaims (aliceClaims sequence issuedAt))).length ≤ maxPayloadBytes)
    (htime : issuedAt ≤ nowMs ∧ nowMs < Saturating.add issuedAt sampleConfig.cursorTtlMs) :
    pagedEngine.acceptCursor pagedCrates alice (aliceCursor sequence issuedAt) nowMs =
      .ok (aliceClaims sequence issuedAt) := by
  obtain ⟨_, hminimum, hverified, hproject, hschema, _⟩ := pagedEngine_frame
  have haccept := pagedCrates_lists.acceptCursor pagedClaims_roundTrip h hsize hverified
    ⟨hproject.symm, rfl, rfl, rfl, hschema.symm⟩ htime (by rw [hminimum]; exact Nat.zero_le _)
  rwa [pagedEngine_codec] at haccept

section Completeness
variable (crates)

/-- The pages hold the visible events after the sequence, each once and in order, and the
last cursor stands at the latest sequence. -/
structure CompletePages (engine : SyncEngine) (context : SyncContext)
    (authorizer : SyncAuthorizer) (sequence : Nat) (pages : List PullResult) : Prop where
  events : pages.flatMap PullResult.events = engine.visibleAfter context authorizer sequence
  sorted : ((pages.flatMap PullResult.events).map LogicalEvent.sequence).Pairwise (· ≤ ·)
  increasing : engine.state.nextSequence < u64Max →
    ((pages.flatMap PullResult.events).map LogicalEvent.sequence).Pairwise (· < ·)
  cursor : ∀ page, pages.getLast? = some page →
    ∃ nowMs, engine.cursor crates context engine.latestSequence nowMs = .ok page.cursor

end Completeness

/-- The loop of `pull` either takes all visible events, or stops at the first one that
does not fit. -/
theorem pullLoop_cases (visible : LogicalEvent → Bool) (limit : Nat)
    (log events : List LogicalEvent) (examined : Nat) (hroom : events.length ≤ limit) :
    (events.length+(log.filter visible).length ≤ limit ∧
      ∃ examined', pullLoop visible limit log events examined =
        (events ++ log.filter visible, examined', false)) ∨
    (limit < events.length+(log.filter visible).length ∧
      ∃ taken event rest, log = taken ++ event :: rest ∧ visible event = true ∧
        pullLoop visible limit log events examined =
          (events ++ taken.filter visible, event.sequence, true)) := by
  induction log generalizing events examined with
  | nil => exact .inl ⟨by simpa using hroom, examined, by simp [pullLoop]⟩
  | cons event log ih =>
    by_cases hvisible : visible event = true
    · by_cases hfull : events.length = limit
      · refine .inr ⟨by simp [hvisible]; omega, [], event, log, rfl, hvisible, ?_⟩
        simp [pullLoop, hvisible, hfull]
      · rcases ih (events ++ [event]) event.sequence (by simp; omega) with
          ⟨hfits, examined', hloop⟩ | ⟨hover, taken, stop, rest, rfl, hstop, hloop⟩
        · refine .inl ⟨by simp [hvisible] at hfits ⊢; omega, examined', ?_⟩
          simp [pullLoop, hvisible, hfull, hloop]
        · refine .inr ⟨by simp [hvisible] at hover ⊢; omega, event :: taken, stop, rest, rfl, hstop,
            ?_⟩
          simp [pullLoop, hvisible, hfull, hloop]
    · rcases ih events event.sequence hroom with
        ⟨hfits, examined', hloop⟩ | ⟨hover, taken, stop, rest, rfl, hstop, hloop⟩
      · refine .inl ⟨by simpa [hvisible] using hfits, examined', ?_⟩
        simp [pullLoop, hvisible, hloop]
      · refine .inr ⟨by simpa [hvisible] using hover, event :: taken, stop, rest, rfl, hstop, ?_⟩
        simp [pullLoop, hvisible, hloop]

section Paging
variable {engine : SyncEngine} {context : SyncContext} {authorizer : SyncAuthorizer}

/-- What a successful pull returns: all that is visible, or a full page whose cursor stands
at the event that did not fit. -/
theorem pull_cases {cursor : OpaqueCursor} {limit : Nat} {nowMs : Int64} {page : PullResult}
    (h : engine.pull crates context cursor limit authorizer nowMs = .ok page) :
    ∃ claims, engine.cursorCodec.decode crates cursor = .ok claims ∧
    (((engine.visibleAfter context authorizer claims.sequence).length ≤ engine.pageLimit limit ∧
      page.events = engine.visibleAfter context authorizer claims.sequence ∧
      page.hasMore = false ∧
      engine.cursor crates context engine.latestSequence nowMs = .ok page.cursor) ∨
    (engine.pageLimit limit < (engine.visibleAfter context authorizer claims.sequence).length ∧
      page.hasMore = true ∧
      ∃ event rest, claims.sequence < event.sequence ∧
        engine.visibleAfter context authorizer claims.sequence = page.events ++ event :: rest ∧
        engine.cursor crates context event.sequence nowMs = .ok page.cursor)) := by
  simp only [SyncEngine.pull, bind_ok_iff, pure_ok_iff] at h
  obtain ⟨claims, haccept, cursor', hcursor, rfl⟩ := h
  refine ⟨claims, decode_of_acceptCursor haccept, ?_⟩
  rcases pullLoop_cases (fun event => isVisible event context authorizer) (engine.pageLimit limit)
      (engine.state.events.filter fun event => claims.sequence < event.sequence) []
      claims.sequence (Nat.zero_le _) with
    ⟨hfits, examined, hloop⟩ | ⟨hover, taken, event, rest, hlog, hvisible, hloop⟩
  · rw [hloop] at hcursor ⊢
    exact .inl ⟨by simpa [SyncEngine.visibleAfter] using hfits, by simp [SyncEngine.visibleAfter],
      rfl, by simpa using hcursor⟩
  · rw [hloop] at hcursor ⊢
    have hmem : event ∈ engine.state.events.filter fun event => claims.sequence < event.sequence := by
      rw [hlog]
      simp
    refine .inr ⟨by simpa [SyncEngine.visibleAfter] using hover, rfl, event,
      rest.filter fun event => isVisible event context authorizer, ?_, ?_, by simpa using hcursor⟩
    · simpa using (List.mem_filter.mp hmem).2
    · rw [SyncEngine.visibleAfter, hlog]
      simp [hvisible]

theorem PullRun.decoded {cursor : OpaqueCursor} {requests : List (Nat × Int64)}
    {pages : List PullResult}
    (h : PullRun crates engine context authorizer cursor requests pages) :
    ∃ claims, engine.cursorCodec.decode crates cursor = .ok claims := by
  cases h with
  | last hpull _ => exact ⟨_, (pull_cases hpull).choose_spec.1⟩
  | more hpull _ _ => exact ⟨_, (pull_cases hpull).choose_spec.1⟩

/-- No page of a run goes back behind the cursor it started from. -/
theorem PullRun.after_cursor (hround : ClaimsRoundTrip crates) {cursor : OpaqueCursor}
    {requests : List (Nat × Int64)} {pages : List PullResult}
    (h : PullRun crates engine context authorizer cursor requests pages) {claims : CursorClaims}
    (hclaims : engine.cursorCodec.decode crates cursor = .ok claims) :
    ∀ event ∈ pages.flatMap PullResult.events, claims.sequence < event.sequence := by
  have hvisible (sequence : Nat) :
      ∀ event ∈ engine.visibleAfter context authorizer sequence, sequence < event.sequence := by
    intro event hevent
    simp only [SyncEngine.visibleAfter, List.mem_filter, decide_eq_true_eq] at hevent
    exact hevent.1.2
  induction h generalizing claims with
  | last hpull hmore =>
    obtain ⟨claims', hdecode, ⟨_, hevents, _⟩ | ⟨_, hmore', _⟩⟩ := pull_cases hpull
    · rw [hclaims] at hdecode
      cases hdecode
      simpa [hevents] using hvisible claims.sequence
    · rw [hmore] at hmore'
      cases hmore'
  | more hpull hmore hrun ih =>
    obtain ⟨claims', hdecode, ⟨_, _, hmore', _⟩ | ⟨_, _, event, rest, hlt, hsplit, hcursor⟩⟩ :=
      pull_cases hpull
    · rw [hmore] at hmore'
      cases hmore'
    · rw [hclaims] at hdecode
      cases hdecode
      intro e he
      rw [List.flatMap_cons, List.mem_append] at he
      rcases he with he | he
      · exact hvisible claims.sequence e (by rw [hsplit]; exact List.mem_append_left _ he)
      · obtain ⟨claims', hclaims'⟩ := hrun.decoded
        have hissued := decode_encode hround hcursor hclaims'
        have hlater := ih hclaims' e he
        rw [hissued] at hlater
        exact lt_trans hlt hlater

end Paging

def Sorted (engine : SyncEngine) : Prop :=
  (engine.state.events.map LogicalEvent.sequence).Pairwise (· ≤ ·) ∧
    ∀ event ∈ engine.state.events, event.sequence ≤ engine.state.nextSequence

theorem Sorted.append {engine after : SyncEngine} (h : Sorted engine) {event : LogicalEvent}
    (hevent : event.sequence = engine.state.nextSequence)
    (hevents : after.state.events = engine.state.events ++ [event])
    (hnext : after.state.nextSequence = succ engine.state.nextSequence) : Sorted after := by
  obtain ⟨hsorted, hbound⟩ := h
  rw [Sorted, hevents, hnext]
  refine ⟨?_, ?_⟩
  · rw [List.map_append]
    refine List.pairwise_append.mpr ⟨hsorted, List.pairwise_singleton _ _, ?_⟩
    intro a ha b hb
    obtain ⟨e, he, rfl⟩ := List.mem_map.mp ha
    simp only [List.map_cons, List.map_nil, List.mem_singleton] at hb
    rw [hb, hevent]
    exact hbound e he
  · intro e he
    rcases List.mem_append.mp he with he | he
    · exact le_trans (hbound e he) (le_succ _)
    · rw [List.mem_singleton.mp he, hevent]
      exact le_succ _

theorem sorted_preserved : Preserved crates Sorted where
  ticket _ h := h
  call call h := by
    rcases call.cases crates with ⟨_, _, ha⟩ | ⟨_, _, _, _, _, _, _, _, ha⟩ | ⟨_, ha⟩ |
      ⟨hash, key, _, _, _, _, _, ha⟩
    · rwa [ha]
    · rwa [ha]
    · rwa [ha]
    · rw [ha]
      exact h.append (mutationEvent_sequence ..) rfl rfl
  announced _ _ _ _ _ h := h.append rfl rfl rfl
  compact engine nowMs h := by
    have hevents : (engine.compact nowMs).2.state.events = engine.state.events.filter _ :=
      retainEvents_events _ _ _
    refine ⟨?_, ?_⟩
    · rw [hevents]
      exact h.1.sublist (List.filter_sublist.map _)
    · intro event he
      rw [hevents] at he
      exact h.2 event (List.mem_filter.mp he).1

theorem Reachable.sorted {engine : SyncEngine} (h : Reachable crates engine) : Sorted engine := by
  obtain ⟨start, ops, hstart, rfl⟩ := h
  have hvalid := hstart.valid
  refine (sorted_preserved.run start ops ⟨?_, fun event he => (hvalid.events event he).2.le⟩).1
  exact hvalid.ordered.imp le_of_lt

theorem Reachable.valid {engine : SyncEngine} (h : Reachable crates engine)
    (hmax : engine.state.nextSequence < u64Max) : Valid engine.state engine.config := by
  obtain ⟨start, ops, hstart, rfl⟩ := h
  exact hstart.run_valid ops hmax

/-- Paging is complete exactly when everything visible fits the first page. -/
theorem pull_complete_iff_fits_first_page (engine : SyncEngine) (context : SyncContext)
    (authorizer : SyncAuthorizer) (cursor : OpaqueCursor) (claims : CursorClaims) (limit : Nat)
    (nowMs : Int64) (requests : List (Nat × Int64)) (pages : List PullResult)
    (hreachable : Reachable crates engine) (hround : ClaimsRoundTrip crates)
    (hclaims : engine.acceptCursor crates context cursor nowMs = .ok claims)
    (hrun : PullRun crates engine context authorizer cursor ((limit, nowMs) :: requests) pages) :
    CompletePages crates engine context authorizer claims.sequence pages ↔
      (engine.visibleAfter context authorizer claims.sequence).length ≤ engine.pageLimit limit := by
  have hdecode := decode_of_acceptCursor hclaims
  have hsub : ((engine.visibleAfter context authorizer claims.sequence).map
      LogicalEvent.sequence).Sublist (engine.state.events.map LogicalEvent.sequence) :=
    (List.filter_sublist.trans List.filter_sublist).map _
  cases hrun with
  | last hpull hmore =>
    obtain ⟨claims', hdecode', ⟨hfits, hevents, _, hcursor⟩ | ⟨_, hmore', _⟩⟩ := pull_cases hpull
    · rw [hdecode] at hdecode'
      cases hdecode'
      refine ⟨fun _ => hfits, fun _ => ⟨by simp [hevents], ?_, fun hmax => ?_, ?_⟩⟩
      · simpa [hevents] using hreachable.sorted.1.sublist hsub
      · simpa [hevents] using (hreachable.valid hmax).ordered.sublist hsub
      · rintro page' hlast
        cases hlast
        exact ⟨nowMs, hcursor⟩
    · rw [hmore] at hmore'
      cases hmore'
  | more hpull hmore hrest =>
    obtain ⟨claims', hdecode', ⟨_, _, hmore', _⟩ |
      ⟨hover, _, event, rest, hlt, hsplit, hcursor⟩⟩ := pull_cases hpull
    · rw [hmore] at hmore'
      cases hmore'
    · rw [hdecode] at hdecode'
      cases hdecode'
      refine ⟨fun hcomplete => ?_, fun hfits => absurd hfits (not_le.mpr hover)⟩
      -- the event that did not fit would have to be the first of the later pages
      have hevents := hcomplete.events
      rw [hsplit, List.flatMap_cons, List.append_cancel_left_eq] at hevents
      obtain ⟨claims'', hdecode''⟩ := hrest.decoded
      have hissued := decode_encode hround hcursor hdecode''
      have hlater := hrest.after_cursor hround hdecode'' event (by rw [hevents]; simp)
      rw [hissued] at hlater
      exact absurd hlater (lt_irrefl _)

/-- A pull whose cursor was accepted returns what its loop collects. -/
theorem pull_of_accepted {engine : SyncEngine} {context : SyncContext} {authorizer : SyncAuthorizer}
    {cursor next : OpaqueCursor} {limit : Nat} {nowMs : Int64} {claims : CursorClaims}
    {events : List LogicalEvent} (examined : Nat) {hasMore : Bool}
    (haccept : engine.acceptCursor crates context cursor nowMs = .ok claims)
    (hloop : pullLoop (fun event => isVisible event context authorizer) (engine.pageLimit limit)
      (engine.state.events.filter fun event => claims.sequence < event.sequence) []
      claims.sequence = (events, examined, hasMore))
    (hcursor : engine.cursor crates context (if hasMore then examined else engine.latestSequence)
      nowMs = .ok next) :
    engine.pull crates context cursor limit authorizer nowMs = .ok ⟨events, next, hasMore⟩ := by
  simp only [SyncEngine.pull, bind_ok_iff, pure_ok_iff]
  exact ⟨claims, haccept, next, by rw [hloop]; exact hcursor, by rw [hloop]⟩

section Runs

def pagedEvent (sequence : Nat) (transactionId primaryKey mutationId : String)
    (nowMs : Int64) : LogicalEvent :=
  .upsert sequence transactionId "docs" (.string primaryKey) [("owner", .string "alice")] 1 "alice"
    1 nowMs (some mutationId)

theorem firstCursor_accepted :
    pagedEngine.acceptCursor pagedCrates alice (aliceCursor 0 5) 10 = .ok (aliceClaims 0 5) :=
  aliceCursor_accepted (by decide) (by decide +kernel) (by decide)

def wholePage : PullResult :=
  ⟨[pagedEvent 1 "tx-1" "a" "m1" 0, pagedEvent 2 "tx-2" "b" "m2" 1], aliceCursor 2 10, false⟩

theorem pull_wholePage :
    pagedEngine.pull pagedCrates alice (aliceCursor 0 5) 2 allowAll 10 = .ok wholePage := by
  refine pull_of_accepted 2 firstCursor_accepted (by decide +kernel) ?_
  rw [pagedEngine_frame.1]
  exact aliceCursor_issued (by decide)

/-- Both events fit a page of two. -/
theorem pull_complete_of_two :
    CompletePages pagedCrates pagedEngine alice allowAll 0 [wholePage] ↔
      (pagedEngine.visibleAfter alice allowAll 0).length ≤ pagedEngine.pageLimit 2 :=
  pull_complete_iff_fits_first_page pagedEngine alice allowAll (aliceCursor 0 5)
    (aliceClaims 0 5) 2 10 [] [wholePage] pagedEngine_reachable pagedClaims_roundTrip
    firstCursor_accepted (.last pull_wholePage rfl)

def firstPage : PullResult := ⟨[pagedEvent 1 "tx-1" "a" "m1" 0], aliceCursor 2 10, true⟩

def secondPage : PullResult := ⟨[], aliceCursor 2 11, false⟩

theorem pull_firstPage :
    pagedEngine.pull pagedCrates alice (aliceCursor 0 5) 1 allowAll 10 = .ok firstPage :=
  pull_of_accepted 2 firstCursor_accepted (by decide +kernel) (aliceCursor_issued (by decide))

theorem pull_secondPage :
    pagedEngine.pull pagedCrates alice firstPage.cursor 1 allowAll 11 = .ok secondPage := by
  have haccepted : pagedEngine.acceptCursor pagedCrates alice (aliceCursor 2 10) 11 =
      .ok (aliceClaims 2 10) :=
    aliceCursor_accepted (by decide) (by decide +kernel) (by decide)
  refine pull_of_accepted 2 haccepted (by decide +kernel) ?_
  rw [pagedEngine_frame.1]
  exact aliceCursor_issued (by decide)

/-- With a page of one the second event is on no page. -/
theorem pull_skips_event :
    Reachable pagedCrates pagedEngine ∧ ClaimsRoundTrip pagedCrates ∧
    pagedEngine.acceptCursor pagedCrates alice (aliceCursor 0 5) 10 = .ok (aliceClaims 0 5) ∧
    PullRun pagedCrates pagedEngine alice allowAll (aliceCursor 0 5) [(1, 10), (1, 11)]
      [firstPage, secondPage] ∧
    ¬ CompletePages pagedCrates pagedEngine alice allowAll 0 [firstPage, secondPage] := by
  refine ⟨pagedEngine_reachable, pagedClaims_roundTrip, firstCursor_accepted,
    .more pull_firstPage rfl (.last pull_secondPage rfl), fun h => ?_⟩
  have hskipped : [firstPage, secondPage].flatMap PullResult.events ≠
      pagedEngine.visibleAfter alice allowAll 0 := by
    decide +kernel
  exact hskipped h.events

end Runs

end Ffdb.Sync
