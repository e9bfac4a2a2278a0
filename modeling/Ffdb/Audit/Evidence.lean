import Ffdb.Audit.Sink

/-! What a verification of the chains shows about a log that was changed. -/
namespace Ffdb.Audit
open HashChain

section Chains
variable {Digest : Type} {doubles : Runtime.Doubles} {hash : HashedEvent Digest → Digest}

def chains (hash : HashedEvent Digest → Digest) : Scheme (AuditEvent Digest) Digest where
  previous event := event.previousHash
  recorded event := event.eventHash
  computed event := hash event.toHashedEvent

theorem chains_committing (h : Function.Injective hash) : (chains hash).Committing where
  previous hsame := congrArg HashedEvent.previousHash (h hsame)
  unique {a b} hsame hrecorded := by
    rcases a with ⟨hashed, eventHash⟩
    rcases b with ⟨hashed', eventHash'⟩
    obtain rfl := h hsame
    obtain rfl : eventHash = eventHash' := hrecorded
    rfl

def streamEvents (stream : AuditStream) (events : List (AuditEvent Digest)) : List (AuditEvent Digest) :=
  events.filter fun event => event.stream = stream

theorem streamEvents_cons (stream : AuditStream) (event : AuditEvent Digest) (events : List (AuditEvent Digest)) :
    streamEvents stream (event :: events) =
      if event.stream = stream then event :: streamEvents stream events else streamEvents stream events := by
  by_cases hstream : event.stream = stream
  · simp [streamEvents, hstream]
  · simp [streamEvents, hstream]

theorem streamEvents_append (stream : AuditStream) (events events' : List (AuditEvent Digest)) :
    streamEvents stream (events ++ events') = streamEvents stream events ++ streamEvents stream events' :=
  List.filter_append ..

theorem mem_streamEvents {stream : AuditStream} {events : List (AuditEvent Digest)} {event : AuditEvent Digest} :
    event ∈ streamEvents stream events ↔ event ∈ events ∧ event.stream = stream := by
  simp [streamEvents]

def AllLinked (hash : HashedEvent Digest → Digest) (events : List (AuditEvent Digest)) : Prop :=
  ∀ stream, (chains hash).Linked none (streamEvents stream events)

/-- What holds of every log: its streams are chains, and the recorded heads are their ends. -/
structure AuditState.Sound (hash : HashedEvent Digest → Digest) (state : AuditState Digest) : Prop where
  linked : AllLinked hash state.events
  heads : ∀ stream, state.heads.lookup stream = (chains hash).head none (streamEvents stream state.events)

theorem AuditState.Sound.appendStep {state : AuditState Digest} (h : state.Sound hash) (call : AuditDraft × Uuid) :
    (appendStep doubles hash state call).Sound hash := by
  unfold Audit.appendStep append
  cases validateAndRedact doubles call.1 with
  | error error => exact h
  | ok draft =>
    simp only
    generalize hevent : buildEvent hash call.2 draft (state.heads.lookup draft.stream) = event
    have hstream : event.stream = draft.stream := by
      rw [← hevent]
      rfl
    have hprevious : event.previousHash = state.heads.lookup event.stream := by
      rw [hstream, ← hevent]
      rfl
    have hcomputed : hash event.toHashedEvent = event.eventHash := by
      rw [← hevent]
      rfl
    rw [← hstream]
    refine ⟨?_, ?_⟩
    · intro stream
      rw [streamEvents_append, Scheme.linked_append]
      refine ⟨h.linked stream, ?_⟩
      rw [streamEvents_cons]
      by_cases hs : event.stream = stream
      · rw [if_pos hs, ← hs, ← h.heads]
        exact ⟨hprevious, hcomputed, trivial⟩
      · rw [if_neg hs]
        trivial
    · intro stream
      rw [streamEvents_append, Scheme.head_append, streamEvents_cons, ← h.heads]
      by_cases hs : event.stream = stream
      · rw [if_pos hs, ← hs, AList.lookup_insert]
        rfl
      · rw [if_neg hs, AList.lookup_insert_ne fun h => hs h.symm]
        rfl

theorem sound_run (calls : List (AuditDraft × Uuid)) :
    (Machine.run (appendStep doubles hash) {} calls).Sound hash := by
  refine Machine.run_preserves ?_ _ calls ⟨fun _ => trivial, fun _ => rfl⟩
  intro state call h
  exact h.appendStep call

variable {events events' before after : List (AuditEvent Digest)} {event event' : AuditEvent Digest}

theorem allLinked_sublist_iff (hash_inj : Function.Injective hash) (h : AllLinked hash events)
    (hkept : events'.Sublist events) :
    AllLinked hash events' ↔ ∀ stream, streamEvents stream events' <+: streamEvents stream events := by
  refine ⟨?_, ?_⟩
  · intro h' stream
    exact Scheme.Linked.prefix_of_subset (chains_committing hash_inj) (h stream) (h' stream)
      (hkept.filter _).subset
  · intro hleading stream
    exact (h stream).of_leading (hleading stream)

theorem allLinked_insert_iff (hash_inj : Function.Injective hash) (h : AllLinked hash events) {stream : AuditStream}
    (hkept : events.Sublist events')
    (hothers : ∀ other, other ≠ stream → streamEvents other events' = streamEvents other events) :
    AllLinked hash events' ↔ ∃ forged, streamEvents stream events' = streamEvents stream events ++ forged ∧
      (chains hash).Linked ((chains hash).head none (streamEvents stream events)) forged := by
  refine ⟨?_, ?_⟩
  · intro h'
    obtain ⟨forged, hforged⟩ := Scheme.Linked.prefix_of_subset (chains_committing hash_inj) (h' stream) (h stream)
      (hkept.filter _).subset
    refine ⟨forged, hforged.symm, ?_⟩
    have hlinked := h' stream
    rw [← hforged] at hlinked
    exact (Scheme.linked_append.mp hlinked).2
  · rintro ⟨forged, hforged, hlinked⟩ other
    by_cases hother : other = stream
    · rw [hother, hforged]
      exact Scheme.linked_append.mpr ⟨h stream, hlinked⟩
    · rw [hothers other hother]
      exact h other

theorem AllLinked.not_mem_after (hash_inj : Function.Injective hash) (h : AllLinked hash (before ++ event :: after)) :
    event ∉ after := by
  intro hmem
  have hlinked := h event.stream
  rw [streamEvents_append, streamEvents_cons, if_pos rfl] at hlinked
  exact Scheme.Linked.recorded_ne (chains_committing hash_inj) hlinked (mem_streamEvents.mpr ⟨hmem, rfl⟩) rfl

theorem AllLinked.nodup (hash_inj : Function.Injective hash) (h : AllLinked hash events) : events.Nodup := by
  have hsplit : ∀ front rest, events = front ++ rest → rest.Nodup := by
    intro front rest
    induction rest generalizing front with
    | nil => exact fun _ => List.nodup_nil
    | cons event rest ih =>
      intro hevents
      refine List.nodup_cons.mpr ⟨?_, ih (front ++ [event]) (by simpa using hevents)⟩
      subst hevents
      exact h.not_mem_after hash_inj
  exact hsplit [] events rfl

theorem AllLinked.eq_of_perm (hash_inj : Function.Injective hash) (h : AllLinked hash events)
    (h' : AllLinked hash events') (hperm : events'.Perm events) (stream : AuditStream) :
    streamEvents stream events' = streamEvents stream events :=
  Scheme.Linked.eq_of_perm (chains_committing hash_inj) (h stream) (h' stream) (hperm.filter _)

/-- An event in the place of another one that leaves no trace: it links on where it is, and no later event
vouches for either of them. -/
structure Reforged (hash : HashedEvent Digest → Digest) (before : List (AuditEvent Digest))
    (event event' : AuditEvent Digest) (after : List (AuditEvent Digest)) : Prop where
  previous : event'.previousHash = (chains hash).head none (streamEvents event'.stream before)
  computed : hash event'.toHashedEvent = event'.eventHash
  last : ∀ later ∈ after, later.stream ≠ event.stream ∧ later.stream ≠ event'.stream

theorem streamEvents_eq_nil {stream : AuditStream} (h : ∀ later ∈ after, later.stream ≠ stream) :
    streamEvents stream after = [] := by
  refine List.filter_eq_nil_iff.mpr ?_
  intro later hlater
  simpa using h later hlater

theorem ne_of_streamEvents {stream : AuditStream} (h : streamEvents stream after = []) {later : AuditEvent Digest}
    (hlater : later ∈ after) : later.stream ≠ stream := by
  intro hstream
  have hmem := mem_streamEvents.mpr ⟨hlater, hstream⟩
  rw [h] at hmem
  cases hmem

theorem allLinked_change_iff (hash_inj : Function.Injective hash) (h : AllLinked hash (before ++ event :: after))
    (hne : event' ≠ event) :
    AllLinked hash (before ++ event' :: after) ↔ Reforged hash before event event' after := by
  have hcommitting := chains_committing hash_inj
  refine ⟨?_, ?_⟩
  · intro h'
    have hlinked := h event.stream
    rw [streamEvents_append, streamEvents_cons, if_pos rfl] at hlinked
    have hlinked' := h' event'.stream
    rw [streamEvents_append, streamEvents_cons, if_pos rfl] at hlinked'
    obtain ⟨-, hprevious, hcomputed, -⟩ := Scheme.linked_append.mp hlinked'
    suffices hlast : streamEvents event.stream after = [] ∧ streamEvents event'.stream after = [] by
      refine ⟨hprevious, hcomputed, fun later hlater => ⟨?_, ?_⟩⟩
      · exact ne_of_streamEvents hlast.1 hlater
      · exact ne_of_streamEvents hlast.2 hlater
    by_cases hsame : event'.stream = event.stream
    · rw [hsame] at hlinked' ⊢
      have hnil := Scheme.Linked.last_of_replaced hcommitting hlinked hlinked' hne
      exact ⟨hnil, hnil⟩
    · have hwithout := h' event.stream
      rw [streamEvents_append, streamEvents_cons, if_neg hsame] at hwithout
      have hwithout' := h event'.stream
      rw [streamEvents_append, streamEvents_cons, if_neg fun h => hsame h.symm] at hwithout'
      exact ⟨Scheme.Linked.last_of_removed hcommitting hlinked hwithout,
        Scheme.Linked.last_of_removed hcommitting hlinked' hwithout'⟩
  · rintro ⟨hprevious, hcomputed, hlast⟩ stream
    have hstream := h stream
    rw [streamEvents_append, Scheme.linked_append, streamEvents_cons] at hstream
    rw [streamEvents_append, Scheme.linked_append, streamEvents_cons]
    refine ⟨hstream.1, ?_⟩
    by_cases hown : event'.stream = stream
    · subst hown
      rw [if_pos rfl, streamEvents_eq_nil fun later hlater => (hlast later hlater).2]
      exact ⟨hprevious, hcomputed, trivial⟩
    · rw [if_neg hown]
      by_cases hold : event.stream = stream
      · subst hold
        rw [streamEvents_eq_nil fun later hlater => (hlast later hlater).1]
        trivial
      · rw [if_neg hold] at hstream
        exact hstream.2

/-- Whoever changes an event has to change its hash too. -/
theorem not_reforged (hash_inj : Function.Injective hash) (h : AllLinked hash (before ++ event :: after))
    (hne : event' ≠ event) (hfield : event'.toHashedEvent = event.toHashedEvent ∨ event'.eventHash = event.eventHash) :
    ¬Reforged hash before event event' after := by
  intro hreforged
  have hlinked := h event.stream
  rw [streamEvents_append, streamEvents_cons, if_pos rfl] at hlinked
  obtain ⟨-, -, hcomputed, -⟩ := Scheme.linked_append.mp hlinked
  have hcomputed' := hreforged.computed
  obtain hcontent | hrecorded := hfield
  · rw [hcontent] at hcomputed'
    exact hne ((chains_committing hash_inj).unique (congrArg hash hcontent) (hcomputed'.symm.trans hcomputed))
  · exact hne ((chains_committing hash_inj).eq_of_recorded hcomputed' hcomputed hrecorded)

variable [DecidableEq Digest]

theorem verifyFrom_ok_iff (heads : Table AuditStream Digest) (events : List (AuditEvent Digest)) :
    verifyFrom hash heads events = .ok () ↔
      ∀ stream, (chains hash).Linked (heads.lookup stream) (streamEvents stream events) := by
  induction events generalizing heads with
  | nil => exact ⟨fun _ _ => trivial, fun _ => rfl⟩
  | cons event events ih =>
    have hlookup : ∀ stream, (heads.insert event.stream event.eventHash).lookup stream =
        if event.stream = stream then some event.eventHash else heads.lookup stream := by
      intro stream
      by_cases hstream : event.stream = stream
      · rw [if_pos hstream, ← hstream, AList.lookup_insert]
      · rw [if_neg hstream, AList.lookup_insert_ne fun h => hstream h.symm]
    unfold verifyFrom
    by_cases hbad : event.previousHash ≠ heads.lookup event.stream ∨ hash event.toHashedEvent ≠ event.eventHash
    · rw [if_pos hbad]
      refine ⟨fun h => (nomatch h), ?_⟩
      intro h
      have hown := h event.stream
      rw [streamEvents_cons, if_pos rfl] at hown
      obtain ⟨hprevious, hcomputed, -⟩ := hown
      obtain hbad | hbad := hbad
      · exact absurd hprevious hbad
      · exact absurd hcomputed hbad
    · rw [if_neg hbad, ih]
      rw [not_or, not_not, not_not] at hbad
      obtain ⟨hprevious, hcomputed⟩ := hbad
      refine forall_congr' fun stream => ?_
      rw [hlookup, streamEvents_cons]
      by_cases hstream : event.stream = stream
      · subst hstream
        rw [if_pos rfl, if_pos rfl]
        exact ⟨fun h => ⟨hprevious, hcomputed, h⟩, fun h => h.2.2⟩
      · rw [if_neg hstream, if_neg hstream]

theorem verify_ok_iff (state : AuditState Digest) : verify hash state = .ok () ↔ AllLinked hash state.events :=
  verifyFrom_ok_iff ∅ state.events

theorem verifyFrom_error {heads : Table AuditStream Digest} {events : List (AuditEvent Digest)} {error : AuditError}
    (h : verifyFrom hash heads events = .error error) : error = .integrity := by
  induction events generalizing heads with
  | nil => cases h
  | cons event events ih =>
    unfold verifyFrom at h
    by_cases hbad : event.previousHash ≠ heads.lookup event.stream ∨ hash event.toHashedEvent ≠ event.eventHash
    · rw [if_pos hbad] at h
      exact (Except.error.inj h).symm
    · rw [if_neg hbad] at h
      exact ih h

theorem verify_error_iff (state : AuditState Digest) :
    verify hash state = .error .integrity ↔ ¬AllLinked hash state.events := by
  rw [← verify_ok_iff]
  cases hverify : verify hash state with
  | ok _ => simp
  | error error => simp [verifyFrom_error hverify]

/-- What a verification shows, with an injective hash and the recorded heads kept. Every log verifies. One
with an event twice, with the events of a stream in another order, or with an event whose content or whose
hash was changed, does not. An event goes unseen in the place of another one exactly when it is reforged at
the end; a deletion exactly when every stream is only cut short; an insertion exactly when the new events continue their stream. -/
theorem verify_rejects_iff (doubles : Runtime.Doubles) (hash_inj : Function.Injective hash)
    (calls : List (AuditDraft × Uuid)) :
    let state := Machine.run (appendStep doubles hash) {} calls
    verify hash state = .ok () ∧
    (∀ before event after event', state.events = before ++ event :: after → event' ≠ event →
      event'.toHashedEvent = event.toHashedEvent ∨ event'.eventHash = event.eventHash →
      verify hash ⟨before ++ event' :: after, state.heads⟩ = .error .integrity) ∧
    (∀ before event after event', state.events = before ++ event :: after → event' ≠ event →
      (verify hash ⟨before ++ event' :: after, state.heads⟩ = .error .integrity ↔
        ¬Reforged hash before event event' after)) ∧
    (∀ kept, kept.Sublist state.events →
      (verify hash ⟨kept, state.heads⟩ = .error .integrity ↔
        ¬∀ stream, streamEvents stream kept <+: streamEvents stream state.events)) ∧
    (∀ stream more, state.events.Sublist more →
      (∀ other, other ≠ stream → streamEvents other more = streamEvents other state.events) →
      (verify hash ⟨more, state.heads⟩ = .error .integrity ↔
        ¬∃ forged, streamEvents stream more = streamEvents stream state.events ++ forged ∧
          (chains hash).Linked (state.heads.lookup stream) forged)) ∧
    (∀ events, ¬events.Nodup → verify hash ⟨events, state.heads⟩ = .error .integrity) ∧
    ∀ events, events.Perm state.events → (∃ stream, streamEvents stream events ≠ streamEvents stream state.events) →
      verify hash ⟨events, state.heads⟩ = .error .integrity := by
  intro state
  have hsound : state.Sound hash := sound_run calls
  refine ⟨(verify_ok_iff state).mpr hsound.linked, ?_, ?_, ?_, ?_, ?_, ?_⟩
  · intro before event after event' hevents hne hfield
    have hlinked := hsound.linked
    rw [hevents] at hlinked
    refine (verify_error_iff _).mpr ?_
    rw [allLinked_change_iff hash_inj hlinked hne]
    exact not_reforged hash_inj hlinked hne hfield
  · intro before event after event' hevents hne
    have hlinked := hsound.linked
    rw [hevents] at hlinked
    exact (verify_error_iff _).trans (not_congr (allLinked_change_iff hash_inj hlinked hne))
  · intro kept hkept
    exact (verify_error_iff _).trans (not_congr (allLinked_sublist_iff hash_inj hsound.linked hkept))
  · intro stream more hkept hothers
    rw [hsound.heads]
    exact (verify_error_iff _).trans (not_congr (allLinked_insert_iff hash_inj hsound.linked hkept hothers))
  · intro events hnodup
    exact (verify_error_iff _).mpr fun hlinked => hnodup (hlinked.nodup hash_inj)
  · rintro events hperm ⟨stream, hstream⟩
    exact (verify_error_iff _).mpr fun hlinked => hstream (hsound.linked.eq_of_perm hash_inj hlinked hperm stream)

end Chains

section Samples

private abbrev Kept : Type := (AuditDraft × Uuid) × List (AuditDraft × Uuid)

private def keep (event : HashedEvent Kept) : Kept :=
  ((event.toAuditDraft, event.id),
    match event.previousHash with
    | none => []
    | some previous => previous.1 :: previous.2)

private theorem keep_injective : Function.Injective keep := by
  rintro ⟨draft, id, previous⟩ ⟨draft', id', previous'⟩ h
  simp only [keep, Prod.mk.injEq] at h
  obtain ⟨⟨rfl, rfl⟩, hprevious⟩ := h
  cases previous with
  | none =>
    cases previous' with
    | none => rfl
    | some _ => cases hprevious
  | some previous =>
    cases previous' with
    | none => cases hprevious
    | some previous' =>
      rcases previous with ⟨first, rest⟩
      rcases previous' with ⟨first', rest'⟩
      cases hprevious
      rfl

private def plainDoubles : Runtime.Doubles := ⟨fun _ => [], fun _ => 0⟩

private def denial : AuditDraft where
  occurredAtMs := 100
  organizationId := none
  projectId := some 1
  requestId := 2
  actorKind := .apiKey
  actorId := none
  action := "project.update".toList
  resourceKind := "project".toList
  resourceId := none
  outcome := .denied
  sourceIp := none
  metadata := .object []

private def denied : AuditState Kept := Machine.run (appendStep plainDoubles keep) {} [(denial, 3)]

/-- The only event of a project is deleted, its recorded head is kept, and the log verifies. -/
theorem deleted_event_unnoticed :
    denied.events ≠ [] ∧ (denied.heads.lookup (.project 1)).isSome ∧
      ¬∀ kept, kept.Sublist denied.events → kept ≠ denied.events →
        verify keep ⟨kept, denied.heads⟩ = .error .integrity := by
  have hevents : denied.events ≠ [] := by decide +kernel
  refine ⟨hevents, by decide +kernel, fun h => ?_⟩
  cases h [] (List.nil_sublist _) (Ne.symm hevents)

private def busy : AuditState Kept :=
  Machine.run (appendStep plainDoubles keep) {}
    [(denial, 3), ({ denial with projectId := some 2 }, 4), (denial, 5), ({ denial with projectId := some 2 }, 6)]

/-- The log verifies, but not without its first event, in reverse or with an event twice. -/
theorem busy_log_verifies : verify keep busy = .ok () ∧
    verify keep ⟨busy.events.tail, busy.heads⟩ = .error .integrity ∧
    verify keep ⟨busy.events.reverse, busy.heads⟩ = .error .integrity ∧
    ∀ events, ¬events.Nodup → verify keep ⟨events, busy.heads⟩ = .error .integrity := by
  obtain ⟨hverify, -, -, hdeleted, -, hnodup, hperm⟩ := verify_rejects_iff plainDoubles keep_injective
    [(denial, 3), ({ denial with projectId := some 2 }, 4), (denial, 5), ({ denial with projectId := some 2 }, 6)]
  refine ⟨hverify, (hdeleted _ (List.tail_sublist _)).mpr ?_, hperm _ (List.reverse_perm _) ⟨.project 1, ?_⟩, hnodup⟩
  · intro hcut
    exact absurd (hcut (.project 1)) (by decide +kernel)
  · decide +kernel

end Samples

end Ffdb.Audit
