import Ffdb.DatabaseWorker.Handler

/-! The check of the schema version and the work behind it are two sections: the check holds for
the work if nothing changes the version between them. -/
namespace Ffdb.Handler
open Migration
variable {δ ρ ω : Type} {services : Services δ ρ ω} {world : World δ ρ ω} {call : Call δ ρ ω}

def Phase.pending : Phase δ ρ → Bool
  | .admission | .create | .writeStarted | .startRow _ | .reconcile | .perform | .rollback | .capture
  | .recover _ | .restore _ => true
  | _ => false

section Frame
variable {request : Request ω} {result : Section δ ρ ω}

/-- A section that does no work yet: the data stay, and nothing is seen of it. -/
structure Idles (world : World δ ρ ω) (result : Section δ ρ ω) : Prop where
  data : result.world.database.data = world.database.data
  seen : result.seen = []

theorem idles_refuse (failure : Failure) : Idles world (refuse world failure) := ⟨rfl, rfl⟩

theorem idles_goto (phase : Phase δ ρ) : Idles world (goto world phase) := ⟨rfl, rfl⟩

theorem idles_receiptSection {body : Uuid → Section δ ρ ω} (h : ∀ receiptId, Idles world (body receiptId)) :
    Idles world (receiptSection world request body) := by
  unfold receiptSection
  cases request.operationReceiptId with
  | none => exact idles_refuse _
  | some receiptId => exact h receiptId

theorem idles_openReceipt (file : ReceiptFile ρ) : Idles world (openReceipt world request file) := by
  cases file with
  | incomplete => exact idles_refuse _
  | stored receipt =>
    dsimp only [openReceipt]
    split
    · cases receipt.state with
      | completed response => exact idles_goto _
      | started => exact idles_goto _
    · exact idles_refuse _

theorem idles_reconcile (receiptId : Uuid) : Idles world (reconcile world request receiptId) := by
  unfold reconcile
  cases request.operation with
  | metered work => exact idles_refuse _
  | single work => exact idles_refuse _
  | migration action =>
    dsimp only
    cases world.database.receipts.find? (·.receiptId = receiptId) with
    | none => exact idles_refuse _
    | some stored =>
      dsimp only
      split
      · cases stored.result with
        | none => exact idles_goto _
        | some outcome =>
          cases action with
          | apply spec => exact idles_goto _
          | rollback id => exact idles_goto _
      · exact idles_refuse _
  | backup backupId =>
    dsimp only
    cases world.backups backupId with
    | none => exact idles_goto _
    | some file => exact idles_goto _
  | restore backupId =>
    dsimp only
    cases world.database.marker with
    | none => exact idles_goto _
    | some marker =>
      dsimp only
      split
      · exact idles_goto _
      · exact idles_refuse _

theorem data_initializeReceipt (receiptId : Uuid) :
    (initializeReceipt world request receiptId).database.data = world.database.data := by
  unfold initializeReceipt
  cases request.operation with
  | migration action => rfl
  | _ => rfl

/-- Work is seen with the version that it finds, and afterwards there is none to come. -/
structure Works (services : Services δ ρ ω) (world : World δ ρ ω) (request : Request ω)
    (result : Section δ ρ ω) : Prop where
  phase : result.phase.pending = false
  seen : ∀ request' version, .executed request' version ∈ result.seen →
    request' = request ∧ version = world.version services

theorem works_migrateSection (action : MigrationAction) :
    Works services world request (migrateSection services world request action) := by
  unfold migrateSection
  cases services.migrate action world.database.data with
  | error failure => exact ⟨rfl, by simp⟩
  | ok value =>
    obtain ⟨outcome, data⟩ := value
    dsimp only
    split
    · exact ⟨rfl, by simp⟩
    · refine ⟨?_, by simp⟩
      unfold Request.after
      cases request.operationReceiptId with
      | none => rfl
      | some receiptId => rfl

theorem works_workSection {work : ω} {finish : Response ρ → Phase δ ρ}
    (hfinish : ∀ response, (finish response).pending = false) :
    Works services world request (workSection services world request work finish) := by
  unfold workSection
  cases services.work work world.database.data with
  | mk result data =>
    cases result with
    | ok value => exact ⟨hfinish _, by simp⟩
    | error failure => exact ⟨rfl, by simp⟩

theorem works_restoreSection (image : Image δ) :
    Works services world request (restoreSection services world request image) := by
  unfold restoreSection
  cases request.operation with
  | restore backupId => exact ⟨rfl, by simp⟩
  | _ => exact ⟨rfl, by simp [refuse]⟩

theorem performSection_cases : Idles world (performSection services world request) ∨
    Works services world request (performSection services world request) := by
  unfold performSection
  cases request.operation with
  | metered work => exact .inr (works_workSection fun _ => rfl)
  | single work => exact .inr (works_workSection fun _ => rfl)
  | migration action =>
    cases action with
    | apply spec => exact .inr (works_migrateSection _)
    | rollback id =>
      dsimp only
      cases services.migrationRecord id world.database.data with
      | none => exact .inl (idles_refuse _)
      | some status => exact .inl (idles_goto _)
  | backup backupId =>
    dsimp only
    split
    · exact .inl (idles_refuse _)
    · exact .inl (idles_goto _)
  | restore backupId =>
    dsimp only
    cases world.backups backupId with
    | none => exact .inl (idles_refuse _)
    | some file => exact .inl (idles_goto _)

/-- A section of a call whose work is to come keeps the data, or it is the work. -/
theorem runSection_pending (services : Services δ ρ ω) (world : World δ ρ ω) (h : call.phase.pending = true) :
    Idles world (runSection services world call) ∨
      Works services world call.request (runSection services world call) := by
  unfold runSection
  cases hphase : call.phase with
  | admission =>
    refine .inl (idles_receiptSection fun receiptId => ?_)
    split
    · exact idles_goto _
    · cases validateNewReceiptPreconditions services world call.request.operation with
      | ok u => exact idles_goto _
      | error failure => exact idles_refuse _
  | create =>
    refine .inl (idles_receiptSection fun receiptId => ?_)
    cases world.files receiptId with
    | none => exact ⟨rfl, rfl⟩
    | some file => exact idles_openReceipt file
  | writeStarted => exact .inl (idles_receiptSection fun receiptId => ⟨rfl, rfl⟩)
  | startRow retried => exact .inl (idles_receiptSection fun receiptId => ⟨data_initializeReceipt receiptId, rfl⟩)
  | reconcile => exact .inl (idles_receiptSection idles_reconcile)
  | perform => exact performSection_cases
  | rollback =>
    dsimp only
    cases call.request.operation with
    | migration action => exact .inr (works_migrateSection _)
    | _ => exact .inl (idles_refuse _)
  | capture => exact .inr ⟨rfl, by simp⟩
  | recover image => exact .inl (idles_goto _)
  | restore image => exact .inr (works_restoreSection image)
  | _ =>
    rw [hphase] at h
    cases h

/-- Once the work is done, nothing more of it is seen and none is to come. -/
theorem runSection_finished (h : call.phase.pending = false) (hcheck : call.phase ≠ .check) :
    (runSection services world call).phase.pending = false ∧
      ∀ request version, .executed request version ∉ (runSection services world call).seen := by
  unfold runSection
  cases hphase : call.phase with
  | check => exact absurd hphase hcheck
  | record outcome =>
    dsimp only
    split
    · split
      · exact ⟨rfl, by simp [goto]⟩
      · exact ⟨rfl, by simp [refuse]⟩
    · exact ⟨rfl, by simp [refuse]⟩
  | publish file =>
    dsimp only [publishSection]
    split
    · refine ⟨?_, by simp⟩
      unfold Request.after
      cases call.request.operationReceiptId with
      | none => rfl
      | some receiptId => rfl
    · exact ⟨rfl, by simp [refuse]⟩
  | bootstrap prepared =>
    dsimp only [bootstrapSection]
    split
    · exact ⟨rfl, by simp [refuse]⟩
    · split
      · exact ⟨rfl, by simp [goto]⟩
      · exact ⟨rfl, by simp [goto]⟩
  | readVersion =>
    dsimp only [readVersionSection]
    split
    · exact ⟨rfl, by simp [goto]⟩
    · exact ⟨rfl, by simp [refuse]⟩
  | complete response =>
    dsimp only [receiptSection]
    split
    · exact ⟨rfl, by simp [goto]⟩
    · exact ⟨rfl, by simp [refuse]⟩
  | account response => exact ⟨rfl, by simp⟩
  | done result => exact ⟨rfl, by simp [goto]⟩
  | _ =>
    rw [hphase] at h
    cases h

theorem runSection_check (services : Services δ ρ ω) (world : World δ ρ ω) (hphase : call.phase = .check) :
    (runSection services world call).world = world ∧ (runSection services world call).seen = [] ∧
      ((runSection services world call).phase.pending = true →
        ∀ expected, call.request.expectedSchemaVersion = some expected → world.version services = expected) := by
  unfold runSection
  rw [hphase]
  dsimp only
  cases hexpected : call.request.expectedSchemaVersion with
  | none => exact ⟨rfl, rfl, fun _ _ h => (nomatch h)⟩
  | some expected =>
    dsimp only
    by_cases hversion : world.version services = expected
    · rw [if_pos hversion]
      exact ⟨rfl, rfl, fun _ other h => (Option.some.inj h) ▸ hversion⟩
    · rw [if_neg hversion]
      exact ⟨rfl, rfl, fun h => (nomatch h)⟩

end Frame
section Runs
variable {event : Event ω} {index : Nat} {fault : Fault}

def Undisturbed (services : Services δ ρ ω) (world : World δ ρ ω) (event : Event ω) : Prop :=
  (step services world event).version services ≠ world.version services →
    ∀ index fault, event = .advance index fault → ∀ other call, other ≠ index → world.calls[other]? = some call →
      call.phase.pending = true → call.request.expectedSchemaVersion = none

def UndisturbedRun (services : Services δ ρ ω) (world : World δ ρ ω) : List (Event ω) → Prop
  | [] => True
  | event :: events => Undisturbed services world event ∧ UndisturbedRun services (step services world event) events

def Checked (services : Services δ ρ ω) (world : World δ ρ ω) : Prop :=
  ∀ call ∈ world.calls, call.phase.pending = true →
    ∀ expected, call.request.expectedSchemaVersion = some expected → world.version services = expected

theorem mem_set_cases {α : Type} {xs : List α} {index : Nat} {x y : α} (h : y ∈ xs.set index x) :
    y = x ∨ ∃ other, other ≠ index ∧ xs[other]? = some y := by
  obtain ⟨other, hother⟩ := List.mem_iff_getElem?.mp h
  by_cases hsame : index = other
  · subst hsame
    rw [List.getElem?_set_self' ] at hother
    cases hfound : xs[index]? with
    | none =>
      rw [hfound] at hother
      cases hother
    | some z =>
      rw [hfound] at hother
      exact .inl (Option.some.inj hother).symm
  · rw [List.getElem?_set_ne hsame] at hother
    exact .inr ⟨other, Ne.symm hsame, hother⟩

theorem faulted_cases (world : World δ ρ ω) (result : Section δ ρ ω) (fault : Fault) :
    (result.faulted world fault = result) ∨
      ((result.faulted world fault).phase = .done (.error .database) ∧
        (∀ observation ∈ (result.faulted world fault).seen, observation ∈ result.seen) ∧
        ((result.faulted world fault).world = world ∨ (result.faulted world fault).world = result.world)) := by
  cases fault with
  | none => exact .inl rfl
  | before => exact .inr ⟨rfl, by simp [Section.faulted, refuse], .inl rfl⟩
  | after => exact .inr ⟨rfl, fun observation h => (List.mem_filter.mp h).1, .inr rfl⟩

theorem mem_of_faulted {result : Section δ ρ ω} {observation : Observation ρ ω}
    (h : observation ∈ (result.faulted world fault).seen) : observation ∈ result.seen := by
  obtain hsame | ⟨-, hseen, -⟩ := faulted_cases world result fault
  · rwa [hsame] at h
  · exact hseen observation h

/-- A call that waits for its work after a section has not faulted in it. -/
theorem pending_of_faulted {result : Section δ ρ ω} (h : (result.faulted world fault).phase.pending = true) :
    result.faulted world fault = result := by
  obtain hsame | ⟨hphase, -⟩ := faulted_cases world result fault
  · exact hsame
  · rw [hphase] at h
    cases h

/-- Work is seen on the version that the request has checked. -/
theorem Checked.executed (h : Checked services world) (hcall : call ∈ world.calls) {request : Request ω}
    {version expected : Nat} (hseen : .executed request version ∈ (runSection services world call).seen)
    (hexpected : request.expectedSchemaVersion = some expected) : version = expected := by
  by_cases hpending : call.phase.pending = true
  · obtain hidles | hworks := runSection_pending services world hpending
    · rw [hidles.seen] at hseen
      cases hseen
    · obtain ⟨rfl, rfl⟩ := hworks.seen request version hseen
      exact h call hcall hpending expected hexpected
  · by_cases hcheck : call.phase = .check
    · rw [(runSection_check services world hcheck).2.1] at hseen
      cases hseen
    · exact absurd hseen ((runSection_finished (Bool.eq_false_iff.mpr hpending) hcheck).2 request version)

/-- The call of a section still has what it checked. -/
theorem Checked.own (h : Checked services world) (hcall : call ∈ world.calls)
    (hpending : (runSection services world call).phase.pending = true) {expected : Nat}
    (hexpected : call.request.expectedSchemaVersion = some expected) :
    (runSection services world call).world.version services = expected := by
  by_cases hbefore : call.phase.pending = true
  · obtain hidles | hworks := runSection_pending services world hbefore
    · have hversion : (runSection services world call).world.version services = world.version services :=
        congrArg services.schemaVersion hidles.data
      rw [hversion]
      exact h call hcall hbefore expected hexpected
    · rw [hworks.phase] at hpending
      cases hpending
  · by_cases hcheck : call.phase = .check
    · obtain ⟨hworld, -, hversion⟩ := runSection_check services world hcheck
      rw [hworld]
      exact hversion hpending expected hexpected
    · rw [(runSection_finished (Bool.eq_false_iff.mpr hbefore) hcheck).1] at hpending
      cases hpending

theorem Checked.step (h : Checked services world) (hundisturbed : Undisturbed services world event) :
    Checked services (step services world event) ∧
      ∀ request version expected, .executed request version ∈ seen services world event →
        request.expectedSchemaVersion = some expected → version = expected := by
  cases event with
  | start request nonce =>
    refine ⟨?_, by simp [seen]⟩
    intro call hcall hpending
    obtain hcall | hcall := List.mem_append.mp hcall
    · exact h call hcall hpending
    · obtain rfl := List.mem_singleton.mp hcall
      cases hpending
  | crash =>
    refine ⟨?_, by simp [seen]⟩
    intro call hcall
    cases hcall
  | advance index fault =>
    cases hfound : world.calls[index]? with
    | none =>
      simp only [Handler.step, seen, hfound]
      exact ⟨h, by simp⟩
    | some call =>
      have hcall : call ∈ world.calls := List.mem_of_getElem? hfound
      have hstep : Handler.step services world (.advance index fault) =
          (advance services world index call fault).1 := by simp only [Handler.step, hfound]
      have hseen : seen services world (.advance index fault) = (advance services world index call fault).2 := by
        simp only [seen, hfound]
      refine ⟨?_, ?_⟩
      · rw [hstep]
        intro other hother hpending expected hexpected
        obtain rfl | ⟨position, hposition, hother⟩ := mem_set_cases hother
        · have hsame := pending_of_faulted hpending
          have hpending' : (runSection services world call).phase.pending = true := hsame ▸ hpending
          have hworld : (advance services world index call fault).1.version services =
              (runSection services world call).world.version services := by
            simp only [advance, hsame]
            rfl
          rw [hworld]
          exact h.own hcall hpending' hexpected
        · by_cases hversion : (advance services world index call fault).1.version services = world.version services
          · rw [hversion]
            exact h other (List.mem_of_getElem? hother) hpending expected hexpected
          · have hnone := hundisturbed (by rw [hstep]; exact hversion) index fault rfl position other hposition hother
              hpending
            rw [hnone] at hexpected
            cases hexpected
      · rw [hseen]
        intro request version expected hexecuted hexpected
        exact h.executed hcall (mem_of_faulted hexecuted) hexpected

/-- In every interleaving of requests in which no section changes the version under another
request that has checked it, work is done on the version that its request expects. -/
theorem executed_on_expected_version (hidle : world.calls = []) (events : List (Event ω))
    (hrun : UndisturbedRun services world events) (request : Request ω) (version expected : Nat)
    (hexecuted : .executed request version ∈ Machine.trace (step services) (seen services) world events)
    (hexpected : request.expectedSchemaVersion = some expected) : version = expected := by
  have hchecked : Checked services world := by
    intro call hcall
    rw [hidle] at hcall
    cases hcall
  clear hidle
  induction events generalizing world with
  | nil => cases hexecuted
  | cons event events ih =>
    obtain ⟨hundisturbed, hrest⟩ := hrun
    obtain ⟨hnext, hseen⟩ := hchecked.step hundisturbed
    obtain hexecuted | hexecuted := List.mem_append.mp hexecuted
    · exact hseen request version expected hexecuted hexpected
    · exact ih hrest hexecuted hnext

end Runs
section Sample

def rowServices : Services (Nat × Nat) Nat Unit where
  schemaVersion data := data.1
  work _ data := (.ok (data.2+1), (data.1, data.2+1))
  validSpec _ := true
  migrate action data := match action with
    | .apply spec => .ok (⟨spec.id, .applied, data.1, data.1+1, 0, 0, []⟩, (data.1+1, data.2))
    | .rollback id => .ok (⟨id, .rolledBack, data.1, data.1+1, 0, 0, []⟩, (data.1+1, data.2))
  migrationRecord _ _ := some .applied
  bootstrap data := .ok data
  measure nonce _ := (4096, [UInt8.ofNat nonce])

def emptyWorld : World (Nat × Nat) Nat Unit := ⟨⟨(0, 0), none, []⟩, fun _ => none, fun _ => none, []⟩

def versionedWrite : Request Unit := ⟨none, some 0, [], .metered ()⟩

def firstMigration : MigrationSpec := ⟨"m1".toList, "first".toList, [], [], [], 0⟩

def migrationRequest : Request Unit := ⟨none, none, [], .migration (.apply firstMigration)⟩

def overtaken : List (Event Unit) :=
  [.start versionedWrite 0, .start migrationRequest 0, .advance 0 .none, .advance 1 .none, .advance 1 .none,
    .advance 0 .none]

/-- The write is done on version one. -/
theorem executed_on_other_version :
    versionedWrite.expectedSchemaVersion = some 0 ∧
      .executed versionedWrite 1 ∈ Machine.trace (step rowServices) (seen rowServices) emptyWorld overtaken := by
  refine ⟨rfl, ?_⟩
  have htrace : Machine.trace (step rowServices) (seen rowServices) emptyWorld overtaken =
      [.executed migrationRequest 0,
        .committed migrationRequest (.migration ⟨firstMigration.id, .applied, 0, 1, 0, 0, []⟩),
        .executed versionedWrite 1] := rfl
  rw [htrace]
  simp

def inOrder : List (Event Unit) :=
  [.start versionedWrite 0, .start migrationRequest 0, .advance 0 .none, .advance 0 .none, .advance 1 .none,
    .advance 1 .none]

/-- With the migration behind the write, the write is done on the version that it expects. -/
theorem inOrder_executed : versionedWrite.expectedSchemaVersion = some 0 ∧ ∀ version,
    .executed versionedWrite version ∈ Machine.trace (step rowServices) (seen rowServices) emptyWorld inOrder →
      version = 0 := by
  refine ⟨rfl, ?_⟩
  intro version h
  refine executed_on_expected_version rfl inOrder ⟨?_, ?_, ?_, ?_, ?_, ?_, trivial⟩ versionedWrite version 0 h rfl
  · exact fun hchanged => absurd rfl hchanged
  · exact fun hchanged => absurd rfl hchanged
  · exact fun hchanged => absurd rfl hchanged
  · exact fun hchanged => absurd rfl hchanged
  · exact fun hchanged => absurd rfl hchanged
  · intro _ index fault hevent other call hother hcall hpending
    obtain ⟨rfl, rfl⟩ := Event.advance.inj hevent
    match other with
    | 0 =>
      obtain rfl := Option.some.inj hcall
      cases hpending
    | 1 => exact absurd rfl hother
    | other+2 => cases hcall

end Sample
end Ffdb.Handler
