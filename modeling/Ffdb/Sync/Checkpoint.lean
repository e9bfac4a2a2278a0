import Ffdb.Sync.Log

/-! Checkpoints: a worker can always restart from what it wrote. -/
namespace Ffdb.Sync
open Saturating Fallible
variable {crates : Crates}

/-- Project, configuration and secret are those of the start, and the schema version
never becomes zero. -/
def Framed (start engine : SyncEngine) : Prop :=
  engine.projectId = start.projectId ∧ engine.config = start.config ∧
    engine.cursorCodec = start.cursorCodec ∧ engine.schemaVersion ≠ 0

theorem framed_preserved (crates : Crates) (start : SyncEngine) : Preserved crates (Framed start) where
  ticket _ h := h
  call call h := by
    rw [call.after_eq crates]
    exact h
  announced engine _ schemaVersion _ hle h := by
    obtain ⟨hproject, hconfig, hcodec, hschema⟩ := h
    exact ⟨hproject, hconfig, hcodec, by simp only [SyncEngine.announced]; omega⟩
  compact _ _ h := h

/-- A started engine has passed the checks of `new`. -/
theorem Started.accepted {engine : SyncEngine} (h : Started crates engine) :
    configurationAccepted engine.projectId engine.schemaVersion engine.cursorCodec.secret
      engine.config = true := by
  rcases h with ⟨projectId, schemaVersion, secret, config, h⟩ |
    ⟨projectId, secret, config, checkpoint, h⟩
  · simp only [SyncEngine.new, bind_ok_iff, require_ok_iff, pure_ok_iff] at h
    obtain ⟨_, haccepted, rfl⟩ := h
    exact haccepted
  · simp only [SyncEngine.restore, SyncEngine.new, bind_ok_iff, require_ok_iff, pure_ok_iff] at h
    obtain ⟨envelope, _, _, _, _, _, _, ⟨_, haccepted, rfl⟩, rfl⟩ := h
    exact haccepted

theorem schemaVersion_ne_zero_of_accepted {projectId : String} {schemaVersion : Nat}
    {secret : Bytes} {config : SyncConfig}
    (h : configurationAccepted projectId schemaVersion secret config = true) :
    schemaVersion ≠ 0 := by
  simp only [configurationAccepted, Bool.and_eq_true, decide_eq_true_eq] at h
  tauto

theorem configurationAccepted_of_schema {projectId : String} {schemaVersion schemaVersion' : Nat}
    {secret : Bytes} {config : SyncConfig}
    (h : configurationAccepted projectId schemaVersion secret config = true)
    (hschema : schemaVersion' ≠ 0) :
    configurationAccepted projectId schemaVersion' secret config = true := by
  simp only [configurationAccepted, Bool.and_eq_true, decide_eq_true_eq] at h ⊢
  tauto

def SyncEngine.envelope (engine : SyncEngine) : CheckpointEnvelope where
  formatVersion := checkpointFormatVersion
  projectId := engine.projectId
  schemaVersion := engine.schemaVersion
  state := engine.state

def EnvelopeRoundTrip (crates : Crates) : Prop :=
  ∀ envelope bytes, crates.envelopeToVec envelope = some bytes →
    crates.envelopeFromSlice bytes = some envelope

theorem checkpoint_of_toVec {engine : SyncEngine} {bytes : Bytes}
    (hbytes : crates.envelopeToVec engine.envelope = some bytes)
    (hsize : bytes ≠ [] ∧ bytes.length ≤ maxCheckpointBytes) :
    engine.checkpoint crates = .ok ⟨bytes⟩ := by
  simp only [SyncEngine.checkpoint, SyncCheckpoint.fromBytes, bind_ok_iff, orError_ok_iff,
    require_ok_iff, pure_ok_iff]
  exact ⟨bytes, hbytes, (), by simpa using hsize, rfl⟩

/-- Any valid engine is restored from its own envelope. -/
theorem restore_of_fromSlice (engine : SyncEngine) {bytes : Bytes}
    (hbytes : crates.envelopeFromSlice bytes = some engine.envelope)
    (hvalid : Valid engine.state engine.config)
    (haccepted : configurationAccepted engine.projectId engine.schemaVersion
      engine.cursorCodec.secret engine.config = true) :
    SyncEngine.restore crates engine.projectId engine.cursorCodec.secret engine.config ⟨bytes⟩ =
      .ok engine := by
  have hschema := schemaVersion_ne_zero_of_accepted haccepted
  simp only [SyncEngine.restore, SyncEngine.new, bind_ok_iff, orError_ok_iff, require_ok_iff,
    pure_ok_iff]
  exact ⟨engine.envelope, hbytes, (), by simp [SyncEngine.envelope, hschema], (),
    (validateState_iff _ _).mpr hvalid, _, ⟨(), haccepted, rfl⟩, rfl⟩

/-- A reachable engine is restored from its own checkpoint, and the restored engine
answers every later call alike. -/
theorem restore_checkpoint (start : SyncEngine) (ops : List Op) (bytes : Bytes)
    (hstart : Started crates start)
    (hmax : (start.run crates ops).state.nextSequence < u64Max)
    (hround : ∀ envelope bytes, crates.envelopeToVec envelope = some bytes →
      crates.envelopeFromSlice bytes = some envelope)
    (hbytes : crates.envelopeToVec (start.run crates ops).envelope = some bytes)
    (hsize : bytes ≠ [] ∧ bytes.length ≤ maxCheckpointBytes) :
    let engine := start.run crates ops
    ∃ checkpoint restored, engine.checkpoint crates = .ok checkpoint ∧
      SyncEngine.restore crates start.projectId start.cursorCodec.secret start.config checkpoint =
        .ok restored ∧
      restored.schemaVersion = engine.schemaVersion ∧ restored.state = engine.state ∧
      ∀ later context authorizer nowMs,
        (restored.run crates later).snapshot crates context authorizer nowMs =
          (engine.run crates later).snapshot crates context authorizer nowMs ∧
        (∀ cursor limit, (restored.run crates later).pull crates context cursor limit authorizer
            nowMs = (engine.run crates later).pull crates context cursor limit authorizer nowMs) ∧
        ∀ batch, (restored.run crates later).push crates context batch authorizer nowMs =
          (engine.run crates later).push crates context batch authorizer nowMs := by
  intro engine
  have haccepted := hstart.accepted
  obtain ⟨hproject, hconfig, hcodec, hschema⟩ :=
    ((framed_preserved crates start).run start ops
      ⟨rfl, rfl, rfl, schemaVersion_ne_zero_of_accepted haccepted⟩).1
  have hrestore := restore_of_fromSlice engine (hround _ _ hbytes)
    (hstart.run_valid ops hmax)
    (by rw [hproject, hconfig, hcodec]; exact configurationAccepted_of_schema haccepted hschema)
  rw [hproject, hconfig, hcodec] at hrestore
  exact ⟨⟨bytes⟩, engine, checkpoint_of_toVec hbytes hsize, hrestore, rfl, rfl,
    fun _ _ _ _ => ⟨rfl, fun _ _ => rfl, fun _ => rfl⟩⟩

def announcement : List Op := [.invalidate .policyChanged (some 2) 5]

def announcedCrates : Crates := .listing [] [(sampleEngine.announced .policyChanged 2 5).envelope]

theorem restore_checkpoint_of_announcement :
    ∃ checkpoint restored,
      (sampleEngine.run announcedCrates announcement).checkpoint announcedCrates =
        .ok checkpoint ∧
      SyncEngine.restore announcedCrates "p" sampleSecret sampleConfig checkpoint = .ok restored ∧
      restored.schemaVersion = 2 := by
  let envelope := (sampleEngine.announced .policyChanged 2 5).envelope
  have hsome : ((renderEnvelope envelope).map utf8).isSome = true := by decide +kernel
  obtain ⟨bytes, hbytes⟩ := Option.isSome_iff_exists.mp hsome
  have hsize : ∀ bytes ∈ (renderEnvelope envelope).map utf8,
      bytes ≠ [] ∧ bytes.length ≤ maxCheckpointBytes := by decide +kernel
  have hwritten : writeListed renderEnvelope [envelope] envelope = some bytes := by
    rw [writeListed_of_mem _ (List.mem_singleton_self envelope)]
    exact hbytes
  obtain ⟨checkpoint, restored, hcheckpoint, hrestore, hschema, _⟩ :=
    @restore_checkpoint announcedCrates sampleEngine announcement bytes
      (sampleEngine_started _) (by decide +kernel)
      (readListed_writeListed _ (List.pairwise_singleton _ _))
      hwritten (hsize bytes hbytes)
  exact ⟨checkpoint, restored, hcheckpoint, hrestore, hschema⟩

end Ffdb.Sync
