import Ffdb.Sync.Checkpoint

/-! The directory store of the sync worker: one checkpoint file a project, replaced by
compare-and-swap. Every operation holds the store's lock to its end, so an operation is
one step of the store; where the operating system reports a failure is an argument. -/
namespace Ffdb.Sync
open Fallible Saturating

structure StoredSyncCheckpoint where
  revision : Nat
  checkpoint : SyncCheckpoint
  deriving DecidableEq

inductive SyncStoreError where
  | conflict
  | corrupt
  | unavailable
  deriving DecidableEq

structure FileEnvelope where
  formatVersion : Nat
  revision : Nat
  checkpointBase64 : List Char
  deriving DecidableEq

structure StoreCrates extends Crates where
  fileToVec : FileEnvelope → Option Bytes
  fileFromSlice : Bytes → Option FileEnvelope

/-- A directory entry; what is not a regular file is never opened. -/
inductive Node where
  | file (bytes : Bytes)
  | other
  deriving DecidableEq

/-- `counter` is the value behind the lock. -/
structure DirectorySyncStore where
  entries : String → Option Node
  counter : Nat

/-- The call that reports a failure. A failed write or rename removes the temporary file
and ignores how that goes, so anything may be left of it. `renamed` is a rename that
took effect all the same. -/
inductive Fault where
  | none
  | metadata
  | read
  | create
  | write (left : Option Bytes)
  | rename (left : Option Bytes)
  | renamed
  | directory
  deriving DecidableEq

/-- The failures that come after the new file is in place. -/
def Fault.late : Fault → Bool
  | .renamed | .directory => true
  | _ => false

variable (crates : StoreCrates)

def projectDigest (projectId : String) : String :=
  String.ofList (Text.hex (crates.sha256 projectId.toByteArray.data.toList))

def projectPath (projectId : String) : Except SyncStoreError String := do
  require (!(projectId = "" || 128 < projectId.toByteArray.size)) .corrupt
  pure (projectDigest crates projectId ++ ".sync")

def temporaryPath (projectId : String) (counter : Nat) : String :=
  "." ++ projectDigest crates projectId ++ "." ++ toString counter ++ ".tmp"

def maxFileBytes : Nat := 350*1024*1024

def readFile (bytes : Bytes) : Except SyncStoreError StoredSyncCheckpoint := do
  let envelope ← orError (crates.fileFromSlice bytes) .corrupt
  require (!(envelope.formatVersion ≠ 1 || envelope.revision = 0)) .corrupt
  let bytes ← orError (Base64.decodeStandard envelope.checkpointBase64) .corrupt
  let checkpoint ← orError (SyncCheckpoint.fromBytes bytes).toOption .corrupt
  pure ⟨envelope.revision, checkpoint⟩

def DirectorySyncStore.loadUnlocked (store : DirectorySyncStore) (projectId : String)
    (fault : Fault) : Except SyncStoreError (Option StoredSyncCheckpoint) := do
  let path ← projectPath crates projectId
  require (fault ≠ .metadata) .unavailable
  match store.entries path with
  | none => pure none
  | some .other => .error .corrupt
  | some (.file bytes) =>
    require (!(maxFileBytes < bytes.length)) .corrupt
    require (fault ≠ .read) .unavailable
    let stored ← readFile crates bytes
    pure (some stored)

def DirectorySyncStore.put (store : DirectorySyncStore) (name : String) (bytes : Option Bytes) :
    DirectorySyncStore :=
  { store with entries := fun other =>
      if other = name then bytes.map .file else store.entries other }

/-- Write the temporary file, move it over the old one and sync the directory. -/
def DirectorySyncStore.replace (store : DirectorySyncStore) (temporary path : String)
    (bytes : Bytes) (fault : Fault) : Except SyncStoreError Unit × DirectorySyncStore :=
  if (store.entries temporary).isSome then (.error .unavailable, store)
  else
    match fault with
    | .create => (.error .unavailable, store)
    | .write left => (.error .unavailable, store.put temporary left)
    | .rename left => (.error .unavailable, store.put temporary left)
    | .renamed => (.error .unavailable, store.put path (some bytes))
    | .directory => (.error .unavailable, store.put path (some bytes))
    | _ => (.ok (), store.put path (some bytes))

def DirectorySyncStore.compareAndSwap (store : DirectorySyncStore) (projectId : String)
    (expectedRevision : Nat) (checkpoint : SyncCheckpoint) (fault : Fault) :
    Except SyncStoreError Nat × DirectorySyncStore :=
  match store.loadUnlocked crates projectId fault with
  | .error error => (.error error, store)
  | .ok current =>
    if (current.map StoredSyncCheckpoint.revision).getD 0 ≠ expectedRevision then
      (.error .conflict, store)
    else if u64Max ≤ expectedRevision then (.error .corrupt, store)
    else
      match projectPath crates projectId with
      | .error error => (.error error, store)
      | .ok path =>
        let store := { store with counter := succ store.counter }
        match crates.fileToVec
            ⟨1, expectedRevision+1, Base64.encodeStandard checkpoint.bytes⟩ with
        | none => (.error .corrupt, store)
        | some bytes =>
          match store.replace (temporaryPath crates projectId store.counter) path bytes fault with
          | (.error error, store) => (.error error, store)
          | (.ok _, store) => (.ok (expectedRevision+1), store)

def DirectorySyncStore.durable (store : DirectorySyncStore) (projectId : String) :
    Option StoredSyncCheckpoint :=
  match projectPath crates projectId with
  | .error _ => none
  | .ok path =>
    match store.entries path with
    | some (.file bytes) => (readFile crates bytes).toOption
    | _ => none

def FilesRoundTrip : Prop :=
  ∀ envelope bytes, crates.fileToVec envelope = some bytes →
    crates.fileFromSlice bytes = some envelope

/-- Projects whose digests collide share their file. -/
def SameFile (projectId projectId' : String) : Prop :=
  projectPath crates projectId = projectPath crates projectId'

variable {crates}

theorem durable_of_load {store : DirectorySyncStore} {projectId : String} {fault : Fault}
    {current : Option StoredSyncCheckpoint}
    (h : store.loadUnlocked crates projectId fault = .ok current) :
    store.durable crates projectId = current := by
  simp only [DirectorySyncStore.loadUnlocked, bind_ok_iff, require_ok_iff] at h
  obtain ⟨path, hpath, _, _, h⟩ := h
  simp only [DirectorySyncStore.durable, hpath]
  split at h
  · next hentry =>
    simp only [pure_ok_iff] at h
    simp [hentry, h]
  · cases h
  · next bytes hentry =>
    simp only [bind_ok_iff, require_ok_iff, pure_ok_iff] at h
    obtain ⟨_, _, _, _, stored, hread, rfl⟩ := h
    simp [hentry, hread, Except.toOption]

theorem durable_congr {store : DirectorySyncStore} {projectId projectId' : String}
    (h : SameFile crates projectId projectId') :
    store.durable crates projectId = store.durable crates projectId' := by
  rw [DirectorySyncStore.durable, DirectorySyncStore.durable, h]

/-- Temporary names are not checkpoint names. -/
theorem temporaryPath_ne {projectId projectId' path : String} {counter : Nat}
    (h : projectPath crates projectId' = .ok path) :
    path ≠ temporaryPath crates projectId counter := by
  simp only [projectPath, bind_ok_iff, pure_ok_iff] at h
  obtain ⟨_, _, rfl⟩ := h
  intro he
  have hlast := congrArg (fun name : String => name.toList.reverse) he
  simp [temporaryPath] at hlast

theorem durable_put_temporary (store : DirectorySyncStore) (projectId projectId' : String)
    (counter : Nat) (left : Option Bytes) :
    (store.put (temporaryPath crates projectId counter) left).durable crates projectId' =
      store.durable crates projectId' := by
  cases hpath : projectPath crates projectId' with
  | error error => simp [DirectorySyncStore.durable, hpath]
  | ok path =>
    simp [DirectorySyncStore.durable, hpath, DirectorySyncStore.put, temporaryPath_ne hpath]

theorem durable_counter (store : DirectorySyncStore) (counter : Nat) (projectId : String) :
    { store with counter := counter }.durable crates projectId = store.durable crates projectId :=
  rfl

theorem durable_put_path {store : DirectorySyncStore} {projectId path : String} {bytes : Bytes}
    {stored : StoredSyncCheckpoint} (hpath : projectPath crates projectId = .ok path)
    (hread : readFile crates bytes = .ok stored) (projectId' : String) :
    (SameFile crates projectId projectId' →
      (store.put path (some bytes)).durable crates projectId' = some stored) ∧
    (¬ SameFile crates projectId projectId' →
      (store.put path (some bytes)).durable crates projectId' =
        store.durable crates projectId') := by
  constructor
  · intro hsame
    rw [SameFile, hpath] at hsame
    simp [DirectorySyncStore.durable, ← hsame, DirectorySyncStore.put, hread, Except.toOption]
  · intro hother
    rw [SameFile, hpath] at hother
    cases hpath' : projectPath crates projectId' with
    | error error => simp [DirectorySyncStore.durable, hpath']
    | ok path' =>
      have hne : path' ≠ path := fun he => hother (by rw [hpath', he])
      simp [DirectorySyncStore.durable, hpath', DirectorySyncStore.put, hne]

/-- What the file of a checkpoint is read back as. -/
theorem readFile_written (hfiles : FilesRoundTrip crates) {revision : Nat}
    {checkpoint : SyncCheckpoint} {bytes : Bytes} (hrevision : revision ≠ 0)
    (hcheckpoint : SyncCheckpoint.fromBytes checkpoint.bytes = .ok checkpoint)
    (hbytes : crates.fileToVec ⟨1, revision, Base64.encodeStandard checkpoint.bytes⟩ =
      some bytes) :
    readFile crates bytes = .ok ⟨revision, checkpoint⟩ := by
  simp only [readFile, bind_ok_iff, orError_ok_iff, require_ok_iff, pure_ok_iff]
  exact ⟨_, hfiles _ _ hbytes, (), by simpa using hrevision, _,
    Base64.decodeStandard_encodeStandard _, _, by rw [hcheckpoint]; rfl, rfl⟩

/-- A swap moved the durable checkpoint of a project on by one revision. -/
structure Swapped (crates : StoreCrates) (projectId : String) (revision : Nat)
    (checkpoint : SyncCheckpoint) (store store' : DirectorySyncStore) : Prop where
  before : ((store.durable crates projectId).map StoredSyncCheckpoint.revision).getD 0 = revision
  after : ∀ projectId', SameFile crates projectId projectId' →
    store'.durable crates projectId' = some ⟨revision+1, checkpoint⟩
  others : ∀ projectId', ¬ SameFile crates projectId projectId' →
    store'.durable crates projectId' = store.durable crates projectId'

/-- The steps up to the rename only touch the temporary file, those after it only report. -/
theorem replace_cases (store : DirectorySyncStore) (temporary path : String) (bytes : Bytes)
    (fault : Fault) :
    (∃ store', store.replace temporary path bytes fault = (.error .unavailable, store') ∧
      (store' = store ∨ ∃ left, store' = store.put temporary left)) ∨
    (store.replace temporary path bytes fault =
      (.error .unavailable, store.put path (some bytes)) ∧ fault.late = true) ∨
    store.replace temporary path bytes fault = (.ok (), store.put path (some bytes)) := by
  by_cases hexists : (store.entries temporary).isSome = true
  · exact .inl ⟨store, by simp [DirectorySyncStore.replace, hexists], .inl rfl⟩
  · simp only [DirectorySyncStore.replace, if_neg hexists]
    cases fault with
    | create => exact .inl ⟨store, rfl, .inl rfl⟩
    | write left => exact .inl ⟨_, rfl, .inr ⟨left, rfl⟩⟩
    | rename left => exact .inl ⟨_, rfl, .inr ⟨left, rfl⟩⟩
    | renamed => exact .inr (.inl ⟨rfl, rfl⟩)
    | directory => exact .inr (.inl ⟨rfl, rfl⟩)
    | none => exact .inr (.inr rfl)
    | metadata => exact .inr (.inr rfl)
    | read => exact .inr (.inr rfl)

/-- Everything a swap can do: report an error and leave all checkpoints alone, move one
on and say so, or move one on and report an error after the rename. -/
theorem compareAndSwap_cases (hfiles : FilesRoundTrip crates) (store : DirectorySyncStore)
    (projectId : String) (expectedRevision : Nat) (checkpoint : SyncCheckpoint) (fault : Fault)
    (hcheckpoint : SyncCheckpoint.fromBytes checkpoint.bytes = .ok checkpoint) :
    (∃ error store',
      store.compareAndSwap crates projectId expectedRevision checkpoint fault =
        (.error error, store') ∧
      ∀ projectId', store'.durable crates projectId' = store.durable crates projectId') ∨
    (∃ result store',
      store.compareAndSwap crates projectId expectedRevision checkpoint fault = (result, store') ∧
      (result = .ok (expectedRevision+1) ∨
        result = .error .unavailable ∧ fault.late = true) ∧
      Swapped crates projectId expectedRevision checkpoint store store') := by
  simp only [DirectorySyncStore.compareAndSwap]
  cases hload : store.loadUnlocked crates projectId fault with
  | error error => exact .inl ⟨error, store, rfl, fun _ => rfl⟩
  | ok current =>
    dsimp only
    by_cases hrevision :
        (current.map StoredSyncCheckpoint.revision).getD 0 ≠ expectedRevision
    · rw [if_pos hrevision]
      exact .inl ⟨_, store, rfl, fun _ => rfl⟩
    · rw [if_neg hrevision]
      by_cases hmax : u64Max ≤ expectedRevision
      · rw [if_pos hmax]
        exact .inl ⟨_, store, rfl, fun _ => rfl⟩
      · rw [if_neg hmax]
        cases hpath : projectPath crates projectId with
        | error error => exact .inl ⟨error, store, rfl, fun _ => rfl⟩
        | ok path =>
          dsimp only
          cases hbytes : crates.fileToVec
              ⟨1, expectedRevision+1, Base64.encodeStandard checkpoint.bytes⟩ with
          | none => exact .inl ⟨_, _, rfl, fun _ => durable_counter store _ _⟩
          | some bytes =>
            dsimp only
            have hbefore := durable_of_load hload
            have hread := readFile_written hfiles (Nat.succ_ne_zero _) hcheckpoint hbytes
            have hput : Swapped crates projectId expectedRevision checkpoint store
                ({ store with counter := succ store.counter }.put path (some bytes)) :=
              ⟨by rw [hbefore]; exact not_not.mp hrevision,
                fun projectId' hsame => (durable_put_path hpath hread projectId').1 hsame,
                fun projectId' hother => (durable_put_path hpath hread projectId').2 hother⟩
            obtain ⟨store', hreplace, rfl | ⟨left, rfl⟩⟩ | ⟨hreplace, hlate⟩ | hreplace :=
              replace_cases { store with counter := succ store.counter }
                (temporaryPath crates projectId (succ store.counter)) path bytes fault
            · rw [hreplace]
              exact .inl ⟨_, _, rfl, fun _ => durable_counter store _ _⟩
            · rw [hreplace]
              exact .inl ⟨_, _, rfl, fun _ => durable_put_temporary _ _ _ _ _⟩
            · rw [hreplace]
              exact .inr ⟨_, _, rfl, .inr ⟨rfl, hlate⟩, hput⟩
            · rw [hreplace]
              exact .inr ⟨_, _, rfl, .inl rfl, hput⟩

/-- When the directory cannot be synced, the swap differs in its report only. -/
theorem compareAndSwap_directory {store store' : DirectorySyncStore} {projectId : String}
    {expectedRevision revision : Nat} {checkpoint : SyncCheckpoint}
    (h : store.compareAndSwap crates projectId expectedRevision checkpoint .none =
      (.ok revision, store')) :
    store.compareAndSwap crates projectId expectedRevision checkpoint .directory =
      (.error .unavailable, store') := by
  have hload : store.loadUnlocked crates projectId .directory =
      store.loadUnlocked crates projectId .none := rfl
  simp only [DirectorySyncStore.compareAndSwap, hload] at h ⊢
  cases hcurrent : store.loadUnlocked crates projectId .none with
  | error error => simp [hcurrent] at h
  | ok current =>
    simp only [hcurrent] at h ⊢
    split at h
    · cases h
    · split at h
      · cases h
      · next hrevision hmax =>
        rw [if_neg hrevision, if_neg hmax]
        cases hpath : projectPath crates projectId with
        | error error => simp [hpath] at h
        | ok path =>
          simp only [hpath] at h ⊢
          cases hbytes : crates.fileToVec
              ⟨1, expectedRevision+1, Base64.encodeStandard checkpoint.bytes⟩ with
          | none => simp [hbytes] at h
          | some bytes =>
            simp only [hbytes, DirectorySyncStore.replace] at h ⊢
            by_cases htemporary : (store.entries (temporaryPath crates projectId
                (succ store.counter))).isSome = true
            · simp [htemporary] at h
            · simp only [htemporary] at h ⊢
              cases h
              rfl

end Ffdb.Sync
