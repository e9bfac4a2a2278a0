import Ffdb.ObjectStorage.Project

/-! What is cleaned up at the provider and what is live there. A provider key is drawn for one grant, and is in one
place at a time: with the reservation of the grant, with the upload or the object that comes of it, or given up. -/
namespace Ffdb.ObjectStorage
open Fallible

structure KeyBook where
  decided : List (StorageAction × List Char)
  reservations : Table (List Char) ReservationRow
  uploads : Table (List Char) UploadRow
  providerUploads : Table (List Char) StorageProviderUploadBinding
  providerObjects : Table (List Char) (List Char)
  cleanup : CleanupQueue

def StorageTables.book {δ : Type} (tables : StorageTables δ) (decided : List (StorageAction × List Char)) : KeyBook :=
  ⟨decided, tables.reservations, tables.uploads, tables.providerUploads, tables.providerObjects, tables.cleanup⟩

def ProjectState.book {δ : Type} (state : ProjectState δ) : KeyBook :=
  state.tables.book (state.decided.map fun decision => (decision.1.action, decision.2.providerKey))

def deletesObject (action : StorageAction) : Bool := action ∈ [.upload, .delete, .completeMultipart]

def abortsUpload (action : StorageAction) : Bool := action ∈ [.createMultipart, .uploadPart, .abortMultipart]

def drawsKey (action : StorageAction) : Bool := action ∈ [.upload, .createMultipart]

inductive Place where
  | reserved (nonce : List Char)
  | uploading (uploadId : List Char)
  | bound (objectId : List Char)
  deriving DecidableEq

namespace KeyBook
variable (book : KeyBook)

def Holds (key : List Char) : Place → Prop
  | .reserved nonce => ∃ row, book.reservations.lookup nonce = some row ∧ drawsKey row.action = true ∧ row.providerKey = key
  | .uploading uploadId => ∃ binding, book.providerUploads.lookup uploadId = some binding ∧ binding.providerKey = key
  | .bound objectId => book.providerObjects.lookup objectId = some key

def Live (nowMs : Int64) (uploadId : List Char) : Prop :=
  ∃ upload, book.uploads.lookup uploadId = some upload ∧ upload.status = .active ∧ nowMs < upload.expiresAtMs

/-- Nothing that would be deleted is bound to an object, and nothing that would be aborted is a live upload. -/
structure CleanupSafe (nowMs : Int64) : Prop where
  objects : ∀ target, Queued book.cleanup target → deletesObject target.action = true → ∀ objectId,
    book.providerObjects.lookup objectId ≠ some target.providerKey
  uploads : ∀ target, Queued book.cleanup target → abortsUpload target.action = true → ∀ uploadId,
    book.Live nowMs uploadId → target.uploadId ≠ some uploadId ∧
      (target.uploadId = none → ¬book.Holds target.providerKey (.uploading uploadId))

def openKeys : List (List Char) := (book.decided.filter fun decision => drawsKey decision.1).map Prod.snd

def Dead (key : List Char) : Prop := ∃ target, Queued book.cleanup target ∧ drawsKey target.action = true ∧ target.providerKey = key

def Completing (key : List Char) : Prop :=
  (.completeMultipart, key) ∈ book.decided ∨
  (∃ nonce row, book.reservations.lookup nonce = some row ∧ row.action = .completeMultipart ∧ row.providerKey = key) ∨
  ∃ target, Queued book.cleanup target ∧ target.action = .completeMultipart ∧ target.providerKey = key

def Known (key : List Char) : Prop :=
  key ∈ book.openKeys ∨ (∃ place, book.Holds key place) ∨ book.Dead key ∨ book.Completing key

structure Sound (drawn : List Char → Prop) : Prop where
  known : ∀ key, book.Known key → drawn key
  openOnce : book.openKeys.Nodup
  openOnly : ∀ key ∈ book.openKeys, ∀ place, ¬book.Holds key place
  openAlive : ∀ key ∈ book.openKeys, ¬book.Dead key
  once : ∀ key place place', book.Holds key place → book.Holds key place' → place = place'
  dead : ∀ key, book.Dead key → ∀ place, ¬book.Holds key place
  grown : ∀ key, book.Completing key → key ∉ book.openKeys ∧ ∀ nonce, ¬book.Holds key (.reserved nonce)
  active : ∀ uploadId upload, book.uploads.lookup uploadId = some upload → upload.status = .active
  present : ∀ target, Queued book.cleanup target → cleanupTargetPresent target.action target.uploadId = true

structure Free (drawn : List Char → Prop) (key : List Char) : Prop where
  drawn : drawn key
  notOpen : key ∉ book.openKeys
  nowhere : ∀ place, ¬book.Holds key place
  alive : ¬book.Dead key

variable {book} {drawn : List Char → Prop} {nowMs : Int64}

theorem CleanupSafe.later {nowMs' : Int64} (h : book.CleanupSafe nowMs) (hlater : nowMs ≤ nowMs') :
    book.CleanupSafe nowMs' := by
  refine ⟨h.objects, ?_⟩
  intro target hqueued haborts uploadId hlive
  obtain ⟨upload, hlookup, hactive, hunexpired⟩ := hlive
  exact h.uploads target hqueued haborts uploadId ⟨upload, hlookup, hactive, Int64.lt_of_le_of_lt hlater hunexpired⟩

structure Shrinks (before after : KeyBook) : Prop where
  decided : after.decided.Sublist before.decided
  reservations : ∀ nonce row, after.reservations.lookup nonce = some row → before.reservations.lookup nonce = some row
  uploads : ∀ uploadId upload, after.uploads.lookup uploadId = some upload → before.uploads.lookup uploadId = some upload
  providerUploads : ∀ uploadId binding, after.providerUploads.lookup uploadId = some binding →
    before.providerUploads.lookup uploadId = some binding
  providerObjects : ∀ objectId key, after.providerObjects.lookup objectId = some key →
    before.providerObjects.lookup objectId = some key
  cleanup : ∀ target, Queued after.cleanup target → Queued before.cleanup target

variable {after : KeyBook}

theorem Shrinks.holds (h : Shrinks book after) {key : List Char} {place : Place} (hholds : after.Holds key place) :
    book.Holds key place := by
  cases place with
  | reserved nonce =>
    obtain ⟨row, hlookup, hdraws, hkey⟩ := hholds
    exact ⟨row, h.reservations nonce row hlookup, hdraws, hkey⟩
  | uploading uploadId =>
    obtain ⟨binding, hlookup, hkey⟩ := hholds
    exact ⟨binding, h.providerUploads uploadId binding hlookup, hkey⟩
  | bound objectId => exact h.providerObjects objectId key hholds

theorem Shrinks.openKeys (h : Shrinks book after) : after.openKeys.Sublist book.openKeys :=
  (h.decided.filter _).map _

theorem Shrinks.dead (h : Shrinks book after) {key : List Char} (hdead : after.Dead key) : book.Dead key := by
  obtain ⟨target, hqueued, hdraws, hkey⟩ := hdead
  exact ⟨target, h.cleanup target hqueued, hdraws, hkey⟩

theorem Shrinks.completing (h : Shrinks book after) {key : List Char} (hcompleting : after.Completing key) :
    book.Completing key := by
  obtain hdecided | ⟨nonce, row, hlookup, hrow⟩ | ⟨target, hqueued, htarget⟩ := hcompleting
  · exact .inl (h.decided.subset hdecided)
  · exact .inr (.inl ⟨nonce, row, h.reservations nonce row hlookup, hrow⟩)
  · exact .inr (.inr ⟨target, h.cleanup target hqueued, htarget⟩)

theorem Shrinks.known (h : Shrinks book after) {key : List Char} (hknown : after.Known key) : book.Known key := by
  obtain hopen | ⟨place, hholds⟩ | hdead | hcompleting := hknown
  · exact .inl (h.openKeys.subset hopen)
  · exact .inr (.inl ⟨place, h.holds hholds⟩)
  · exact .inr (.inr (.inl (h.dead hdead)))
  · exact .inr (.inr (.inr (h.completing hcompleting)))

theorem Sound.shrink (h : book.Sound drawn) (hshrinks : Shrinks book after) : after.Sound drawn where
  known key hknown := h.known key (hshrinks.known hknown)
  openOnce := h.openOnce.sublist hshrinks.openKeys
  openOnly key hopen place hholds := h.openOnly key (hshrinks.openKeys.subset hopen) place (hshrinks.holds hholds)
  openAlive key hopen hdead := h.openAlive key (hshrinks.openKeys.subset hopen) (hshrinks.dead hdead)
  once key place place' hholds hholds' := h.once key place place' (hshrinks.holds hholds) (hshrinks.holds hholds')
  dead key hdead place hholds := h.dead key (hshrinks.dead hdead) place (hshrinks.holds hholds)
  grown key hcompleting := by
    obtain ⟨hclosed, hunreserved⟩ := h.grown key (hshrinks.completing hcompleting)
    exact ⟨fun hopen => hclosed (hshrinks.openKeys.subset hopen), fun nonce hholds => hunreserved nonce (hshrinks.holds hholds)⟩
  active uploadId upload hlookup := h.active uploadId upload (hshrinks.uploads uploadId upload hlookup)
  present target hqueued := h.present target (hshrinks.cleanup target hqueued)

theorem CleanupSafe.shrink (h : book.CleanupSafe nowMs) (hshrinks : Shrinks book after) : after.CleanupSafe nowMs where
  objects target hqueued hdeletes objectId hbound :=
    h.objects target (hshrinks.cleanup target hqueued) hdeletes objectId (hshrinks.providerObjects objectId _ hbound)
  uploads target hqueued haborts uploadId hlive := by
    obtain ⟨upload, hlookup, hactive⟩ := hlive
    obtain ⟨hother, hkey⟩ := h.uploads target (hshrinks.cleanup target hqueued) haborts uploadId
      ⟨upload, hshrinks.uploads uploadId upload hlookup, hactive⟩
    exact ⟨hother, fun hnone hholds => hkey hnone (hshrinks.holds hholds)⟩

theorem Sound.mono {drawn' : List Char → Prop} (h : book.Sound drawn) (hdrawn : ∀ key, drawn key → drawn' key) :
    book.Sound drawn' :=
  { h with known := fun key hknown => hdrawn key (h.known key hknown) }

section Free
variable {key nonce uploadId objectId : List Char}

/-- Whoever is in one place only is nowhere once it is taken from there. -/
theorem Sound.free_of_shrunk (h : book.Sound drawn) (hshrinks : Shrinks book after) (place : Place)
    (hholds : book.Holds key place) (htaken : ¬after.Holds key place) : after.Free drawn key where
  drawn := h.known key (.inr (.inl ⟨place, hholds⟩))
  notOpen hopen := h.openOnly key (hshrinks.openKeys.subset hopen) place hholds
  nowhere place' hholds' := by
    obtain rfl := h.once key place place' hholds (hshrinks.holds hholds')
    exact htaken hholds'
  alive hdead := h.dead key (hshrinks.dead hdead) place hholds

theorem shrinks_eraseReservation (nonce : List Char) :
    Shrinks book { book with reservations := book.reservations.erase nonce } where
  decided := .refl _
  reservations _ _ hlookup := (AList.lookup_erase_eq_some_iff.mp hlookup).2
  uploads _ _ hlookup := hlookup
  providerUploads _ _ hlookup := hlookup
  providerObjects _ _ hlookup := hlookup
  cleanup _ hqueued := hqueued

theorem Sound.free_of_reserved (h : book.Sound drawn) {row : ReservationRow}
    (hlookup : book.reservations.lookup nonce = some row) (hdraws : drawsKey row.action = true) :
    Free { book with reservations := book.reservations.erase nonce } drawn row.providerKey := by
  refine h.free_of_shrunk (shrinks_eraseReservation nonce) (.reserved nonce) ⟨row, hlookup, hdraws, rfl⟩ ?_
  rintro ⟨row', hlookup', -⟩
  exact (AList.lookup_erase_eq_some_iff.mp hlookup').1 rfl

theorem shrinks_removeUpload (uploadId : List Char) {uploads : Table (List Char) UploadRow}
    (huploads : uploads = book.uploads ∨ uploads = book.uploads.erase uploadId) :
    Shrinks book { book with uploads, providerUploads := book.providerUploads.erase uploadId } where
  decided := .refl _
  reservations _ _ hlookup := hlookup
  uploads _ _ hlookup := by
    obtain rfl | rfl := huploads
    · exact hlookup
    · exact (AList.lookup_erase_eq_some_iff.mp hlookup).2
  providerUploads _ _ hlookup := (AList.lookup_erase_eq_some_iff.mp hlookup).2
  providerObjects _ _ hlookup := hlookup
  cleanup _ hqueued := hqueued

theorem Sound.free_of_uploading (h : book.Sound drawn) {uploads : Table (List Char) UploadRow}
    (huploads : uploads = book.uploads ∨ uploads = book.uploads.erase uploadId) {binding : StorageProviderUploadBinding}
    (hlookup : book.providerUploads.lookup uploadId = some binding) :
    Free { book with uploads, providerUploads := book.providerUploads.erase uploadId } drawn binding.providerKey := by
  refine h.free_of_shrunk (shrinks_removeUpload uploadId huploads) (.uploading uploadId) ⟨binding, hlookup, rfl⟩ ?_
  rintro ⟨binding', hlookup', -⟩
  exact (AList.lookup_erase_eq_some_iff.mp hlookup').1 rfl

end Free

section Decide
variable {action : StorageAction} {key : List Char}

theorem openKeys_append (decided : List (StorageAction × List Char)) :
    openKeys { book with decided := decided ++ [(action, key)] } =
      openKeys { book with decided } ++ if drawsKey action = true then [key] else [] := by
  cases hdraws : drawsKey action <;> simp [KeyBook.openKeys, hdraws]

theorem Sound.decideOpen (h : book.Sound drawn) (hdraws : drawsKey action = true) (hfresh : ¬book.Known key)
    (hdrawn : drawn key) : Sound { book with decided := book.decided ++ [(action, key)] } drawn := by
  have hopen : openKeys { book with decided := book.decided ++ [(action, key)] } = book.openKeys ++ [key] := by
    rw [openKeys_append, if_pos hdraws]
  have hcompleting : ∀ other, Completing { book with decided := book.decided ++ [(action, key)] } other →
      book.Completing other := by
    rintro other (hdecided | hother)
    · obtain hmem | hmem := List.mem_append.mp hdecided
      · exact .inl hmem
      · obtain ⟨rfl, -⟩ := Prod.mk.inj (List.mem_singleton.mp hmem)
        cases hdraws
    · exact .inr hother
  have hmem : ∀ other ∈ book.openKeys ++ [key], other ∈ book.openKeys ∨ other = key := by
    intro other hother
    obtain hother | hother := List.mem_append.mp hother
    · exact .inl hother
    · exact .inr (List.mem_singleton.mp hother)
  refine ⟨?_, ?_, ?_, ?_, h.once, h.dead, ?_, h.active, h.present⟩
  · rintro other (hother | hplace | hdead | hother)
    · rw [hopen] at hother
      obtain hother | rfl := hmem other hother
      · exact h.known other (.inl hother)
      · exact hdrawn
    · exact h.known other (.inr (.inl hplace))
    · exact h.known other (.inr (.inr (.inl hdead)))
    · exact h.known other (.inr (.inr (.inr (hcompleting other hother))))
  · rw [hopen]
    refine List.nodup_append.mpr ⟨h.openOnce, List.nodup_singleton key, ?_⟩
    rintro other hother _ hkey rfl
    obtain rfl := List.mem_singleton.mp hkey
    exact hfresh (.inl hother)
  · intro other hother place hholds
    rw [hopen] at hother
    obtain hother | rfl := hmem other hother
    · exact h.openOnly other hother place hholds
    · exact hfresh (.inr (.inl ⟨place, hholds⟩))
  · intro other hother hdead
    rw [hopen] at hother
    obtain hother | rfl := hmem other hother
    · exact h.openAlive other hother hdead
    · exact hfresh (.inr (.inr (.inl hdead)))
  · intro other hother
    obtain ⟨hclosed, hunreserved⟩ := h.grown other (hcompleting other hother)
    refine ⟨?_, hunreserved⟩
    intro hother'
    rw [hopen] at hother'
    obtain hother' | rfl := hmem other hother'
    · exact hclosed hother'
    · exact hfresh (.inr (.inr (.inr (hcompleting other hother))))

/-- A decision for which no key is drawn; a completion is one of an upload that is there. -/
theorem Sound.decideOther (h : book.Sound drawn) (hdraws : drawsKey action = false)
    (hcompleting : action = .completeMultipart → ∃ uploadId, book.Holds key (.uploading uploadId)) :
    Sound { book with decided := book.decided ++ [(action, key)] } drawn := by
  have hopen : openKeys { book with decided := book.decided ++ [(action, key)] } = book.openKeys := by
    rw [openKeys_append, hdraws]
    exact List.append_nil _
  have hgrown : ∀ other, Completing { book with decided := book.decided ++ [(action, key)] } other →
      book.Completing other ∨ ∃ uploadId, book.Holds other (.uploading uploadId) := by
    rintro other (hdecided | hother)
    · obtain hmem | hmem := List.mem_append.mp hdecided
      · exact .inl (.inl hmem)
      · obtain ⟨haction, rfl⟩ := Prod.mk.inj (List.mem_singleton.mp hmem)
        exact .inr (hcompleting haction.symm)
    · exact .inl (.inr hother)
  refine ⟨?_, hopen ▸ h.openOnce, ?_, ?_, h.once, h.dead, ?_, h.active, h.present⟩
  · rintro other (hother | hplace | hdead | hother)
    · exact h.known other (.inl (hopen ▸ hother))
    · exact h.known other (.inr (.inl hplace))
    · exact h.known other (.inr (.inr (.inl hdead)))
    · obtain hother | ⟨uploadId, hholds⟩ := hgrown other hother
      · exact h.known other (.inr (.inr (.inr hother)))
      · exact h.known other (.inr (.inl ⟨_, hholds⟩))
  · exact fun other hother => h.openOnly other (hopen ▸ hother)
  · exact fun other hother => h.openAlive other (hopen ▸ hother)
  · intro other hother
    rw [hopen]
    obtain hother | ⟨uploadId, hholds⟩ := hgrown other hother
    · exact h.grown other hother
    · refine ⟨fun hmem => h.openOnly other hmem _ hholds, fun nonce hreserved => ?_⟩
      cases h.once other (.uploading uploadId) (.reserved nonce) hholds hreserved

end Decide

section Reserve
variable {index : Nat} {nonce : List Char} {row : ReservationRow}

theorem openKeys_eraseIdx (hdecided : book.decided[index]? = some (row.action, row.providerKey)) :
    book.openKeys.Perm ((if drawsKey row.action = true then [row.providerKey] else []) ++
      openKeys { book with decided := book.decided.eraseIdx index }) := by
  obtain ⟨hindex, helement⟩ := List.getElem?_eq_some_iff.mp hdecided
  have hperm := (List.getElem_cons_eraseIdx_perm hindex).symm
  rw [helement] at hperm
  have hkeys := (hperm.filter fun decision => drawsKey decision.1).map Prod.snd
  cases hdraws : drawsKey row.action <;> simpa [KeyBook.openKeys, hdraws] using hkeys

theorem Sound.reserve (h : book.Sound drawn) (hdecided : book.decided[index]? = some (row.action, row.providerKey))
    (hnone : book.reservations.lookup nonce = none) :
    Sound { book with decided := book.decided.eraseIdx index, reservations := book.reservations.insert nonce row }
      drawn := by
  have hperm := openKeys_eraseIdx hdecided
  have hsubset : ∀ key ∈ openKeys { book with decided := book.decided.eraseIdx index }, key ∈ book.openKeys :=
    fun key hkey => hperm.mem_iff.mpr (List.mem_append_right _ hkey)
  have hmoved : drawsKey row.action = true → row.providerKey ∈ book.openKeys ∧
      row.providerKey ∉ openKeys { book with decided := book.decided.eraseIdx index } := by
    intro hdraws
    rw [if_pos hdraws] at hperm
    refine ⟨hperm.mem_iff.mpr List.mem_cons_self, ?_⟩
    exact (List.nodup_cons.mp (hperm.nodup_iff.mp h.openOnce)).1
  have hholds : ∀ key place, Holds
      { book with decided := book.decided.eraseIdx index, reservations := book.reservations.insert nonce row } key place →
      (place = .reserved nonce ∧ drawsKey row.action = true ∧ row.providerKey = key) ∨ book.Holds key place := by
    rintro key (other | uploadId | objectId) hplace
    · obtain ⟨row', hlookup, hdraws, hkey⟩ := hplace
      obtain ⟨rfl, rfl⟩ | ⟨-, hold⟩ := AList.lookup_insert_eq_some_iff.mp hlookup
      · exact .inl ⟨rfl, hdraws, hkey⟩
      · exact .inr ⟨row', hold, hdraws, hkey⟩
    · exact .inr hplace
    · exact .inr hplace
  have hcompleting : ∀ key, Completing
      { book with decided := book.decided.eraseIdx index, reservations := book.reservations.insert nonce row } key →
      book.Completing key := by
    rintro key (hother | ⟨other, row', hlookup, haction, hkey⟩ | hqueued)
    · exact .inl (List.mem_of_mem_eraseIdx hother)
    · obtain ⟨-, rfl⟩ | ⟨-, hold⟩ := AList.lookup_insert_eq_some_iff.mp hlookup
      · refine .inl (List.mem_of_getElem? (i := index) ?_)
        rw [hdecided, haction, hkey]
      · exact .inr (.inl ⟨other, row', hold, haction, hkey⟩)
    · exact .inr (.inr hqueued)
  have hopenOnce : (openKeys { book with decided := book.decided.eraseIdx index }).Nodup :=
    (List.nodup_append.mp (hperm.nodup_iff.mp h.openOnce)).2.1
  refine ⟨?_, hopenOnce, ?_, ?_, ?_, ?_, ?_, h.active, h.present⟩
  · rintro key (hopen | ⟨place, hplace⟩ | hdead | hother)
    · exact h.known key (.inl (hsubset key hopen))
    · obtain ⟨-, hdraws, rfl⟩ | hold := hholds key place hplace
      · exact h.known _ (.inl (hmoved hdraws).1)
      · exact h.known key (.inr (.inl ⟨place, hold⟩))
    · exact h.known key (.inr (.inr (.inl hdead)))
    · exact h.known key (.inr (.inr (.inr (hcompleting key hother))))
  · intro key hopen place hplace
    obtain ⟨-, hdraws, rfl⟩ | hold := hholds key place hplace
    · exact (hmoved hdraws).2 hopen
    · exact h.openOnly key (hsubset key hopen) place hold
  · exact fun key hopen => h.openAlive key (hsubset key hopen)
  · intro key place place' hplace hplace'
    obtain ⟨rfl, hdraws, rfl⟩ | hold := hholds key place hplace
    · obtain ⟨rfl, -, -⟩ | hold' := hholds _ place' hplace'
      · rfl
      · exact absurd hold' (h.openOnly _ (hmoved hdraws).1 place')
    · obtain ⟨-, hdraws, rfl⟩ | hold' := hholds key place' hplace'
      · exact absurd hold (h.openOnly _ (hmoved hdraws).1 place)
      · exact h.once key place place' hold hold'
  · intro key hdead place hplace
    obtain ⟨-, hdraws, rfl⟩ | hold := hholds key place hplace
    · exact h.openAlive _ (hmoved hdraws).1 hdead
    · exact h.dead key hdead place hold
  · intro key hother
    obtain ⟨hclosed, hunreserved⟩ := h.grown key (hcompleting key hother)
    refine ⟨fun hopen => hclosed (hsubset key hopen), fun other hplace => ?_⟩
    obtain ⟨-, hdraws, rfl⟩ | hold := hholds key (.reserved other) hplace
    · exact hclosed (hmoved hdraws).1
    · exact hunreserved other hold

end Reserve

section Bind
variable {key objectId uploadId : List Char}

theorem holds_bind {other : List Char} {place : Place}
    (h : Holds { book with providerObjects := book.providerObjects.insert objectId key } other place) :
    (place = .bound objectId ∧ other = key) ∨ (place ≠ .bound objectId ∧ book.Holds other place) := by
  cases place with
  | reserved nonce => exact .inr ⟨fun hplace => (nomatch hplace), h⟩
  | uploading uploadId => exact .inr ⟨fun hplace => (nomatch hplace), h⟩
  | bound objectId' =>
    obtain ⟨rfl, rfl⟩ | ⟨hne, hold⟩ := AList.lookup_insert_eq_some_iff.mp h
    · exact .inl ⟨rfl, rfl⟩
    · refine .inr ⟨?_, hold⟩
      intro hplace
      cases hplace
      exact hne rfl

theorem Sound.bind (h : book.Sound drawn) (hfree : book.Free drawn key) (objectId : List Char) :
    Sound { book with providerObjects := book.providerObjects.insert objectId key } drawn := by
  refine ⟨?_, h.openOnce, ?_, h.openAlive, ?_, ?_, ?_, h.active, h.present⟩
  · rintro other (hopen | ⟨place, hplace⟩ | hdead | hother)
    · exact h.known other (.inl hopen)
    · obtain ⟨-, rfl⟩ | ⟨-, hold⟩ := holds_bind hplace
      · exact hfree.drawn
      · exact h.known other (.inr (.inl ⟨place, hold⟩))
    · exact h.known other (.inr (.inr (.inl hdead)))
    · exact h.known other (.inr (.inr (.inr hother)))
  · intro other hopen place hplace
    obtain ⟨-, rfl⟩ | ⟨-, hold⟩ := holds_bind hplace
    · exact hfree.notOpen hopen
    · exact h.openOnly other hopen place hold
  · intro other place place' hplace hplace'
    obtain ⟨rfl, rfl⟩ | ⟨-, hold⟩ := holds_bind hplace
    · obtain ⟨rfl, -⟩ | ⟨-, hold'⟩ := holds_bind hplace'
      · rfl
      · exact absurd hold' (hfree.nowhere place')
    · obtain ⟨-, rfl⟩ | ⟨-, hold'⟩ := holds_bind hplace'
      · exact absurd hold (hfree.nowhere place)
      · exact h.once other place place' hold hold'
  · intro other hdead place hplace
    obtain ⟨-, rfl⟩ | ⟨-, hold⟩ := holds_bind hplace
    · exact hfree.alive hdead
    · exact h.dead other hdead place hold
  · intro other hother
    obtain ⟨hclosed, hunreserved⟩ := h.grown other hother
    refine ⟨hclosed, fun nonce hplace => ?_⟩
    obtain ⟨hplace, -⟩ | ⟨-, hold⟩ := holds_bind hplace
    · cases hplace
    · exact hunreserved nonce hold

theorem CleanupSafe.bind (h : book.CleanupSafe nowMs) (hsound : book.Sound drawn) (hfree : book.Free drawn key)
    (hqueue : ∀ target, Queued book.cleanup target → target.action = .completeMultipart → target.providerKey ≠ key)
    (objectId : List Char) :
    CleanupSafe { book with providerObjects := book.providerObjects.insert objectId key } nowMs := by
  refine ⟨?_, ?_⟩
  · intro target hqueued hdeletes other hlookup
    obtain ⟨-, hkey⟩ | ⟨-, hold⟩ := AList.lookup_insert_eq_some_iff.mp hlookup
    · cases haction : target.action with
      | upload => exact hfree.alive ⟨target, hqueued, by rw [haction]; decide, hkey⟩
      | completeMultipart => exact hqueue target hqueued haction hkey
      | delete =>
        have hpresent := hsound.present target hqueued
        rw [haction] at hpresent
        cases hpresent
      | _ =>
        rw [haction] at hdeletes
        cases hdeletes
    · exact h.objects target hqueued hdeletes other hold
  · intro target hqueued haborts other hlive
    obtain ⟨hother, hkey⟩ := h.uploads target hqueued haborts other hlive
    exact ⟨hother, hkey⟩

/-- The key that an object had is free once it has another. -/
theorem Sound.free_of_replaced (h : book.Sound drawn) (hfree : book.Free drawn key) {oldKey : List Char}
    (hold : book.providerObjects.lookup objectId = some oldKey) :
    Free { book with providerObjects := book.providerObjects.insert objectId key } drawn oldKey where
  drawn := h.known oldKey (.inr (.inl ⟨.bound objectId, hold⟩))
  notOpen hopen := h.openOnly oldKey hopen (.bound objectId) hold
  nowhere place hplace := by
    obtain ⟨-, rfl⟩ | ⟨hne, hplace⟩ := holds_bind hplace
    · exact hfree.nowhere (.bound objectId) hold
    · exact hne (h.once oldKey place (.bound objectId) hplace hold)
  alive hdead := h.dead oldKey hdead (.bound objectId) hold

end Bind

section Enqueue
variable {entry : CleanupEntry} {cleanup : CleanupQueue}

theorem Sound.enqueueDead (h : book.Sound drawn) (henqueue : enqueueCleanup nowMs book.cleanup entry = .ok cleanup)
    (hdraws : drawsKey entry.action = true) (hfree : book.Free drawn entry.providerKey) :
    Sound { book with cleanup } drawn := by
  have hdead : ∀ key, Dead { book with cleanup } key → key = entry.providerKey ∨ book.Dead key := by
    rintro key ⟨target, hqueued, htarget, rfl⟩
    obtain rfl | hqueued := queued_enqueue henqueue hqueued
    · exact .inl rfl
    · exact .inr ⟨target, hqueued, htarget, rfl⟩
  have hcompleting : ∀ key, Completing { book with cleanup } key → book.Completing key := by
    rintro key (hdecided | hreserved | ⟨target, hqueued, haction, hkey⟩)
    · exact .inl hdecided
    · exact .inr (.inl hreserved)
    · obtain rfl | hqueued := queued_enqueue henqueue hqueued
      · rw [show entry.action = .completeMultipart from haction] at hdraws
        cases hdraws
      · exact .inr (.inr ⟨target, hqueued, haction, hkey⟩)
  refine ⟨?_, h.openOnce, h.openOnly, ?_, h.once, ?_, ?_, h.active, ?_⟩
  · rintro key (hopen | hplace | hother | hother)
    · exact h.known key (.inl hopen)
    · exact h.known key (.inr (.inl hplace))
    · obtain rfl | hother := hdead key hother
      · exact hfree.drawn
      · exact h.known key (.inr (.inr (.inl hother)))
    · exact h.known key (.inr (.inr (.inr (hcompleting key hother))))
  · intro key hopen hother
    obtain rfl | hother := hdead key hother
    · exact hfree.notOpen hopen
    · exact h.openAlive key hopen hother
  · intro key hother place hplace
    obtain rfl | hother := hdead key hother
    · exact hfree.nowhere place hplace
    · exact h.dead key hother place hplace
  · exact fun key hother => h.grown key (hcompleting key hother)
  · intro target hqueued
    obtain rfl | hqueued := queued_enqueue henqueue hqueued
    · cases haction : entry.action <;> simp_all [drawsKey, cleanupTargetPresent]
    · exact h.present target hqueued

theorem Sound.enqueueOther (h : book.Sound drawn) (henqueue : enqueueCleanup nowMs book.cleanup entry = .ok cleanup)
    (hdraws : drawsKey entry.action = false) (hpresent : cleanupTargetPresent entry.action entry.uploadId = true)
    (hentry : entry.action = .completeMultipart → book.Completing entry.providerKey) :
    Sound { book with cleanup } drawn := by
  have hdead : ∀ key, Dead { book with cleanup } key → book.Dead key := by
    rintro key ⟨target, hqueued, htarget, hkey⟩
    obtain rfl | hqueued := queued_enqueue henqueue hqueued
    · rw [show drawsKey entry.action = true from htarget] at hdraws
      cases hdraws
    · exact ⟨target, hqueued, htarget, hkey⟩
  have hcompleting : ∀ key, Completing { book with cleanup } key → book.Completing key := by
    rintro key (hdecided | hreserved | ⟨target, hqueued, haction, rfl⟩)
    · exact .inl hdecided
    · exact .inr (.inl hreserved)
    · obtain rfl | hqueued := queued_enqueue henqueue hqueued
      · exact hentry haction
      · exact .inr (.inr ⟨target, hqueued, haction, rfl⟩)
  refine ⟨?_, h.openOnce, h.openOnly, ?_, h.once, ?_, ?_, h.active, ?_⟩
  · rintro key (hopen | hplace | hother | hother)
    · exact h.known key (.inl hopen)
    · exact h.known key (.inr (.inl hplace))
    · exact h.known key (.inr (.inr (.inl (hdead key hother))))
    · exact h.known key (.inr (.inr (.inr (hcompleting key hother))))
  · exact fun key hopen hother => h.openAlive key hopen (hdead key hother)
  · exact fun key hother => h.dead key (hdead key hother)
  · exact fun key hother => h.grown key (hcompleting key hother)
  · intro target hqueued
    obtain rfl | hqueued := queued_enqueue henqueue hqueued
    · exact hpresent
    · exact h.present target hqueued

theorem CleanupSafe.enqueue (h : book.CleanupSafe nowMs) (henqueue : enqueueCleanup nowMs book.cleanup entry = .ok cleanup)
    (hobjects : deletesObject entry.action = true → ∀ objectId, book.providerObjects.lookup objectId ≠ some entry.providerKey)
    (huploads : abortsUpload entry.action = true → ∀ uploadId, book.Live nowMs uploadId →
      entry.uploadId ≠ some uploadId ∧ (entry.uploadId = none → ¬book.Holds entry.providerKey (.uploading uploadId))) :
    CleanupSafe { book with cleanup } nowMs := by
  refine ⟨?_, ?_⟩
  · intro target hqueued
    obtain rfl | hqueued := queued_enqueue henqueue hqueued
    · exact hobjects
    · exact h.objects target hqueued
  · intro target hqueued
    obtain rfl | hqueued := queued_enqueue henqueue hqueued
    · exact huploads
    · exact h.uploads target hqueued

end Enqueue

section Upload
variable {uploadId : List Char} {upload : UploadRow} {binding : StorageProviderUploadBinding}

theorem holds_startUpload {key : List Char} {place : Place}
    (h : Holds { book with
      uploads := book.uploads.insert uploadId upload
      providerUploads := book.providerUploads.insert uploadId binding } key place) :
    (place = .uploading uploadId ∧ binding.providerKey = key) ∨ book.Holds key place := by
  cases place with
  | reserved nonce => exact .inr h
  | uploading other =>
    obtain ⟨binding', hlookup, hkey⟩ := h
    obtain ⟨rfl, rfl⟩ | ⟨-, hold⟩ := AList.lookup_insert_eq_some_iff.mp hlookup
    · exact .inl ⟨rfl, hkey⟩
    · exact .inr ⟨binding', hold, hkey⟩
  | bound objectId => exact .inr h

theorem Sound.startUpload (h : book.Sound drawn) (hfree : book.Free drawn binding.providerKey)
    (hactive : upload.status = .active) :
    Sound { book with
      uploads := book.uploads.insert uploadId upload
      providerUploads := book.providerUploads.insert uploadId binding } drawn := by
  refine ⟨?_, h.openOnce, ?_, h.openAlive, ?_, ?_, ?_, ?_, h.present⟩
  · rintro key (hopen | ⟨place, hplace⟩ | hdead | hother)
    · exact h.known key (.inl hopen)
    · obtain ⟨-, rfl⟩ | hold := holds_startUpload hplace
      · exact hfree.drawn
      · exact h.known key (.inr (.inl ⟨place, hold⟩))
    · exact h.known key (.inr (.inr (.inl hdead)))
    · exact h.known key (.inr (.inr (.inr hother)))
  · intro key hopen place hplace
    obtain ⟨-, rfl⟩ | hold := holds_startUpload hplace
    · exact hfree.notOpen hopen
    · exact h.openOnly key hopen place hold
  · intro key place place' hplace hplace'
    obtain ⟨rfl, rfl⟩ | hold := holds_startUpload hplace
    · obtain ⟨rfl, -⟩ | hold' := holds_startUpload hplace'
      · rfl
      · exact absurd hold' (hfree.nowhere place')
    · obtain ⟨-, rfl⟩ | hold' := holds_startUpload hplace'
      · exact absurd hold (hfree.nowhere place)
      · exact h.once key place place' hold hold'
  · intro key hdead place hplace
    obtain ⟨-, rfl⟩ | hold := holds_startUpload hplace
    · exact hfree.alive hdead
    · exact h.dead key hdead place hold
  · intro key hother
    obtain ⟨hclosed, hunreserved⟩ := h.grown key hother
    refine ⟨hclosed, fun nonce hplace => ?_⟩
    obtain ⟨hplace, -⟩ | hold := holds_startUpload hplace
    · cases hplace
    · exact hunreserved nonce hold
  · intro other row hlookup
    obtain ⟨-, rfl⟩ | ⟨-, hold⟩ := AList.lookup_insert_eq_some_iff.mp hlookup
    · exact hactive
    · exact h.active other row hold

theorem CleanupSafe.startUpload (h : book.CleanupSafe nowMs) (hsound : book.Sound drawn)
    (hfree : book.Free drawn binding.providerKey)
    (hqueue : ∀ target, Queued book.cleanup target → abortsUpload target.action = true → target.uploadId ≠ some uploadId) :
    CleanupSafe { book with
      uploads := book.uploads.insert uploadId upload
      providerUploads := book.providerUploads.insert uploadId binding } nowMs := by
  refine ⟨h.objects, ?_⟩
  intro target hqueued haborts other hlive
  have hdead : target.uploadId = none → drawsKey target.action = true := by
    intro hnone
    have hpresent := hsound.present target hqueued
    cases haction : target.action <;> simp_all [cleanupTargetPresent, drawsKey, abortsUpload]
  obtain ⟨row, hlookup, hactive, hunexpired⟩ := hlive
  obtain ⟨rfl, rfl⟩ | ⟨hne, hold⟩ := AList.lookup_insert_eq_some_iff.mp hlookup
  · refine ⟨hqueue target hqueued haborts, fun hnone hplace => ?_⟩
    have htarget : book.Dead target.providerKey := ⟨target, hqueued, hdead hnone, rfl⟩
    obtain ⟨-, hkey⟩ | hold := holds_startUpload hplace
    · exact hfree.alive (hkey ▸ htarget)
    · exact hsound.dead _ htarget _ hold
  · obtain ⟨hother, hkey⟩ := h.uploads target hqueued haborts other ⟨row, hold, hactive, hunexpired⟩
    refine ⟨hother, fun hnone hplace => ?_⟩
    obtain ⟨hplace, -⟩ | hold := holds_startUpload hplace
    · cases hplace
      exact hne rfl
    · exact hkey hnone hold

theorem Sound.touchUpload (h : book.Sound drawn) (hlookup : book.uploads.lookup uploadId = some upload) :
    Shrinks book { book with uploads := book.uploads.insert uploadId { upload with status := .active } } where
  decided := .refl _
  reservations _ _ hlookup := hlookup
  uploads other row hrow := by
    obtain ⟨rfl, rfl⟩ | ⟨-, hold⟩ := AList.lookup_insert_eq_some_iff.mp hrow
    · rw [hlookup, ← h.active other upload hlookup]
    · exact hold
  providerUploads _ _ hlookup := hlookup
  providerObjects _ _ hlookup := hlookup
  cleanup _ hqueued := hqueued

end Upload

end KeyBook

end Ffdb.ObjectStorage
