import Mathlib.Data.List.Nodup
import Mathlib.Data.List.Pairwise
import Ffdb.Backup.Format

/-! With an ideal cipher a backup file is decrypted exactly when it is, byte for byte, what a
finished encryption for that database and that backup wrote. -/
namespace Ffdb.Backup
open Octets Fallible
open Sha256 (bytesOf length_bytesOf)

def Complete : Nat → List Frame → Prop
  | _, [] => False
  | counter, [frame] => frame.counter = counter ∧ frame.finalChunk = true
  | counter, frame :: frames => frame.counter = counter ∧ frame.finalChunk = false ∧
      counter+1 < 2^32 ∧ Complete (counter+1) frames

theorem complete_cons_iff {counter : Nat} {frame : Frame} {frames : List Frame} :
    Complete counter (frame :: frames) ↔ frame.counter = counter ∧
      (frame.finalChunk = true ∧ frames = [] ∨
        frame.finalChunk = false ∧ counter+1 < 2^32 ∧ Complete (counter+1) frames) := by
  cases frames with
  | nil => simp [Complete]
  | cons next frames => simp [Complete]

section Reading
variable {crates : Crates} {file : FileKey} {budget : Budget}

structure Frame.Opens (crates : Crates) (file : FileKey) (frame : Frame) : Prop where
  opened : crates.decrypt file.key (frame.nonce file) (frame.aad file) frame.encrypted =
    some frame.message
  tagged : tagBytes ≤ frame.encrypted.length
  bounded : frame.encrypted.length ≤ maxCiphertextChunk

/-- What the loop accepts is a complete run of frames with nothing behind them. -/
theorem frames_of_decryptLoop {input : Bytes} {counter : Nat} {plain : Bytes}
    (h : decryptLoop crates file budget input counter = .ok plain) :
    ∃ frames, Complete counter frames ∧ (∀ frame ∈ frames, frame.Opens crates file) ∧
      input = frames.flatMap Frame.bytes ∧ plain = frames.flatMap Frame.message := by
  fun_induction decryptLoop crates file budget input counter generalizing plain with
  | case1 => cases h
  | case2 => cases h
  | case3 => cases h
  | case4 input counter _ encrypted decrypted hopen hframe =>
    obtain ⟨hinput, htagged, hbounded⟩ := readFrame_eq_some_iff.mp hframe
    refine ⟨[⟨counter, true, decrypted, encrypted⟩], ⟨rfl, rfl⟩, ?_, ?_, ?_⟩
    · intro frame hframe
      obtain rfl := List.mem_singleton.mp hframe
      exact ⟨hopen, htagged, hbounded⟩
    · simpa [Frame.bytes] using hinput
    · simpa using (Except.ok.inj h).symm
  | case5 => cases h
  | case6 input counter _ finalChunk encrypted rest hframe decrypted hopen hfinal hcounter ih =>
    obtain ⟨hinput, htagged, hbounded⟩ := readFrame_eq_some_iff.mp hframe
    cases hrest : decryptLoop crates file budget rest (counter+1) with
    | error e =>
      rw [hrest] at h
      cases h
    | ok after =>
      rw [hrest] at h
      obtain ⟨frames, hcomplete, hopens, hbytes, hplain⟩ := ih hrest
      have hfalse : finalChunk = false := by simpa using hfinal
      refine ⟨⟨counter, finalChunk, decrypted, encrypted⟩ :: frames, ?_, ?_, ?_, ?_⟩
      · exact complete_cons_iff.mpr ⟨rfl, .inr ⟨hfalse, hcounter, hcomplete⟩⟩
      · intro frame hmem
        obtain rfl | hmem := List.mem_cons.mp hmem
        · exact ⟨hopen, htagged, hbounded⟩
        · exact hopens frame hmem
      · rw [hinput, hbytes]
        rfl
      · rw [← Except.ok.inj h, hplain]
        rfl
  | case7 => cases h

theorem decryptLoop_read {input encrypted rest decrypted : Bytes} {counter : Nat} {finalChunk : Bool}
    (hbudget : budget (counter+1) = .ok ()) (hread : readFrame input = some (finalChunk, encrypted, rest))
    (hopen : crates.decrypt file.key (chunkNonce file.noncePrefix counter)
      (chunkAssociatedData file.label counter finalChunk) encrypted = some decrypted) :
    decryptLoop crates file budget input counter =
      if finalChunk then if rest = [] then .ok decrypted else .error .invalidCiphertext
      else if counter+1 < 2^32 then
        (decryptLoop crates file budget rest (counter+1)).map (decrypted ++ ·)
      else .error .invalidCiphertext := by
  rw [decryptLoop, hbudget]
  dsimp only
  split
  · rename_i hnone
    rw [hread] at hnone
    cases hnone
  · rename_i hsome
    rw [hread] at hsome
    obtain ⟨rfl, rfl, rfl⟩ : finalChunk = _ ∧ encrypted = _ ∧ rest = _ := by simpa using hsome
    simp only [hopen]

/-- A complete run of frames that all open is accepted, when the budget suffices. -/
theorem decryptLoop_of_frames (hbudget : ∀ n, budget n = .ok ()) {frames : List Frame} {counter : Nat}
    (hcomplete : Complete counter frames) (hopens : ∀ frame ∈ frames, frame.Opens crates file) :
    decryptLoop crates file budget (frames.flatMap Frame.bytes) counter =
      .ok (frames.flatMap Frame.message) := by
  induction frames generalizing counter with
  | nil => cases hcomplete
  | cons frame frames ih =>
    have hfirst := hopens frame List.mem_cons_self
    obtain ⟨rfl, hcomplete⟩ := complete_cons_iff.mp hcomplete
    have hread : readFrame ((frame :: frames).flatMap Frame.bytes) =
        some (frame.finalChunk, frame.encrypted, frames.flatMap Frame.bytes) :=
      readFrame_eq_some_iff.mpr ⟨rfl, hfirst.tagged, hfirst.bounded⟩
    rw [decryptLoop_read (hbudget _) hread hfirst.opened]
    obtain ⟨hfinal, rfl⟩ | ⟨hfinal, hcounter, hcomplete⟩ := hcomplete
    · simp [hfinal]
    · rw [ih hcomplete fun frame hmem => hopens frame (List.mem_cons_of_mem _ hmem)]
      rw [hfinal, if_neg Bool.false_ne_true, if_pos hcounter]
      rfl

/-- With the budget never short, whatever is refused is refused as a bad ciphertext. -/
theorem failsOnly_decryptLoop (hbudget : ∀ n, budget n = .ok ()) (input : Bytes) (counter : Nat) :
    FailsOnly .invalidCiphertext (decryptLoop crates file budget input counter) := by
  fun_induction decryptLoop crates file budget input counter with
  | case1 _ counter e herror =>
    rw [hbudget] at herror
    cases herror
  | case2 | case3 | case5 | case7 => exact fun e h => (Except.error.inj h).symm
  | case4 => exact FailsOnly.ok _
  | case6 input counter _ finalChunk encrypted rest hframe decrypted hopen hfinal hcounter ih =>
    intro e h
    cases hrest : decryptLoop crates file budget rest (counter+1) with
    | error e' =>
      rw [hrest] at h
      exact ih e (by rw [hrest]; exact congrArg Except.error (Except.error.inj h))
    | ok after =>
      rw [hrest] at h
      cases h

end Reading

section Writing
variable {crates : Crates} {file : FileKey} {budget : Budget}

structure Frame.Sealed (crates : Crates) (file : FileKey) (frame : Frame) : Prop where
  encrypted : crates.encrypt file.key (frame.nonce file) (frame.aad file) frame.message =
    some frame.encrypted
  bounded : frame.message.length ≤ chunkBytes

structure SealedRun (crates : Crates) (file : FileKey) (counter : Nat) (text : Bytes)
    (frames : List Frame) (outcome : Except BackupCryptoError Unit) : Prop where
  numbered : frames.map Frame.counter = List.range' counter frames.length
  counted : counter+frames.length ≤ 2^32
  sealed : ∀ frame ∈ frames, frame.Sealed crates file
  marked : (∃ frame ∈ frames, frame.finalChunk = true) → outcome = .ok ()
  finished : outcome = .ok () → Complete counter frames ∧ frames.flatMap Frame.message = text

theorem SealedRun.nil {counter : Nat} {text : Bytes} (hcounter : counter < 2^32) (e : BackupCryptoError) :
    SealedRun crates file counter text [] (.error e) where
  numbered := rfl
  counted := by simpa using hcounter.le
  sealed := by simp
  marked := by simp
  finished h := nomatch h

theorem SealedRun.single {counter : Nat} {text : Bytes} {frame : Frame} {outcome : Except BackupCryptoError Unit}
    (hcounter : counter < 2^32) (hnumber : frame.counter = counter) (hsealed : frame.Sealed crates file)
    (hmarked : frame.finalChunk = true → outcome = .ok ())
    (hfinished : outcome = .ok () → frame.finalChunk = true ∧ frame.message = text) :
    SealedRun crates file counter text [frame] outcome where
  numbered := by simp [hnumber]
  counted := hcounter
  sealed := by simpa using hsealed
  marked := by simpa using hmarked
  finished h := ⟨⟨hnumber, (hfinished h).1⟩, by simpa using (hfinished h).2⟩

theorem SealedRun.cons {counter : Nat} {text : Bytes} {frame : Frame} {frames : List Frame}
    {outcome : Except BackupCryptoError Unit} (hnumber : frame.counter = counter)
    (hnext : counter+1 < 2^32) (hsealed : frame.Sealed crates file) (hfinal : frame.finalChunk = false)
    (hrun : SealedRun crates file (counter+1) text frames outcome) :
    SealedRun crates file counter (frame.message ++ text) (frame :: frames) outcome where
  numbered := by simp [hnumber, hrun.numbered, List.range'_succ]
  counted := by
    have := hrun.counted
    simp only [List.length_cons]
    omega
  sealed := by
    intro other hother
    obtain rfl | hother := List.mem_cons.mp hother
    · exact hsealed
    · exact hrun.sealed other hother
  marked := by
    intro h
    obtain ⟨other, hother, hmarked⟩ := h
    obtain rfl | hother := List.mem_cons.mp hother
    · rw [hfinal] at hmarked
      cases hmarked
    · exact hrun.marked ⟨other, hother, hmarked⟩
  finished h := by
    obtain ⟨hcomplete, htext⟩ := hrun.finished h
    exact ⟨complete_cons_iff.mpr ⟨hnumber, .inr ⟨hfinal, hnext, hcomplete⟩⟩, by simp [htext]⟩

theorem SealedRun.counter_lt {counter : Nat} {text : Bytes} {frames : List Frame}
    {outcome : Except BackupCryptoError Unit} (hrun : SealedRun crates file counter text frames outcome)
    {frame : Frame} (hframe : frame ∈ frames) : frame.counter < 2^32 := by
  have hmem : frame.counter ∈ frames.map Frame.counter := List.mem_map_of_mem hframe
  rw [hrun.numbered, List.mem_range'_1] at hmem
  have := hrun.counted
  omega

def Crates.Tags (crates : Crates) : Prop :=
  ∀ key nonce aad message ciphertext, message.length ≤ chunkBytes →
    crates.encrypt key nonce aad message = some ciphertext → ciphertext.length = message.length+tagBytes

/-- The loop seals a numbered run, and ends well exactly when it has sealed the last chunk. -/
theorem sealedRun_encryptLoop (htags : crates.Tags) (current input : Bytes) (counter : Nat)
    (hcounter : counter < 2^32) (hcurrent : current.length ≤ chunkBytes) :
    SealedRun crates file counter (current ++ input)
      (encryptLoop crates file budget current input counter).1
      (encryptLoop crates file budget current input counter).2 := by
  fun_induction encryptLoop crates file budget current input counter with
  | case1 current input counter e => exact SealedRun.nil hcounter e
  | case2 => exact SealedRun.nil hcounter _
  | case3 current input counter _ next finalChunk encrypted hencrypt frame hlength hfinal =>
    have hinput : input = [] := by
      have hnext : next = [] := by simpa [finalChunk] using hfinal
      simpa [next, chunkBytes] using hnext
    refine SealedRun.single hcounter rfl ⟨hencrypt, hcurrent⟩ (fun _ => rfl) fun _ => ⟨hfinal, ?_⟩
    simp [hinput, frame]
  | case4 current input counter _ next finalChunk encrypted hencrypt frame hlength hfinal hnext frames outcome
      hrest ih =>
    have hrun := ih hnext (List.length_take_le chunkBytes input)
    rw [hrest, List.take_append_drop] at hrun
    have hsealed : frame.Sealed crates file := ⟨hencrypt, hcurrent⟩
    have hfalse : frame.finalChunk = false := Bool.eq_false_iff.mpr hfinal
    exact hrun.cons rfl hnext hsealed hfalse
  | case5 current input counter _ next finalChunk encrypted hencrypt frame hlength hfinal hnext =>
    exact SealedRun.single hcounter rfl ⟨hencrypt, hcurrent⟩ (fun h => absurd h hfinal) fun h => by cases h
  | case6 current input counter _ next finalChunk encrypted hencrypt frame hlength =>
    refine absurd ?_ hlength
    rw [htags _ _ _ _ _ hcurrent hencrypt]
    simp only [chunkBytes, tagBytes] at hcurrent ⊢
    omega

def Crates.Seals (crates : Crates) : Prop :=
  ∀ key nonce aad message, message.length ≤ chunkBytes → ∃ ciphertext,
    crates.encrypt key nonce aad message = some ciphertext

theorem room_next {counter length size limit : Nat} (hnext : counter < limit)
    (h : counter*size+length ≤ limit*size) : (counter+1)*size+(length-size) ≤ limit*size := by
  by_cases hlong : size ≤ length
  · rw [Nat.succ_mul]
    omega
  · have hshort : length-size = 0 := by omega
    rw [hshort]
    exact Nat.mul_le_mul_right size hnext

/-- Without interruption the loop ends well when its frames can be counted. -/
theorem encryptLoop_ok (htags : crates.Tags) (hseals : crates.Seals) (hbudget : ∀ n, budget n = .ok ())
    (current input : Bytes) (counter : Nat) (hcurrent : current.length ≤ chunkBytes)
    (hinput : (counter+1)*chunkBytes+input.length ≤ 2^32*chunkBytes) :
    (encryptLoop crates file budget current input counter).2 = .ok () := by
  fun_induction encryptLoop crates file budget current input counter with
  | case1 current input counter e herror =>
    rw [hbudget] at herror
    cases herror
  | case2 current input counter _ next finalChunk hencrypt =>
    obtain ⟨ciphertext, hseal⟩ := hseals file.key (chunkNonce file.noncePrefix counter)
      (chunkAssociatedData file.label counter finalChunk) current hcurrent
    rw [hseal] at hencrypt
    cases hencrypt
  | case3 => rfl
  | case4 current input counter _ next finalChunk encrypted hencrypt frame hlength hfinal hnext frames outcome
      hrest ih =>
    have hroom : (counter+1+1)*chunkBytes+(input.drop chunkBytes).length ≤ 2^32*chunkBytes := by
      rw [List.length_drop]
      exact room_next hnext hinput
    have hloop := ih (List.length_take_le chunkBytes input) hroom
    rw [hrest] at hloop
    exact hloop
  | case5 current input counter _ next finalChunk encrypted hencrypt frame hlength hfinal hnext =>
    have hnonempty : input ≠ [] := fun h => hfinal (by simp [finalChunk, next, h])
    have hpositive := List.length_pos_iff.mpr hnonempty
    simp only [chunkBytes] at hinput
    omega
  | case6 current input counter _ next finalChunk encrypted hencrypt frame hlength =>
    refine absurd ?_ hlength
    rw [htags _ _ _ _ _ hcurrent hencrypt]
    simp only [chunkBytes, tagBytes] at hcurrent ⊢
    omega

end Writing

section Places

theorem length_associatedData (route : DatabaseRoute) (backupId : BackupId) :
    (associatedData route backupId).length = fileLabel.length+48 := by
  simp [associatedData, route.projectId.2, route.databaseId.2, backupId.2]

/-- The label of a file names the database and the backup. -/
theorem associatedData_injective {route route' : DatabaseRoute} {backupId backupId' : BackupId}
    (h : associatedData route backupId = associatedData route' backupId') :
    route = route' ∧ backupId = backupId' := by
  simp only [associatedData, List.append_assoc, List.append_cancel_left_eq] at h
  obtain ⟨hproject, h⟩ := List.append_inj h (by rw [route.projectId.2, route'.projectId.2])
  obtain ⟨hdatabase, hbackup⟩ := List.append_inj h (by rw [route.databaseId.2, route'.databaseId.2])
  have hroute : route = route' := by
    cases route with
    | mk projectId databaseId =>
      cases route' with
      | mk projectId' databaseId' =>
        obtain rfl := Subtype.ext hproject
        obtain rfl := Subtype.ext hdatabase
        rfl
  exact ⟨hroute, Subtype.ext hbackup⟩

theorem chunkNonce_injective {noncePrefix noncePrefix' : Block 8} {counter counter' : Nat}
    (hcounter : counter < 2^32) (hcounter' : counter' < 2^32)
    (h : chunkNonce noncePrefix counter = chunkNonce noncePrefix' counter') :
    noncePrefix = noncePrefix' ∧ counter = counter' := by
  obtain ⟨hleading, hbytes⟩ := List.append_inj h (by rw [noncePrefix.2, noncePrefix'.2])
  exact ⟨Subtype.ext hleading, bytesOf_injective hcounter hcounter' hbytes⟩

theorem flagByte_injective {flag flag' : Bool} (h : flagByte flag = flagByte flag') : flag = flag' := by
  cases flag <;> cases flag' <;> first | rfl | cases h

theorem chunkAssociatedData_injective {label label' : Bytes} {counter counter' : Nat} {flag flag' : Bool}
    (hlength : label.length = label'.length)
    (h : chunkAssociatedData label counter flag = chunkAssociatedData label' counter' flag') :
    label = label' ∧ flag = flag' := by
  simp only [chunkAssociatedData, List.append_assoc] at h
  obtain ⟨hlabel, hplace⟩ := List.append_inj h hlength
  obtain ⟨-, hflag⟩ := List.append_inj hplace (by rw [length_bytesOf, length_bytesOf])
  exact ⟨hlabel, flagByte_injective (by simpa using hflag)⟩

theorem Complete.counter_lt {counter : Nat} {frames : List Frame} (hcounter : counter < 2^32)
    (h : Complete counter frames) : ∀ frame ∈ frames, counter ≤ frame.counter ∧ frame.counter < 2^32 := by
  induction frames generalizing counter with
  | nil => simp
  | cons frame frames ih =>
    obtain ⟨rfl, h⟩ := complete_cons_iff.mp h
    intro other hother
    obtain rfl | hother := List.mem_cons.mp hother
    · exact ⟨le_rfl, hcounter⟩
    · obtain ⟨-, rfl⟩ | ⟨-, hnext, hrest⟩ := h
      · cases hother
      · obtain ⟨hlow, hhigh⟩ := ih hnext hrest other hother
        exact ⟨by omega, hhigh⟩

theorem Complete.exists_final {counter : Nat} {frames : List Frame} (h : Complete counter frames) :
    ∃ frame ∈ frames, frame.finalChunk = true := by
  induction frames generalizing counter with
  | nil => cases h
  | cons frame frames ih =>
    obtain ⟨-, ⟨hfinal, -⟩ | ⟨-, -, hrest⟩⟩ := complete_cons_iff.mp h
    · exact ⟨frame, List.mem_cons_self, hfinal⟩
    · obtain ⟨last, hlast, hfinal⟩ := ih hrest
      exact ⟨last, List.mem_cons_of_mem _ hlast, hfinal⟩

/-- A complete run cannot be cut, repeated, reordered or thinned out: it has no other complete
run among its frames. -/
theorem Complete.eq_of_subset {counter : Nat} {frames taken : List Frame} (hcounter : counter < 2^32)
    (hframes : Complete counter frames) (htaken : Complete counter taken)
    (hsubset : ∀ frame ∈ taken, frame ∈ frames) : taken = frames := by
  induction taken generalizing counter frames with
  | nil => cases htaken
  | cons first taken ih =>
    cases frames with
    | nil => cases hframes
    | cons frame frames =>
      obtain ⟨hfirst, htail⟩ := complete_cons_iff.mp htaken
      obtain ⟨hframe, hrest⟩ := complete_cons_iff.mp hframes
      -- Later frames have later numbers, so the frame with the first number is the first one.
      have hlater : ∀ other ∈ frames, counter < other.counter := by
        intro other hother
        obtain ⟨-, rfl⟩ | ⟨-, hnext, hcomplete⟩ := hrest
        · cases hother
        · exact (hcomplete.counter_lt hnext other hother).1
      have hsame : first = frame := by
        obtain hsame | hmem := List.mem_cons.mp (hsubset first List.mem_cons_self)
        · exact hsame
        · exact absurd (hlater first hmem) (by omega)
      subst hsame
      obtain ⟨hfinal, rfl⟩ | ⟨hfinal, hnext, htail⟩ := htail
      · obtain ⟨-, rfl⟩ | ⟨hmore, -⟩ := hrest
        · rfl
        · rw [hfinal] at hmore
          cases hmore
      · obtain ⟨hlast, -⟩ | ⟨-, -, hrest⟩ := hrest
        · rw [hfinal] at hlast
          cases hlast
        · rw [ih hnext hrest htail]
          intro other hother
          obtain rfl | hmem := List.mem_cons.mp (hsubset other (List.mem_cons_of_mem _ hother))
          · have := (htail.counter_lt hnext other hother).1
            omega
          · exact hmem

end Places

structure Sealing where
  key : Bytes
  nonce : Bytes
  aad : Bytes
  message : Bytes
  deriving DecidableEq

def Frame.sealing (file : FileKey) (frame : Frame) : Sealing :=
  ⟨file.key, frame.nonce file, frame.aad file, frame.message⟩

/-- The cipher as an ideal one: every chunk can be sealed, into its length and a tag; what was
sealed opens again, and nothing else opens. -/
structure Crates.Ideal (crates : Crates) (sealings : List Sealing) : Prop where
  seals : crates.Seals
  tags : crates.Tags
  opens : ∀ sealing ∈ sealings, ∀ ciphertext,
    crates.encrypt sealing.key sealing.nonce sealing.aad sealing.message = some ciphertext →
      crates.decrypt sealing.key sealing.nonce sealing.aad ciphertext = some sealing.message
  authentic : ∀ key nonce aad ciphertext message,
    crates.decrypt key nonce aad ciphertext = some message →
      ⟨key, nonce, aad, message⟩ ∈ sealings ∧ crates.encrypt key nonce aad message = some ciphertext

def sealings (crates : Crates) (crypto : BackupCrypto) (calls : List EncryptCall) : List Sealing :=
  calls.flatMap fun call =>
    (call.frames crates crypto).map (Frame.sealing (call.fileKey crates crypto))

def DistinctPrefixes (calls : List EncryptCall) : Prop :=
  calls.Pairwise fun call call' =>
    call.route = call'.route → call.backupId = call'.backupId → call.noncePrefix ≠ call'.noncePrefix

def EncryptCall.Finished (crates : Crates) (crypto : BackupCrypto) (call : EncryptCall) : Prop :=
  (call.loop crates crypto).2 = .ok ()

section Files
variable {crates : Crates} {crypto : BackupCrypto} {calls : List EncryptCall} {budget : Budget}

theorem sealedRun_loop (htags : crates.Tags) (call : EncryptCall) :
    SealedRun crates (call.fileKey crates crypto) 0 call.plaintext (call.frames crates crypto)
      (call.loop crates crypto).2 := by
  unfold EncryptCall.frames EncryptCall.loop
  cases call.budget 0 with
  | error e => exact SealedRun.nil (by norm_num) e
  | ok u =>
    have hrun := @sealedRun_encryptLoop crates (call.fileKey crates crypto) call.budget htags
      (call.plaintext.take chunkBytes) (call.plaintext.drop chunkBytes) 0 (by norm_num)
      (List.length_take_le _ _)
    rw [List.take_append_drop] at hrun
    exact hrun

theorem finished_of_encryptFile {call : EncryptCall} {result : Nat × List Char}
    (h : call.encryptFile crates crypto = .ok result) : call.Finished crates crypto := by
  simp only [EncryptCall.encryptFile, bind_ok_iff] at h
  obtain ⟨⟨⟩, hloop, -⟩ := h
  exact hloop

theorem encryptFile_ok {call : EncryptCall} (htags : crates.Tags) (hseals : crates.Seals)
    (hbudget : ∀ n, call.budget n = .ok ()) (hsynced : call.synced = .ok ())
    (hlength : call.plaintext.length ≤ 2^32*chunkBytes) :
    ∃ result, call.encryptFile crates crypto = .ok result := by
  have hroom : (0+1)*chunkBytes+(call.plaintext.drop chunkBytes).length ≤ 2^32*chunkBytes := by
    rw [List.length_drop]
    exact room_next (by norm_num) (by simpa using hlength)
  have hloop : (call.loop crates crypto).2 = .ok () := by
    rw [EncryptCall.loop, hbudget]
    exact encryptLoop_ok htags hseals hbudget _ _ 0 (List.length_take_le _ _) hroom
  simp only [EncryptCall.encryptFile, bind_ok_iff]
  exact ⟨_, (), hloop, (), hsynced, rfl⟩

theorem nonces_nodup (htags : crates.Tags) (call : EncryptCall) :
    ((call.frames crates crypto).map (Frame.nonce (call.fileKey crates crypto))).Nodup := by
  have hrun := @sealedRun_loop crates crypto htags call
  have hcounters : ((call.frames crates crypto).map Frame.counter).Nodup := by
    rw [hrun.numbered]
    exact List.nodup_range'
  refine List.Nodup.map_on ?_ (List.Nodup.of_map _ hcounters)
  intro frame hframe other hother hnonce
  obtain ⟨-, hcounter⟩ := chunkNonce_injective (hrun.counter_lt hframe) (hrun.counter_lt hother) hnonce
  exact List.inj_on_of_nodup_map hcounters hframe hother hcounter

/-- A frame that opens in its place was sealed there, in a file for that database and backup. -/
theorem Crates.Ideal.frame_of_opens (hideal : crates.Ideal (sealings crates crypto calls))
    {route : DatabaseRoute} {backupId : BackupId} {noncePrefix : Block 8} {frame : Frame}
    (hcounter : frame.counter < 2^32)
    (hopens : frame.Opens crates (crypto.fileKey crates route backupId noncePrefix)) :
    ∃ call ∈ calls, (call.route = route ∧ call.backupId = backupId ∧ call.noncePrefix = noncePrefix) ∧
      frame ∈ call.frames crates crypto := by
  obtain ⟨hsealed, hencrypt⟩ := hideal.authentic _ _ _ _ _ hopens.opened
  simp only [sealings, List.mem_flatMap, List.mem_map] at hsealed
  obtain ⟨call, hcall, other, hother, hsame⟩ := hsealed
  obtain ⟨hkey, hnonce, haad, hmessage⟩ := Sealing.mk.inj hsame
  have hrun := @sealedRun_loop crates crypto hideal.tags call
  obtain ⟨hleading, hnumber⟩ := chunkNonce_injective (hrun.counter_lt hother) hcounter hnonce
  have hlabels : (call.fileKey crates crypto).label.length =
      (crypto.fileKey crates route backupId noncePrefix).label.length := by
    simp [EncryptCall.fileKey, BackupCrypto.fileKey, length_associatedData]
  obtain ⟨hlabel, hflag⟩ := chunkAssociatedData_injective hlabels haad
  obtain ⟨hroute, hbackup⟩ := associatedData_injective hlabel
  have hencrypted : other.encrypted = frame.encrypted := by
    have hseal := (hrun.sealed other hother).encrypted
    rw [hkey, hnonce, haad, hmessage, hencrypt] at hseal
    exact (Option.some.inj hseal).symm
  have hframe : other = frame := by
    cases other
    cases frame
    exact Frame.mk.injEq .. ▸ ⟨hnumber, hflag, hmessage, hencrypted⟩
  exact ⟨call, hcall, ⟨hroute, hbackup, hleading⟩, hframe ▸ hother⟩

theorem DistinctPrefixes.eq (hdistinct : DistinctPrefixes calls) {call call' : EncryptCall}
    (hcall : call ∈ calls) (hcall' : call' ∈ calls) (hroute : call.route = call'.route)
    (hbackup : call.backupId = call'.backupId) (hleading : call.noncePrefix = call'.noncePrefix) :
    call = call' := by
  by_contra hne
  have hsymm : Std.Symm fun call call' : EncryptCall =>
      call.route = call'.route → call.backupId = call'.backupId → call.noncePrefix ≠ call'.noncePrefix :=
    ⟨fun _ _ h hroute hbackup hleading => h hroute.symm hbackup.symm hleading.symm⟩
  exact List.Pairwise.forall hdistinct hcall hcall' hne hroute hbackup hleading

theorem Crates.Ideal.opens_of_mem (hideal : crates.Ideal (sealings crates crypto calls))
    {call : EncryptCall} (hcall : call ∈ calls) {frame : Frame} (hframe : frame ∈ call.frames crates crypto) :
    frame.Opens crates (call.fileKey crates crypto) := by
  have hsealed := (@sealedRun_loop crates crypto hideal.tags call).sealed frame hframe
  have hlength := hideal.tags _ _ _ _ _ hsealed.bounded hsealed.encrypted
  have hmem : frame.sealing (call.fileKey crates crypto) ∈ sealings crates crypto calls :=
    List.mem_flatMap.mpr ⟨call, hcall, List.mem_map_of_mem hframe⟩
  refine ⟨hideal.opens _ hmem _ hsealed.encrypted, by omega, ?_⟩
  rw [hlength, maxCiphertextChunk]
  exact Nat.add_le_add_right hsealed.bounded tagBytes

theorem decryptFile_header (noncePrefix : Block 8) (input : Bytes) (route : DatabaseRoute)
    (backupId : BackupId) (hbudget : budget 0 = .ok ()) :
    decryptFile crates budget crypto (magic ++ noncePrefix.1 ++ input) route backupId =
      decryptLoop crates (crypto.fileKey crates route backupId noncePrefix) budget input 0 := by
  have hmagic : readExact 8 (magic ++ noncePrefix.1 ++ input) = some (magic, noncePrefix.1 ++ input) :=
    readExact_eq_some_iff.mpr ⟨List.append_assoc .., rfl⟩
  have hlength : 8 ≤ (noncePrefix.1 ++ input).length := by
    simp [noncePrefix.2]
  have htake : (noncePrefix.1 ++ input).take 8 = noncePrefix.1 := by
    rw [List.take_append_of_le_length noncePrefix.2.ge, List.take_of_length_le noncePrefix.2.le]
  have hdrop : (noncePrefix.1 ++ input).drop 8 = input := by
    rw [List.drop_append_of_le_length noncePrefix.2.ge, List.drop_of_length_le noncePrefix.2.le,
      List.nil_append]
  have hleading : (⟨(noncePrefix.1 ++ input).take 8, List.length_take_of_le hlength⟩ : Block 8) =
      noncePrefix := Subtype.ext htake
  have hstep : decryptFile crates budget crypto (magic ++ noncePrefix.1 ++ input) route backupId =
      if h : 8 ≤ (noncePrefix.1 ++ input).length then
        decryptLoop crates (crypto.fileKey crates route backupId
          ⟨(noncePrefix.1 ++ input).take 8, List.length_take_of_le h⟩) budget ((noncePrefix.1 ++ input).drop 8) 0
      else .error .invalidCiphertext := by
    simp only [decryptFile, hbudget, hmagic, orError, require]
    rfl
  rw [hstep, dif_pos hlength, hleading, hdrop]

/-- Whatever is accepted has a header, and frames that are accepted under it. -/
theorem header_of_decryptFile {ciphertext : Bytes} {route : DatabaseRoute} {backupId : BackupId} {plain : Bytes}
    (h : decryptFile crates budget crypto ciphertext route backupId = .ok plain) :
    ∃ noncePrefix input, ciphertext = magic ++ noncePrefix.1 ++ input ∧
      decryptLoop crates (crypto.fileKey crates route backupId noncePrefix) budget input 0 = .ok plain := by
  simp only [decryptFile, bind_ok_iff, orError_ok_iff, require_ok_iff, decide_eq_true_eq] at h
  obtain ⟨⟨⟩, -, ⟨header, input⟩, hread, ⟨⟩, hmagic, h⟩ := h
  obtain ⟨rfl, -⟩ := readExact_eq_some_iff.mp hread
  dsimp only at hmagic h
  subst hmagic
  by_cases hlength : 8 ≤ input.length
  · rw [dif_pos hlength] at h
    refine ⟨⟨input.take 8, List.length_take_of_le hlength⟩, input.drop 8, ?_, h⟩
    rw [List.append_assoc, List.take_append_drop]
  · rw [dif_neg hlength] at h
    cases h

theorem failsOnly_decryptFile (hbudget : ∀ n, budget n = .ok ()) (ciphertext : Bytes) (route : DatabaseRoute)
    (backupId : BackupId) :
    FailsOnly .invalidCiphertext (decryptFile crates budget crypto ciphertext route backupId) := by
  unfold decryptFile
  rw [hbudget]
  refine (FailsOnly.ok ()).bind fun _ _ => ?_
  refine (FailsOnly.orError _).bind fun header _ => (FailsOnly.require _).bind fun _ _ => ?_
  dsimp only
  split
  · exact failsOnly_decryptLoop hbudget _ 0
  · exact fun e h => (Except.error.inj h).symm

/-- What is accepted was written, by a finished encryption of what it decrypts to. -/
theorem written_of_decryptFile (hideal : crates.Ideal (sealings crates crypto calls))
    (hdistinct : DistinctPrefixes calls) {route : DatabaseRoute} {backupId : BackupId} {ciphertext plain : Bytes}
    (h : decryptFile crates budget crypto ciphertext route backupId = .ok plain) :
    ∃ call ∈ calls, (call.route = route ∧ call.backupId = backupId) ∧ call.Finished crates crypto ∧
      ciphertext = call.written crates crypto ∧ plain = call.plaintext := by
  obtain ⟨noncePrefix, input, rfl, hloop⟩ := header_of_decryptFile h
  obtain ⟨taken, hcomplete, hopens, rfl, rfl⟩ := frames_of_decryptLoop hloop
  have hsealed : ∀ frame ∈ taken, ∃ call ∈ calls, (call.route = route ∧ call.backupId = backupId ∧
      call.noncePrefix = noncePrefix) ∧ frame ∈ call.frames crates crypto := fun frame hframe =>
    hideal.frame_of_opens (hcomplete.counter_lt (by norm_num) frame hframe).2 (hopens frame hframe)
  obtain ⟨last, hlast, hfinal⟩ := hcomplete.exists_final
  obtain ⟨call, hcall, ⟨hroute, hbackup, hleading⟩, hmem⟩ := hsealed last hlast
  have hrun := @sealedRun_loop crates crypto hideal.tags call
  have hfinished := hrun.marked ⟨last, hmem, hfinal⟩
  obtain ⟨hframes, htext⟩ := hrun.finished hfinished
  have hsubset : ∀ frame ∈ taken, frame ∈ call.frames crates crypto := by
    intro frame hframe
    obtain ⟨call', hcall', ⟨hroute', hbackup', hleading'⟩, hmem'⟩ := hsealed frame hframe
    rw [hdistinct.eq hcall hcall' (hroute.trans hroute'.symm) (hbackup.trans hbackup'.symm)
      (hleading.trans hleading'.symm)]
    exact hmem'
  have htaken : taken = call.frames crates crypto :=
    hframes.eq_of_subset (by norm_num) hcomplete hsubset
  refine ⟨call, hcall, ⟨hroute, hbackup⟩, hfinished, ?_, ?_⟩
  · rw [EncryptCall.written, hleading, htaken]
  · rw [htaken, htext]

/-- What a finished encryption wrote is accepted, and gives its plaintext back. -/
theorem decryptFile_written (hideal : crates.Ideal (sealings crates crypto calls))
    (hbudget : ∀ n, budget n = .ok ()) {call : EncryptCall} (hcall : call ∈ calls)
    (hfinished : call.Finished crates crypto) :
    decryptFile crates budget crypto (call.written crates crypto) call.route call.backupId =
      .ok call.plaintext := by
  obtain ⟨hframes, htext⟩ := (@sealedRun_loop crates crypto hideal.tags call).finished hfinished
  rw [EncryptCall.written, decryptFile_header _ _ _ _ (hbudget 0), ← htext]
  exact decryptLoop_of_frames hbudget hframes fun frame hframe => hideal.opens_of_mem hcall hframe

/-- A backup file is decrypted exactly when it is what a finished encryption for that database
and that backup wrote: cut short, extended, with frames moved, repeated, left out or put in, with
another header or flag, or written for another database or backup, it is refused as a bad
ciphertext. Encryption finishes for every plaintext whose chunks can be counted, and no file uses
a nonce twice. -/
theorem decryptFile_exact (hideal : crates.Ideal (sealings crates crypto calls))
    (hdistinct : DistinctPrefixes calls) :
    (∀ route backupId ciphertext plain, decryptFile crates budget crypto ciphertext route backupId = .ok plain →
      ∃ call ∈ calls, (call.route = route ∧ call.backupId = backupId) ∧ call.Finished crates crypto ∧
        ciphertext = call.written crates crypto ∧ plain = call.plaintext) ∧
    ((∀ n, budget n = .ok ()) → ∀ call ∈ calls, call.Finished crates crypto →
      decryptFile crates budget crypto (call.written crates crypto) call.route call.backupId =
        .ok call.plaintext) ∧
    ((∀ n, budget n = .ok ()) → ∀ route backupId ciphertext,
      (∀ call ∈ calls, call.route = route → call.backupId = backupId → call.Finished crates crypto →
        ciphertext ≠ call.written crates crypto) →
      decryptFile crates budget crypto ciphertext route backupId = .error .invalidCiphertext) ∧
    ∀ call ∈ calls,
      ((∃ result, call.encryptFile crates crypto = .ok result) → call.Finished crates crypto) ∧
      ((∀ n, call.budget n = .ok ()) → call.synced = .ok () →
        call.plaintext.length ≤ 2^32*chunkBytes → ∃ result, call.encryptFile crates crypto = .ok result) ∧
      ((call.frames crates crypto).map (Frame.nonce (call.fileKey crates crypto))).Nodup := by
  refine ⟨fun route backupId ciphertext plain h => written_of_decryptFile hideal hdistinct h,
    fun hbudget call hcall hfinished => decryptFile_written hideal hbudget hcall hfinished, ?_, ?_⟩
  · intro hbudget route backupId ciphertext hother
    cases hresult : decryptFile crates budget crypto ciphertext route backupId with
    | error e => rw [failsOnly_decryptFile hbudget ciphertext route backupId e hresult]
    | ok plain =>
      obtain ⟨call, hcall, ⟨hroute, hbackup⟩, hfinished, hwritten, -⟩ :=
        written_of_decryptFile hideal hdistinct hresult
      exact absurd hwritten (hother call hcall hroute hbackup hfinished)
  · intro call hcall
    refine ⟨?_, ?_, nonces_nodup hideal.tags call⟩
    · intro hresult
      obtain ⟨result, hresult⟩ := hresult
      exact finished_of_encryptFile hresult
    · intro hbudget hsynced hlength
      exact encryptFile_ok hideal.tags hideal.seals hbudget hsynced hlength

end Files

section Sample

def sampleTag (key nonce aad message : Bytes) : Bytes :=
  (Sha256.hmac key (nonce ++ aad ++ message)).take tagBytes

def Sealing.gives (key nonce aad ciphertext : Bytes) (sealing : Sealing) : Bool :=
  sealing.key = key ∧ sealing.nonce = nonce ∧ sealing.aad = aad ∧
    sealing.message ++ sampleTag key nonce aad sealing.message = ciphertext

def tableCrates (table : List Sealing) : Crates where
  encrypt key nonce aad message := some (message ++ sampleTag key nonce aad message)
  decrypt key nonce aad ciphertext :=
    (table.find? (Sealing.gives key nonce aad ciphertext)).map Sealing.message
  hkdf salt masterKey info := Sha256.hmac (Sha256.hmac salt masterKey) (info ++ [1])

theorem length_sampleTag (key nonce aad message : Bytes) :
    (sampleTag key nonce aad message).length = tagBytes := by
  simp [sampleTag, Sha256.length_hmac, tagBytes]

theorem ideal_tableCrates (table : List Sealing) : (tableCrates table).Ideal table where
  seals key nonce aad message _ := ⟨_, rfl⟩
  tags key nonce aad message ciphertext _ h := by
    rw [← Option.some.inj h, List.length_append, length_sampleTag]
  opens sealing hmem ciphertext h := by
    have hciphertext : sealing.message ++ sampleTag sealing.key sealing.nonce sealing.aad sealing.message =
        ciphertext := Option.some.inj h
    have hgives : sealing.gives sealing.key sealing.nonce sealing.aad ciphertext = true := by
      simp [Sealing.gives, hciphertext]
    obtain ⟨found, hfound⟩ := Option.isSome_iff_exists.mp (List.find?_isSome.mpr ⟨sealing, hmem, hgives⟩)
    have hother := List.find?_some hfound
    simp only [Sealing.gives, decide_eq_true_eq] at hother
    have hsame : found.message = sealing.message :=
      (List.append_inj' (hother.2.2.2.trans hciphertext.symm) (by simp [length_sampleTag])).1
    exact (congrArg (Option.map Sealing.message) hfound).trans (congrArg some hsame)
  authentic key nonce aad ciphertext message h := by
    obtain ⟨found, hfound, rfl⟩ := Option.map_eq_some_iff.mp h
    have hgives := List.find?_some hfound
    simp only [Sealing.gives, decide_eq_true_eq] at hgives
    obtain ⟨rfl, rfl, rfl, hmessage⟩ := hgives
    exact ⟨List.mem_of_find?_eq_some hfound, congrArg some hmessage⟩

def sampleCrypto : BackupCrypto := (BackupCrypto.new (List.replicate 32 7)).toOption.get rfl

def sampleCall : EncryptCall where
  route := ⟨⟨List.replicate 16 1, rfl⟩, ⟨List.replicate 16 2, rfl⟩⟩
  backupId := ⟨List.replicate 16 3, rfl⟩
  noncePrefix := ⟨List.replicate 8 4, rfl⟩
  plaintext := [5, 6]
  budget := Budget.unlimited
  synced := .ok ()

def sampleTable : List Sealing :=
  [Frame.sealing (sampleCall.fileKey (tableCrates []) sampleCrypto) ⟨0, true, [5, 6], []⟩]

theorem loop_sampleCall : sampleCall.loop (tableCrates sampleTable) sampleCrypto =
    ([⟨0, true, [5, 6], [5, 6] ++ sampleTag (sampleCall.fileKey (tableCrates []) sampleCrypto).key
      (chunkNonce sampleCall.noncePrefix 0)
      (chunkAssociatedData (associatedData sampleCall.route sampleCall.backupId) 0 true) [5, 6]⟩], .ok ()) := by
  have htake : sampleCall.plaintext.take chunkBytes = [5, 6] := rfl
  have hdrop : sampleCall.plaintext.drop chunkBytes = [] := rfl
  have hlength : ∀ key nonce aad, ([5, 6] ++ sampleTag key nonce aad [5, 6]).length < 2^32 := by
    intro key nonce aad
    rw [List.length_append, length_sampleTag]
    decide
  rw [EncryptCall.loop, htake, hdrop, encryptLoop]
  dsimp only [sampleCall, Budget.unlimited, tableCrates, List.take_nil]
  rw [if_pos (hlength _ _ _)]
  rfl

theorem sealings_sampleCall :
    sealings (tableCrates sampleTable) sampleCrypto [sampleCall] = sampleTable := by
  simp only [sealings, List.flatMap_cons, List.flatMap_nil, EncryptCall.frames, loop_sampleCall]
  rfl

/-- The sample file is decrypted, and refused without its last byte. -/
theorem sampleCall_exact :
    decryptFile (tableCrates sampleTable) Budget.unlimited sampleCrypto
        (sampleCall.written (tableCrates sampleTable) sampleCrypto) sampleCall.route sampleCall.backupId =
      .ok [5, 6] ∧
    decryptFile (tableCrates sampleTable) Budget.unlimited sampleCrypto
        (sampleCall.written (tableCrates sampleTable) sampleCrypto).dropLast sampleCall.route sampleCall.backupId =
      .error .invalidCiphertext := by
  have hideal : (tableCrates sampleTable).Ideal
      (sealings (tableCrates sampleTable) sampleCrypto [sampleCall]) := by
    rw [sealings_sampleCall]
    exact ideal_tableCrates sampleTable
  have hdistinct : DistinctPrefixes [sampleCall] := List.pairwise_singleton _ _
  have hfinished : sampleCall.Finished (tableCrates sampleTable) sampleCrypto := by
    rw [EncryptCall.Finished, loop_sampleCall]
  obtain ⟨-, hwritten, hrefused, -⟩ :=
    @decryptFile_exact _ _ _ Budget.unlimited hideal hdistinct
  refine ⟨hwritten (fun _ => rfl) sampleCall (by simp) hfinished, ?_⟩
  refine hrefused (fun _ => rfl) _ _ _ fun call hcall _ _ _ hsame => ?_
  obtain rfl := List.mem_singleton.mp hcall
  have hshorter := congrArg List.length hsame
  have hlong : 0 < (sampleCall.written (tableCrates sampleTable) sampleCrypto).length := by
    simp [EncryptCall.written, magic]
  rw [List.length_dropLast] at hshorter
  omega

end Sample
end Ffdb.Backup
