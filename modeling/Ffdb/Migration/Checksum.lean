import Ffdb.Migration.History
import Mathlib.Data.List.TakeWhile

/-! What the checksum of a migration identifies: its texts are joined by NULs, which texts may have in them. -/
namespace Ffdb.Migration
open Sql Rls Ffdb.Runtime

def nul : Char := Char.ofNat 0

def Blank (text : List Char) : Prop := ∀ c ∈ text, Text.isWhitespace c = true

def MigrationSpec.joined (spec : MigrationSpec) : List Char :=
  spec.id ++ nul :: (spec.name ++ nul :: (spec.upSql ++ nul :: spec.downSql))

def MigrationSpec.SameTexts (spec other : MigrationSpec) : Prop :=
  other.id = spec.id ∧ other.name = spec.name ∧ other.upSql = spec.upSql ∧ other.downSql = spec.downSql

def MigrationSpec.NoCollision (spec other : MigrationSpec) : Prop :=
  Sha256.digest (utf8 other.joined) = Sha256.digest (utf8 spec.joined) → utf8 other.joined = utf8 spec.joined

/-- The joined text can be cut at its NULs in no other way: a name has none but at its start, an up script none
behind anything, and where it has one, as with a down script, nothing that would be a script follows. -/
structure MigrationSpec.Separable (spec : MigrationSpec) : Prop where
  name : ∀ front back, spec.name = front ++ nul :: back → front = []
  upFront : ∀ front back, spec.upSql = front ++ nul :: back → Blank front
  upBack : ∀ front back, spec.upSql = front ++ nul :: back →
    Text.byteLength (spec.name ++ nul :: front) ≤ 256 → Blank back
  downBack : ∀ front back, spec.downSql = front ++ nul :: back → Blank back

section Texts

theorem trim_eq_nil_iff (text : List Char) : Text.trim text = [] ↔ Blank text := by
  rw [Text.trim, List.reverse_eq_nil_iff, List.dropWhile_eq_nil_iff]
  simp only [List.mem_reverse]
  constructor
  · intro h
    have hnone : text.dropWhile Text.isWhitespace = [] := by
      cases hrest : text.dropWhile Text.isWhitespace with
      | nil => rfl
      | cons c rest =>
        have hhead := List.head_dropWhile_not Text.isWhitespace (l := text) (by simp [hrest])
        have hc := h c (by simp [hrest])
        simp only [hrest, List.head_cons] at hhead
        rw [hhead] at hc
        cases hc
    exact List.dropWhile_eq_nil_iff.mp hnone
  · intro h c hc
    exact h c ((List.dropWhile_sublist _).subset hc)

theorem not_blank_of_nul {text : List Char} (h : nul ∈ text) : ¬ Blank text :=
  fun hblank => absurd (hblank nul h) (by decide)

theorem nul_mem (front back : List Char) : nul ∈ front ++ nul :: back := List.mem_append_right _ List.mem_cons_self

theorem utf8_joined (spec : MigrationSpec) : utf8 spec.id ++ [0] ++ utf8 spec.name ++ [0] ++ utf8 spec.upSql ++ [0] ++
    utf8 spec.downSql = utf8 spec.joined := by
  have hnul : Text.utf8 [nul] = [0] := by decide +kernel
  have hcons (text : List Char) : Text.utf8 (nul :: text) = 0 :: Text.utf8 text := by
    rw [← List.singleton_append, Text.utf8_append, hnul]
    rfl
  change Text.utf8 spec.id ++ [0] ++ Text.utf8 spec.name ++ [0] ++ Text.utf8 spec.upSql ++ [0] ++
    Text.utf8 spec.downSql = Text.utf8 spec.joined
  rw [MigrationSpec.joined, Text.utf8_append, hcons, Text.utf8_append, hcons, Text.utf8_append, hcons]
  simp

theorem calculateChecksum_eq (spec : MigrationSpec) :
    spec.calculateChecksum = Text.hex (Sha256.digest (utf8 spec.joined)) := by
  rw [MigrationSpec.calculateChecksum, utf8_joined]

theorem byteLength_hex (bytes : Bytes) : Text.byteLength (Text.hex bytes) = 2*bytes.length := by
  have hdigit : ∀ n < 16, (Text.hexDigit n).utf8Size = 1 := by decide
  induction bytes with
  | nil => rfl
  | cons byte bytes ih =>
    have hbyte : byte.toNat < 256 := byte.toNat_lt
    have hhex : Text.hex (byte :: bytes) =
        Text.hexDigit (byte.toNat/16) :: Text.hexDigit (byte.toNat%16) :: Text.hex bytes := rfl
    rw [hhex, Text.byteLength_cons, Text.byteLength_cons, ih, hdigit _ (by omega), hdigit _ (by omega),
      List.length_cons]
    omega

structure MigrationSpec.Valid (spec : MigrationSpec) : Prop where
  id : spec.id ≠ [] ∧ Text.byteLength spec.id ≤ 128 ∧ spec.id.all isIdCharacter = true
  name : spec.name ≠ [] ∧ Text.byteLength spec.name ≤ 256
  up : ¬ Blank spec.upSql
  down : ¬ Blank spec.downSql
  checksum : spec.checksum = spec.calculateChecksum

theorem validate_ok_iff (spec : MigrationSpec) : spec.validate = .ok () ↔ spec.Valid := by
  have hlength : Text.byteLength spec.calculateChecksum = 64 := by
    rw [calculateChecksum_eq, byteLength_hex, Sha256.length_digest]
  simp only [MigrationSpec.validate, Fallible.bind_ok_iff, Fallible.require_ok_iff, Bool.not_eq_true',
    Bool.or_eq_false_iff, decide_eq_false_iff_not, List.isEmpty_eq_false_iff, not_not, Bool.not_eq_false', exists_const,
    ne_eq, trim_eq_nil_iff, not_lt]
  constructor
  · intro h
    obtain ⟨⟨⟨⟨⟨hid, hidLength⟩, hidChars⟩, hname⟩, hnameLength⟩, ⟨hup, hdown⟩, -, hchecksum⟩ := h
    exact ⟨⟨hid, hidLength, hidChars⟩, ⟨hname, hnameLength⟩, hup, hdown, hchecksum⟩
  · intro h
    obtain ⟨⟨hid, hidLength, hidChars⟩, ⟨hname, hnameLength⟩, hup, hdown, hchecksum⟩ := h
    exact ⟨⟨⟨⟨⟨hid, hidLength⟩, hidChars⟩, hname⟩, hnameLength⟩, ⟨hup, hdown⟩, by rw [hchecksum, hlength], hchecksum⟩

end Texts

section Cuts
variable {spec other : MigrationSpec}

/-- Two cuts of one text at separators: they are the same, or one is behind the other. -/
theorem cuts {α : Type} {separator : α} {front back front' back' : List α}
    (h : front ++ separator :: back = front' ++ separator :: back') :
    front = front' ∧ back = back' ∨
      (∃ between, front' = front ++ separator :: between ∧ back = between ++ separator :: back') ∨
        ∃ between, front = front' ++ separator :: between ∧ back' = between ++ separator :: back := by
  obtain ⟨between, hfront, hback⟩ | ⟨between, hfront, hback⟩ := List.append_eq_append_iff.mp h
  · cases between with
    | nil =>
      rw [List.append_nil] at hfront
      exact .inl ⟨hfront.symm, (List.cons.inj hback).2⟩
    | cons c between =>
      obtain ⟨rfl, htail⟩ := List.cons.inj hback
      exact .inr (.inl ⟨between, hfront, htail⟩)
  · cases between with
    | nil =>
      rw [List.append_nil] at hfront
      exact .inl ⟨hfront, (List.cons.inj hback).2.symm⟩
    | cons c between =>
      obtain ⟨rfl, htail⟩ := List.cons.inj hback
      exact .inr (.inr ⟨between, hfront, htail⟩)

theorem MigrationSpec.Valid.nul_notMem (h : spec.Valid) : nul ∉ spec.id := by
  intro hmem
  have hchar := List.all_eq_true.mp h.id.2.2 nul hmem
  exact absurd hchar (by decide)

/-- The scripts are cut in one way. -/
theorem scripts_same (hdown : ∀ front back, spec.downSql = front ++ nul :: back → Blank back)
    (hup : ∀ front back, spec.upSql = front ++ nul :: back → Blank front) (hother : other.Valid)
    (h : spec.upSql ++ nul :: spec.downSql = other.upSql ++ nul :: other.downSql) :
    other.upSql = spec.upSql ∧ other.downSql = spec.downSql := by
  obtain ⟨hsame, hrest⟩ | ⟨between, -, hback⟩ | ⟨between, hfront, -⟩ := cuts h
  · exact ⟨hsame.symm, hrest.symm⟩
  · exact absurd (hdown between _ hback) hother.down
  · exact absurd (hup _ between hfront) hother.up

/-- A text that is joined like that of a separable specification is of the same texts. -/
theorem sameTexts_of_joined (hseparable : spec.Separable) (hvalid : spec.Valid) (hother : other.Valid)
    (h : other.joined = spec.joined) : spec.SameTexts other := by
  obtain ⟨hid, hrest⟩ := Text.append_separator_inj hother.nul_notMem hvalid.nul_notMem h
  obtain ⟨hname, hscripts⟩ | ⟨between, hname, hscripts⟩ | ⟨between, hname, hscripts⟩ := cuts hrest.symm
  · exact ⟨hid, hname.symm, scripts_same hseparable.downBack hseparable.upFront hother hscripts⟩
  · obtain ⟨hup, hdown⟩ | ⟨front, -, hdown⟩ | ⟨front, hup, hdown⟩ := cuts hscripts
    · exact absurd (hseparable.downBack _ _ hdown) hother.down
    · have hblank := hseparable.downBack _ _ hdown
      exact absurd hblank (not_blank_of_nul (nul_mem _ _))
    · have hlength := hother.name.2
      rw [hname] at hlength
      have hblank := hseparable.upBack _ _ hup hlength
      obtain ⟨hsame, -⟩ | ⟨between', hfront, -⟩ | ⟨between', -, hback⟩ := cuts hdown
      · exact absurd (hsame ▸ hblank) hother.up
      · rw [hfront] at hblank
        exact absurd hblank (not_blank_of_nul (nul_mem _ _))
      · exact absurd (hseparable.downBack _ _ hback) hother.down
  · exact absurd (hseparable.name _ _ hname) hother.name.1

theorem checksum_eq_iff (hvalid : spec.Valid) (hother : other.Valid) (hcollision : spec.NoCollision other) :
    other.checksum = spec.checksum ↔ other.joined = spec.joined := by
  rw [hvalid.checksum, hother.checksum, calculateChecksum_eq, calculateChecksum_eq]
  constructor
  · intro h
    have hdecoded := congrArg decodePairs h
    rw [decodePairs_hex, decodePairs_hex] at hdecoded
    exact Text.utf8_injective (hcollision (Option.some.inj hdecoded))
  · intro h
    rw [h]

def MigrationSpec.ofTexts (id name upSql downSql : List Char) : MigrationSpec :=
  let spec : MigrationSpec := ⟨id, name, upSql, downSql, [], 0⟩
  { spec with checksum := spec.calculateChecksum }

/-- Every other specification of the checksum has the texts, whose bytes SHA-256 tells apart. -/
def MigrationSpec.Identified (spec : MigrationSpec) : Prop :=
  ∀ other : MigrationSpec, other.validate = .ok () → spec.NoCollision other → other.checksum = spec.checksum →
    spec.SameTexts other

/-- Another way to cut the joined text gives another specification. -/
theorem MigrationSpec.Identified.same_of_cut (h : spec.Identified) (hvalid : spec.Valid)
    {name upSql downSql : List Char}
    (hname : name ≠ [] ∧ Text.byteLength name ≤ 256) (hup : ¬ Blank upSql) (hdown : ¬ Blank downSql)
    (hjoined : name ++ nul :: (upSql ++ nul :: downSql) = spec.name ++ nul :: (spec.upSql ++ nul :: spec.downSql)) :
    name = spec.name ∧ upSql = spec.upSql ∧ downSql = spec.downSql := by
  have hother : (MigrationSpec.ofTexts spec.id name upSql downSql).Valid := ⟨hvalid.id, hname, hup, hdown, rfl⟩
  have hsame : (MigrationSpec.ofTexts spec.id name upSql downSql).joined = spec.joined :=
    congrArg (spec.id ++ nul :: ·) hjoined
  have hcollision : spec.NoCollision (.ofTexts spec.id name upSql downSql) := fun _ => by rw [hsame]
  have htexts := h _ ((validate_ok_iff _).mpr hother) hcollision ((checksum_eq_iff hvalid hother hcollision).mpr hsame)
  exact htexts.2

theorem MigrationSpec.Identified.separable (h : spec.Identified) (hvalid : spec.Valid) : spec.Separable where
  name front back hname := by
    by_contra hfront
    have hlength := hvalid.name.2
    rw [hname, Text.byteLength_append] at hlength
    have hsame := MigrationSpec.Identified.same_of_cut h hvalid ⟨hfront, by omega⟩
      (not_blank_of_nul (nul_mem back spec.upSql)) hvalid.down (by rw [hname]; simp)
    have hshort := congrArg List.length (hsame.1.trans hname)
    simp at hshort
  upFront front back hup := by
    by_contra hfront
    have hsame := MigrationSpec.Identified.same_of_cut h hvalid hvalid.name hfront
      (not_blank_of_nul (nul_mem back spec.downSql)) (by rw [hup]; simp)
    have hshort := congrArg List.length (hsame.2.1.trans hup)
    simp at hshort
  upBack front back hup hlength := by
    by_contra hback
    have hsame := MigrationSpec.Identified.same_of_cut h hvalid
      ⟨List.append_ne_nil_of_right_ne_nil _ (List.cons_ne_nil _ _), hlength⟩ hback hvalid.down (by rw [hup]; simp)
    have hshort := congrArg List.length hsame.1
    simp at hshort
  downBack front back hdown := by
    by_contra hback
    have hsame := MigrationSpec.Identified.same_of_cut h hvalid hvalid.name
      (not_blank_of_nul (nul_mem spec.upSql front)) hback (by rw [hdown]; simp)
    have hshort := congrArg List.length hsame.2.1
    simp at hshort

end Cuts

section Detection
variable {δ ρ : Type} (sqlite : Sqlite (Store δ) ρ) (limits : SessionLimits)

/-- Where the specification is on record, another of its id is refused, and nothing changes. -/
def MigrationSpec.Detected (spec : MigrationSpec) : Prop :=
  ∀ (other : MigrationSpec) (request : Request) (session : Session (Store δ)) (record : StoredMigration),
    other.validate = .ok () → spec.NoCollision other → other.id = spec.id → ¬ spec.SameTexts other →
      session.contents.migrationRecord other.id = some record → decodeChecksum spec.checksum = .ok record.checksum →
        apply sqlite limits other request session = (.error .checksumMismatch, session)

theorem MigrationSpec.Identified.detected {spec : MigrationSpec} (h : spec.Identified)
    (hspec : spec.validate = .ok ()) : spec.Detected sqlite limits := by
  intro other request session record hvalid hcollision _ hchanged hrecord hdecoded
  obtain ⟨checksum, htext, hchecksum⟩ := checksum_of_valid hvalid
  obtain ⟨recorded, htext', hrecorded⟩ := checksum_of_valid hspec
  obtain rfl := Except.ok.inj (hdecoded.symm.trans hrecorded)
  refine apply_mismatch hvalid hrecord hchecksum fun hsame => hchanged (h other hvalid hcollision ?_)
  rw [htext, htext', hsame]

/-- A checksum identifies its migration exactly when the texts are cut in one way. -/
theorem checksum_identifies (spec : MigrationSpec) (hvalid : spec.validate = .ok ()) :
    spec.Identified ∧ spec.Detected sqlite limits ↔ spec.Separable := by
  have hspec := (validate_ok_iff spec).mp hvalid
  constructor
  · intro h
    exact MigrationSpec.Identified.separable h.1 hspec
  · intro h
    have hidentified : spec.Identified := by
      intro other hother hcollision hsame
      have hjoined := (checksum_eq_iff hspec ((validate_ok_iff other).mp hother) hcollision).mp hsame
      exact sameTexts_of_joined h hspec ((validate_ok_iff other).mp hother) hjoined
    exact ⟨hidentified, MigrationSpec.Identified.detected sqlite limits hidentified hvalid⟩

/-- The texts of a plain migration have no NUL. -/
theorem plain_checksum_identifies :
    (sampleSpec "CREATE TABLE a(x)").Identified ∧
      (sampleSpec "CREATE TABLE a(x)").Detected sampleSqlite sampleLimits := by
  have hvalid : (sampleSpec "CREATE TABLE a(x)").validate = .ok () := by decide +kernel
  have hname : nul ∉ (sampleSpec "CREATE TABLE a(x)").name := by decide +kernel
  have hup : nul ∉ (sampleSpec "CREATE TABLE a(x)").upSql := by decide +kernel
  have hdown : nul ∉ (sampleSpec "CREATE TABLE a(x)").downSql := by decide +kernel
  refine (checksum_identifies sampleSqlite sampleLimits _ hvalid).mpr ⟨?_, ?_, ?_, ?_⟩
  · intro front back h
    exact absurd (h ▸ nul_mem front back) hname
  · intro front back h
    exact absurd (h ▸ nul_mem front back) hup
  · intro front back h
    exact absurd (h ▸ nul_mem front back) hup
  · intro front back h
    exact absurd (h ▸ nul_mem front back) hdown

/-- The script that is the end of a name, and the script that it is once the name ends earlier. -/
def namedSpec : MigrationSpec :=
  .ofTexts "m1".toList ("first".toList ++ nul :: "CREATE TABLE a(x)".toList) "CREATE TABLE b(x)".toList
    "DROP TABLE b".toList

def scriptedSpec : MigrationSpec :=
  .ofTexts "m1".toList "first".toList ("CREATE TABLE a(x)".toList ++ nul :: "CREATE TABLE b(x)".toList)
    "DROP TABLE b".toList

/-- Two migrations of one id have one checksum, and the second is taken for the first. -/
theorem one_checksum_two_migrations :
    (namedSpec.validate = .ok () ∧ scriptedSpec.validate = .ok ()) ∧
    (namedSpec.NoCollision scriptedSpec ∧ scriptedSpec.checksum = namedSpec.checksum) ∧
    (scriptedSpec.name ≠ namedSpec.name ∧ scriptedSpec.upSql ≠ namedSpec.upSql) ∧
    (apply sampleSqlite sampleLimits namedSpec sampleRequest sampleSession).1.isOk = true ∧
    (apply sampleSqlite sampleLimits scriptedSpec sampleRequest
      (apply sampleSqlite sampleLimits namedSpec sampleRequest sampleSession).2).1.isOk = true ∧
    (apply sampleSqlite sampleLimits scriptedSpec sampleRequest
      (apply sampleSqlite sampleLimits namedSpec sampleRequest sampleSession).2).2.contents.rest =
        ["CREATE TABLE b(x)".toList] := by
  have hjoined : scriptedSpec.joined = namedSpec.joined := by decide +kernel
  have hnamed : namedSpec.validate = .ok () := by decide +kernel
  have hscripted : scriptedSpec.validate = .ok () := by decide +kernel
  have hcollision : namedSpec.NoCollision scriptedSpec := fun _ => by rw [hjoined]
  have hchecksum := (checksum_eq_iff ((validate_ok_iff _).mp hnamed) ((validate_ok_iff _).mp hscripted) hcollision).mpr
    hjoined
  exact ⟨⟨hnamed, hscripted⟩, ⟨hcollision, hchecksum⟩, ⟨by decide +kernel, by decide +kernel⟩, by decide +kernel,
    by decide +kernel, by decide +kernel⟩

end Detection

end Ffdb.Migration
