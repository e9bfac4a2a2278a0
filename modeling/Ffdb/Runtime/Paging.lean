import Ffdb.Runtime.Cursors

/-! Pages behind a cursor: what a client is told that pulls again and again, whichever limits it asks for and however
few changes are scanned at a time. -/
namespace Ffdb.Runtime
open Sql Rls Fallible
variable (doubles : Doubles) (reader : JsonReader) (limits : ExecutionLimits) (bare : Verdict) (auth : AuthContext)

namespace Database
variable (db : Database)

/-- Whether the caller may see a change: the policy is asked about the values, or those that were deleted. -/
def maySee (change : SyncChange) : Except RuntimeError Bool :=
  match change.values.or change.tombstone with
  | some row => db.evaluateSelectPolicy doubles bare auth change.table row
  | none => pure false

def judge (change : SyncChange) : Except RuntimeError (SyncChange × Bool) := do
  let primaryKey ← publicSyncPrimaryKey change.primaryKey
  let seen ← db.maySee doubles bare auth change
  pure ({ change with primaryKey }, seen)

def tell (change : ChangeRow) : Except RuntimeError (SyncChange × Bool) := do
  let loaded ← loadSyncChange reader change
  db.judge doubles bare auth loaded

def visible (changes : List ChangeRow) : List SyncChange :=
  changes.filterMap fun change =>
    match db.tell doubles reader bare auth change with
    | .ok (told, true) => some told
    | _ => none

def pullPages : Nat → List Nat → Except RuntimeError (List SyncPullResult)
  | _, [] => pure []
  | after, limit :: rest => do
    let page ← db.syncPull doubles reader limits bare auth after limit
    let pages ← pullPages page.cursor rest
    pure (page :: pages)

end Database

variable {doubles reader limits bare auth} {db : Database} {after limit : Nat}

section Examine
variable {page page' : SyncPullResult} {change : SyncChange} {rest : List SyncChange}

theorem examine_cons_eq : db.examine doubles bare auth limit page (change :: rest) =
    db.judge doubles bare auth change >>= fun judged =>
      if judged.2 then
        if page.changes.length = limit then .ok { page with hasMore := true }
        else db.examine doubles bare auth limit
          { page with changes := page.changes ++ [judged.1], cursor := change.sequence } rest
      else db.examine doubles bare auth limit { page with cursor := change.sequence } rest := by
  rw [Database.examine, Database.judge, Database.maySee]
  cases publicSyncPrimaryKey change.primaryKey with
  | error _ => rfl
  | ok primaryKey =>
    cases change.values.or change.tombstone with
    | none => rfl
    | some row =>
      dsimp only
      cases db.evaluateSelectPolicy doubles bare auth change.table row with
      | error _ => rfl
      | ok seen => rfl

/-- The loop takes the changes up to the first that finds no place on the page. -/
theorem examine_taken {changes : List ChangeRow} {loaded : List SyncChange}
    (hload : List.Forall₂ (fun change told => Database.loadSyncChange reader change = .ok told) changes loaded)
    (hsequences : changes.map ChangeRow.sequence = List.range' (page.cursor+1) changes.length)
    (h : db.examine doubles bare auth limit page loaded = .ok page') :
    ∃ taken rest, changes = taken ++ rest ∧
      page'.changes = page.changes ++ db.visible doubles reader bare auth taken ∧
      page'.cursor = page.cursor+taken.length ∧ page'.hasMore = (page.hasMore || !rest.isEmpty) ∧
      (rest ≠ [] → page'.changes.length = limit) := by
  induction hload generalizing page with
  | nil =>
    cases h
    exact ⟨[], [], rfl, by simp [Database.visible], rfl, by simp, fun hne => absurd rfl hne⟩
  | @cons change told changes loaded hchange hrest ih =>
    rw [List.map_cons, List.length_cons, List.range'_succ, List.cons.injEq] at hsequences
    obtain ⟨hsequence, hsequences⟩ := hsequences
    have hloaded : told.sequence = page.cursor+1 := (loadSyncChange_sequence hchange).trans hsequence
    rw [examine_cons_eq, bind_ok_iff] at h
    obtain ⟨⟨shown, seen⟩, hjudge, hnext⟩ := h
    have htell : db.tell doubles reader bare auth change = .ok (shown, seen) := by
      rw [Database.tell, hchange]
      exact hjudge
    cases seen with
    | true =>
      simp only [if_true] at hnext
      have hvisible (taken : List ChangeRow) : db.visible doubles reader bare auth (change :: taken) =
          shown :: db.visible doubles reader bare auth taken := by
        rw [Database.visible, List.filterMap_cons_some (b := shown) (by rw [htell])]
        rfl
      split at hnext
      · rename_i hfull
        cases hnext
        exact ⟨[], change :: changes, rfl, by simp [Database.visible], rfl, by simp, fun _ => hfull⟩
      · obtain ⟨taken, left, rfl, hchanges, hcursor, hmore, hleft⟩ :=
          ih (by simpa [hloaded] using hsequences) hnext
        refine ⟨change :: taken, left, rfl, ?_, ?_, hmore, hleft⟩
        · rw [hchanges, hvisible, List.append_assoc, List.singleton_append]
        · simp only [hcursor, hloaded, List.length_cons]
          omega
    | false =>
      simp only [Bool.false_eq_true, if_false] at hnext
      have hvisible (taken : List ChangeRow) : db.visible doubles reader bare auth (change :: taken) =
          db.visible doubles reader bare auth taken := by
        rw [Database.visible, List.filterMap_cons_none (by rw [htell])]
        rfl
      obtain ⟨taken, left, rfl, hchanges, hcursor, hmore, hleft⟩ := ih (by simpa [hloaded] using hsequences) hnext
      refine ⟨change :: taken, left, rfl, ?_, ?_, hmore, hleft⟩
      · rw [hchanges, hvisible]
      · simp only [hcursor, hloaded, List.length_cons]
        omega

/-- Changes that can all be told make a page. -/
theorem examine_ok {changes : List SyncChange}
    (h : ∀ change ∈ changes, ∃ told, db.judge doubles bare auth change = .ok told) :
    ∃ page', db.examine doubles bare auth limit page changes = .ok page' := by
  induction changes generalizing page with
  | nil => exact ⟨page, rfl⟩
  | cons change rest ih =>
    obtain ⟨⟨told, seen⟩, hjudge⟩ := h change (by simp)
    have hrest := fun change hchange => h change (List.mem_cons_of_mem _ hchange)
    rw [examine_cons_eq, hjudge]
    cases seen with
    | true =>
      by_cases hfull : page.changes.length = limit
      · exact ⟨_, if_pos hfull⟩
      · obtain ⟨page', hpage⟩ :=
          @ih { page with changes := page.changes ++ [told], cursor := change.sequence } hrest
        exact ⟨page', (if_neg hfull).trans hpage⟩
    | false => exact ih hrest

end Examine

section Pull
variable {page : SyncPullResult}

theorem SyncTables.Numbered.latestSequence_eq (h : db.sync.Numbered) :
    db.sync.latestSequence = db.sync.changes.length := by
  rw [SyncTables.latestSequence, h.next, Nat.add_sub_cancel]

/-- A page takes the changes behind its cursor up to some point, and at least one if there are any. -/
theorem syncPull_taken (h : db.sync.Numbered)
    (hpull : db.syncPull doubles reader limits bare auth after limit = .ok page) :
    ∃ taken rest, db.sync.changes.drop after = taken ++ rest ∧
      page.changes = db.visible doubles reader bare auth taken ∧ page.cursor = after+taken.length ∧
      page.hasMore = !rest.isEmpty ∧ (rest ≠ [] → taken ≠ []) := by
  let scan := max (min limits.maxRows 10000) (limit+1)
  simp only [Database.syncPull, bind_ok_iff, require_ok_iff, pure_ok_iff] at hpull
  obtain ⟨_, hlimit, loaded, hload, examined, hexamine, rfl⟩ := hpull
  have hpositive : 0 < limit := by
    simp only [Bool.not_eq_true', Bool.or_eq_false_iff, decide_eq_false_iff_not] at hlimit
    omega
  rw [h.loadSyncChanges_eq, mapM_ok_iff] at hload
  have hsequences : ((db.sync.changes.drop after).take scan).map ChangeRow.sequence =
      List.range' (after+1) ((db.sync.changes.drop after).take scan).length := by
    rw [List.map_take, h.sequences_drop, List.length_take]
    obtain hle | hge := Nat.le_total (db.sync.changes.drop after).length scan
    · rw [List.take_range'_of_length_le hle, Nat.min_eq_right hle]
    · rw [List.take_range'_of_length_ge hge, Nat.min_eq_left hge]
  obtain ⟨taken, left, hsplit, hchanges, hcursor, hmore, hleft⟩ := examine_taken hload hsequences hexamine
  have hdrop : db.sync.changes.drop after = taken ++ (left ++ (db.sync.changes.drop after).drop scan) := by
    rw [← List.append_assoc, ← hsplit, List.take_append_drop]
  refine ⟨taken, left ++ (db.sync.changes.drop after).drop scan, hdrop, hchanges, hcursor, ?_, ?_⟩
  · have hlength := congrArg List.length hdrop
    rw [List.length_append, List.length_drop] at hlength
    dsimp only
    rw [hmore, hcursor, h.latestSequence_eq, Bool.false_or]
    cases hrest : left ++ (db.sync.changes.drop after).drop scan with
    | nil =>
      rw [hrest, List.length_nil] at hlength
      have hdone : ¬after+taken.length < db.sync.changes.length := by omega
      simp [(List.append_eq_nil_iff.mp hrest).1, hdone]
    | cons first rest =>
      rw [hrest, List.length_cons] at hlength
      have hbehind : after+taken.length < db.sync.changes.length := by omega
      simp [hbehind]
  · rintro hrest rfl
    -- nothing was taken only if there was nothing to take
    have hleft' : left = [] := by
      by_contra hne
      have hcount := hleft hne
      rw [hchanges] at hcount
      simp only [Database.visible, List.filterMap_nil, List.nil_append, List.length_nil] at hcount
      omega
    rw [hleft', List.nil_append, List.take_eq_nil_iff] at hsplit
    obtain hzero | hempty := hsplit
    · omega
    · rw [hempty, hleft', List.drop_nil, List.append_nil] at hrest
      exact hrest rfl

/-- A page advances, or there is no more; and that is so exactly when its cursor is not behind the log. -/
theorem syncPull_advances (h : db.sync.Numbered)
    (hpull : db.syncPull doubles reader limits bare auth after limit = .ok page) :
    (after < page.cursor ∨ page.hasMore = false) ∧
      (page.hasMore = false ↔ db.sync.latestSequence ≤ page.cursor) := by
  obtain ⟨taken, rest, hdrop, -, hcursor, hmore, hprogress⟩ := syncPull_taken h hpull
  have hlength := congrArg List.length hdrop
  rw [List.length_append, List.length_drop] at hlength
  rw [hmore, hcursor, h.latestSequence_eq]
  cases rest with
  | nil =>
    rw [List.length_nil] at hlength
    exact ⟨.inr rfl, by simpa using by omega⟩
  | cons first rest =>
    rw [List.length_cons] at hlength
    have htaken := List.length_pos_iff.mpr (hprogress (by simp))
    refine ⟨.inl (by omega), ?_⟩
    simp only [List.isEmpty_cons, Bool.not_false, Bool.true_eq_false, false_iff]
    omega

/-- Changes that can be told are pulled. -/
theorem syncPull_ok (h : db.sync.Numbered) (hlimit : 0 < limit ∧ limit ≤ 1000)
    (htell : ∀ change ∈ db.sync.changes, after < change.sequence →
      ∃ told, db.tell doubles reader bare auth change = .ok told) :
    ∃ page, db.syncPull doubles reader limits bare auth after limit = .ok page := by
  let scan := max (min limits.maxRows 10000) (limit+1)
  have hscanned : ∀ change ∈ (db.sync.changes.drop after).take scan,
      ∃ loaded, Database.loadSyncChange reader change = .ok loaded ∧
        ∃ told, db.judge doubles bare auth loaded = .ok told := by
    intro change hchange
    have hbehind := List.mem_of_mem_take hchange
    rw [← h.filter_sequence, List.mem_filter, decide_eq_true_eq] at hbehind
    obtain ⟨told, htold⟩ := htell change hbehind.1 hbehind.2
    rw [Database.tell, bind_ok_iff] at htold
    obtain ⟨loaded, hload, hjudge⟩ := htold
    exact ⟨loaded, hload, told, hjudge⟩
  obtain ⟨loaded, hloaded⟩ := forall₂_of_forall fun change hchange => (hscanned change hchange).imp fun _ h => h.1
  have hload := (mapM_ok_iff _ _ _).mpr hloaded
  have hjudged : ∀ change ∈ loaded, ∃ told, db.judge doubles bare auth change = .ok told := by
    intro change hchange
    obtain ⟨source, hsource, hfrom⟩ := (mem_of_mapM_ok hload).1 change hchange
    obtain ⟨_, hagain, hjudge⟩ := hscanned source hsource
    rw [hfrom] at hagain
    cases hagain
    exact hjudge
  rw [← h.loadSyncChanges_eq] at hload
  obtain ⟨page, hpage⟩ := @examine_ok _ _ _ _ limit ⟨[], after, false⟩ _ hjudged
  have hlimit' : (!(decide (limit = 0) || decide (limit > 1000))) = true := by
    simp only [Bool.not_eq_true', Bool.or_eq_false_iff, decide_eq_false_iff_not]
    omega
  refine ⟨{ page with hasMore := page.hasMore || page.cursor < db.sync.latestSequence }, ?_⟩
  simp only [Database.syncPull, bind_ok_iff, require_ok_iff, pure_ok_iff]
  exact ⟨(), hlimit', loaded, hload, page, hpage, rfl⟩

end Pull

section Pages
variable {asked : List Nat} {pages : List SyncPullResult}

def lastCursor : Nat → List SyncPullResult → Nat
  | after, [] => after
  | _, page :: rest => lastCursor page.cursor rest

theorem visible_append (db : Database) (changes more : List ChangeRow) :
    db.visible doubles reader bare auth (changes ++ more) =
      db.visible doubles reader bare auth changes ++ db.visible doubles reader bare auth more :=
  List.filterMap_append

/-- Pages one after the other take the changes behind the first cursor up to some point. -/
theorem pullPages_taken (h : db.sync.Numbered)
    (hpages : db.pullPages doubles reader limits bare auth after asked = .ok pages) :
    ∃ taken rest, db.sync.changes.drop after = taken ++ rest ∧
      pages.flatMap (·.changes) = db.visible doubles reader bare auth taken ∧
      lastCursor after pages = after+taken.length ∧ (rest ≠ [] → asked.length ≤ taken.length) ∧
      ∀ page ∈ pages, page.hasMore = false → rest = [] := by
  induction asked generalizing after pages with
  | nil =>
    cases hpages
    exact ⟨[], db.sync.changes.drop after, rfl, rfl, rfl, fun _ => Nat.le_refl 0, by simp⟩
  | cons limit asked ih =>
    simp only [Database.pullPages, bind_ok_iff, pure_ok_iff] at hpages
    obtain ⟨page, hpage, more, hmore, rfl⟩ := hpages
    obtain ⟨taken, rest, hdrop, hchanges, hcursor, hasMore, hprogress⟩ := syncPull_taken h hpage
    obtain ⟨takenMore, left, hrest, hmoreChanges, hlast, hcount, hend⟩ := ih hmore
    have hbehind : db.sync.changes.drop page.cursor = rest := by
      rw [hcursor, ← List.drop_drop, hdrop, List.drop_left]
    rw [hbehind] at hrest
    refine ⟨taken ++ takenMore, left, ?_, ?_, ?_, ?_, ?_⟩
    · rw [hdrop, hrest, List.append_assoc]
    · rw [List.flatMap_cons, hchanges, hmoreChanges, visible_append]
    · rw [lastCursor, hlast, hcursor, List.length_append, Nat.add_assoc]
    · intro hleft
      have hne : rest ≠ [] := by
        rw [hrest]
        exact List.append_ne_nil_of_right_ne_nil _ hleft
      have hfirst := List.length_pos_iff.mpr (hprogress hne)
      have hothers := hcount hleft
      rw [List.length_cons, List.length_append]
      omega
    · intro page' hpage' hdone
      obtain rfl | hpage' := List.mem_cons.mp hpage'
      · rw [hasMore] at hdone
        have hempty : rest = [] := by simpa using hdone
        exact (List.append_eq_nil_iff.mp (hrest.symm.trans hempty)).2
      · exact hend page' hpage' hdone

/-- The changes from one sequence to another are a part of the log. -/
theorem SyncTables.Numbered.filter_between (h : db.sync.Numbered) {taken rest : List ChangeRow}
    (hdrop : db.sync.changes.drop after = taken ++ rest) :
    (db.sync.changes.filter fun change =>
      after < change.sequence ∧ change.sequence ≤ after+taken.length) = taken := by
  have hsequences := h.sequences_drop after
  rw [hdrop, List.map_append, List.length_append, ← List.range'_append_1] at hsequences
  obtain ⟨htaken, hrest⟩ := List.append_inj hsequences (by simp)
  have hkept : taken.filter (fun change => change.sequence ≤ after+taken.length) = taken := by
    refine List.filter_eq_self.mpr fun change hchange => ?_
    have hmem : change.sequence ∈ taken.map ChangeRow.sequence := List.mem_map_of_mem hchange
    rw [htaken, List.mem_range'_1] at hmem
    exact decide_eq_true (by omega)
  have hgone : rest.filter (fun change => change.sequence ≤ after+taken.length) = [] := by
    refine List.filter_eq_nil_iff.mpr fun change hchange => ?_
    have hmem : change.sequence ∈ rest.map ChangeRow.sequence := List.mem_map_of_mem hchange
    rw [hrest, List.mem_range'_1] at hmem
    rw [decide_eq_true_eq]
    omega
  calc (db.sync.changes.filter fun change => after < change.sequence ∧ change.sequence ≤ after+taken.length)
      = (db.sync.changes.filter (after < ·.sequence)).filter (·.sequence ≤ after+taken.length) := by
        rw [List.filter_filter]
        exact List.filter_congr fun change _ => by simp [Bool.and_comm]
    _ = taken := by rw [h.filter_sequence, hdrop, List.filter_append, hkept, hgone, List.append_nil]

theorem tell_sequence {change : ChangeRow} {told : SyncChange} {seen : Bool}
    (h : db.tell doubles reader bare auth change = .ok (told, seen)) : told.sequence = change.sequence := by
  simp only [Database.tell, Database.judge, bind_ok_iff, pure_ok_iff, Prod.mk.injEq] at h
  obtain ⟨loaded, hload, _, -, _, -, rfl, -⟩ := h
  have hloaded : loaded.sequence = change.sequence := loadSyncChange_sequence hload
  exact hloaded

/-- Changes are told in the order of their sequences, and none twice. -/
theorem pairwise_visible {changes : List ChangeRow} (h : changes.Pairwise (·.sequence < ·.sequence)) :
    (db.visible doubles reader bare auth changes).Pairwise (·.sequence < ·.sequence) := by
  refine List.Pairwise.filterMap _ ?_ h
  intro change change' hlt told htold told' htold'
  have hsame {change : ChangeRow} {told : SyncChange}
      (h : (match db.tell doubles reader bare auth change with
        | .ok (told, true) => some told
        | _ => none) = some told) : told.sequence = change.sequence := by
    split at h
    · rename_i htell
      cases h
      exact tell_sequence htell
    · cases h
  rw [hsame htold, hsame htold']
  exact hlt

theorem SyncTables.Numbered.pairwise (h : db.sync.Numbered) (after : Nat) :
    (db.sync.changes.drop after).Pairwise (·.sequence < ·.sequence) := by
  have hpairs : ((db.sync.changes.drop after).map ChangeRow.sequence).Pairwise (· < ·) := by
    rw [h.sequences_drop]
    exact List.pairwise_lt_range' 1
  exact List.pairwise_map.mp hpairs

end Pages

/-- Following the cursors of the pages tells every visible change behind the first cursor once and in order; every page
advances or is the last, and it is the last exactly when its cursor is not behind the log. -/
theorem pages_complete (doubles : Doubles) (reader : JsonReader) (limits : ExecutionLimits) (bare : Verdict)
    (auth : AuthContext) (db : Database) (h : db.sync.Numbered) :
    (∀ after limit page, db.syncPull doubles reader limits bare auth after limit = .ok page →
      (after < page.cursor ∨ page.hasMore = false) ∧
      (page.hasMore = false ↔ db.sync.latestSequence ≤ page.cursor) ∧
      (after ≤ db.sync.latestSequence → (page.hasMore = false ↔ page.cursor = db.sync.latestSequence))) ∧
    (∀ after asked pages, db.pullPages doubles reader limits bare auth after asked = .ok pages →
      pages.flatMap (·.changes) = db.visible doubles reader bare auth (db.sync.changes.filter fun change =>
        after < change.sequence ∧ change.sequence ≤ lastCursor after pages) ∧
      (pages.flatMap (·.changes)).Pairwise (·.sequence < ·.sequence) ∧
      ((∃ page ∈ pages, page.hasMore = false) ∨ db.sync.latestSequence < after+asked.length →
        pages.flatMap (·.changes) =
          db.visible doubles reader bare auth (db.sync.changes.filter (after < ·.sequence)))) ∧
    ∀ after asked, (∀ limit ∈ asked, 0 < limit ∧ limit ≤ 1000) →
      (∀ change ∈ db.sync.changes, after < change.sequence →
        ∃ told, db.tell doubles reader bare auth change = .ok told) →
      ∃ pages, db.pullPages doubles reader limits bare auth after asked = .ok pages := by
  refine ⟨?_, ?_, ?_⟩
  · intro after limit page hpage
    obtain ⟨hadvances, hdone⟩ := syncPull_advances h hpage
    refine ⟨hadvances, hdone, fun hafter => hdone.trans ?_⟩
    obtain ⟨taken, rest, hdrop, -, hcursor, -, -⟩ := syncPull_taken h hpage
    have hlength := congrArg List.length hdrop
    rw [List.length_append, List.length_drop, ← h.latestSequence_eq] at hlength
    constructor <;> omega
  · intro after asked pages hpages
    obtain ⟨taken, rest, hdrop, hchanges, hlast, hcount, hend⟩ := pullPages_taken h hpages
    have hordered := h.pairwise after
    rw [hdrop] at hordered
    refine ⟨?_, ?_, ?_⟩
    · rw [hchanges, hlast, h.filter_between hdrop]
    · rw [hchanges]
      exact pairwise_visible (List.pairwise_append.mp hordered).1
    · intro hdone
      have hrest : rest = [] := by
        obtain ⟨page, hpage, hmore⟩ | hmany := hdone
        · exact hend page hpage hmore
        · by_contra hne
          have hlength := congrArg List.length hdrop
          have hbound := hcount hne
          have hpositive := List.length_pos_iff.mpr hne
          rw [List.length_append, List.length_drop, ← h.latestSequence_eq] at hlength
          omega
      rw [hchanges, h.filter_sequence, hdrop, hrest, List.append_nil]
  · intro after asked hasked htell
    induction asked generalizing after with
    | nil => exact ⟨[], rfl⟩
    | cons limit asked ih =>
      obtain ⟨page, hpage⟩ := @syncPull_ok _ _ limits _ _ _ _ _ h (hasked limit (by simp)) htell
      have hbehind : after ≤ page.cursor := by
        obtain ⟨taken, _, -, -, hcursor, -⟩ := syncPull_taken h hpage
        omega
      obtain ⟨pages, hpages⟩ := ih page.cursor (fun limit hlimit => hasked limit (List.mem_cons_of_mem _ hlimit))
        fun change hchange hlt => htell change hchange (by omega)
      refine ⟨page :: pages, ?_⟩
      simp only [Database.pullPages, bind_ok_iff, pure_ok_iff]
      exact ⟨page, hpage, pages, hpages, rfl⟩

section Sample

def rewritten : Database :=
  (followStep sampleDoubles firstKeyReader sampleLimits ownerVerdict author (ownedDocuments, firstFollower)
    (.write firstRequest
      [.write (.update documents ⟨1, documentRow 1 "me"⟩ (documentRow 1 "me") false), .fire])).1

theorem rewritten_pulled :
    ∃ pages,
      rewritten.pullPages sampleDoubles firstKeyReader sampleLimits ownerVerdict author 0 [1, 1] = .ok pages ∧
      pages.flatMap (·.changes) = rewritten.visible sampleDoubles firstKeyReader ownerVerdict author
        (rewritten.sync.changes.filter (0 < ·.sequence)) := by
  have hnumbered : rewritten.sync.Numbered := ⟨by decide +kernel, by decide +kernel⟩
  have hok : (rewritten.pullPages sampleDoubles firstKeyReader sampleLimits ownerVerdict author 0
      [1, 1]).toOption.isSome = true := by decide +kernel
  obtain ⟨pages, hpages⟩ := exists_ok_of_toOption hok
  have htold := (pages_complete sampleDoubles firstKeyReader sampleLimits ownerVerdict author rewritten
    hnumbered).2.1 0 [1, 1] pages hpages
  exact ⟨pages, hpages, htold.2.2 (.inr (by decide +kernel))⟩

/-- A cursor from a later state of the database, which a restored one accepts, stays where it is and is told that there
is no more. -/
theorem cursor_beyond_log :
    ({} : Database).sync.Numbered ∧ ({} : Database).sync.latestSequence = 0 ∧
      ({} : Database).syncPull sampleDoubles firstKeyReader sampleLimits ownerVerdict author 5 1 =
        .ok ⟨[], 5, false⟩ :=
  ⟨⟨rfl, rfl⟩, rfl, rfl⟩

end Sample

end Ffdb.Runtime
