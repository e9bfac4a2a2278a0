import Ffdb.Client.Queue
import Ffdb.Client.Runs

/-! Pages of changes that are delivered again: the rows do not depend on it once the replica has got as far as before. -/
namespace Ffdb.Client
open Turns Sync

def LogicalChange.under (js : Js) (change : LogicalChange) (key : String) : Option (Option ReplicaRecord) :=
  if key = change.rowKey js then some change.row
  else if key = replicaKey js change.table change.primaryKey then some none
  else none

abbrev Word := Option (Int × Option ReplicaRecord)

def lastWord (js : Js) (key : String) : List LogicalChange → Word
  | [] => none
  | change :: changes => (lastWord js key changes).or ((change.under js key).map (change.sequence, ·))

def Word.put (existing : Option ReplicaRecord) (word : Word) : Option ReplicaRecord :=
  match word with
  | none => existing
  | some (sequence, row) => if existing.all (·.serverSequence ≤ sequence) then row else existing

section Keys
variable {js : Js} {key : String} {change : LogicalChange} {changes : List LogicalChange}

theorem lastWord_append (earlier later : List LogicalChange) :
    lastWord js key (earlier ++ later) = (lastWord js key later).or (lastWord js key earlier) := by
  induction earlier with
  | nil => simp [lastWord]
  | cons change earlier ih => rw [List.cons_append, lastWord, ih, lastWord, Option.or_assoc]

theorem getElem?_putRow (rows : Map ReplicaRecord) (other : String) (sequence : Int) (row : Option ReplicaRecord) :
    (putRow rows other sequence row)[key]? =
      if key = other then Word.put rows[key]? (some (sequence, row)) else rows[key]? := by
  unfold putRow Word.put
  by_cases hkey : key = other
  · subst hkey
    rw [if_pos rfl]
    dsimp only
    split
    · rw [getElem?_setRow, if_pos rfl]
    · rfl
  · rw [if_neg hkey]
    split
    · rw [getElem?_setRow, if_neg (Ne.symm hkey)]
    · rfl

theorem getElem?_receiveChange (rows : Map ReplicaRecord) :
    (receiveChange js rows change)[key]? =
      Word.put rows[key]? ((change.under js key).map (change.sequence, ·)) := by
  have hkeys : change.rowKey js = replicaKey js change.table change.primaryKey ↔
      stableJson js (normalizePrimaryKey change.primaryKey) = stableJson js change.primaryKey := by
    unfold LogicalChange.rowKey replicaKey
    exact String.append_right_inj _
  unfold receiveChange LogicalChange.under
  rw [getElem?_putRow]
  by_cases hkey : key = change.rowKey js
  · rw [if_pos hkey, if_pos hkey]
    split
    · rfl
    next hlegacy =>
      rw [getElem?_putRow, if_neg]
      · rfl
      · exact fun hsame => hlegacy (hkeys.mp (hkey.symm.trans hsame))
  · rw [if_neg hkey, if_neg hkey]
    split
    next hlegacy =>
      rw [if_neg fun hsame => hkey (hsame.trans (hkeys.mpr hlegacy).symm)]
      rfl
    · rw [getElem?_putRow]
      split <;> rfl

def Word.Dated (word : Word) : Prop := ∀ sequence row, word = some (sequence, some row) → row.serverSequence = sequence

theorem dated_under : Word.Dated ((change.under js key).map (change.sequence, ·)) := by
  intro sequence row h
  obtain ⟨row', hunder, hpair⟩ := Option.map_eq_some_iff.mp h
  obtain ⟨rfl, rfl⟩ := Prod.mk.inj hpair
  unfold LogicalChange.under at hunder
  split at hunder
  · replace hunder := Option.some.inj hunder
    unfold LogicalChange.row at hunder
    split at hunder
    · cases hunder
    · cases hunder
    · rw [← Option.some.inj hunder]
  · split at hunder
    · cases Option.some.inj hunder
    · cases hunder

theorem dated_lastWord : Word.Dated (lastWord js key changes) := by
  induction changes with
  | nil =>
    intro sequence row h
    cases h
  | cons change changes ih =>
    rw [lastWord]
    cases hlast : lastWord js key changes with
    | none =>
      rw [Option.none_or]
      exact dated_under
    | some word =>
      rw [Option.some_or, ← hlast]
      exact ih

theorem sequence_lastWord {word : Int × Option ReplicaRecord} (h : lastWord js key changes = some word) :
    ∃ change ∈ changes, word.1 = change.sequence := by
  induction changes with
  | nil => cases h
  | cons change changes ih =>
    rw [lastWord] at h
    cases hlast : lastWord js key changes with
    | none =>
      rw [hlast, Option.none_or] at h
      obtain ⟨row, -, rfl⟩ := Option.map_eq_some_iff.mp h
      exact ⟨change, List.mem_cons_self, rfl⟩
    | some word' =>
      rw [hlast, Option.some_or] at h
      obtain ⟨other, hmem, heq⟩ := ih (hlast.trans h)
      exact ⟨other, List.mem_cons_of_mem change hmem, heq⟩

/-- An earlier word does not matter once a later one was said. -/
theorem Word.put_put {existing row row' : Option ReplicaRecord} {sequence sequence' : Int}
    (hdated : Word.Dated (some (sequence, row))) (hle : sequence ≤ sequence') :
    Word.put (Word.put existing (some (sequence, row))) (some (sequence', row')) =
      Word.put existing (some (sequence', row')) := by
  have hrow : row.all (·.serverSequence ≤ sequence') = true := by
    cases row with
    | none => rfl
    | some row => exact decide_eq_true ((hdated sequence row rfl).trans_le hle)
  have hput (e row : Option ReplicaRecord) (s : Int) :
      Word.put e (some (s, row)) = if e.all (·.serverSequence ≤ s) then row else e := rfl
  by_cases hold : existing.all (·.serverSequence ≤ sequence) = true
  · have hold' : existing.all (·.serverSequence ≤ sequence') = true := by
      cases existing with
      | none => rfl
      | some existing => exact decide_eq_true ((of_decide_eq_true hold).trans hle)
    rw [hput existing row, if_pos hold, hput, if_pos hrow, hput, if_pos hold']
  · rw [hput existing row, if_neg hold]

/-- Changes in their order leave what was said last. -/
theorem getElem?_receiveChanges (hsorted : changes.Pairwise (·.sequence ≤ ·.sequence)) (rows : Map ReplicaRecord) :
    (changes.foldl (receiveChange js) rows)[key]? = Word.put rows[key]? (lastWord js key changes) := by
  induction changes generalizing rows with
  | nil => rfl
  | cons change changes ih =>
    obtain ⟨hfirst, hsorted⟩ := List.pairwise_cons.mp hsorted
    rw [List.foldl_cons, ih hsorted, getElem?_receiveChange, lastWord]
    cases hlast : lastWord js key changes with
    | none => rw [Option.none_or, Word.put]
    | some word =>
      obtain ⟨sequence, row⟩ := word
      obtain ⟨other, hmem, rfl⟩ := sequence_lastWord hlast
      rw [Option.some_or]
      cases hunder : change.under js key with
      | none => rfl
      | some row' =>
        have hdated := @dated_under js key change
        rw [hunder] at hdated
        exact Word.put_put hdated (hfirst other hmem)

end Keys

section Words
variable {existing current target : Option ReplicaRecord} {word later : Word}

/-- Whatever is there now, the word is going to replace it, as it would have replaced what was there at first. -/
def Word.Replaces (word : Word) (existing current : Option ReplicaRecord) : Prop :=
  ∃ sequence row, word = some (sequence, row) ∧ existing.all (·.serverSequence ≤ sequence) = true ∧
    current.all (·.serverSequence ≤ sequence) = true

theorem Word.put_all {sequence : Int} (hdated : word.Dated) (hle : ∀ s row, word = some (s, row) → s ≤ sequence)
    (h : current.all (·.serverSequence ≤ sequence) = true) :
    (Word.put current word).all (·.serverSequence ≤ sequence) = true := by
  unfold Word.put
  cases word with
  | none => exact h
  | some said =>
    obtain ⟨s, row⟩ := said
    dsimp only
    split
    · cases row with
      | none => rfl
      | some row => exact decide_eq_true ((hdated s row rfl).trans_le (hle s _ rfl))
    · exact h

theorem Word.put_some (existing row : Option ReplicaRecord) (sequence : Int) :
    Word.put existing (some (sequence, row)) = if existing.all (·.serverSequence ≤ sequence) then row else existing := rfl

/-- A word is said again, and a later one may follow. -/
theorem Word.said_again (hdated : word.Dated) (hlaterDated : later.Dated)
    (hordered : ∀ s row s' row', word = some (s, row) → later = some (s', row') → s ≤ s')
    (htarget : ∀ said, later.or word = some said → target = Word.put existing (some said))
    (h : current = target ∨ Word.Replaces (later.or word) existing current) :
    Word.put current word = target ∨ later.Replaces existing (Word.put current word) := by
  cases hword : word with
  | none =>
    rw [hword, Option.or_none] at h
    exact h
  | some said =>
    obtain ⟨s, row⟩ := said
    rw [← hword]
    cases hlater : later with
    | none =>
      rw [hlater, Option.none_or] at h htarget
      refine .inl ?_
      obtain rfl | ⟨s', row', hsaid, hold, hnow⟩ := h
      · rw [htarget _ hword, hword]
        exact Word.put_put (hword ▸ hdated) (Int.le_refl s)
      · rw [htarget _ hsaid, hsaid, Word.put_some, Word.put_some, if_pos hold, if_pos hnow]
    | some last =>
      obtain ⟨s', row'⟩ := last
      rw [hlater, Option.some_or] at h htarget
      have hle := hordered s row s' row' hword hlater
      have hput := htarget _ rfl
      rw [Word.put_some] at hput
      by_cases hold : existing.all (·.serverSequence ≤ s') = true
      · rw [if_pos hold] at hput
        refine .inr ⟨s', row', rfl, hold, Word.put_all hdated ?_ ?_⟩
        · intro s₁ row₁ h₁
          exact hordered s₁ row₁ s' row' h₁ hlater
        · obtain rfl | ⟨s₁, row₁, hsame, -, hnow⟩ := h
          · rw [hput]
            cases hrow : row' with
            | none => rfl
            | some last => exact decide_eq_true (hlaterDated s' last (by rw [hlater, hrow])).le
          · obtain ⟨rfl, -⟩ := Prod.mk.inj (Option.some.inj hsame)
            exact hnow
      · rw [if_neg hold] at hput
        refine .inl ?_
        obtain rfl | ⟨s₁, row₁, hsame, hold₁, -⟩ := h
        · rw [hput, hword, Word.put_some, if_neg fun hearly => hold ?_]
          cases existing with
          | none => rfl
          | some existing => exact decide_eq_true ((of_decide_eq_true hearly).trans hle)
        · obtain ⟨rfl, -⟩ := Prod.mk.inj (Option.some.inj hsame)
          exact absurd hold₁ hold

end Words

/-- What a server tells of its changes, page by page, each with the cursor behind it. -/
structure ServerLog where
  pages : List (List LogicalChange × Position)
  ordered : (pages.flatMap (·.1)).Pairwise (·.sequence ≤ ·.sequence)
  complete : ∀ page ∈ pages, ∀ change ∈ page.1, change.Complete

namespace ServerLog

def between (log : ServerLog) (first last : Nat) : List LogicalChange :=
  ((log.pages.drop first).take (last - first)).flatMap (·.1)

def upTo (log : ServerLog) (count : Nat) : List LogicalChange := log.between 0 count

end ServerLog

/-- A replica that pulls: the page that comes next, and the first one that never came. -/
structure Delivery where
  replica : MemoryReplica
  next : Nat
  furthest : Nat

inductive PullStep where
  | next
  | again (page : Nat)

def deliver (js : Js) (log : ServerLog) (state : Delivery) : PullStep → Delivery
  | .next =>
    match log.pages[state.next]? with
    | none => state
    | some (changes, position) => {
        replica := ((applyPage js changes position).transact (MemoryReplica.perform js) state.replica).1
        next := state.next + 1
        furthest := max state.furthest (state.next + 1) }
  | .again page => { state with next := min page state.next }

section Runs
variable {js : Js} {log : ServerLog} {rows : Map ReplicaRecord} {state : Delivery}

theorem ServerLog.between_self (log : ServerLog) (count : Nat) : log.between count count = [] := by
  unfold ServerLog.between
  rw [Nat.sub_self]
  rfl

theorem ServerLog.between_split {first middle last : Nat} (hfirst : first ≤ middle) (hlast : middle ≤ last) :
    log.between first last = log.between first middle ++ log.between middle last := by
  have hlength : last - first = (middle - first) + (last - middle) := by omega
  unfold ServerLog.between
  rw [← List.flatMap_append, hlength, List.take_add, List.drop_drop, Nat.add_sub_cancel' hfirst]

theorem ServerLog.between_succ {next : Nat} {page : List LogicalChange × Position} (hpage : log.pages[next]? = some page) :
    log.between next (next + 1) = page.1 := by
  obtain ⟨hlt, rfl⟩ := List.getElem?_eq_some_iff.mp hpage
  unfold ServerLog.between
  rw [List.drop_eq_getElem_cons hlt, Nat.add_sub_cancel_left, List.take_succ_cons, List.take_zero, List.flatMap_cons,
    List.flatMap_nil, List.append_nil]

theorem ServerLog.upTo_sorted (log : ServerLog) (count : Nat) :
    (log.upTo count).Pairwise (·.sequence ≤ ·.sequence) := by
  have hsplit : log.pages.flatMap (·.1) = log.upTo count ++ (log.pages.drop count).flatMap (·.1) := by
    unfold ServerLog.upTo ServerLog.between
    rw [List.drop_zero, Nat.sub_zero, ← List.flatMap_append, List.take_append_drop]
  have hordered := log.ordered
  rw [hsplit] at hordered
  exact (List.pairwise_append.mp hordered).1

def Delivery.once (js : Js) (log : ServerLog) (rows : Map ReplicaRecord) (state : Delivery) : Map ReplicaRecord :=
  (log.upTo state.furthest).foldl (receiveChange js) rows

/-- Under each key is what came last so far, or it is going to be replaced by that. -/
structure Delivery.Sound (js : Js) (log : ServerLog) (rows : Map ReplicaRecord) (state : Delivery) : Prop where
  next : state.next ≤ state.furthest
  rows : ∀ key, state.replica.rows[key]? = (state.once js log rows)[key]? ∨
    Word.Replaces (lastWord js key (log.between state.next state.furthest)) rows[key]? state.replica.rows[key]?

theorem Delivery.Sound.caught_up (h : state.Sound js log rows) (hnext : state.next = state.furthest) :
    state.replica.rows = state.once js log rows := by
  refine Std.ExtTreeMap.ext_getElem? fun {key} => ?_
  obtain hsame | ⟨sequence, row, hword, -, -⟩ := h.rows key
  · exact hsame
  · rw [hnext, ServerLog.between_self] at hword
    cases hword

theorem Delivery.Sound.again (h : state.Sound js log rows) (page : Nat) :
    (deliver js log state (.again page)).Sound js log rows where
  next := (Nat.min_le_right _ _).trans h.next
  rows key := by
    refine (h.rows key).imp_right ?_
    rintro ⟨sequence, row, hword, hold, hnow⟩
    refine ⟨sequence, row, ?_, hold, hnow⟩
    have hsplit : log.between (min page state.next) state.furthest =
        log.between (min page state.next) state.next ++ log.between state.next state.furthest :=
      ServerLog.between_split (Nat.min_le_right _ _) h.next
    change lastWord js key (log.between (min page state.next) state.furthest) = _
    rw [hsplit, lastWord_append, hword, Option.some_or]

theorem applyPage_rows {changes : List LogicalChange} {position : Position} (replica : MemoryReplica)
    (hpage : (changes, position) ∈ log.pages) :
    ((applyPage js changes position).transact (MemoryReplica.perform js) replica).1.rows =
      changes.foldl (receiveChange js) replica.rows := by
  unfold Work.transact
  rw [applyPage_run js replica position (log.complete _ hpage)]

theorem Delivery.Sound.next_page (h : state.Sound js log rows) : (deliver js log state .next).Sound js log rows := by
  unfold deliver
  cases hpage : log.pages[state.next]? with
  | none => exact h
  | some page =>
    obtain ⟨changes, position⟩ := page
    have hmem := List.mem_of_getElem? hpage
    refine ⟨Nat.le_max_right _ _, fun key => ?_⟩
    dsimp only
    rw [applyPage_rows _ hmem]
    obtain hbehind | hnew := Nat.lt_or_eq_of_le h.next
    · have hmax : max state.furthest (state.next + 1) = state.furthest := Nat.max_eq_left hbehind
      have hsplit : log.between state.next state.furthest = changes ++ log.between (state.next + 1) state.furthest := by
        rw [ServerLog.between_split (Nat.le_succ _) hbehind, ServerLog.between_succ hpage]
      have hupTo : log.upTo state.furthest =
          log.upTo state.next ++ (changes ++ log.between (state.next + 1) state.furthest) := by
        rw [← hsplit]
        exact ServerLog.between_split (Nat.zero_le _) h.next
      have hsorted := log.upTo_sorted state.furthest
      rw [hupTo] at hsorted
      obtain ⟨hchanges, -, hcross⟩ := List.pairwise_append.mp (List.pairwise_append.mp hsorted).2.1
      have hnow := h.rows key
      rw [hsplit, lastWord_append] at hnow
      rw [getElem?_receiveChanges hchanges]
      unfold Delivery.once
      dsimp only
      rw [hmax]
      refine Word.said_again dated_lastWord dated_lastWord ?_ ?_ hnow
      · intro s row s' row' hword hlater
        obtain ⟨change, hchange, rfl⟩ := sequence_lastWord hword
        obtain ⟨other, hother, rfl⟩ := sequence_lastWord hlater
        exact hcross change hchange other hother
      · intro said hsaid
        rw [getElem?_receiveChanges (log.upTo_sorted _), hupTo, lastWord_append, lastWord_append, hsaid, Option.some_or]
    · refine .inl ?_
      have hupTo : log.upTo (max state.furthest (state.next + 1)) = log.upTo state.furthest ++ changes := by
        rw [hnew, Nat.max_eq_right (Nat.le_succ _)]
        refine (ServerLog.between_split (Nat.zero_le _) (Nat.le_succ _)).trans ?_
        rw [ServerLog.between_succ (hnew ▸ hpage)]
        rfl
      unfold Delivery.once
      dsimp only
      rw [hupTo, List.foldl_append, h.caught_up hnew]
      rfl

theorem Delivery.Sound.run (events : List PullStep) (h : state.Sound js log rows) :
    (Machine.run (deliver js log) state events).Sound js log rows := by
  refine Machine.run_preserves (P := Delivery.Sound js log rows) (fun state event h => ?_) _ events h
  cases event with
  | next => exact h.next_page
  | again page => exact h.again page

end Runs

section Claim

/-- Once a replica has got as far as it ever was, its rows are those of the changes applied once each, in their order,
whatever pages were applied again on the way. -/
theorem pages_applied_again (js : Js) (log : ServerLog) (replica : MemoryReplica) (events : List PullStep) :
    let final := Machine.run (deliver js log) ⟨replica, 0, 0⟩ events
    final.next = final.furthest → final.replica.rows =
      ((Transaction.forEach (applyChange js) (log.upTo final.furthest)).transact (MemoryReplica.perform js) replica).1.rows := by
  intro final hnext
  have hstart : Delivery.Sound js log replica.rows ⟨replica, 0, 0⟩ := ⟨Nat.le_refl 0, fun key => .inl rfl⟩
  rw [(hstart.run events).caught_up hnext]
  have hcomplete : ∀ change ∈ log.upTo final.furthest, change.Complete := by
    intro change hchange
    obtain ⟨page, hpage, hchange⟩ := List.mem_flatMap.mp hchange
    exact log.complete page (List.mem_of_mem_drop (List.mem_of_mem_take hpage)) change hchange
  unfold Work.transact
  rw [forEach_run fun change hmem replica => applyChange_run replica (hcomplete change hmem)]
  rfl

end Claim

section Samples

def noteChange (sequence : Int) (id : String) (operation : ChangeOperation) : LogicalChange where
  sequence := sequence
  table := "notes"
  primaryKey := .string id
  operation := operation
  rowVersion := sequence
  values := if operation = .delete then none else some [("id", .string id)]

def samplePages : List (List LogicalChange × Position) :=
  [([noteChange 1 "a" .insert], ⟨"one", 1⟩), ([noteChange 2 "a" .delete], ⟨"two", 1⟩),
    ([noteChange 3 "b" .insert], ⟨"three", 1⟩), ([noteChange 4 "a" .insert], ⟨"four", 1⟩)]

def sampleLog : ServerLog where
  pages := samplePages
  ordered := by decide
  complete := by
    intro page hpage change hchange
    simp only [samplePages, List.mem_cons, List.not_mem_nil, or_false] at hpage
    obtain rfl | rfl | rfl | rfl := hpage <;> obtain rfl := List.mem_singleton.mp hchange
    · exact .inr (by decide)
    · exact .inl rfl
    · exact .inr (by decide)
    · exact .inr (by decide)

theorem sampleLog_applied_again :
    let final := Machine.run (deliver sampleJs sampleLog) ⟨{}, 0, 0⟩ [.next, .next, .next, .again 0, .next, .next, .next]
    final.next = final.furthest ∧ final.replica.rows =
      ((Transaction.forEach (applyChange sampleJs) (sampleLog.upTo final.furthest)).transact
        (MemoryReplica.perform sampleJs) {}).1.rows := by
  intro final
  have hnext : final.next = final.furthest := by decide +kernel
  exact ⟨hnext, pages_applied_again sampleJs sampleLog {} _ hnext⟩

/-- The first page alone is applied again after the second: the note that was deleted is back. -/
theorem older_page_brings_row_back :
    let apply := fun (replica : MemoryReplica) (page : List LogicalChange × Position) =>
      ((applyPage sampleJs page.1 page.2).transact (MemoryReplica.perform sampleJs) replica).1
    let once := (sampleLog.pages.take 3).foldl apply {}
    let again := (sampleLog.pages.take 2 ++ sampleLog.pages.take 1 ++ (sampleLog.pages.take 3).drop 2).foldl apply {}
    once.rows.size = 1 ∧ again.rows.size = 2 := by
  decide +kernel

end Samples

end Ffdb.Client
