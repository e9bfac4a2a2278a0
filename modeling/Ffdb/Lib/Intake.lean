import Mathlib.Data.List.Pairwise
import Ffdb.Lib.Machine

/-! Systems that events are delivered to, each under a key and with a place in a stream. Such a system is
described by the events that it has applied so far: one of them is applied once and in the order of its stream,
what it does not apply changes nothing, and what was applied before is recognized. -/
namespace Intake
variable {σ ι ο κ ς δ : Type*}

structure Notice (κ ς δ : Type*) where
  key : κ
  stream : ς
  sequence : Nat
  digest : δ

/-- A system: what an input does and answers, what is delivered by it, and which answers mean that it was applied. -/
structure Consumer (σ ι ο κ ς δ : Type*) where
  step : σ → ι → σ × ο
  notice : ι → Option (Notice κ ς δ)
  applies : ο → Bool
  /-- The answer to a delivery that was applied before. -/
  replay : ο

namespace Consumer
variable (consumer : Consumer σ ι ο κ ς δ)

def run : σ → List ι → σ × List ο
  | s, [] => (s, [])
  | s, i :: rest => ((run (consumer.step s i).1 rest).1, (consumer.step s i).2 :: (run (consumer.step s i).1 rest).2)

def takes (s : σ) (i : ι) : Bool := (consumer.notice i).isSome && consumer.applies (consumer.step s i).2

def taken : σ → List ι → List ι
  | _, [] => []
  | s, i :: rest =>
    if consumer.takes s i then i :: taken (consumer.step s i).1 rest else taken (consumer.step s i).1 rest

/-- A system keeps to the events it has applied. `holds` says what they are in a state. -/
structure Lawful (holds : σ → List ι → Prop) : Prop where
  other : ∀ {s h i}, holds s h → consumer.notice i = none → holds (consumer.step s i).1 h
  applied : ∀ {s h i e}, holds s h → consumer.notice i = some e → consumer.applies (consumer.step s i).2 = true →
    holds (consumer.step s i).1 (h ++ [i]) ∧ ∀ j ∈ h, ∀ e', consumer.notice j = some e' →
      e'.key ≠ e.key ∧ (e'.stream = e.stream → e'.sequence < e.sequence)
  refused : ∀ {s h i e}, holds s h → consumer.notice i = some e → consumer.applies (consumer.step s i).2 = false →
    (consumer.step s i).1 = s
  again : ∀ {s h i j}, holds s h → j ∈ h → consumer.notice i = consumer.notice j →
    consumer.step s i = (s, consumer.replay)

variable {consumer} {holds : σ → List ι → Prop} {s : σ} {h : List ι}

/-- One input keeps the account of what was applied. -/
theorem Lawful.step (hlawful : consumer.Lawful holds) (hs : holds s h) (i : ι) :
    holds (consumer.step s i).1 (if consumer.takes s i then h ++ [i] else h) := by
  cases hnotice : consumer.notice i with
  | none =>
    have htakes : consumer.takes s i = false := by simp [takes, hnotice]
    rw [htakes]
    exact hlawful.other hs hnotice
  | some e =>
    cases happlies : consumer.applies (consumer.step s i).2 with
    | true =>
      have htakes : consumer.takes s i = true := by simp [takes, hnotice, happlies]
      rw [htakes]
      exact (hlawful.applied hs hnotice happlies).1
    | false =>
      have htakes : consumer.takes s i = false := by simp [takes, happlies]
      rw [htakes, hlawful.refused hs hnotice happlies]
      exact hs

theorem Lawful.run (hlawful : consumer.Lawful holds) (hs : holds s h) (is : List ι) :
    holds (consumer.run s is).1 (h ++ consumer.taken s is) := by
  induction is generalizing s h with
  | nil => simpa [Consumer.run, taken] using hs
  | cons i is ih =>
    have hrest := ih (hlawful.step hs i)
    rw [taken]
    by_cases htakes : consumer.takes s i = true
    · rw [if_pos htakes] at hrest ⊢
      rwa [List.append_assoc] at hrest
    · rw [if_neg htakes] at hrest ⊢
      exact hrest

def Precedes (consumer : Consumer σ ι ο κ ς δ) (j i : ι) : Prop :=
  ∀ e' e, consumer.notice j = some e' → consumer.notice i = some e →
    e'.key ≠ e.key ∧ (e'.stream = e.stream → e'.sequence < e.sequence)

/-- No two events of a run that are applied have one key, and those of one stream are applied in order. -/
theorem Lawful.pairwise_taken (hlawful : consumer.Lawful holds) (hs : holds s h) (hbefore : h.Pairwise consumer.Precedes)
    (is : List ι) : (h ++ consumer.taken s is).Pairwise consumer.Precedes := by
  induction is generalizing s h with
  | nil => simpa [taken] using hbefore
  | cons i is ih =>
    have hnext := hlawful.step hs i
    rw [taken]
    by_cases htakes : consumer.takes s i = true
    · rw [if_pos htakes] at hnext ⊢
      have hlast : (h ++ [i]).Pairwise consumer.Precedes := by
        refine List.pairwise_append.mpr ⟨hbefore, List.pairwise_singleton _ _, ?_⟩
        intro j hj i' hi' e' e he' he
        obtain rfl := List.mem_singleton.mp hi'
        have happlies : consumer.applies (consumer.step s i').2 = true := (Bool.and_eq_true_iff.mp htakes).2
        exact (hlawful.applied hs he happlies).2 j hj e' he'
      have hall := ih hnext hlast
      rwa [List.append_assoc] at hall
    · rw [if_neg htakes] at hnext ⊢
      exact ih hnext hbefore

/-- Each delivery that is marked is of an event that was applied before in the run. -/
def Repeated (consumer : Consumer σ ι ο κ ς δ) : σ → List ι → List (ι × Bool) → Prop
  | _, _, [] => True
  | s, h, (i, true) :: rest =>
    (∃ j ∈ h, consumer.notice i = consumer.notice j) ∧ Repeated consumer (consumer.step s i).1 h rest
  | s, h, (i, false) :: rest =>
    Repeated consumer (consumer.step s i).1 (if consumer.takes s i then h ++ [i] else h) rest

def unmarked (inputs : List (ι × Bool)) : List ι := (inputs.filter fun input => !input.2).map (·.1)

/-- Deliveries that come again change neither the end of a run nor what the others are answered, wherever they
are put in. -/
theorem Lawful.repeated (hlawful : consumer.Lawful holds) (hs : holds s h) {inputs : List (ι × Bool)}
    (hrepeated : consumer.Repeated s h inputs) :
    (consumer.run s (inputs.map (·.1))).1 = (consumer.run s (unmarked inputs)).1 ∧
      (((inputs.map (·.2)).zip (consumer.run s (inputs.map (·.1))).2).filter fun answer => !answer.1).map (·.2) =
        (consumer.run s (unmarked inputs)).2 ∧
      ∀ answer ∈ (inputs.map (·.2)).zip (consumer.run s (inputs.map (·.1))).2, answer.1 = true →
        answer.2 = consumer.replay := by
  induction inputs generalizing s h with
  | nil => exact ⟨rfl, rfl, fun _ hfalse => nomatch hfalse⟩
  | cons input inputs ih =>
    obtain ⟨i, marked⟩ := input
    cases marked with
    | true =>
      obtain ⟨⟨j, hmem, hsame⟩, hrest⟩ := hrepeated
      have hagain := hlawful.again hs hmem hsame
      have hstate : (consumer.step s i).1 = s := by rw [hagain]
      rw [hstate] at hrest
      obtain ⟨hend, hothers, hmarked⟩ := ih hs hrest
      simp only [List.map_cons, Consumer.run, hagain]
      refine ⟨hend, hothers, ?_⟩
      intro answer hanswer htrue
      obtain rfl | hanswer := List.mem_cons.mp hanswer
      · rfl
      · exact hmarked answer hanswer htrue
    | false =>
      obtain ⟨hend, hothers, hmarked⟩ := ih (hlawful.step hs i) hrepeated
      refine ⟨hend, congrArg _ hothers, ?_⟩
      intro answer hanswer htrue
      obtain rfl | hanswer := List.mem_cons.mp hanswer
      · cases htrue
      · exact hmarked answer hanswer htrue

structure OnceInOrder (consumer : Consumer σ ι ο κ ς δ) (s : σ) : Prop where
  once : ∀ is, (consumer.taken s is).Pairwise consumer.Precedes
  unchanged : ∀ is i, (consumer.notice i).isSome = true →
    consumer.applies (consumer.step (consumer.run s is).1 i).2 = false →
    (consumer.step (consumer.run s is).1 i).1 = (consumer.run s is).1
  repeated : ∀ inputs, consumer.Repeated s [] inputs →
    (consumer.run s (inputs.map (·.1))).1 = (consumer.run s (unmarked inputs)).1 ∧
      (((inputs.map (·.2)).zip (consumer.run s (inputs.map (·.1))).2).filter fun answer => !answer.1).map (·.2) =
        (consumer.run s (unmarked inputs)).2 ∧
      ∀ answer ∈ (inputs.map (·.2)).zip (consumer.run s (inputs.map (·.1))).2, answer.1 = true →
        answer.2 = consumer.replay

theorem Lawful.onceInOrder (hlawful : consumer.Lawful holds) (hs : holds s []) : consumer.OnceInOrder s where
  once := fun is => hlawful.pairwise_taken hs List.Pairwise.nil is
  unchanged := by
    intro is i hsome hfalse
    obtain ⟨e, he⟩ := Option.isSome_iff_exists.mp hsome
    exact hlawful.refused (hlawful.run hs is) he hfalse
  repeated := fun _ hrepeated => hlawful.repeated hs hrepeated

end Consumer

end Intake
