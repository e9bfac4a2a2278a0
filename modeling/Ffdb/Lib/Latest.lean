import Mathlib.Data.List.Induction
import Mathlib.Tactic.Linarith

/-! A register that shows the newest of the items put into it. An item takes the place of another only if it is
newer, for a relation that is transitive but need not be total. -/
namespace Latest
variable {α : Type*} (newer : α → α → Prop) [DecidableRel newer]

def put (shown : Option α) (item : α) : Option α :=
  match shown with
  | none => some item
  | some current => if newer item current then some item else some current

def shown (items : List α) : Option α := items.foldl (put newer) none

def Unsurpassed (items : List α) (item : α) : Prop := item ∈ items ∧ ∀ other ∈ items, ¬newer other item

variable {newer} {items : List α} {item : α}

theorem shown_append (items more : List α) : shown newer (items ++ more) = more.foldl (put newer) (shown newer items) :=
  List.foldl_append

theorem shown_snoc (items : List α) (item : α) : shown newer (items ++ [item]) = put newer (shown newer items) item :=
  shown_append items [item]

theorem shown_eq_none_iff : shown newer items = none ↔ items = [] := by
  constructor
  · intro h
    obtain rfl | ⟨items, last, rfl⟩ := items.eq_nil_or_concat
    · rfl
    · rw [List.concat_eq_append, shown_snoc] at h
      cases hbefore : shown newer items with
      | none => simp [hbefore, put] at h
      | some current =>
        rw [hbefore] at h
        by_cases hnewer : newer last current <;> simp [put, hnewer] at h
  · rintro rfl
    rfl

theorem unsurpassed_of_shown (hirrefl : ∀ a, ¬newer a a) (htrans : ∀ a b c, newer a b → newer b c → newer a c)
    (h : shown newer items = some item) : Unsurpassed newer items item := by
  induction items using List.reverseRecOn generalizing item with
  | nil => cases h
  | append_singleton items last ih =>
    rw [shown_snoc] at h
    cases hbefore : shown newer items with
    | none =>
      rw [hbefore] at h
      obtain rfl := Option.some.inj h
      obtain rfl := shown_eq_none_iff.mp hbefore
      refine ⟨by simp, ?_⟩
      intro other hother
      obtain rfl : other = last := by simpa using hother
      exact hirrefl other
    | some current =>
      rw [hbefore] at h
      obtain ⟨hmem, hnone⟩ := ih hbefore
      dsimp only [put] at h
      by_cases hnewer : newer last current
      · rw [if_pos hnewer] at h
        obtain rfl := Option.some.inj h
        refine ⟨by simp, ?_⟩
        intro other hother hagain
        obtain hother | hother := List.mem_append.mp hother
        · exact hnone other hother (htrans other last current hagain hnewer)
        · obtain rfl : other = last := by simpa using hother
          exact hirrefl other hagain
      · rw [if_neg hnewer] at h
        obtain rfl := Option.some.inj h
        refine ⟨by simp [hmem], ?_⟩
        intro other hother
        obtain hother | hother := List.mem_append.mp hother
        · exact hnone other hother
        · obtain rfl : other = last := by simpa using hother
          exact hnewer

end Latest
