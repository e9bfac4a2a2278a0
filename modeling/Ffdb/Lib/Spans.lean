import Mathlib.Tactic.Linarith

/-! A text is read from its head: what stands there, and how far it goes. Two readers of one text are compared span by
span. -/
namespace Spans
variable {α β γ : Type}

structure Span (α β : Type) where
  kind : β
  text : List α
  rest : List α

section Reading
variable (one : α → List α → β × Nat)

def spansFrom : Nat → List α → List (Span α β)
  | _, [] => []
  | skip+1, _ :: rest => spansFrom skip rest
  | 0, a :: rest =>
    ⟨(one a rest).1, a :: rest.take (one a rest).2, rest.drop (one a rest).2⟩ :: spansFrom (one a rest).2 rest

def spans (text : List α) : List (Span α β) := spansFrom one 0 text

variable {one}

theorem spansFrom_eq (skip : Nat) (text : List α) : spansFrom one skip text = spans one (text.drop skip) := by
  induction text generalizing skip with
  | nil => simp [spansFrom, spans]
  | cons a rest ih =>
    cases skip with
    | zero => rfl
    | succ skip => exact ih skip

theorem spans_cons (a : α) (rest : List α) : spans one (a :: rest) =
    ⟨(one a rest).1, a :: rest.take (one a rest).2, rest.drop (one a rest).2⟩ ::
      spans one (rest.drop (one a rest).2) := by
  rw [← spansFrom_eq]
  rfl

theorem eq_of_mem {text : List α} {span : Span α β} (h : span ∈ spans one text) :
    ∃ a rest, span = ⟨(one a rest).1, a :: rest.take (one a rest).2, rest.drop (one a rest).2⟩ := by
  induction hlength : text.length using Nat.strong_induction_on generalizing text with
  | _ n ih =>
    cases text with
    | nil => cases h
    | cons a rest =>
      rw [spans_cons, List.mem_cons] at h
      obtain rfl | h := h
      · exact ⟨a, rest, rfl⟩
      · apply ih (rest.drop (one a rest).2).length _ h rfl
        rw [List.length_drop, ← hlength, List.length_cons]
        omega

end Reading

section Comparison
variable {one : α → List α → β × Nat} {other : α → List α → List γ × Nat} {good : Span α β → Bool}
  {write : Span α β → List γ}

def written (other : α → List α → List γ × Nat) (text : List α) : List γ := (spans other text).flatMap Span.kind

theorem written_cons (a : α) (rest : List α) :
    written other (a :: rest) = (other a rest).1 ++ written other (rest.drop (other a rest).2) := by
  rw [written, spans_cons]
  rfl

def goodUntil (good : Span α β → Bool) (write : Span α β → List γ) (enough : List γ → Bool) :
    List γ → List (Span α β) → Bool
  | _, [] => true
  | done, span :: spans => enough done || good span && goodUntil good write enough (done ++ write span) spans

/-- A second reader that reads each good span of the first alike makes the same of a text whose spans are good up to
where nothing more counts. -/
theorem made_of_goodUntil {δ : Type} {make : List γ → δ} {enough : List γ → Bool}
    (henough : ∀ done more, enough done = true → make (done ++ more) = make done)
    (h : ∀ a rest, good ⟨(one a rest).1, a :: rest.take (one a rest).2, rest.drop (one a rest).2⟩ = true →
      written other (a :: rest) =
        write ⟨(one a rest).1, a :: rest.take (one a rest).2, rest.drop (one a rest).2⟩ ++
          written other (rest.drop (one a rest).2))
    (done : List γ) (text : List α) (hgood : goodUntil good write enough done (spans one text) = true) :
    make (done ++ written other text) = make (done ++ (spans one text).flatMap write) := by
  induction hlength : text.length using Nat.strong_induction_on generalizing done text with
  | _ n ih =>
    cases text with
    | nil => rfl
    | cons a rest =>
      rw [spans_cons, goodUntil, Bool.or_eq_true, Bool.and_eq_true] at hgood
      obtain hdone | ⟨hspan, hgood⟩ := hgood
      · rw [henough _ _ hdone, henough _ _ hdone]
      · have hshorter : (rest.drop (one a rest).2).length < n := by
          rw [List.length_drop, ← hlength, List.length_cons]
          omega
        have hrest := ih _ hshorter _ (rest.drop (one a rest).2) hgood rfl
        rw [h a rest hspan, spans_cons a rest, List.flatMap_cons, ← List.append_assoc, hrest, List.append_assoc]

end Comparison

end Spans
