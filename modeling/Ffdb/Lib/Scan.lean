import Ffdb.Lib.Fallible

/-! A loop over a text whose body looks at what lies before it and moves the index on.
The characters it passes over are labelled with what the body took them for. -/
namespace Scan
variable {σ ε κ : Type}

/-- One turn of the loop: the next state, how many characters behind the first are passed
over, and the label of all of them. -/
structure Turn (σ κ : Type) where
  state : σ
  skip : Nat
  label : κ

variable (body : σ → Char → List Char → Except ε (Turn σ κ))

/-- The loop with `skip` characters still to be passed over under a label. -/
def loop : σ → κ → Nat → List Char → Except ε (σ × List κ)
  | s, _, _, [] => .ok (s, [])
  | s, label, skip+1, _ :: rest => do
    let (last, labels) ← loop s label skip rest
    pure (last, label :: labels)
  | s, _, 0, c :: rest => do
    let turn ← body s c rest
    let (last, labels) ← loop turn.state turn.label turn.skip rest
    pure (last, turn.label :: labels)

variable {body}

theorem loop_label (s : σ) (label label' : κ) (text : List Char) :
    loop body s label 0 text = loop body s label' 0 text := by
  cases text <;> rfl

theorem loop_skip (s : σ) (label : κ) (skip : Nat) (text : List Char) :
    loop body s label skip text = (loop body s label 0 (text.drop skip)).map
      fun (last, labels) => (last, List.replicate (min skip text.length) label ++ labels) := by
  induction text generalizing skip with
  | nil =>
    cases skip <;> simp [loop, Except.map]
  | cons c rest ih =>
    cases skip with
    | zero =>
      cases hloop : loop body s label 0 (c :: rest) with
      | error e => simp [hloop, Except.map]
      | ok r => simp [hloop, Except.map]
    | succ skip =>
      rw [loop, ih, List.drop_succ_cons]
      cases loop body s label 0 (rest.drop skip) with
      | error e => rfl
      | ok r => simp [Except.map, List.replicate_succ, Nat.succ_min_succ, bind, Except.bind, pure, Except.pure]

theorem loop_turn (label : κ) {s : σ} {c : Char} {rest : List Char} {turn : Turn σ κ}
    (h : body s c rest = .ok turn) :
    loop body s label 0 (c :: rest) = (loop body turn.state label 0 (rest.drop turn.skip)).map
      fun (last, labels) =>
        (last, turn.label :: List.replicate (min turn.skip rest.length) turn.label ++ labels) := by
  rw [loop, h]
  simp only [bind, Except.bind]
  rw [loop_skip, loop_label turn.state turn.label label]
  cases loop body turn.state label 0 (rest.drop turn.skip) with
  | error e => rfl
  | ok r => rfl

theorem loop_length {s last : σ} {label : κ} {skip : Nat} {text : List Char} {labels : List κ}
    (h : loop body s label skip text = .ok (last, labels)) : labels.length = text.length := by
  induction text generalizing s label skip labels with
  | nil =>
    cases skip <;> cases h <;> rfl
  | cons c rest ih =>
    cases skip with
    | zero =>
      simp only [loop, Fallible.bind_ok_iff] at h
      obtain ⟨turn, _, ⟨_, _⟩, hrest, hlast⟩ := h
      cases hlast
      simp [ih hrest]
    | succ skip =>
      simp only [loop, Fallible.bind_ok_iff] at h
      obtain ⟨⟨_, _⟩, hrest, hlast⟩ := h
      cases hlast
      simp [ih hrest]

theorem loop_error {s : σ} {label : κ} {c : Char} {rest : List Char} {error : ε}
    (h : body s c rest = .error error) :
    loop body s label 0 (c :: rest) = .error error := by
  rw [loop, h]
  rfl

end Scan
