import Ffdb.Lib.Truth
import Ffdb.Lib.Text

/-! Boolean SQL expressions as text: their lexer, an operator machine with SQL's
precedences (`OR` below `AND` below `NOT` below `=`), and their value. Opaque
subexpressions may stand in the text as holes. -/
namespace Formula
open Text
variable {H : Type}

inductive Expr (H : Type) where
  | hole (h : H)
  | number (n : Nat)
  | text (value : List Char)
  | name (value : List Char)
  | call (value : List Char)
  | eq (a b : Expr H)
  | not (a : Expr H)
  | and (a b : Expr H)
  | or (a b : Expr H)

inductive Token (H : Type) where
  | opening
  | closing
  | and
  | or
  | not
  | eq
  | operand (a : Expr H)

/-- What the lexer has read of an unfinished token. After a quote in a text it is open
whether the text ends or the quote was doubled. -/
inductive Pending where
  | idle
  | word (read : List Char)
  | number (read : List Char)
  | quoted (read : List Char)
  | quoteSeen (read : List Char)

def isWordStart (c : Char) : Bool := c.isAlpha || c = '_'

def isSpace (c : Char) : Bool := c = ' ' || c = '\t' || c = '\n' || c = '\r'

def wordToken (word : List Char) : Token H :=
  let upper := word.map Char.toUpper
  if upper = ['A', 'N', 'D'] then .and
  else if upper = ['O', 'R'] then .or
  else if upper = ['N', 'O', 'T'] then .not
  else .operand (.name word)

def numberOf (digits : List Char) : Nat :=
  digits.foldl (fun n c => 10*n+(c.toNat-48)) 0

def Pending.flush : Pending → Option (List (Token H))
  | .idle => some []
  | .word read => some [wordToken read]
  | .number read => some [.operand (.number (numberOf read))]
  | .quoted _ => none
  | .quoteSeen read => some [.operand (.text read)]

def start (c : Char) : Option (List (Token H) × Pending) :=
  if c = '(' then some ([.opening], .idle)
  else if c = ')' then some ([.closing], .idle)
  else if c = '=' then some ([.eq], .idle)
  else if c = apostrophe then some ([], .quoted [])
  else if isSpace c then some ([], .idle)
  else if isWordStart c then some ([], .word [c])
  else if c.isDigit then some ([], .number [c])
  else none

def Pending.read (pending : Pending) (c : Char) : Option (List (Token H) × Pending) :=
  match pending with
  | .quoted read =>
    if c = apostrophe then some ([], .quoteSeen read) else some ([], .quoted (read ++ [c]))
  | .quoteSeen read =>
    if c = apostrophe then some ([], .quoted (read ++ [c]))
    else (start c).map fun (tokens, next) => (.operand (.text read) :: tokens, next)
  | .word read =>
    if isWordStart c || c.isDigit then some ([], .word (read ++ [c]))
    else (start c).map fun (tokens, next) => (wordToken read :: tokens, next)
  | .number read =>
    if c.isDigit then some ([], .number (read ++ [c]))
    else (start c).map fun (tokens, next) =>
      (.operand (.number (numberOf read)) :: tokens, next)
  | .idle => start c

def scan : Pending → List (Char ⊕ H) → Option (List (Token H) × Pending)
  | pending, [] => some ([], pending)
  | pending, .inr h :: rest => do
    let tokens ← pending.flush
    let (more, last) ← scan .idle rest
    pure (tokens ++ .operand (.hole h) :: more, last)
  | pending, .inl c :: rest => do
    let (tokens, next) ← pending.read c
    let (more, last) ← scan next rest
    pure (tokens ++ more, last)

def lex (source : List (Char ⊕ H)) : Option (List (Token H)) := do
  let (tokens, last) ← scan .idle source
  let more ← last.flush
  pure (tokens ++ more)

/-- One level of parentheses: the disjuncts and conjuncts that are complete, the
negations and the left side of a comparison that wait, and the operand just read.
`callee` is set where the parentheses hold the arguments of a call. -/
structure Frame (H : Type) where
  callee : Option (List Char)
  disjunction : Option (Expr H)
  conjunction : Option (Expr H)
  negations : Nat
  left : Option (Expr H)
  operand : Option (Expr H)

def Frame.fresh (callee : Option (List Char)) : Frame H := ⟨callee, none, none, 0, none, none⟩

def joined (connective : Expr H → Expr H → Expr H) (a : Option (Expr H)) (b : Expr H) : Expr H :=
  match a with
  | none => b
  | some a => connective a b

def negated : Nat → Expr H → Expr H
  | 0, a => a
  | n+1, a => .not (negated n a)

def Frame.take (frame : Frame H) (a : Expr H) : Option (Frame H) :=
  if frame.operand.isSome then none else some { frame with operand := some a }

def Frame.compared (frame : Frame H) : Option (Expr H) :=
  frame.operand.map (joined .eq frame.left)

def Frame.conjoined (frame : Frame H) : Option (Expr H) :=
  frame.compared.map fun a => joined .and frame.conjunction (negated frame.negations a)

def Frame.close (frame : Frame H) : Option (Expr H) :=
  frame.conjoined.map (joined .or frame.disjunction)

def step : List (Frame H) → Token H → Option (List (Frame H))
  | [], _ => none
  | frame :: below, token =>
    match token with
    | .operand a => (frame.take a).map (· :: below)
    | .eq => frame.compared.map fun a => { frame with left := some a, operand := none } :: below
    | .not =>
      if frame.operand.isSome || frame.left.isSome then none
      else some ({ frame with negations := frame.negations+1 } :: below)
    | .and => frame.conjoined.map fun a =>
        { frame with conjunction := some a, negations := 0, left := none, operand := none } :: below
    | .or => frame.close.map fun a => { frame with
        disjunction := some a, conjunction := none, negations := 0, left := none,
        operand := none } :: below
    | .opening =>
      match frame.operand with
      | none => some (.fresh none :: frame :: below)
      | some (.name callee) => some (.fresh (some callee) :: { frame with operand := none } :: below)
      | some _ => none
    | .closing =>
      match frame.callee, frame.close, below with
      | some callee, none, parent :: below => (parent.take (.call callee)).map (· :: below)
      | none, some a, parent :: below => (parent.take a).map (· :: below)
      | _, _, _ => none

def run (frames : List (Frame H)) (tokens : List (Token H)) : Option (List (Frame H)) :=
  tokens.foldlM step frames

def parse (tokens : List (Token H)) : Option (Expr H) := do
  let frames ← run [.fresh none] tokens
  match frames with
  | [frame] => frame.close
  | _ => none

/-- A value: a truth value, or a text that only comparisons accept. -/
inductive Value where
  | truth (t : Truth)
  | text (value : List Char)
  deriving DecidableEq

def Value.toTruth : Value → Option Truth
  | .truth t => some t
  | .text _ => none

def Value.equal : Value → Value → Option Value
  | .text a, .text b => some (.truth (.ofBool (a = b)))
  | _, _ => none

def Expr.eval (calls : List Char → Option Value) (holes : H → Truth) : Expr H → Option Value
  | .hole h => some (.truth (holes h))
  | .number n => some (.truth (.ofBool (n ≠ 0)))
  | .text value => some (.text value)
  | .name _ => none
  | .call callee => calls callee
  | .eq a b => do (← a.eval calls holes).equal (← b.eval calls holes)
  | .not a => do
    let t ← (← a.eval calls holes).toTruth
    pure (.truth t.not)
  | .and a b => do
    let t ← (← a.eval calls holes).toTruth
    let u ← (← b.eval calls holes).toTruth
    pure (.truth (t.and u))
  | .or a b => do
    let t ← (← a.eval calls holes).toTruth
    let u ← (← b.eval calls holes).toTruth
    pure (.truth (t.or u))

def truthOf (calls : List Char → Option Value) (holes : H → Truth) (source : List (Char ⊕ H)) :
    Option Truth := do
  let tokens ← lex source
  let a ← parse tokens
  (← a.eval calls holes).toTruth

theorem scan_append {pending next last : Pending} {source more : List (Char ⊕ H)}
    {tokens tokens' : List (Token H)} (h : scan pending source = some (tokens, next))
    (h' : scan next more = some (tokens', last)) :
    scan pending (source ++ more) = some (tokens ++ tokens', last) := by
  induction source generalizing pending tokens with
  | nil =>
    simp only [scan, Option.some.injEq, Prod.mk.injEq] at h
    obtain ⟨rfl, rfl⟩ := h
    simpa using h'
  | cons c source ih =>
    cases c with
    | inl c =>
      simp only [scan, Option.bind_eq_bind, Option.bind_eq_some_iff, Option.pure_def,
        Option.some.injEq, Prod.mk.injEq, Prod.exists] at h
      obtain ⟨read, between, hread, rest, _, hrest, rfl, rfl⟩ := h
      simp [scan, hread, ih hrest]
    | inr hole =>
      simp only [scan, Option.bind_eq_bind, Option.bind_eq_some_iff, Option.pure_def,
        Option.some.injEq, Prod.mk.injEq, Prod.exists] at h
      obtain ⟨flushed, hflush, rest, _, hrest, rfl, rfl⟩ := h
      simp [scan, hflush, ih hrest]

def chars (text : List Char) : List (Char ⊕ H) := text.map .inl

def doubled (text : List Char) : List Char :=
  replaceWith apostrophe [apostrophe, apostrophe] text

theorem scan_doubled (read text : List Char) :
    scan (.quoted read) (chars (doubled text ++ [apostrophe]) : List (Char ⊕ H)) =
      some ([], .quoteSeen (read ++ text)) := by
  induction text generalizing read with
  | nil => simp [doubled, replaceWith, chars, scan, Pending.read]
  | cons c text ih =>
    have hih := ih (read ++ [c])
    by_cases hc : c = apostrophe
    · subst hc
      simpa [doubled, replaceWith, chars, scan, Pending.read] using hih
    · simpa [doubled, replaceWith, chars, scan, Pending.read, hc] using hih

theorem run_append (frames : List (Frame H)) (tokens more : List (Token H)) :
    run frames (tokens ++ more) = (run frames tokens).bind (run · more) := by
  simp [run, List.foldlM_append]

theorem run_cons (frames : List (Frame H)) (token : Token H) (tokens : List (Token H)) :
    run frames (token :: tokens) = (step frames token).bind (run · tokens) := by
  simp [run, List.foldlM_cons]

/-- A step that succeeds does not look below the frames it was given. -/
theorem step_below {frames frames' : List (Frame H)} {token : Token H}
    (h : step frames token = some frames') (below : List (Frame H)) :
    step (frames ++ below) token = some (frames' ++ below) := by
  cases frames with
  | nil => cases h
  | cons frame frames =>
    cases token with
    | operand a =>
      simp only [step, Option.map_eq_some_iff, List.cons_append] at h ⊢
      obtain ⟨frame', htake, rfl⟩ := h
      exact ⟨frame', htake, rfl⟩
    | eq =>
      simp only [step, Option.map_eq_some_iff, List.cons_append] at h ⊢
      obtain ⟨a, ha, rfl⟩ := h
      exact ⟨a, ha, rfl⟩
    | not =>
      simp only [step, List.cons_append] at h ⊢
      split at h
      · cases h
      · next hfree =>
        cases h
        exact if_neg hfree
    | and =>
      simp only [step, Option.map_eq_some_iff, List.cons_append] at h ⊢
      obtain ⟨a, ha, rfl⟩ := h
      exact ⟨a, ha, rfl⟩
    | or =>
      simp only [step, Option.map_eq_some_iff, List.cons_append] at h ⊢
      obtain ⟨a, ha, rfl⟩ := h
      exact ⟨a, ha, rfl⟩
    | opening =>
      simp only [step, List.cons_append] at h ⊢
      split at h
      · cases h
        rfl
      · cases h
        rfl
      · cases h
    | closing =>
      cases frames with
      | nil =>
        simp only [step] at h
        split at h <;> simp_all
      | cons parent frames =>
        simp only [step, List.cons_append] at h ⊢
        split at h
        · next hcallee hclose heq =>
          cases heq
          simp only [Option.map_eq_some_iff] at h
          obtain ⟨frame', htake, rfl⟩ := h
          simp [hcallee, hclose, htake]
        · next hcallee hclose heq =>
          cases heq
          simp only [Option.map_eq_some_iff] at h
          obtain ⟨frame', htake, rfl⟩ := h
          simp [hcallee, hclose, htake]
        · cases h

theorem run_below {frames frames' : List (Frame H)} {tokens : List (Token H)}
    (h : run frames tokens = some frames') (below : List (Frame H)) :
    run (frames ++ below) tokens = some (frames' ++ below) := by
  induction tokens generalizing frames with
  | nil =>
    cases h
    rfl
  | cons token tokens ih =>
    rw [run_cons, Option.bind_eq_some_iff] at h
    obtain ⟨between, hstep, hrun⟩ := h
    rw [run_cons, step_below hstep below]
    exact ih hrun

structure Closes (frame : Frame H) (a : Expr H) : Prop where
  callee : frame.callee = none
  close : frame.close = some a

def Parses (tokens : List (Token H)) (a : Expr H) : Prop :=
  ∃ frame, run [.fresh none] tokens = some [frame] ∧ Closes frame a

def Operand (tokens : List (Token H)) (a : Expr H) : Prop :=
  ∀ (frame : Frame H) below, frame.operand = none →
    run (frame :: below) tokens = some ({ frame with operand := some a } :: below)

def Term (tokens : List (Token H)) (a : Expr H) : Prop :=
  ∀ (frame : Frame H) below, frame.operand = none → frame.left = none →
    ∃ left b, run (frame :: below) tokens =
        some ({ frame with left := left, operand := some b } :: below) ∧
      joined .eq left b = a

theorem parse_of_parses {tokens : List (Token H)} {a : Expr H} (h : Parses tokens a) :
    parse tokens = some a := by
  obtain ⟨frame, hrun, hclose⟩ := h
  simp [parse, hrun, hclose.close]

theorem Operand.term {tokens : List (Token H)} {a : Expr H} (h : Operand tokens a) :
    Term tokens a := by
  intro frame below hoperand hleft
  exact ⟨none, a, by rw [h frame below hoperand, hleft], rfl⟩

theorem operand_token (a : Expr H) : Operand [.operand a] a := by
  intro frame below hoperand
  simp [run, step, Frame.take, hoperand]

theorem operand_call (callee : List Char) :
    Operand [.operand (.name callee), .opening, .closing] (.call callee : Expr H) := by
  intro frame below hoperand
  simp [run, step, Frame.take, Frame.fresh, Frame.close, Frame.conjoined, Frame.compared, hoperand]

theorem Parses.group {tokens : List (Token H)} {a : Expr H} (h : Parses tokens a) :
    Operand (.opening :: tokens ++ [.closing]) a := by
  intro frame below hoperand
  obtain ⟨inner, hrun, hclose⟩ := h
  have hinner := run_below hrun (frame :: below)
  rw [List.cons_append, run_cons]
  simp only [step, hoperand, Option.bind_some]
  rw [run_append]
  simp only [List.singleton_append] at hinner
  rw [hinner]
  simp [run, step, hclose.callee, hclose.close, Frame.take, hoperand]

theorem Operand.eq {tokens more : List (Token H)} {a b : Expr H} (h : Operand tokens a)
    (h' : Operand more b) : Term (tokens ++ .eq :: more) (.eq a b) := by
  intro frame below hoperand hleft
  refine ⟨some a, b, ?_, rfl⟩
  rw [run_append, h frame below hoperand, Option.bind_some, run_cons]
  simp only [step, Frame.compared, hleft, Option.map_some, Option.bind_some, joined]
  exact h' _ below rfl

theorem Term.closes {tokens : List (Token H)} {a : Expr H} (h : Term tokens a) (frame : Frame H)
    (below : List (Frame H)) (hfree : frame.operand = none ∧ frame.left = none) :
    ∃ frame', run (frame :: below) tokens = some (frame' :: below) ∧
      frame'.callee = frame.callee ∧ frame'.disjunction = frame.disjunction ∧
      frame'.close = some (joined .or frame.disjunction
        (joined .and frame.conjunction (negated frame.negations a))) := by
  obtain ⟨left, b, hrun, rfl⟩ := h frame below hfree.1 hfree.2
  exact ⟨_, hrun, rfl, rfl, rfl⟩

theorem Term.parses {tokens : List (Token H)} {a : Expr H} (h : Term tokens a) :
    Parses tokens a := by
  obtain ⟨frame, hrun, hcallee, _, hclose⟩ := h.closes (.fresh none) [] ⟨rfl, rfl⟩
  exact ⟨frame, hrun, hcallee, hclose⟩

theorem Term.not {tokens : List (Token H)} {a : Expr H} (h : Term tokens a) :
    Parses (.not :: tokens) (.not a) := by
  obtain ⟨frame, hrun, hcallee, _, hclose⟩ :=
    h.closes { (Frame.fresh none : Frame H) with negations := 1 } [] ⟨rfl, rfl⟩
  exact ⟨frame, hrun, hcallee, hclose⟩

/-- A chain of disjunctions to the right of a complete frame. -/
theorem run_or (items : List (List (Token H) × Expr H)) (hitems : ∀ item ∈ items, Term item.1 item.2)
    (frame : Frame H) (a : Expr H) (below : List (Frame H)) (h : Closes frame a) :
    ∃ frame', run (frame :: below) (items.flatMap fun item => .or :: item.1) =
        some (frame' :: below) ∧
      Closes frame' (items.foldl (fun a item => .or a item.2) a) := by
  induction items generalizing frame a with
  | nil => exact ⟨frame, rfl, h⟩
  | cons item items ih =>
    let next : Frame H := { frame with
      disjunction := some a, conjunction := none, negations := 0, left := none, operand := none }
    have hstep : step (frame :: below) .or = some (next :: below) := by simp [step, h.close, next]
    obtain ⟨frame', hrun, hcallee, _, hclose⟩ :=
      (hitems item (by simp)).closes next below ⟨rfl, rfl⟩
    rw [List.flatMap_cons, List.cons_append, run_cons, hstep, Option.bind_some, run_append, hrun]
    exact ih (fun item' hmem => hitems item' (by simp [hmem])) frame' _
      ⟨hcallee.trans h.callee, hclose⟩

/-- A chain of conjunctions to the right of a complete frame without disjuncts. -/
theorem run_and (items : List (List (Token H) × Expr H))
    (hitems : ∀ item ∈ items, Term item.1 item.2) (frame : Frame H) (a : Expr H)
    (below : List (Frame H)) (h : Closes frame a) (hfirst : frame.disjunction = none) :
    ∃ frame', run (frame :: below) (items.flatMap fun item => .and :: item.1) =
        some (frame' :: below) ∧
      Closes frame' (items.foldl (fun a item => .and a item.2) a) := by
  induction items generalizing frame a with
  | nil => exact ⟨frame, rfl, h⟩
  | cons item items ih =>
    have hconjoined : frame.conjoined = some a := by
      have hclose := h.close
      simpa [Frame.close, hfirst, joined] using hclose
    let next : Frame H := { frame with
      conjunction := some a, negations := 0, left := none, operand := none }
    have hstep : step (frame :: below) .and = some (next :: below) := by
      simp [step, hconjoined, next]
    obtain ⟨frame', hrun, hcallee, hdisjunction, hclose⟩ :=
      (hitems item (by simp)).closes next below ⟨rfl, rfl⟩
    rw [List.flatMap_cons, List.cons_append, run_cons, hstep, Option.bind_some, run_append, hrun]
    refine ih (fun item' hmem => hitems item' (by simp [hmem])) frame' _
      ⟨hcallee.trans h.callee, ?_⟩ (hdisjunction.trans hfirst)
    rw [hclose]
    simp [next, hfirst, joined, negated]

theorem parses_or {tokens : List (Token H)} {a : Expr H} (h : Term tokens a)
    (items : List (List (Token H) × Expr H)) (hitems : ∀ item ∈ items, Term item.1 item.2) :
    Parses (tokens ++ items.flatMap fun item => .or :: item.1)
      (items.foldl (fun a item => .or a item.2) a) := by
  obtain ⟨frame, hrun, hcallee, _, hclose⟩ := h.closes (.fresh none) [] ⟨rfl, rfl⟩
  obtain ⟨frame', hrun', hcloses⟩ := run_or items hitems frame a [] ⟨hcallee, hclose⟩
  exact ⟨frame', by rw [run_append, hrun]; exact hrun', hcloses⟩

theorem parses_and {tokens : List (Token H)} {a : Expr H} (h : Term tokens a)
    (items : List (List (Token H) × Expr H)) (hitems : ∀ item ∈ items, Term item.1 item.2) :
    Parses (tokens ++ items.flatMap fun item => .and :: item.1)
      (items.foldl (fun a item => .and a item.2) a) := by
  obtain ⟨frame, hrun, hcallee, hdisjunction, hclose⟩ := h.closes (.fresh none) [] ⟨rfl, rfl⟩
  obtain ⟨frame', hrun', hcloses⟩ := run_and items hitems frame a [] ⟨hcallee, hclose⟩ hdisjunction
  exact ⟨frame', by rw [run_append, hrun]; exact hrun', hcloses⟩

def Reads (source : List (Char ⊕ H)) (tokens : List (Token H)) : Prop :=
  ∃ read pending last, scan .idle source = some (read, pending) ∧
    pending.flush = some last ∧ tokens = read ++ last

def breaks (c : Char) : Bool := c = ' ' || c = ')'

theorem lex_of_reads {source : List (Char ⊕ H)} {tokens : List (Token H)}
    (h : Reads source tokens) : lex source = some tokens := by
  obtain ⟨read, pending, last, hscan, hflush, rfl⟩ := h
  simp [lex, hscan, hflush]

theorem read_of_breaks {pending next : Pending} {last tokens : List (Token H)} {c : Char}
    (hflush : pending.flush = some last) (hc : breaks c = true)
    (hstart : start c = some (tokens, next)) :
    pending.read c = some (last ++ tokens, next) := by
  simp only [breaks, Bool.or_eq_true, decide_eq_true_eq] at hc
  cases pending with
  | idle =>
    cases hflush
    exact hstart
  | word read =>
    cases hflush
    obtain rfl | rfl := hc <;> simp [Pending.read, hstart, isWordStart]
  | number read =>
    cases hflush
    obtain rfl | rfl := hc <;> simp [Pending.read, hstart]
  | quoted read => cases hflush
  | quoteSeen read =>
    cases hflush
    obtain rfl | rfl := hc <;> simp [Pending.read, hstart, apostrophe]

theorem Reads.append {source more : List (Char ⊕ H)} {tokens tokens' : List (Token H)} {c : Char}
    (h : Reads source tokens) (hc : breaks c = true) (h' : Reads (.inl c :: more) tokens') :
    Reads (source ++ .inl c :: more) (tokens ++ tokens') := by
  obtain ⟨read, pending, last, hscan, hflush, rfl⟩ := h
  obtain ⟨read', pending', last', hscan', hflush', rfl⟩ := h'
  simp only [scan, Option.bind_eq_bind, Option.bind_eq_some_iff, Option.pure_def,
    Option.some.injEq, Prod.mk.injEq, Prod.exists] at hscan'
  obtain ⟨opened, next, hstart, rest, end', hrest, rfl, rfl⟩ := hscan'
  have hread := read_of_breaks hflush hc hstart
  have hmore : scan pending (.inl c :: more) = some (last ++ opened ++ rest, end') := by
    simp [scan, hread, hrest]
  exact ⟨_, _, _, scan_append hscan hmore, hflush', by simp⟩

theorem Reads.after {source more : List (Char ⊕ H)} {tokens tokens' : List (Token H)}
    (h : scan .idle source = some (tokens, .idle)) (h' : Reads more tokens') :
    Reads (source ++ more) (tokens ++ tokens') := by
  obtain ⟨read, pending, last, hscan, hflush, rfl⟩ := h'
  exact ⟨_, _, _, scan_append h hscan, hflush, by simp⟩

/-- A left-associative connective: its text, its token and what it does to expressions
and truth values. -/
structure Connective (H : Type) where
  separator : List Char
  token : Token H
  expr : Expr H → Expr H → Expr H
  truth : Truth → Truth → Truth
  leading : ∃ c rest, separator = c :: rest ∧ breaks c = true
  scan : scan .idle (chars separator) = some ([token], .idle)
  parses {tokens : List (Token H)} {a : Expr H} : Term tokens a →
    ∀ items : List (List (Token H) × Expr H), (∀ item ∈ items, Term item.1 item.2) →
      Parses (tokens ++ items.flatMap fun item => token :: item.1)
        (items.foldl (fun a item => expr a item.2) a)
  eval {calls : List Char → Option Value} {holes : H → Truth} {a b : Expr H} {t u : Truth} :
    a.eval calls holes = some (.truth t) → b.eval calls holes = some (.truth u) →
      (expr a b).eval calls holes = some (.truth (truth t u))

def disjunction : Connective H where
  separator := [' ', 'O', 'R', ' ']
  token := .or
  expr := .or
  truth := .or
  leading := ⟨' ', _, rfl, rfl⟩
  scan := rfl
  parses := parses_or
  eval := by
    intro _ _ _ _ _ _ ha hb
    simp [Expr.eval, ha, hb, Value.toTruth]

def conjunction : Connective H where
  separator := [' ', 'A', 'N', 'D', ' ']
  token := .and
  expr := .and
  truth := .and
  leading := ⟨' ', _, rfl, rfl⟩
  scan := rfl
  parses := parses_and
  eval := by
    intro _ _ _ _ _ _ ha hb
    simp [Expr.eval, ha, hb, Value.toTruth]

theorem Connective.reads_join (connective : Connective H) {source : List (Char ⊕ H)}
    {tokens : List (Token H)} (h : Reads source tokens)
    (items : List (List (Char ⊕ H) × List (Token H)))
    (hitems : ∀ item ∈ items, Reads item.1 item.2) :
    Reads (source ++ items.flatMap fun item => chars connective.separator ++ item.1)
      (tokens ++ items.flatMap fun item => connective.token :: item.2) := by
  induction items generalizing source tokens with
  | nil => simpa using h
  | cons item items ih =>
    have hitem := Reads.after connective.scan (hitems item (by simp))
    obtain ⟨c, rest, hseparator, hc⟩ := connective.leading
    rw [hseparator] at hitem
    have hnext := ih (h.append hc hitem) fun item' hmem => hitems item' (by simp [hmem])
    simpa [hseparator, chars] using hnext

theorem intercalate_cons {α : Type} (separator source : List α) (sources : List (List α)) :
    separator.intercalate (source :: sources) = source ++ sources.flatMap (separator ++ ·) := by
  induction sources generalizing source with
  | nil => simp
  | cons next sources ih =>
    have hnext := ih next
    simp_all

section Meaning
variable (calls : List Char → Option Value) (holes : H → Truth)

def IsExpr (source : List (Char ⊕ H)) (t : Truth) : Prop :=
  ∃ tokens a, Reads source tokens ∧ Parses tokens a ∧ a.eval calls holes = some (.truth t)

def IsTerm (source : List (Char ⊕ H)) (t : Truth) : Prop :=
  ∃ tokens a, Reads source tokens ∧ Term tokens a ∧ a.eval calls holes = some (.truth t)

variable {calls holes} {source : List (Char ⊕ H)} {t : Truth}

theorem truthOf_of_isExpr (h : IsExpr calls holes source t) :
    truthOf calls holes source = some t := by
  obtain ⟨tokens, a, hreads, hparses, heval⟩ := h
  simp [truthOf, lex_of_reads hreads, parse_of_parses hparses, heval, Value.toTruth]

theorem IsTerm.expr (h : IsTerm calls holes source t) : IsExpr calls holes source t := by
  obtain ⟨tokens, a, hreads, hterm, heval⟩ := h
  exact ⟨tokens, a, hreads, hterm.parses, heval⟩

theorem IsExpr.group (h : IsExpr calls holes source t) :
    IsTerm calls holes (chars ['('] ++ source ++ chars [')']) t := by
  obtain ⟨tokens, a, hreads, hparses, heval⟩ := h
  have hclosing : Reads (chars [')'] : List (Char ⊕ H)) [.closing] := ⟨[.closing], .idle, [], rfl, rfl, rfl⟩
  have hopen : Reads (chars ['('] ++ (source ++ chars [')'])) ([.opening] ++ (tokens ++ [.closing])) :=
    Reads.after rfl (hreads.append rfl hclosing)
  refine ⟨_, a, ?_, hparses.group.term, heval⟩
  simpa using hopen

theorem isTerm_hole (h : H) : IsTerm calls holes [.inr h] (holes h) :=
  ⟨[.operand (.hole h)], .hole h, ⟨_, .idle, [], rfl, rfl, rfl⟩, (operand_token _).term, rfl⟩

theorem isTerm_zero : IsTerm calls holes (chars ['0']) .false :=
  ⟨_, _, ⟨[], .number ['0'], _, rfl, rfl, rfl⟩, (operand_token _).term, rfl⟩

theorem isTerm_one : IsTerm calls holes (chars ['1']) .true :=
  ⟨_, _, ⟨[], .number ['1'], _, rfl, rfl, rfl⟩, (operand_token _).term, rfl⟩

theorem isTerm_call {callee : List Char}
    (hscan : scan .idle source = some ([.operand (.name callee), .opening, .closing], .idle))
    (hcall : calls callee = some (.truth t)) : IsTerm calls holes source t :=
  ⟨_, _, ⟨_, _, _, hscan, rfl, rfl⟩, (operand_call callee).term, hcall⟩

def quoted (text : List Char) : List Char := apostrophe :: doubled text ++ [apostrophe]

theorem reads_quoted (text : List Char) :
    Reads (chars (quoted text) : List (Char ⊕ H)) [.operand (.text text)] := by
  have hstart : scan .idle (chars [apostrophe] : List (Char ⊕ H)) = some ([], .quoted []) := rfl
  have htext := scan_append hstart (scan_doubled [] text)
  exact ⟨_, _, _, htext, rfl, rfl⟩

theorem isTerm_equal {callee value : List Char} (text : List Char)
    (hscan : scan .idle source = some ([.operand (.name callee), .opening, .closing, .eq], .idle))
    (hcall : calls callee = some (.text value)) :
    IsTerm calls holes (source ++ chars (quoted text)) (.ofBool (value = text)) := by
  have hreads := Reads.after hscan (reads_quoted text)
  have hterm := (operand_call (H := H) callee).eq (operand_token (.text text))
  refine ⟨_, _, hreads, hterm, ?_⟩
  simp [Expr.eval, hcall, Value.equal]

theorem IsTerm.not (h : IsTerm calls holes source t) :
    IsExpr calls holes (chars "NOT ".toList ++ source) t.not := by
  obtain ⟨tokens, a, hreads, hterm, heval⟩ := h
  have hscan : scan .idle (chars "NOT ".toList : List (Char ⊕ H)) = some ([.not], .idle) := rfl
  refine ⟨.not :: tokens, .not a, Reads.after hscan hreads, Term.not hterm, ?_⟩
  simp [Expr.eval, heval, Value.toTruth]

structure TermText (calls : List Char → Option Value) (holes : H → Truth) where
  source : List (Char ⊕ H)
  tokens : List (Token H)
  expr : Expr H
  truth : Truth
  reads : Reads source tokens
  term : Term tokens expr
  eval : expr.eval calls holes = some (.truth truth)

theorem exists_termTexts {ι : Type} {text : ι → List (Char ⊕ H)} {value : ι → Truth} {xs : List ι}
    (h : ∀ x ∈ xs, IsTerm calls holes (text x) (value x)) :
    ∃ terms : List (TermText calls holes),
      terms.map (·.source) = xs.map text ∧ terms.map (·.truth) = xs.map value := by
  induction xs with
  | nil => exact ⟨[], rfl, rfl⟩
  | cons x xs ih =>
    obtain ⟨tokens, a, hreads, hterm, heval⟩ := h x (by simp)
    obtain ⟨terms, hsource, htruth⟩ := ih fun y hy => h y (List.mem_cons_of_mem x hy)
    refine ⟨⟨text x, tokens, a, value x, hreads, hterm, heval⟩ :: terms, ?_, ?_⟩
    · simp [hsource]
    · simp [htruth]

theorem isExpr_join {ι : Type} (connective : Connective H) (text : ι → List (Char ⊕ H))
    (value : ι → Truth) (x : ι) (xs : List ι)
    (h : ∀ y ∈ x :: xs, IsTerm calls holes (text y) (value y)) :
    IsExpr calls holes ((chars connective.separator).intercalate ((x :: xs).map text))
      ((xs.map value).foldl connective.truth (value x)) := by
  obtain ⟨tokens, a, hreads, hterm, heval⟩ := h x (by simp)
  obtain ⟨terms, hsource, htruth⟩ := exists_termTexts fun y hy => h y (List.mem_cons_of_mem x hy)
  refine ⟨_, _, ?_, connective.parses hterm (terms.map fun t => (t.tokens, t.expr)) ?_, ?_⟩
  · have hjoin := connective.reads_join hreads (terms.map fun t => (t.source, t.tokens))
      (by simp [TermText.reads])
    rw [List.map_cons, intercalate_cons, ← hsource]
    simpa [List.flatMap_map] using hjoin
  · simp [TermText.term]
  · rw [← htruth, List.foldl_map, List.foldl_map]
    clear h hterm hreads hsource htruth
    generalize value x = t at heval
    -- the value of the terms read so far
    induction terms generalizing a t with
    | nil => exact heval
    | cons y terms ih => exact ih _ _ (connective.eval heval y.eval)

end Meaning

end Formula
