import Ffdb.Sql.Agreement
import Mathlib

/-! What the splitter returns: the pieces stand in the text in order, with white space, comments and
separators between them, and a piece is one statement again unless trimming has left nothing but trivia. -/
namespace Ffdb.Sql
open Text Fallible Scan
open Lexical (Mode Event Rules)

section Trimming

/-- White space is no character of a word and begins, ends and separates nothing. -/
theorem whitespace_not {c : Char} (h : isWhitespace c = true) :
    isWordContinue c = false ∧ Lexical.isQuote c = false ∧ c ≠ '-' ∧ c ≠ '*' ∧ c ≠ '/' ∧ c ≠ '[' ∧ c ≠ ']' ∧
      c ≠ '(' ∧ c ≠ ')' ∧ c ≠ ';' := by
  have hne (d : Char) (hd : isWhitespace d = false) : c ≠ d := by
    rintro rfl
    rw [h] at hd
    cases hd
  refine ⟨?_, ?_, hne _ rfl, hne _ rfl, hne _ rfl, hne _ rfl, hne _ rfl, hne _ rfl,
    hne _ rfl, hne _ rfl⟩
  · have halnum : c.isAlphanum = false := by
      simp only [isWhitespace, Bool.or_eq_true, Bool.and_eq_true, decide_eq_true_eq] at h
      simp only [Char.isAlphanum, Char.isAlpha, Char.isUpper, Char.isLower, Char.isDigit, Bool.or_eq_false_iff,
        Bool.and_eq_false_iff, decide_eq_false_iff_not, ge_iff_le, UInt32.le_iff_toNat_le, not_le]
      have hchar : c.toNat = c.val.toNat := rfl
      have hA : 'A'.val.toNat = 65 := rfl
      have hZ : 'Z'.val.toNat = 90 := rfl
      have ha : 'a'.val.toNat = 97 := rfl
      have hz : 'z'.val.toNat = 122 := rfl
      have h0 : '0'.val.toNat = 48 := rfl
      have h9 : '9'.val.toNat = 57 := rfl
      omega
    simp [isWordContinue, halnum, hne '_' rfl, hne '$' rfl]
  · simp [Lexical.isQuote, hne '"' rfl, hne (Char.ofNat 39) rfl, hne (Char.ofNat 96) rfl]

theorem asciiWhitespace_isWhitespace {c : Char} (h : isAsciiWhitespace c = true) : isWhitespace c = true := by
  simp only [isAsciiWhitespace, Bool.or_eq_true, decide_eq_true_eq] at h
  obtain (((rfl | rfl) | rfl) | rfl) | rfl := h <;> rfl

/-- What trimming takes away is white space at both ends. -/
theorem trim_split (text : List Char) : ∃ front back, text = front ++ (trim text ++ back) ∧
    (∀ c ∈ front, isWhitespace c = true) ∧ ∀ c ∈ back, isWhitespace c = true := by
  have hfront := List.takeWhile_append_dropWhile (p := isWhitespace) (l := text)
  have hback := List.takeWhile_append_dropWhile (p := isWhitespace) (l := (text.dropWhile isWhitespace).reverse)
  refine ⟨text.takeWhile isWhitespace, ((text.dropWhile isWhitespace).reverse.takeWhile isWhitespace).reverse,
    ?_, ?_, ?_⟩
  · rw [trim, ← List.reverse_append, hback, List.reverse_reverse, hfront]
  · intro c hc
    exact List.mem_takeWhile_imp hc
  · intro c hc
    exact List.mem_takeWhile_imp (List.mem_reverse.mp hc)

theorem trim_trim (text : List Char) : trim (trim text) = trim text := by
  have htrim (text : List Char) : trim text = (text.dropWhile isWhitespace).rdropWhile isWhitespace := rfl
  have hfront : ((text.dropWhile isWhitespace).rdropWhile isWhitespace).dropWhile isWhitespace =
      (text.dropWhile isWhitespace).rdropWhile isWhitespace := by
    obtain ⟨back, hback⟩ := List.rdropWhile_prefix isWhitespace (l := text.dropWhile isWhitespace)
    rw [List.dropWhile_eq_self_iff]
    intro hpos
    have hhead := List.head?_dropWhile_not isWhitespace text
    rw [← hback, List.head?_append, List.head?_eq_getElem?, List.getElem?_eq_getElem hpos] at hhead
    simpa using hhead
  rw [htrim text, htrim, hfront, List.rdropWhile_idempotent]

end Trimming

section Machine

/-- A character that neither goes on with what stands before it nor completes what a character begins. -/
structure Neutral (d : Char) : Prop where
  word : isWordContinue d = false
  quote : Lexical.isQuote d = false
  hyphen : d ≠ '-'
  star : d ≠ '*'
  slash : d ≠ '/'

theorem neutral_separator : Neutral ';' := ⟨by decide, by decide, by decide, by decide, by decide⟩

theorem neutral_of_whitespace {c : Char} (h : isWhitespace c = true) : Neutral c := by
  obtain ⟨hword, hquote, hhyphen, hstar, hslash, -⟩ := whitespace_not h
  exact ⟨hword, hquote, hhyphen, hstar, hslash⟩

/-- Before such a character the machine does what it does at the end of a text. -/
theorem step_neutral {mode : Mode} {d : Char} (hmode : mode.Valid) (hd : Neutral d) (c : Char) :
    Lexical.step scannerRules mode c (some d) = Lexical.step scannerRules mode c none := by
  have hword (read : List Char) :
      Lexical.wordTo scannerRules read (some d) = Lexical.wordTo scannerRules read none := by
    simp [Lexical.wordTo, scannerRules, hd.word]
  cases mode with
  | code => simp [Lexical.step, Lexical.codeStep, hd.hyphen, hd.star, hword]
  | word read => exact hword _
  | quoted quote read =>
    have hne : d ≠ quote := by
      rintro rfl
      have hquote := hd.quote
      rw [show Lexical.isQuote d = true from hmode] at hquote
      cases hquote
    simp [Lexical.step, hne]
  | block read => simp [Lexical.step, hd.slash]
  | _ => rfl

theorem run_append (mode : Mode) {d : Char} (hmode : mode.Valid) (hd : Neutral d) (text rest : List Char) :
    Lexical.run scannerRules mode (text ++ d :: rest) =
      ((Lexical.run scannerRules mode text).1 ++
          (Lexical.run scannerRules (Lexical.run scannerRules mode text).2 (d :: rest)).1,
        (Lexical.run scannerRules (Lexical.run scannerRules mode text).2 (d :: rest)).2) := by
  induction text generalizing mode with
  | nil => rfl
  | cons c text ih =>
    have hstep : Lexical.step scannerRules mode c (text ++ d :: rest).head? =
        Lexical.step scannerRules mode c text.head? := by
      cases text with
      | nil => exact step_neutral hmode hd c
      | cons c' text => rfl
    rw [List.cons_append, run_cons, run_cons mode c text, hstep, ih _ (Lexical.step_valid scannerRules hmode c _)]
    rfl

theorem run_valid {mode : Mode} (h : mode.Valid) (text : List Char) :
    (Lexical.run scannerRules mode text).2.Valid := by
  induction text generalizing mode with
  | nil => exact h
  | cons c text ih => exact ih (Lexical.step_valid scannerRules h c _)

def Settled : Mode → Prop
  | .code | .quoted .. | .bracketed _ | .line _ | .block _ => True
  | _ => False

theorem settled_step (mode : Mode) (c : Char) : Settled (Lexical.step scannerRules mode c none).1 := by
  have hword (read : List Char) : Settled (Lexical.wordTo scannerRules read none).1 := trivial
  cases mode with
  | code =>
    simp only [Lexical.step, Lexical.codeStep, reduceCtorEq, and_false, if_false]
    split_ifs <;> first | exact hword _ | trivial
  | word read => exact hword _
  | quoted quote read =>
    simp only [Lexical.step]
    split_ifs <;> trivial
  | bracketed read =>
    simp only [Lexical.step]
    split <;> trivial
  | line read =>
    simp only [Lexical.step]
    split <;> trivial
  | block read => simp [Lexical.step, Settled]
  | _ => trivial

theorem settled_run (mode : Mode) {text : List Char} (h : text ≠ []) :
    Settled (Lexical.run scannerRules mode text).2 := by
  induction text generalizing mode with
  | nil => exact absurd rfl h
  | cons c text ih =>
    cases text with
    | nil => exact settled_step mode c
    | cons d text => exact ih _ (List.cons_ne_nil d text)

end Machine

section Cuts
variable {s t last : Split}

inductive Uncut : Split → List (Char × Event) → Split → Prop
  | nil {s : Split} : Uncut s [] s
  | cons {s t last : Split} {x : Char × Event} {rest : List (Char × Event)} (h : s.read x = .ok t)
      (hkept : t.current = s.current ++ [x.1]) (hrest : Uncut t rest last) : Uncut s (x :: rest) last

/-- What was read before plays no part in it. -/
theorem Split.read_kept {x : Char × Event} (h : s.read x = .ok t) (hkept : t.current = s.current ++ [x.1]) :
    t.statements = s.statements ∧ ∀ statements current,
      ({ s with statements, current } : Split).read x = .ok { t with statements, current := current ++ [x.1] } := by
  obtain ⟨c, event⟩ := x
  cases event with
  | code d =>
    simp only [Split.read] at h ⊢
    split_ifs at h ⊢ with hopen hclose hdepth hcut
    · cases h
      exact ⟨rfl, fun _ _ => rfl⟩
    · cases h
      exact ⟨rfl, fun _ _ => rfl⟩
    · cases h
      exact absurd hkept.symm (List.append_ne_nil_of_right_ne_nil _ (List.cons_ne_nil _ _))
    · cases h
      exact ⟨rfl, fun _ _ => rfl⟩
  | word value =>
    simp only [Split.read] at h ⊢
    split_ifs at h ⊢ with hdepth
    · cases h
      exact ⟨rfl, fun _ _ => rfl⟩
    · cases h
      exact ⟨rfl, fun _ _ => rfl⟩
  | _ =>
    cases h
    exact ⟨rfl, fun _ _ => rfl⟩

theorem Uncut.frame {pairs : List (Char × Event)} (h : Uncut s pairs t) (statements : List (List Char))
    (current : List Char) :
    Uncut { s with statements, current } pairs { t with statements, current := current ++ pairs.map Prod.fst } := by
  induction h generalizing current with
  | nil => simpa using Uncut.nil
  | @cons s t last x rest h hkept _ ih =>
    obtain ⟨-, hread⟩ := Split.read_kept h hkept
    refine .cons (hread statements current) rfl ?_
    simpa using ih (current ++ [x.1])

theorem Uncut.split {pairs pairs' : List (Char × Event)} (h : Uncut s (pairs ++ pairs') last) :
    ∃ t, Uncut s pairs t ∧ Uncut t pairs' last := by
  induction pairs generalizing s with
  | nil => exact ⟨s, .nil, h⟩
  | cons x pairs ih =>
    cases h with
    | cons h hkept hrest =>
      obtain ⟨t, hfront, hback⟩ := ih hrest
      exact ⟨t, .cons h hkept hfront, hback⟩

theorem Uncut.readAll {text : List Char} {events : List Event} (h : Uncut s (text.zip events) t) :
    s.readAll text events = .ok t := by
  rw [Split.readAll]
  generalize text.zip events = pairs at h
  induction h with
  | nil => rfl
  | cons h _ _ ih =>
    rw [List.foldlM_cons, h]
    exact ih

/-- Only what is code is read as a code character. -/
theorem step_code {mode mode' : Mode} {c d : Char} {next : Option Char}
    (h : Lexical.step scannerRules mode c next = (mode', .code d)) :
    d = c ∧ mode' = .code ∧ (mode = .code ∨ isLineEnd c = true) := by
  have hword (read : List Char) : Lexical.wordTo scannerRules read next ≠ (mode', .code d) := by
    simp only [Lexical.wordTo]
    split <;> simp
  cases mode with
  | code =>
    simp only [Lexical.step, Lexical.codeStep] at h
    split_ifs at h <;> first | exact absurd h (hword _) | simp_all
  | word read => exact absurd h (hword _)
  | line read =>
    by_cases hend : isLineEnd c = true
    · simp only [Lexical.step, scannerRules, hend, if_true] at h
      cases h
      exact ⟨rfl, rfl, .inr hend⟩
    · simp [Lexical.step, scannerRules, hend] at h
  | quoted quote read =>
    simp only [Lexical.step] at h
    split_ifs at h <;> simp at h
  | bracketed read =>
    simp only [Lexical.step] at h
    split_ifs at h <;> simp at h
  | block read =>
    simp only [Lexical.step] at h
    split_ifs at h <;> simp at h
  | _ => simp [Lexical.step] at h

def Split.cut (s : Split) : Split :=
  { s with statements := s.close, current := [], words := [], possibleTrigger := false }

theorem Split.read_cases {x : Char × Event} (h : s.read x = .ok t) :
    t.current = s.current ++ [x.1] ∨ x.2 = .code ';' ∧ s.depth = 0 ∧ s.triggerBodyDepth = 0 ∧ t = s.cut := by
  obtain ⟨c, event⟩ := x
  cases event with
  | code d =>
    simp only [Split.read] at h
    split_ifs at h with hopen hclose hdepth hcut
    · cases h
      exact .inl rfl
    · cases h
      exact .inl rfl
    · cases h
      exact .inr ⟨by rw [hcut.1], hcut.2.1, hcut.2.2, rfl⟩
    · cases h
      exact .inl rfl
  | word value =>
    simp only [Split.read] at h
    split_ifs at h <;> cases h <;> exact .inl rfl
  | _ =>
    cases h
    exact .inl rfl

/-- A text has no end of a statement, or it has a first one, which the machine reads as code. -/
theorem first_cut (mode : Mode) {text : List Char} (hmode : mode.Valid)
    (h : s.readAll text (Lexical.run scannerRules mode text).1 = .ok t) :
    Uncut s (text.zip (Lexical.run scannerRules mode text).1) t ∨
      ∃ front back mid, text = front ++ ';' :: back ∧ Uncut s (front.zip (Lexical.run scannerRules mode front).1) mid ∧
        (Lexical.run scannerRules mode front).2 = .code ∧ mid.depth = 0 ∧ mid.triggerBodyDepth = 0 ∧
          mid.cut.readAll back (reading back).1 = .ok t ∧
            (Lexical.run scannerRules mode text).2 = (Lexical.run scannerRules .code back).2 := by
  induction text generalizing s mode with
  | nil =>
    cases h
    exact .inl .nil
  | cons c text ih =>
    cases hstep : Lexical.step scannerRules mode c text.head? with
    | mk mode' event =>
      rw [run_cons, hstep] at h
      rw [Split.readAll, List.zip_cons_cons, List.foldlM_cons] at h
      obtain ⟨next, hread, hrest⟩ := (bind_ok_iff _ _ _).mp h
      have hmode' : mode'.Valid := by
        have hvalid := Lexical.step_valid scannerRules hmode c text.head?
        rwa [hstep] at hvalid
      obtain hkept | ⟨hevent, hdepth, htrigger, rfl⟩ := Split.read_cases hread
      · obtain huncut | ⟨front, back, mid, rfl, huncut, hcode, hdepth, htrigger, hback, hlast⟩ := ih _ hmode' hrest
        · refine .inl ?_
          rw [run_cons, hstep]
          exact .cons hread hkept huncut
        · have hfront : Lexical.step scannerRules mode c front.head? = (mode', event) := by
            cases front with
            | nil => exact (step_neutral hmode neutral_separator c).symm.trans hstep
            | cons d front => exact hstep
          refine .inr ⟨c :: front, back, mid, rfl, ?_, ?_, hdepth, htrigger, hback, ?_⟩
          · rw [run_cons, hfront]
            exact .cons hread hkept huncut
          · rw [run_cons, hfront]
            exact hcode
          · rw [run_cons, hstep]
            exact hlast
      · obtain rfl : event = .code ';' := hevent
        obtain ⟨rfl, rfl, hbefore⟩ := step_code hstep
        have hcode : mode = .code := by
          obtain hcode | hend := hbefore
          · exact hcode
          · exact absurd hend (by decide)
        refine .inr ⟨[], text, s, rfl, .nil, hcode, hdepth, htrigger, hrest, ?_⟩
        rw [run_cons, hstep]

end Cuts

section Segments

/-- A text that is read to its end without the end of a statement, and what the splitter knows there. -/
structure Whole (segment : List Char) (t : Split) : Prop where
  uncut : Uncut {} (segment.zip (reading segment).1) t
  closed : t.depth = 0
  complete : (reading segment).2 = .complete

/-- The stretches of a text between its separators: a semicolon in code, with no parenthesis open and no body
of a trigger. -/
inductive Segments : List Char → List (List Char) → Prop
  | last {segment : List Char} {t : Split} (h : Whole segment t) : Segments segment [segment]
  | cut {segment rest : List Char} {segments : List (List Char)} {t : Split} (h : Whole segment t)
      (hcode : (Lexical.run scannerRules .code segment).2 = .code) (htrigger : t.triggerBodyDepth = 0)
      (hrest : Segments rest segments) : Segments (segment ++ ';' :: rest) (segment :: segments)

def piece (segment : List Char) : Option (List Char) := if isTrivia segment then none else some (trim segment)

theorem Split.close_eq (s : Split) : s.close = s.statements ++ (piece s.current).toList := by
  simp only [Split.close, piece]
  split <;> simp

def behind (statements : List (List Char)) : Split := { statements }

theorem zip_run_fst (mode : Mode) (text : List Char) :
    (text.zip (Lexical.run scannerRules mode text).1).map Prod.fst = text := by
  induction text generalizing mode with
  | nil => rfl
  | cons c text ih => simp [run_cons, ih]

theorem Whole.behind {segment : List Char} {t : Split} (h : Whole segment t) (statements : List (List Char)) :
    Uncut (behind statements) (segment.zip (reading segment).1) { t with statements, current := segment } := by
  have hframe := h.uncut.frame statements []
  rwa [List.nil_append, show (segment.zip (reading segment).1).map Prod.fst = segment from zip_run_fst _ _] at hframe

theorem whole_of_uncut {statements : List (List Char)} {segment : List Char} {t : Split}
    (h : Uncut (behind statements) (segment.zip (reading segment).1) t) (hdepth : t.depth = 0)
    (hcomplete : (reading segment).2 = .complete) :
    Whole segment { t with statements := [], current := segment } := by
  have hframe := h.frame [] []
  rw [List.nil_append, show (segment.zip (reading segment).1).map Prod.fst = segment from zip_run_fst _ _] at hframe
  exact ⟨hframe, hdepth, hcomplete⟩

theorem Split.cut_eq {mid : Split} (hdepth : mid.depth = 0) (htrigger : mid.triggerBodyDepth = 0) :
    mid.cut = Ffdb.Sql.behind mid.close := by
  simp [Split.cut, Ffdb.Sql.behind, hdepth, htrigger]

theorem readAll_separator {s : Split} (hdepth : s.depth = 0) (htrigger : s.triggerBodyDepth = 0) (rest : List Char)
    (events : List Event) : s.readAll (';' :: rest) (.code ';' :: events) = s.cut.readAll rest events := by
  have hread : s.read (';', .code ';') = .ok s.cut := by simp [Split.read, Split.cut, hdepth, htrigger]
  rw [Split.readAll, List.zip_cons_cons, List.foldlM_cons, hread]
  rfl

/-- Every text that the splitter accepts is cut into stretches. -/
theorem segments_of_readAll {statements : List (List Char)} {text : List Char} {t : Split}
    (h : (behind statements).readAll text (reading text).1 = .ok t) (hcomplete : (reading text).2 = .complete)
    (hdepth : t.depth = 0) : ∃ segments, Segments text segments := by
  induction hlength : text.length using Nat.strong_induction_on generalizing statements text with
  | _ length ih =>
    obtain huncut | ⟨front, back, mid, rfl, huncut, hcode, hmid, htrigger, hback, hlast⟩ := first_cut .code trivial h
    · exact ⟨[text], .last (whole_of_uncut huncut hdepth hcomplete)⟩
    · rw [Split.cut_eq hmid htrigger] at hback
      have hending : (reading back).2 = .complete := by
        have hsame := congrArg ending hlast
        exact hsame.symm.trans hcomplete
      obtain ⟨segments, hsegments⟩ := ih back.length (by simp [← hlength]; omega) hback hending rfl
      have hfront : (reading front).2 = .complete := by
        change ending (Lexical.run scannerRules .code front).2 = .complete
        rw [hcode]
        rfl
      exact ⟨front :: segments, .cut (whole_of_uncut huncut hmid hfront) hcode htrigger hsegments⟩

theorem segments_of_split {sql : List Char} {pieces : List (List Char)} (h : splitSqlStatements sql = .ok pieces) :
    ∃ segments, Segments sql segments := by
  have hbalanced : splitSqlStatements sql ≠ .error .unbalancedParenthesis := by
    rw [h]
    intro hfails
    cases hfails
  have hcomplete := (splitSqlStatements_isOk hbalanced).mp (by rw [h]; rfl)
  rw [splitSqlStatements_eq] at h
  cases hread : ({} : Split).readAll sql (reading sql).1 with
  | error e =>
    rw [hread] at h
    cases h
  | ok t =>
    rw [hread] at h
    simp only [Except.bind, if_pos hcomplete] at h
    split_ifs at h with hdepth
    exact @segments_of_readAll [] sql t hread hcomplete hdepth

/-- What the splitter makes of stretches: the statements of those that are no trivia. -/
theorem Segments.readAll {text : List Char} {segments : List (List Char)} (h : Segments text segments)
    (statements : List (List Char)) :
    (reading text).2 = .complete ∧ ∃ t, (behind statements).readAll text (reading text).1 = .ok t ∧ t.depth = 0 ∧
      t.close = statements ++ segments.filterMap piece := by
  induction h generalizing statements with
  | @last segment t h =>
    refine ⟨h.complete, _, (h.behind statements).readAll, h.closed, ?_⟩
    rw [Split.close_eq]
    cases hpiece : piece segment <;> simp [hpiece]
  | @cut segment rest segments t h hcode htrigger _ ih =>
    obtain ⟨hcomplete, last, hrest, hdepth, hclose⟩ := ih (statements ++ (piece segment).toList)
    have hreading : Lexical.run scannerRules .code (segment ++ ';' :: rest) =
        ((reading segment).1 ++ .code ';' :: (reading rest).1, (Lexical.run scannerRules .code rest).2) := by
      rw [run_append .code trivial neutral_separator, hcode]
      rfl
    have hcut : (behind statements).readAll (segment ++ ';' :: rest) (reading (segment ++ ';' :: rest)).1 =
        .ok last := by
      rw [reading, hreading, readAll_append _ (reading_length segment).symm, (h.behind statements).readAll]
      have hseparator :=
        @readAll_separator { t with statements, current := segment } h.closed htrigger rest (reading rest).1
      rw [@Split.cut_eq { t with statements, current := segment } h.closed htrigger, Split.close_eq] at hseparator
      exact hseparator.trans hrest
    refine ⟨?_, last, hcut, hdepth, ?_⟩
    · rw [reading, hreading]
      exact hcomplete
    · rw [hclose]
      cases hpiece : piece segment <;> simp [hpiece]

theorem split_of_segments {sql : List Char} {segments : List (List Char)} (h : Segments sql segments) :
    splitSqlStatements sql = .ok (segments.filterMap piece) := by
  obtain ⟨hcomplete, t, hread, hdepth, hclose⟩ := h.readAll []
  rw [splitSqlStatements_eq]
  change (Split.readAll (behind []) sql (reading sql).1).bind _ = _
  rw [hread]
  simp only [Except.bind, if_pos hcomplete, if_pos hdepth, hclose, List.nil_append]

/-- White space in front is read as code and changes nothing. -/
theorem uncut_spaces {s : Split} {spaces : List Char} {events : List Event} (h : ∀ c ∈ spaces, isWhitespace c = true)
    (hlength : events.length = spaces.length)
    (hevents : ∀ x ∈ spaces.zip events, x.2 = .inside ∨ x.2 = .code x.1) :
    Uncut s (spaces.zip events) { s with current := s.current ++ spaces } := by
  induction spaces generalizing s events with
  | nil => simpa using Uncut.nil
  | cons c spaces ih =>
    cases events with
    | nil => simp at hlength
    | cons event events =>
      obtain ⟨-, -, -, -, -, -, -, hopen, hclose, hseparator⟩ := whitespace_not (h c List.mem_cons_self)
      have hread : s.read (c, event) = .ok { s with current := s.current ++ [c] } := by
        obtain hevent | hevent := hevents (c, event) (by simp)
        · obtain rfl : event = .inside := hevent
          rfl
        · obtain rfl : event = .code c := hevent
          simp [Split.read, hopen, hclose, hseparator]
      rw [List.zip_cons_cons]
      refine .cons hread rfl ?_
      have hrest := @ih { s with current := s.current ++ [c] } events (fun d hd => h d (List.mem_cons_of_mem c hd))
        (by simpa using hlength) fun x hx => hevents x (by simp [hx])
      simpa using hrest

theorem step_space {c : Char} (h : isWhitespace c = true) (next : Option Char) :
    Lexical.step scannerRules .code c next = (.code, .code c) := by
  obtain ⟨hword, hquote, hhyphen, -, hslash, hbracket, -⟩ := whitespace_not h
  have hstart : isWordStart c = false := by
    cases hstart : isWordStart c with
    | false => rfl
    | true =>
      rw [wordContinue_of_wordStart hstart] at hword
      cases hword
  simp [Lexical.step, Lexical.codeStep, hquote, hbracket, hhyphen, hslash, scannerRules, hstart]

/-- White space at the end of a complete text was no part of what is quoted or of a block comment. -/
theorem run_spaces {mode : Mode} {spaces : List Char} (hvalid : mode.Valid) (hmode : Settled mode)
    (h : ∀ c ∈ spaces, isWhitespace c = true)
    (hcomplete : ending (Lexical.run scannerRules mode spaces).2 = .complete) :
    ending mode = .complete ∧
      ∀ x ∈ spaces.zip (Lexical.run scannerRules mode spaces).1, x.2 = .inside ∨ x.2 = .code x.1 := by
  induction spaces generalizing mode with
  | nil => exact ⟨hcomplete, by simp⟩
  | cons c spaces ih =>
    have hc := h c List.mem_cons_self
    obtain ⟨-, hquote, -, hstar, -, -, hbracket, -⟩ := whitespace_not hc
    have hrest {mode' : Mode} {event : Event} (hstep : Lexical.step scannerRules mode c spaces.head? = (mode', event))
        (hsettled : Settled mode') :
        ending mode' = .complete ∧ ((event = .inside ∨ event = .code c) →
          ∀ x ∈ (c :: spaces).zip (Lexical.run scannerRules mode (c :: spaces)).1,
            x.2 = .inside ∨ x.2 = .code x.1) := by
      have hvalid' := Lexical.step_valid scannerRules hvalid c spaces.head?
      rw [hstep] at hvalid'
      rw [run_cons, hstep] at hcomplete ⊢
      obtain ⟨hending, hevents⟩ := ih hvalid' hsettled (fun d hd => h d (List.mem_cons_of_mem c hd)) hcomplete
      refine ⟨hending, fun hevent => ?_⟩
      rw [List.zip_cons_cons, List.forall_mem_cons]
      exact ⟨hevent, hevents⟩
    cases mode with
    | code =>
      obtain ⟨hending, hevents⟩ := hrest (step_space hc _) trivial
      exact ⟨hending, hevents (.inr rfl)⟩
    | line read =>
      refine ⟨rfl, ?_⟩
      by_cases hend : isLineEnd c = true
      · have hstep : Lexical.step scannerRules (.line read) c spaces.head? = (.code, .code c) := by
          simp [Lexical.step, scannerRules, hend]
        exact (hrest hstep trivial).2 (.inr rfl)
      · have hstep : Lexical.step scannerRules (.line read) c spaces.head? = (.line (read ++ [c]), .inside) := by
          simp [Lexical.step, scannerRules, hend]
        exact (hrest hstep trivial).2 (.inl rfl)
    | quoted quote read =>
      have hne : c ≠ quote := by
        rintro rfl
        rw [show Lexical.isQuote c = true from hvalid] at hquote
        cases hquote
      have hstep : Lexical.step scannerRules (.quoted quote read) c spaces.head? =
          (.quoted quote (read ++ [c]), .inside) := by
        simp [Lexical.step, hne]
      cases (hrest hstep trivial).1
    | bracketed read =>
      have hstep : Lexical.step scannerRules (.bracketed read) c spaces.head? =
          (.bracketed (read ++ [c]), .inside) := by
        simp [Lexical.step, hbracket]
      cases (hrest hstep trivial).1
    | block read =>
      have hstep : Lexical.step scannerRules (.block read) c spaces.head? = (.block (read ++ [c]), .inside) := by
        simp [Lexical.step, hstar]
      have hending := (hrest hstep trivial).1
      cases read <;> cases hending
    | _ => cases hmode

theorem run_length (mode : Mode) (text : List Char) : (Lexical.run scannerRules mode text).1.length = text.length := by
  induction text generalizing mode with
  | nil => rfl
  | cons c text ih => simp [run_cons, ih]

theorem run_front {front : List Char} (h : ∀ c ∈ front, isWhitespace c = true) (text : List Char) :
    reading (front ++ text) = (front.map .code ++ (reading text).1, (reading text).2) := by
  induction front with
  | nil => rfl
  | cons c front ih =>
    have hrest := ih fun d hd => h d (List.mem_cons_of_mem c hd)
    rw [reading, Prod.mk.injEq] at hrest
    rw [reading, List.cons_append, run_cons, step_space (h c List.mem_cons_self), hrest.1, hrest.2]
    rfl

theorem Uncut.unique {s t t' : Split} {text : List Char} {events : List Event} (h : Uncut s (text.zip events) t)
    (h' : Uncut s (text.zip events) t') : t = t' :=
  Except.ok.inj (h.readAll.symm.trans h'.readAll)

/-- What is read to its end is also read without the white space in front of it. -/
theorem Whole.drop_front {front segment : List Char} {t : Split} (h : Whole (front ++ segment) t)
    (hfront : ∀ c ∈ front, isWhitespace c = true) : ∃ t', Whole segment t' := by
  have huncut := h.uncut
  have hcomplete := h.complete
  rw [run_front hfront] at huncut hcomplete
  rw [List.zip_append (by simp)] at huncut
  obtain ⟨mid, hspaces, hsegment⟩ := huncut.split
  have hcodes : front.zip (front.map .code) = front.map fun c => (c, Event.code c) := by
    have hzip := List.zip_map' (f := id) (g := Event.code) (l := front)
    rwa [List.map_id] at hzip
  have hmid := hspaces.unique (uncut_spaces hfront (by simp) (by
    intro x hx
    rw [hcodes] at hx
    obtain ⟨c, -, rfl⟩ := List.mem_map.mp hx
    exact .inr rfl))
  rw [hmid] at hsegment
  exact ⟨_, whole_of_uncut (hsegment.frame [] []) h.closed hcomplete⟩

theorem Whole.drop_back {segment back : List Char} {t : Split} (h : Whole (segment ++ back) t)
    (hback : ∀ c ∈ back, isWhitespace c = true) : ∃ t', Whole segment t' := by
  cases back with
  | nil => exact ⟨t, by simpa using h⟩
  | cons c back =>
    have huncut := h.uncut
    have hcomplete := h.complete
    rw [reading, run_append .code trivial (neutral_of_whitespace (hback c List.mem_cons_self))] at huncut hcomplete
    rw [List.zip_append (run_length _ _).symm] at huncut
    obtain ⟨mid, hsegment, hspaces⟩ := huncut.split
    have hsettled : Settled (Lexical.run scannerRules .code segment).2 := by
      by_cases hempty : segment = []
      · rw [hempty]
        trivial
      · exact settled_run .code hempty
    obtain ⟨hending, hevents⟩ := run_spaces (@run_valid .code trivial segment) hsettled hback hcomplete
    have hlast := hspaces.unique (uncut_spaces hback (run_length _ _) hevents)
    refine ⟨mid, hsegment, ?_, hending⟩
    have hdepth := h.closed
    rw [hlast] at hdepth
    exact hdepth

theorem Whole.trim {segment : List Char} {t : Split} (h : Whole segment t) : ∃ t', Whole (trim segment) t' := by
  obtain ⟨front, back, hsegment, hfront, hback⟩ := trim_split segment
  rw [hsegment] at h
  obtain ⟨t', h'⟩ := h.drop_front hfront
  exact h'.drop_back hback

end Segments

section Law

/-- White space, comments and separators, in front of a character: a line comment reaches to the end of its line. -/
inductive Omitted (next : Option Char) : List Char → Prop
  | nil : Omitted next []
  | space {c : Char} {rest : List Char} (hc : isWhitespace c = true) (h : Omitted next rest) : Omitted next (c :: rest)
  | separator {rest : List Char} (h : Omitted next rest) : Omitted next (';' :: rest)
  | line {comment rest : List Char} (hcomment : ∀ c ∈ comment, isLineEnd c = false)
      (hend : (rest.head?.or next).all isLineEnd = true) (h : Omitted next rest) :
      Omitted next ('-' :: '-' :: (comment ++ rest))
  | block {comment rest : List Char} (hcomment : hasInfix ['*', '/'] (comment ++ ['*']) = false)
      (h : Omitted next rest) : Omitted next ('/' :: '*' :: (comment ++ '*' :: '/' :: rest))

/-- The pieces stand in the text one behind the other, and what is between them is omitted. -/
inductive Laid : List Char → List (List Char) → Prop
  | last {gap : List Char} (h : Omitted none gap) : Laid gap []
  | piece {gap piece rest : List Char} {pieces : List (List Char)} (h : Omitted piece.head? gap)
      (hrest : Laid rest pieces) : Laid (gap ++ (piece ++ rest)) (piece :: pieces)

structure SplitLaw (sql : List Char) (pieces : List (List Char)) : Prop where
  nonempty : ∀ piece ∈ pieces, piece ≠ []
  laid : Laid sql pieces
  single : ∀ piece ∈ pieces, splitSqlStatements piece = .ok [piece]

theorem omitted_spaces {next : Option Char} {spaces : List Char} (h : ∀ c ∈ spaces, isWhitespace c = true) :
    Omitted next spaces := by
  induction spaces with
  | nil => exact .nil
  | cons c spaces ih =>
    exact .space (h c List.mem_cons_self) (ih fun d hd => h d (List.mem_cons_of_mem c hd))

/-- Before a separator a line comment has ended. -/
theorem Omitted.append {next : Option Char} {gap rest : List Char} (h : Omitted (some ';') gap)
    (hrest : Omitted next rest) : Omitted next (gap ++ ';' :: rest) := by
  induction h with
  | nil => exact .separator hrest
  | space hc _ ih => exact .space hc ih
  | separator _ ih => exact .separator ih
  | @line comment rest' hcomment hend _ ih =>
    rw [List.cons_append, List.cons_append, List.append_assoc]
    refine .line hcomment ?_ ih
    cases rest' with
    | nil => simp [isLineEnd] at hend
    | cons c rest' => exact hend
  | @block comment rest' hcomment _ ih =>
    rw [List.cons_append, List.cons_append, List.append_assoc]
    exact .block hcomment ih

/-- Omitted text with its separator may stand in front of pieces. -/
theorem Laid.append {gap rest : List Char} {pieces : List (List Char)} (hgap : Omitted (some ';') gap)
    (h : Laid rest pieces) : Laid (gap ++ ';' :: rest) pieces := by
  cases h with
  | last h => exact .last (hgap.append h)
  | @piece gap' piece rest pieces h hrest =>
    have hjoined := Laid.piece (hgap.append h) hrest
    rwa [List.append_assoc] at hjoined

theorem skipBlockComment_split {text : List Char} {n : Nat} (h : skipBlockComment text = .ok n) :
    ∃ comment, n = comment.length+2 ∧ text = comment ++ '*' :: '/' :: text.drop n ∧
      hasInfix ['*', '/'] (comment ++ ['*']) = false := by
  fun_induction skipBlockComment text generalizing n with
  | case1 => cases h
  | case2 => cases h
  | case3 c c' rest hclose =>
    cases h
    obtain ⟨rfl, rfl⟩ := hclose
    exact ⟨[], rfl, rfl, by decide⟩
  | case4 c c' rest hopen ih =>
    cases hm : skipBlockComment (c' :: rest) with
    | error e =>
      rw [hm] at h
      cases h
    | ok m =>
      rw [hm] at h
      cases h
      obtain ⟨comment, rfl, htext, hcomment⟩ := ih hm
      refine ⟨c :: comment, rfl, by simpa using htext, ?_⟩
      have hhead : (['*', '/'].isPrefixOf (c :: (comment ++ ['*']))) = false := by
        cases comment with
        | nil => simp [List.isPrefixOf]
        | cons d comment =>
          obtain ⟨rfl, -⟩ := List.cons.inj htext
          rw [Bool.eq_false_iff]
          intro hlead
          simp only [List.cons_append, List.isPrefixOf, Bool.and_eq_true, beq_iff_eq, and_true] at hlead
          exact hopen ⟨hlead.1.symm, hlead.2.symm⟩
      simpa [hasInfix, hhead] using hcomment

theorem run_comment {comment : List Char} (h : ∀ c ∈ comment, isLineEnd c = false) (read rest : List Char) :
    (Lexical.run scannerRules (.line read) (comment ++ rest)).2 =
      (Lexical.run scannerRules (.line (read ++ comment)) rest).2 := by
  induction comment generalizing read with
  | nil => simp
  | cons c comment ih =>
    have hstep : Lexical.step scannerRules (.line read) c (comment ++ rest).head? = (.line (read ++ [c]), .inside) := by
      simp [Lexical.step, scannerRules, h c List.mem_cons_self]
    rw [List.cons_append, run_cons, hstep]
    simpa using ih (fun d hd => h d (List.mem_cons_of_mem c hd)) (read ++ [c])

theorem lineEnd_isWhitespace {c : Char} (h : isLineEnd c = true) : isWhitespace c = true := by
  simp only [isLineEnd, Bool.or_eq_true, decide_eq_true_eq] at h
  obtain rfl | rfl := h <;> rfl

theorem isTrivia_turn {c : Char} {rest : List Char} {turn : Turn Unit ByteClass}
    (h : triviaBody () c rest = .ok turn) : isTrivia (c :: rest) = isTrivia (rest.drop turn.skip) := by
  rw [isTrivia, loop_turn .code h, isOk_map]
  rfl

/-- Trivia are omitted text, and their last line comment ends in front of a separator. -/
theorem omitted_of_trivia {next : Option Char} {text : List Char} (h : isTrivia text = true)
    (hends : next = none ∨ (Lexical.run scannerRules .code text).2 = .code) : Omitted next text := by
  induction text using head_induction with
  | nil => exact .nil
  | cons c rest ih =>
    by_cases hspace : isAsciiWhitespace c = true
    · have hturn : triviaBody () c rest = .ok ⟨(), 0, .code⟩ := by simp [triviaBody, hspace]
      rw [isTrivia_turn hturn] at h
      rw [run_cons, step_space (asciiWhitespace_isWhitespace hspace)] at hends
      exact .space (asciiWhitespace_isWhitespace hspace) (ih 0 h hends)
    by_cases hline : c = '-' ∧ rest.head? = some '-'
    · obtain ⟨rfl, hnext⟩ := hline
      obtain ⟨more, rfl⟩ := List.head?_eq_some_iff.mp hnext
      have hturn : triviaBody () '-' ('-' :: more) = .ok ⟨(), 1+lineComment more, .inComment⟩ := by
        simp [triviaBody, isAsciiWhitespace]
      rw [isTrivia_turn hturn, Nat.add_comm, List.drop_succ_cons] at h
      have hcomment : ∀ c ∈ more.takeWhile (fun c => !isLineEnd c), isLineEnd c = false := by
        intro c hc
        simpa using List.mem_takeWhile_imp hc
      have hih := ih (lineComment more+1)
      rw [List.drop_succ_cons] at hih
      have hdrop : more.drop (lineComment more) = more.dropWhile fun c => !isLineEnd c := by
        have hleft := @List.drop_left _ (more.takeWhile fun c => !isLineEnd c) (more.dropWhile fun c => !isLineEnd c)
        rw [List.takeWhile_append_dropWhile] at hleft
        exact hleft
      rw [hdrop] at h hih
      have hmode : (Lexical.run scannerRules .code ('-' :: '-' :: more)).2 =
          (Lexical.run scannerRules (.line (more.takeWhile fun c => !isLineEnd c))
            (more.dropWhile fun c => !isLineEnd c)).2 := by
        have hcode : Lexical.step scannerRules .code '-' (some '-') = (.otherHyphen, .comment) := by decide
        have hrun := run_comment hcomment [] (more.dropWhile fun c => !isLineEnd c)
        rw [List.takeWhile_append_dropWhile, List.nil_append] at hrun
        rw [run_cons, List.head?_cons, hcode, run_cons, ← hrun]
        rfl
      rw [hmode] at hends
      rw [← List.takeWhile_append_dropWhile (p := fun c => !isLineEnd c) (l := more)]
      have hend := List.head?_dropWhile_not (fun c => !isLineEnd c) more
      cases hafter : more.dropWhile (fun c => !isLineEnd c) with
      | nil =>
        rw [hafter] at hends
        obtain rfl | hends := hends
        · exact .line hcomment rfl .nil
        · cases hends
      | cons d after =>
        rw [hafter] at h hends hih hend
        have hd : isLineEnd d = true := by simpa using hend
        have hstep : Lexical.step scannerRules (.line (more.takeWhile fun c => !isLineEnd c)) d after.head? =
            Lexical.step scannerRules .code d after.head? := by
          rw [step_space (lineEnd_isWhitespace hd)]
          simp [Lexical.step, scannerRules, hd]
        rw [run_cons, hstep, ← run_cons] at hends
        exact .line hcomment (by simpa using hd) (hih h hends)
    by_cases hblock : c = '/' ∧ rest.head? = some '*'
    · obtain ⟨rfl, hnext⟩ := hblock
      obtain ⟨more, rfl⟩ := List.head?_eq_some_iff.mp hnext
      cases hskip : skipBlockComment more with
      | error e =>
        have hfails : triviaBody () '/' ('*' :: more) = .error () := by simp [triviaBody, isAsciiWhitespace, hskip]
        rw [isTrivia, loop_error hfails] at h
        cases h
      | ok n =>
        have hturn : triviaBody () '/' ('*' :: more) = .ok ⟨(), 1+n, .inComment⟩ := by
          simp [triviaBody, isAsciiWhitespace, hskip]
        rw [isTrivia_turn hturn, Nat.add_comm, List.drop_succ_cons] at h
        have hih := ih (n+1)
        rw [List.drop_succ_cons] at hih
        have hcode : Lexical.step scannerRules .code '/' (some '*') = (.star, .comment) := by decide
        have hmode : (Lexical.run scannerRules .code ('/' :: '*' :: more)).2 =
            (Lexical.run scannerRules .code (more.drop n)).2 := by
          rw [run_cons, List.head?_cons, hcode, run_cons]
          have hrun := congrArg Prod.snd (run_block hskip []).2
          exact hrun
        rw [hmode] at hends
        obtain ⟨comment, -, hmore, hcomment⟩ := skipBlockComment_split hskip
        rw [hmore]
        exact .block hcomment (hih h hends)
    · have hfails : triviaBody () c rest = .error () := by simp [triviaBody, hspace, hline, hblock]
      rw [isTrivia, loop_error hfails] at h
      cases h

theorem laid_segment {segment rest : List Char} {pieces : List (List Char)}
    (hcode : (Lexical.run scannerRules .code segment).2 = .code) (h : Laid rest pieces) :
    Laid (segment ++ ';' :: rest) ((piece segment).toList ++ pieces) := by
  by_cases htrivia : isTrivia segment = true
  · simp only [piece, htrivia, if_true, Option.toList_none, List.nil_append]
    exact h.append (omitted_of_trivia htrivia (.inr hcode))
  · obtain ⟨front, back, hsegment, hfront, hback⟩ := trim_split segment
    have hlaid : Laid (front ++ (trim segment ++ (back ++ ';' :: rest))) (trim segment :: pieces) :=
      .piece (omitted_spaces hfront) (h.append (omitted_spaces hback))
    have htext : segment ++ ';' :: rest = front ++ (trim segment ++ (back ++ ';' :: rest)) := by
      conv_lhs => rw [hsegment]
      simp
    simp only [piece, htrivia, Bool.false_eq_true, if_false, Option.toList_some, List.singleton_append]
    rwa [htext]

theorem laid_last (segment : List Char) : Laid segment (piece segment).toList := by
  by_cases htrivia : isTrivia segment = true
  · simp only [piece, htrivia, if_true, Option.toList_none]
    exact .last (omitted_of_trivia htrivia (.inl rfl))
  · obtain ⟨front, back, hsegment, hfront, hback⟩ := trim_split segment
    have hlaid : Laid (front ++ (trim segment ++ back)) [trim segment] :=
      .piece (omitted_spaces hfront) (.last (omitted_spaces hback))
    simp only [piece, htrivia, Bool.false_eq_true, if_false, Option.toList_some]
    rwa [← hsegment] at hlaid

theorem Segments.laid {text : List Char} {segments : List (List Char)} (h : Segments text segments) :
    Laid text (segments.filterMap piece) := by
  induction h with
  | @last segment t h =>
    have hlaid := laid_last segment
    cases hpiece : piece segment <;> simpa [hpiece] using hlaid
  | @cut segment rest segments t h hcode _ _ ih =>
    have hlaid := laid_segment hcode ih
    cases hpiece : piece segment <;> simpa [hpiece] using hlaid

theorem Segments.whole {text segment : List Char} {segments : List (List Char)} (h : Segments text segments)
    (hmem : segment ∈ segments) : ∃ t, Whole segment t := by
  induction h with
  | last h =>
    obtain rfl := List.mem_singleton.mp hmem
    exact ⟨_, h⟩
  | cut h _ _ _ ih =>
    obtain rfl | hmem := List.mem_cons.mp hmem
    · exact ⟨_, h⟩
    · exact ih hmem

/-- A piece is split into itself, unless it is trivia once it is trimmed. -/
theorem split_trim {segment : List Char} {t : Split} (h : Whole segment t) :
    splitSqlStatements (trim segment) = .ok [trim segment] ↔ isTrivia (trim segment) = false := by
  obtain ⟨t', h'⟩ := h.trim
  rw [split_of_segments (.last h')]
  by_cases htrivia : isTrivia (trim segment) = true
  · simp [piece, htrivia]
  · simp [piece, htrivia, trim_trim]

/-- Splitting keeps its promise exactly when no stretch between separators becomes trivia by being trimmed, as it
does where it begins or ends with white space that is not that of ASCII. -/
theorem split_law (sql : List Char) (pieces : List (List Char)) (h : splitSqlStatements sql = .ok pieces) :
    SplitLaw sql pieces ↔ ∀ segments, Segments sql segments →
      ∀ segment ∈ segments, isTrivia (trim segment) = true → isTrivia segment = true := by
  constructor
  · intro hlaw segments hsegments segment hmem htrimmed
    by_contra htrivia
    have hpieces := Except.ok.inj (h.symm.trans (split_of_segments hsegments))
    have hpiece : trim segment ∈ pieces := by
      rw [hpieces, List.mem_filterMap]
      exact ⟨segment, hmem, by simp [piece, htrivia]⟩
    obtain ⟨t, hwhole⟩ := hsegments.whole hmem
    have hsingle := (split_trim hwhole).mp (hlaw.single _ hpiece)
    rw [htrimmed] at hsingle
    cases hsingle
  · intro hkeeps
    obtain ⟨segments, hsegments⟩ := segments_of_split h
    obtain rfl := Except.ok.inj (h.symm.trans (split_of_segments hsegments))
    have hsingle : ∀ found ∈ segments.filterMap piece, isTrivia found = false ∧
        splitSqlStatements found = .ok [found] := by
      intro found hfound
      obtain ⟨segment, hmem, hpiece⟩ := List.mem_filterMap.mp hfound
      obtain ⟨t, hwhole⟩ := hsegments.whole hmem
      simp only [piece] at hpiece
      split_ifs at hpiece with htrivia
      cases hpiece
      have hkept : isTrivia (trim segment) = false := by
        cases htrimmed : isTrivia (trim segment) with
        | false => rfl
        | true => exact absurd (hkeeps segments hsegments segment hmem htrimmed) htrivia
      exact ⟨hkept, (split_trim hwhole).mpr hkept⟩
    refine ⟨?_, hsegments.laid, fun found hfound => (hsingle found hfound).2⟩
    rintro found hfound rfl
    cases (hsingle [] hfound).1

/-- A statement and a comment, which is left out. -/
theorem commented_split_law : SplitLaw "SELECT 1; -- c".toList ["SELECT 1".toList] := by
  have hsplit : splitSqlStatements "SELECT 1; -- c".toList = .ok ["SELECT 1".toList] := by decide +kernel
  have hlone {text : List Char} (h : ';' ∉ text) {segments : List (List Char)} (hsegments : Segments text segments) :
      segments = [text] := by
    cases hsegments with
    | last _ => rfl
    | cut _ _ _ _ => exact absurd (List.mem_append_right _ List.mem_cons_self) h
  refine (split_law _ _ hsplit).mpr fun segments hsegments => ?_
  generalize hsql : "SELECT 1; -- c".toList = sql at hsegments
  cases hsegments with
  | last _ =>
    rw [← hsql, List.forall_mem_singleton]
    intro htrivia
    exact absurd htrivia (by decide +kernel)
  | @cut segment rest segments t _ _ _ hrest =>
    have htext : "SELECT 1; -- c".toList = "SELECT 1".toList ++ ';' :: " -- c".toList := by decide +kernel
    have hcount : List.count ';' ("SELECT 1; -- c".toList) = 1 := by decide +kernel
    have hnone : ';' ∉ segment := by
      intro hmem
      have hpos := List.count_pos_iff.mpr hmem
      rw [hsql, List.count_append, List.count_cons_self] at hcount
      omega
    obtain ⟨rfl, rfl⟩ := Text.append_separator_inj (by decide +kernel) hnone (htext.symm.trans hsql)
    obtain rfl := hlone (by decide +kernel) hrest
    rw [List.forall_mem_cons, List.forall_mem_singleton]
    refine ⟨fun htrivia => absurd htrivia (by decide +kernel), fun _ => by decide +kernel⟩

def noBreakSpace : Char := Char.ofNat 0xa0

/-- A no-break space behind the last separator is a statement, which is empty. -/
theorem empty_piece :
    splitSqlStatements ("SELECT 1;".toList ++ [noBreakSpace]) = .ok ["SELECT 1".toList, []] ∧
      ¬ SplitLaw ("SELECT 1;".toList ++ [noBreakSpace]) ["SELECT 1".toList, []] ∧
        splitSqlStatements [] = .ok [] := by
  refine ⟨by decide +kernel, ?_, by decide +kernel⟩
  intro hlaw
  exact hlaw.nonempty [] (by simp) rfl

end Law

end Ffdb.Sql
