import Mathlib.Tactic.Linarith

/-! The lexical skeleton of SQL as a machine over characters with one character of
lookahead: quoted texts with doubled quotes, bracketed names, line and block comments,
and words. What is a word character and what ends a line comment are parameters, so that
two readers of one text can be compared step by step. -/
namespace Lexical

structure Rules where
  wordStart : Char → Bool
  wordContinue : Char → Bool
  lineEnd : Char → Bool

/-- Where in the text the reader is. The modes named after a second character wait for
it: the other hyphen, the star, the slash or the other quote. -/
inductive Mode where
  | code
  | word (read : List Char)
  | quoted (quote : Char) (read : List Char)
  | otherQuote (quote : Char) (read : List Char)
  | bracketed (read : List Char)
  | otherHyphen
  | line (read : List Char)
  | star
  | block (read : List Char)
  | slash
  deriving DecidableEq

/-- What a character completes: itself as code, a word, a quoted or a bracketed text. -/
inductive Event where
  | code (c : Char)
  | word (text : List Char)
  | quoted (quote : Char) (text : List Char)
  | bracketed (text : List Char)
  | comment
  | inside
  deriving DecidableEq

def isQuote (c : Char) : Bool := c = Char.ofNat 39 || c = '"' || c = Char.ofNat 96

section Machine
variable (rules : Rules)

def wordTo (read : List Char) (next : Option Char) : Mode × Event :=
  if next.any rules.wordContinue then (.word read, .inside) else (.code, .word read)

def codeStep (c : Char) (next : Option Char) : Mode × Event :=
  if isQuote c then (.quoted c [], .inside)
  else if c = '[' then (.bracketed [], .inside)
  else if c = '-' ∧ next = some '-' then (.otherHyphen, .comment)
  else if c = '/' ∧ next = some '*' then (.star, .comment)
  else if rules.wordStart c then wordTo rules [c] next
  else (.code, .code c)

def step (mode : Mode) (c : Char) (next : Option Char) : Mode × Event :=
  match mode with
  | .code => codeStep rules c next
  | .word read => wordTo rules (read ++ [c]) next
  | .quoted quote read =>
    if c = quote then
      if next = some quote then (.otherQuote quote read, .inside) else (.code, .quoted quote read)
    else (.quoted quote (read ++ [c]), .inside)
  | .otherQuote quote read => (.quoted quote (read ++ [quote]), .inside)
  | .bracketed read =>
    if c = ']' then (.code, .bracketed read) else (.bracketed (read ++ [c]), .inside)
  | .otherHyphen => (.line [], .inside)
  | .line read => if rules.lineEnd c then (.code, .code c) else (.line (read ++ [c]), .inside)
  | .star => (.block [], .inside)
  | .block read =>
    if c = '*' ∧ next = some '/' then (.slash, .inside) else (.block (read ++ [c]), .inside)
  | .slash => (.code, .inside)

def run : Mode → List Char → List Event × Mode
  | mode, [] => ([], mode)
  | mode, c :: rest =>
    let (next, event) := step rules mode c rest.head?
    let (events, last) := run next rest
    (event :: events, last)

def Mode.Valid : Mode → Prop
  | .quoted quote _ | .otherQuote quote _ => isQuote quote = true
  | _ => True

theorem step_valid {mode : Mode} (h : mode.Valid) (c : Char) (next : Option Char) :
    (step rules mode c next).1.Valid := by
  have hword (read : List Char) : (wordTo rules read next).1.Valid := by
    simp only [wordTo]
    split <;> trivial
  cases mode with
  | code =>
    simp only [step, codeStep]
    split
    · next hc => exact hc
    · split_ifs <;> first | exact hword [c] | trivial
  | word read => exact hword (read ++ [c])
  | quoted quote read =>
    simp only [step]
    split_ifs <;> first | exact h | trivial
  | otherQuote quote read => exact h
  | bracketed read =>
    simp only [step]
    split <;> trivial
  | otherHyphen => trivial
  | line read =>
    simp only [step]
    split <;> trivial
  | star => trivial
  | block read =>
    simp only [step]
    split <;> trivial
  | slash => trivial

end Machine

end Lexical
