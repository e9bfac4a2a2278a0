import Ffdb.Lib.Text
import Ffdb.Lib.Fallible

/-! Identifiers of the SQL front end. Texts are lists of characters; where the source
counts bytes the model does too. -/
namespace Ffdb.Sql
open Text

structure Identifier where
  value : List Char
  nonempty : value ≠ []
  bounded : value.length ≤ 128
  printable : value.any isControl = false
  deriving DecidableEq

inductive IdentifierError where
  | empty
  | tooLong
  | controlCharacter
  deriving DecidableEq

namespace Identifier

def new (value : List Char) : Except IdentifierError Identifier :=
  if hempty : value = [] then .error .empty
  else if hlong : value.length > 128 then .error .tooLong
  else if hcontrol : value.any isControl = true then .error .controlCharacter
  else .ok ⟨value, hempty, Nat.le_of_not_lt hlong, by simpa using hcontrol⟩

def internalPrefix : List Char := "__ffdb_".toList

def isInternalName (name : List Char) : Bool :=
  internalPrefix.isPrefixOf (toAsciiLowercase name)

def isInternal (identifier : Identifier) : Bool := isInternalName identifier.value

def quoted (identifier : Identifier) : List Char :=
  '"' :: replaceWith '"' ['"', '"'] identifier.value ++ ['"']

@[ext] theorem ext {a b : Identifier} (h : a.value = b.value) : a = b := by
  cases a
  cases b
  cases h
  rfl

-- names are ordered as their texts, which is the order of their bytes
instance : Ord Identifier := ⟨compareOn value⟩

instance : Std.TransOrd Identifier := inferInstanceAs (Std.TransCmp (compareOn value))

instance : Std.LawfulEqOrd Identifier where
  eq_of_compare h := ext (Std.LawfulEqOrd.eq_of_compare h)

end Identifier

end Ffdb.Sql
