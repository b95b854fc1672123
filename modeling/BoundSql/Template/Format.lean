import BoundSql.Fault
import BoundSql.Template.Scan

/-!
# Positional formatting

A template in which a number between braces stands for the argument of that index and a doubled
brace for a brace.  The arguments are copied as they are, so a template with placeholders is
refused: values must be bound.
-/

namespace BoundSql.Template

open Numeric

def isDigit (c : Char) : Bool := (digitValue? c).isSome

/-- Indexes are smaller than this. -/
def indexLimit : Nat := pow2 64

/-- The index a slot names after its brace, and what follows the slot. -/
def slotIndex? (cs : List Char) : Option (Nat × List Char) :=
  match (readDigits? (cs.takeWhile isDigit)).filter (· < indexLimit), cs.dropWhile isDigit with
  | some index, '\x7d' :: rest => some (index, rest)
  | _, _ => none

theorem slotIndex?_length {cs rest : List Char} {index : Nat}
    (h : slotIndex? cs = some (index, rest)) : rest.length < cs.length := by
  have hl := length_dropWhile_le isDigit cs
  simp only [slotIndex?] at h
  split at h
  · next hd =>
    rw [hd] at hl
    simp only [Option.some.injEq, Prod.mk.injEq] at h
    obtain ⟨-, rfl⟩ := h
    simp only [List.length_cons] at hl
    omega
  · simp at h

/-- Puts characters before a text, unless that failed. -/
def before (cs : List Char) (r : Except Fault (List Char)) : Except Fault (List Char) :=
  r.map (cs ++ ·)

/-- Fills the slots of the characters; the first slot that cannot be filled is the fault. -/
def fill (template : String) (args : List String) (cs : List Char) : Except Fault (List Char) :=
  match cs with
  | [] => .ok []
  | '\x7b' :: '\x7b' :: rest => before ['\x7b'] (fill template args rest)
  | '\x7d' :: '\x7d' :: rest => before ['\x7d'] (fill template args rest)
  | '\x7b' :: rest =>
    match h : slotIndex? rest with
    | none => .error (.template (.malformedSlot template))
    | some (index, after) =>
      have := slotIndex?_length h
      match args[index]? with
      | none => .error (.count (.missingArgument template index args.length))
      | some arg => before arg.toList (fill template args after)
  | c :: rest => before [c] (fill template args rest)
termination_by cs.length
decreasing_by
  all_goals simp only [List.length_cons]; omega

/-- The template with its slots filled. -/
def format (template : String) (args : List String) : Except Fault String :=
  let count := (Token.paramNames (scan template)).length
  if count > 0 then .error (.template (.placeholders template count))
  else (fill template args template.toList).map String.ofList

end BoundSql.Template
