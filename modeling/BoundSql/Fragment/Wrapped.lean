import BoundSql.Fragment.Basic
import BoundSql.Template.Scan

/-!
# Values with text around them

A value that travels together with SQL text: a cast, a pattern, a list of markers.  Where a
placeholder stands for such a value, the text takes the place of the placeholder (`splice`).  A
list binds one item to each marker its text carries; any other value fills the slots of its text
with one marker named after the placeholder.
-/

namespace BoundSql

/-- SQL text and the value it binds. -/
structure WrappedValue where
  template : List Token
  value : Value

namespace WrappedValue

/-- Just the value. -/
def bound (v : Value) : WrappedValue := ⟨[.slot], v⟩

/-- How a template says where the marker of the value goes. -/
def slotText : String := "\x7b0\x7d"

/-- The template with a slot wherever it says `slotText`. -/
def wrapped (template : String) (v : Value) : WrappedValue :=
  let pieces := (Text.splitAt slotText.toList template.toList).map Template.textOf
  ⟨(pieces.intersperse .slot).filter (· ≠ .text ""), v⟩

/-- The names of the markers of the text, in order. -/
def markers (w : WrappedValue) : List String := Token.paramNames w.template

/-- Gives each marker, from the left, a name of its own and an item to stand for. -/
def bindMarkers (names : Names) : List Token → List Value → (List Token × List Binding) × Names
  | .param stale :: ts, v :: vs =>
    let (name, names) := names.claim stale
    let ((us, bs), names) := bindMarkers names ts vs
    ((.param name :: us, ⟨name, v⟩ :: bs), names)
  | t :: ts, vs =>
    let ((us, bs), names) := bindMarkers names ts vs
    ((t :: us, bs), names)
  | [], _ => (([], []), names)

/-- A slot filled with a marker. -/
def fillSlot (name : String) : Token → Token
  | .slot => .param name
  | t => t

/-- The fragment that stands for the value at the placeholder `name`. -/
def splice (name : String) (w : WrappedValue) : Claiming Fragment := fun names =>
  match w.value with
  | .list items _ =>
    if w.markers.length = items.length then
      let ((tokens, bindings), names) := bindMarkers names w.template items
      (.ok ⟨Token.compact tokens, bindings⟩, names)
    else (.error (.count (.markers name w.markers.length items.length)), names)
  | value =>
    let (unique, names) := names.claim name
    (.ok ⟨Token.compact (w.template.map (fillSlot unique)), [⟨unique, value⟩]⟩, names)

end WrappedValue

end BoundSql
