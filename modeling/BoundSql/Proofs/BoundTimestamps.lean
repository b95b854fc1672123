import BoundSql.Dialect.Standard
import BoundSql.Proofs.FilledSlots
import BoundSql.Proofs.TimestampText

/-!
# Bound timestamps

A dialect binds a timestamp as its text, inside a cast with one slot for the marker
(`Dialect.occurrences_timestampCast`).  The cast is text for the database and does not touch what is
bound, so whoever reads the text as a timestamp gets the one that was given, to the second
(`Dialect.forTimestamp_reads_back`).
-/

namespace BoundSql

open Calendar

/-- A value that is no list, with a text of one slot around it, is bound once and marked once. -/
theorem WrappedValue.splice_of_one_slot {w : WrappedValue} (hmarkers : w.markers = [])
    (hslot : w.template.count .slot = 1) (hscalar : ∀ items item, w.value ≠ .list items item)
    (name : String) (names : Names) :
    ∃ (tokens : List Token) (marker : String) (after : Names),
      w.splice name names = (.ok ⟨tokens, [⟨marker, w.value⟩]⟩, after) ∧
        Token.paramNames tokens = [marker] := by
  refine ⟨Token.compact (w.template.map (fillSlot (names.claim name).1)), (names.claim name).1,
    (names.claim name).2, ?_, ?_⟩
  · unfold splice
    split
    · next items item hvalue => exact absurd hvalue (hscalar items item)
    · rfl
  · rw [Token.paramNames_compact, paramNames_fillSlot _ _ hmarkers, hslot]
    rfl

namespace Dialect

theorem occurrences_timestampCast : ∀ d ∈ bracket :: shipped,
    Text.occurrences d.timestampCast WrappedValue.slotText = 1 := by
  decide +kernel

/-- In every dialect, a timestamp is bound as its text, in a template with one slot and no other
marker.  The text reads back as the timestamp without the fraction of its second, so that two
timestamps are bound as the same text exactly if they agree to the second. -/
theorem forTimestamp_reads_back (d : Dialect) (hd : d ∈ bracket :: shipped) (t : Timestamp) :
    (d.forTimestamp t).value = .varchar t.text ∧
      (d.forTimestamp t).template.count .slot = 1 ∧
      (d.forTimestamp t).markers = [] ∧
      (∀ (name : String) (names : Names),
        ∃ (tokens : List Token) (marker : String) (after : Names),
          (d.forTimestamp t).splice name names =
            (.ok ⟨tokens, [⟨marker, .varchar t.text⟩]⟩, after) ∧
          Token.paramNames tokens = [marker]) ∧
      (NativeType.base .timestamp).decode (.varchar t.text) = .ok t.wholeSecond ∧
      ∀ u : Timestamp, (d.forTimestamp u).value = (d.forTimestamp t).value ↔
        u.wholeSecond = t.wholeSecond := by
  have hmarkers : (d.forTimestamp t).markers = [] := WrappedValue.markers_wrapped _ _
  have hslot : (d.forTimestamp t).template.count .slot = 1 :=
    (WrappedValue.count_slot_wrapped _ _).trans (occurrences_timestampCast d hd)
  refine ⟨rfl, hslot, hmarkers, ?_, ?_, ?_⟩
  · exact WrappedValue.splice_of_one_slot hmarkers hslot fun _ _ hlist => by cases hlist
  · calc (NativeType.base .timestamp).decode (.varchar t.text)
        = readOr .timestamp t.text (Timestamp.read? t.text) := rfl
      _ = .ok t.wholeSecond := by rw [Timestamp.read?_text]; rfl
  · intro u
    have htext : (d.forTimestamp u).value = (d.forTimestamp t).value ↔ u.text = t.text := by
      constructor
      · intro h
        exact Scalar.varchar.inj (Value.scalar.inj h)
      · intro h
        exact congrArg Value.varchar h
    exact htext.trans Timestamp.text_eq_iff

/-- The end of a leap day in a year below zero. -/
def endOfLeapDay : Timestamp where
  date := ⟨-44, 2, 29, by decide, by decide, by decide, by decide⟩
  clock := ⟨23, 59, 59, 999999999, by decide, by decide, by decide, by decide⟩

theorem forTimestamp_reads_back_leapDay :
    mysql ∈ bracket :: shipped ∧
      (mysql.forTimestamp endOfLeapDay).value = .varchar "-0044-02-29 23:59:59" ∧
      (NativeType.base .timestamp).decode (.varchar "-0044-02-29 23:59:59") =
        .ok endOfLeapDay.wholeSecond := by
  have htext : endOfLeapDay.text = "-0044-02-29 23:59:59" := by decide
  obtain ⟨hvalue, -, -, -, hdecode, -⟩ := forTimestamp_reads_back mysql (by decide) endOfLeapDay
  rw [htext] at hvalue hdecode
  exact ⟨by decide, hvalue, hdecode⟩

end Dialect

end BoundSql
