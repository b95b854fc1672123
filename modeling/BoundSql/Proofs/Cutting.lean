import BoundSql.Proofs.Batches
import BoundSql.Proofs.Trimming
import Mathlib.Order.Bounds.Basic

/-!
# Cutting texts between characters

A text may be cut at the boundaries of its characters only; these are the valid positions of the
string.  The boundary found for an index is the greatest one that is not beyond it
(`Text.isGreatest_floorBoundary`), and no more than three bytes in front of the index, since no
character takes more than four.  What stands in front of it is the longest start of the text with so
many bytes (`Text.longestStart_takeBytes`), and that is what an error quotes of a statement that
failed (`Act.failure_quotes_start`).
-/

namespace BoundSql

namespace Text

variable {s front : String} {budget index : Nat}

/-! ### Bytes -/

theorem byteCount_eq (cs : List Char) : byteCount cs = (String.ofList cs).utf8ByteSize := by
  induction cs with
  | nil => rfl
  | cons c cs ih =>
    have hcons : String.ofList (c :: cs) = String.singleton c ++ String.ofList cs := by
      rw [String.singleton_eq_ofList, ← String.ofList_append]
      rfl
    rw [byteCount, ih, hcons, String.utf8ByteSize_append, String.utf8ByteSize_singleton]

theorem byteCount_toList (s : String) : byteCount s.toList = s.utf8ByteSize := by
  rw [byteCount_eq, String.ofList_toList]

/-! ### The longest start -/

/-- The start of a text is the longest one that takes at most so many bytes. -/
structure LongestStart (budget : Nat) (s front : String) : Prop where
  isStart : ∃ back, s = front ++ back
  fits : front.utf8ByteSize ≤ budget
  longest : ∀ start back, s = start ++ back → start.utf8ByteSize ≤ budget →
    ∃ more, front = start ++ more

theorem isPrefix_takeBytes {cs ds : List Char} (hstart : ds <+: cs) (hfits : byteCount ds ≤ budget) :
    ds <+: takeBytes budget cs := by
  induction cs generalizing budget ds with
  | nil =>
    rw [List.prefix_nil.mp hstart]
    exact List.nil_prefix
  | cons c cs ih =>
    cases ds with
    | nil => exact List.nil_prefix
    | cons d ds =>
      obtain ⟨rfl, hmore⟩ := List.cons_prefix_cons.mp hstart
      simp only [byteCount] at hfits
      rw [takeBytes, if_pos (by omega)]
      exact List.cons_prefix_cons.mpr ⟨rfl, ih hmore (by omega)⟩

theorem longestStart_takeBytes (budget : Nat) (s : String) :
    LongestStart budget s (String.ofList (takeBytes budget s.toList)) := by
  refine ⟨?_, ?_, ?_⟩
  · obtain ⟨rest, hrest⟩ := takeBytes_isPrefix budget s.toList
    refine ⟨String.ofList rest, ?_⟩
    rw [← String.ofList_append, hrest, String.ofList_toList]
  · rw [← byteCount_eq]
    exact byteCount_takeBytes_le budget s.toList
  · rintro start back rfl hfits
    have hstart : start.toList <+: (start ++ back).toList := by
      rw [String.toList_append]
      exact List.prefix_append _ _
    rw [← byteCount_toList] at hfits
    obtain ⟨more, hmore⟩ := isPrefix_takeBytes hstart hfits
    refine ⟨String.ofList more, ?_⟩
    rw [← hmore, String.ofList_append, String.ofList_toList]

/-! ### The boundary -/

theorem floorBoundary_eq (s : String) (index : Nat) :
    floorBoundary s index = (String.ofList (takeBytes index s.toList)).utf8ByteSize :=
  byteCount_eq _

theorem isGreatest_floorBoundary (s : String) (index : Nat) :
    IsGreatest {p | (⟨p⟩ : String.Pos.Raw).IsValid s ∧ p ≤ index} (floorBoundary s index) := by
  have hlongest := longestStart_takeBytes index s
  rw [floorBoundary_eq]
  refine ⟨⟨?_, hlongest.fits⟩, ?_⟩
  · obtain ⟨back, hback⟩ := hlongest.isStart
    exact String.Pos.Raw.isValid_iff_exists_append.mpr ⟨_, back, hback, rfl⟩
  · rintro p ⟨hvalid, hle⟩
    obtain ⟨start, back, hs, hp⟩ := String.Pos.Raw.isValid_iff_exists_append.mp hvalid
    obtain rfl : p = start.utf8ByteSize := congrArg String.Pos.Raw.byteIdx hp
    obtain ⟨more, hmore⟩ := hlongest.longest start back hs hle
    rw [hmore, String.utf8ByteSize_append]
    exact Nat.le_add_right _ _

theorem floorBoundary_of_le (h : s.utf8ByteSize ≤ index) :
    floorBoundary s index = s.utf8ByteSize := by
  obtain ⟨⟨hvalid, -⟩, hgreatest⟩ := isGreatest_floorBoundary s index
  apply Nat.le_antisymm
  · exact hvalid.le_utf8ByteSize
  · exact hgreatest ⟨String.Pos.Raw.isValid_rawEndPos, h⟩

/-- A character that is not taken any more would go beyond the budget. -/
theorem budget_le_byteCount (budget : Nat) (cs : List Char) :
    min budget (byteCount cs) ≤ byteCount (takeBytes budget cs) + 3 := by
  induction cs generalizing budget with
  | nil => simp [byteCount]
  | cons c cs ih =>
    have hfour : c.utf8Size ≤ 4 := c.utf8Size_le_four
    have hmore := ih (budget - c.utf8Size)
    rw [takeBytes]
    split
    · simp only [byteCount]
      omega
    · simp only [byteCount]
      omega

theorem le_floorBoundary_add (s : String) (index : Nat) :
    min index s.utf8ByteSize ≤ floorBoundary s index + 3 := by
  rw [← byteCount_toList]
  exact budget_le_byteCount index s.toList

theorem exists_cut (s : String) (index : Nat) :
    ∃ front back, s = front ++ back ∧ front.utf8ByteSize = floorBoundary s index := by
  obtain ⟨back, hback⟩ := (longestStart_takeBytes index s).isStart
  exact ⟨_, back, hback, (floorBoundary_eq s index).symm⟩

/-! ### Quoted statements -/

theorem exists_abbreviate (s : String) :
    ∃ front kept blanks : String,
      LongestStart quotedBytes s front ∧ front.utf8ByteSize = floorBoundary s quotedBytes ∧
      front = kept ++ blanks ∧ allBlank blanks = true ∧
      (∀ c ∈ kept.toList.getLast?, isBlank c = false) ∧
      abbreviate s = kept ++ if quotedBytes < s.utf8ByteSize then "..." else "" := by
  obtain ⟨blanks, hblanks, hfront⟩ :=
    trimEnd_append (String.ofList (takeBytes quotedBytes s.toList))
  refine ⟨_, _, blanks, longestStart_takeBytes quotedBytes s, ?_, hfront.symm, hblanks, ?_, ?_⟩
  · exact (floorBoundary_eq s quotedBytes).symm
  · exact trimEnd_eq_self.mp (trimEnd_trimEnd _)
  · rw [abbreviate, byteCount_toList]

end Text

namespace Act

/-- The boundary found for an index is the greatest one that is not beyond it, the end of the text
where the index is; it is at most three bytes in front, and the text can be cut there.

A statement that fails on its connection is quoted in the error, up to the boundary found for 497:
the longest start of at most so many bytes, without the blanks at its end, and three dots exactly if
the statement is longer. -/
theorem failure_quotes_start :
    (∀ (s : String) (index : Nat),
      IsGreatest {p | (⟨p⟩ : String.Pos.Raw).IsValid s ∧ p ≤ index} (Text.floorBoundary s index) ∧
      (s.utf8ByteSize ≤ index → Text.floorBoundary s index = s.utf8ByteSize) ∧
      min index s.utf8ByteSize ≤ Text.floorBoundary s index + 3 ∧
      ∃ front back, s = front ++ back ∧ front.utf8ByteSize = Text.floorBoundary s index) ∧
    ∀ (sql : String) (bindings : List Binding) (state : Service × Session) (e : Fault),
      Connected state → (run sql bindings state).1 = .error e →
      ∃ front kept blanks : String,
        Text.LongestStart 497 sql front ∧ front.utf8ByteSize = Text.floorBoundary sql 497 ∧
        front = kept ++ blanks ∧ Text.allBlank blanks = true ∧
        (∀ c ∈ kept.toList.getLast?, Text.isBlank c = false) ∧
        e.message = "While executing `" ++ kept ++
          (if 497 < sql.utf8ByteSize then "..." else "") ++ "`" := by
  constructor
  · intro s index
    exact ⟨Text.isGreatest_floorBoundary s index, Text.floorBoundary_of_le,
      Text.le_floorBoundary_add s index, Text.exists_cut s index⟩
  · rintro sql bindings ⟨service, session⟩ e hconnected hfailed
    obtain ⟨front, kept, blanks, hlongest, hsize, hfront, hblanks, hfirm, hquoted⟩ :=
      Text.exists_abbreviate sql
    refine ⟨front, kept, blanks, hlongest, hsize, hfront, hblanks, hfirm, ?_⟩
    rw [(run_of_connected sql bindings hconnected).1] at hfailed
    cases hanswer : service.memory.answer sql bindings with
    | ok rows =>
      rw [hanswer] at hfailed
      cases hfailed
    | error cause =>
      rw [hanswer] at hfailed
      cases hfailed
      show "While executing " ++ ticked (Text.abbreviate sql) = _
      rw [hquoted, ticked]
      simp only [Text.quotedBytes, String.append_assoc]
      rfl

/-- A statement with a character of two bytes where the quote would end. -/
def straddling : String := String.ofList (List.replicate 124 '🎁' ++ ['é', '!'])

/-- A session on a database that answers every statement with an error. -/
def onFullDisk : Service × Session :=
  (⟨{ Memory.fresh with
      responders := [fun _ _ => some (.error (.refused (.reported "disk full")))] }, .empty, []⟩,
    ⟨.sqlite, ⟨"sqlite", "shop.db"⟩, 1000, false, false, none, []⟩)

theorem failure_quotes_start_straddling :
    Text.floorBoundary straddling 497 = 496 ∧ Connected onFullDisk ∧
      ∃ e, (run straddling [] onFullDisk).1 = .error e ∧
        ∃ front kept blanks : String,
          front.utf8ByteSize = 496 ∧ front = kept ++ blanks ∧ Text.allBlank blanks = true ∧
          e.message = "While executing `" ++ kept ++ "..." ++ "`" := by
  have hchars : straddling.toList = List.replicate 124 '🎁' ++ ['é', '!'] := String.toList_ofList
  have hboundary : Text.floorBoundary straddling 497 = 496 := by
    unfold Text.floorBoundary
    simp only [hchars]
    decide +kernel
  have hlong : 497 < straddling.utf8ByteSize := by
    have hbytes : 497 < Text.byteCount straddling.toList := by
      simp only [hchars]
      decide +kernel
    rwa [Text.byteCount_toList] at hbytes
  have hconnected : Connected onFullDisk := rfl
  have hfailed : (run straddling [] onFullDisk).1 =
      .error (.within (.executing straddling) (.refused (.reported "disk full"))) :=
    (run_of_connected straddling [] hconnected).1
  obtain ⟨front, kept, blanks, -, hsize, hfront, hblanks, -, hmessage⟩ :=
    failure_quotes_start.2 straddling [] onFullDisk _ hconnected hfailed
  rw [hboundary] at hsize
  rw [if_pos hlong] at hmessage
  exact ⟨hboundary, hconnected, _, hfailed, front, kept, blanks, hsize, hfront, hblanks, hmessage⟩

end Act

end BoundSql
