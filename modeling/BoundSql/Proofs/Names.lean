import BoundSql.Fragment.Names
import Mathlib.Data.List.Nodup
import Mathlib.Data.List.Perm.Subperm

/-!
# Laws of parameter names

A claimed name was free before and is taken afterwards, whatever names are taken.  The search for a
number looks at one number more than there are names; the names it makes differ from each other, so
they cannot all be taken (`freeFrom_not_mem`).
-/

namespace BoundSql

/-- What is found under a name stands under it. -/
theorem mem_of_lookup {α : Type} {entries : List (String × α)} {name : String} {x : α}
    (h : entries.lookup name = some x) : (name, x) ∈ entries := by
  obtain ⟨_, _, hsplit, -⟩ := List.lookup_eq_some_iff.mp h
  rw [hsplit]
  simp

theorem lookup_map_snd {α β : Type} (entries : List (String × α)) (name : String) (f : α → β) :
    (entries.map (Prod.map id f)).lookup name = (entries.lookup name).map f := by
  induction entries with
  | nil => rfl
  | cons entry entries ih =>
    obtain ⟨other, x⟩ := entry
    simp only [List.map_cons, Prod.map_apply, id_eq, List.lookup_cons]
    split
    · rfl
    · exact ih

theorem lookup_cons_of_ne {α : Type} {entries : List (String × α)} {name other : String} (x : α)
    (hother : other ≠ name) : ((name, x) :: entries).lookup other = entries.lookup other := by
  have hne : (other == name) = false := beq_eq_false_iff_ne.mpr hother
  rw [List.lookup_cons, hne]

/-- What is kept under one name is not touched by taking out what is kept under another one. -/
theorem lookup_filter_of_ne {α β : Type} [BEq α] [LawfulBEq α] {key other : α} (hne : other ≠ key)
    (entries : List (α × β)) :
    (entries.filter (·.1 != key)).lookup other = entries.lookup other := by
  induction entries with
  | nil => rfl
  | cons entry entries ih =>
    by_cases hentry : entry.1 = key
    · have hother : (other == entry.1) = false := by
        rw [hentry]
        exact beq_false_of_ne hne
      rw [List.filter_cons_of_neg (by simp [hentry]), List.lookup_cons, hother]
      exact ih
    · rw [List.filter_cons_of_pos (by simp [hentry]), List.lookup_cons, List.lookup_cons, ih]

namespace Names

/-! ### Numbered names -/

theorem natText_injective : Function.Injective Numeric.natText := by
  intro m n h
  have hdigits : Nat.toDigits 10 m = Nat.toDigits 10 n := String.ofList_injective h
  have hread := congrArg (Nat.ofDigitChars 10 · 0) hdigits
  simpa using hread

theorem numbered_injective (base : String) : Function.Injective (numbered base) := by
  intro m n h
  have htext : Numeric.natText m = Numeric.natText n := by
    simpa [numbered] using h
  exact natText_injective htext

/-! ### The search for a free number -/

/-- All numbers that the search passes over make a name that is taken. -/
theorem mem_of_lt_freeFrom (taken : List String) (base : String) (k fuel : Nat) :
    ∀ j, k ≤ j → j < freeFrom taken base k fuel → numbered base j ∈ taken := by
  induction fuel generalizing k with
  | zero =>
    intro j hk hj
    simp only [freeFrom] at hj
    omega
  | succ fuel ih =>
    intro j hk hj
    simp only [freeFrom] at hj
    split at hj
    · next htaken =>
      rcases Nat.eq_or_lt_of_le hk with rfl | hlt
      · simpa using htaken
      · exact ih (k + 1) j hlt hj
    · omega

/-- The search ends at a free name, or has used up its fuel. -/
theorem freeFrom_not_mem_or (taken : List String) (base : String) (k fuel : Nat) :
    numbered base (freeFrom taken base k fuel) ∉ taken ∨
      freeFrom taken base k fuel = k + fuel := by
  induction fuel generalizing k with
  | zero => exact .inr rfl
  | succ fuel ih =>
    simp only [freeFrom]
    split
    · rcases ih (k + 1) with h | h
      · exact .inl h
      · exact .inr (by omega)
    · next hfree => exact .inl (by simpa using hfree)

/-- With more fuel than names are taken the search ends at a free name. -/
theorem freeFrom_not_mem (taken : List String) (base : String) (k : Nat) :
    numbered base (freeFrom taken base k (taken.length + 1)) ∉ taken := by
  rcases freeFrom_not_mem_or taken base k (taken.length + 1) with h | h
  · exact h
  · -- all numbers looked at are taken: more different names than there are
    exfalso
    have hpassed := mem_of_lt_freeFrom taken base k (taken.length + 1)
    rw [h] at hpassed
    let tried := (List.range' k (taken.length + 1)).map (numbered base)
    have hnodup : tried.Nodup :=
      List.Nodup.map (numbered_injective base) (List.nodup_range' 1)
    have hsub : tried ⊆ taken := by
      intro name hname
      obtain ⟨j, hj, rfl⟩ := List.mem_map.mp hname
      have hj := List.mem_range'_1.mp hj
      exact hpassed j hj.1 hj.2
    have hle := (List.subperm_of_subset hnodup hsub).length_le
    simp only [tried, List.length_map, List.length_range'] at hle
    omega

/-! ### Claims -/

variable (names : Names) (base : String)

/-- What a claim does: it takes a name that was free. -/
theorem claim_fresh :
    (names.claim base).1 ∉ names.taken ∧
      (names.claim base).2.taken = (names.claim base).1 :: names.taken := by
  unfold claim
  split
  · exact ⟨freeFrom_not_mem names.taken base _, rfl⟩
  · next hfree => exact ⟨by simpa using hfree, rfl⟩

theorem claim_not_mem : (names.claim base).1 ∉ names.taken := (claim_fresh names base).1

theorem taken_claim :
    (names.claim base).2.taken = (names.claim base).1 :: names.taken :=
  (claim_fresh names base).2

theorem claim_mem : (names.claim base).1 ∈ (names.claim base).2.taken := by
  rw [taken_claim]
  exact List.mem_cons_self

theorem taken_subset_claim : names.taken ⊆ (names.claim base).2.taken := by
  rw [taken_claim]
  exact List.subset_cons_self _ _

/-- Claims in a row take as many names, different from each other and free before. -/
theorem claimAll_fresh (bases : List String) :
    (names.claimAll bases).1.length = bases.length ∧
      (names.claimAll bases).1.Nodup ∧
      (∀ name ∈ (names.claimAll bases).1, name ∉ names.taken) ∧
      (∀ name ∈ (names.claimAll bases).1, name ∈ (names.claimAll bases).2.taken) ∧
      names.taken ⊆ (names.claimAll bases).2.taken := by
  induction bases generalizing names with
  | nil => simp [claimAll]
  | cons base bases ih =>
    obtain ⟨hlength, hnodup, hfree, htaken, hsub⟩ := ih (names.claim base).2
    have hgrow := taken_subset_claim names base
    simp only [claimAll, List.length_cons, List.nodup_cons, List.forall_mem_cons]
    refine ⟨by rw [hlength], ⟨?_, hnodup⟩, ⟨claim_not_mem names base, ?_⟩, ⟨?_, htaken⟩, ?_⟩
    · intro hmem
      exact hfree _ hmem (claim_mem names base)
    · intro name hname hold
      exact hfree name hname (hgrow hold)
    · exact hsub (claim_mem names base)
    · exact List.Subset.trans hgrow hsub

end Names

end BoundSql
