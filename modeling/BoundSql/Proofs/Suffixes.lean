import BoundSql.Proofs.Names
import Mathlib.Order.Bounds.Basic

/-!
# Numbers behind taken names

A name that is taken gets a number, and the search for it starts where the last one for the same
name ended.  That is as good as a search from `1`: no name is ever given back, so that the numbers
passed over before make taken names for good (`Names.Tried`).  A claim keeps this, whatever name it
is for, be it `id1` after `id`; so claims in a row, from a statement without names on, each take the
least number that makes their name free (`Names.claim_takes_least`).

The search looks at boundedly many numbers.  `Names.Seeks` is the search without a bound; it ends at
`m` exactly if `m` is the least number that makes the name free (`Names.seeks_iff`), and there is
such a number whatever names are taken.
-/

namespace BoundSql.Names

open Numeric

variable {taken : List String} {base : String} {k m : Nat}

/-! ### The search -/

/-- The search for a number from `k` on ends at `m`. -/
inductive Seeks (taken : List String) (base : String) : Nat → Nat → Prop where
  | found {k : Nat} (h : numbered base k ∉ taken) : Seeks taken base k k
  | passed {k m : Nat} (h : numbered base k ∈ taken) (more : Seeks taken base (k + 1) m) :
      Seeks taken base k m

theorem seeks_of_isLeast (h : IsLeast {j | k ≤ j ∧ numbered base j ∉ taken} m) :
    Seeks taken base k m := by
  obtain ⟨⟨hle, hfree⟩, hleast⟩ := h
  obtain ⟨steps, rfl⟩ := Nat.exists_eq_add_of_le hle
  induction steps generalizing k with
  | zero => exact .found hfree
  | succ steps ih =>
    have htaken : numbered base k ∈ taken := by
      by_contra hk
      have hlower : k + (steps + 1) ≤ k := hleast ⟨Nat.le_refl k, hk⟩
      omega
    have hsum : k + (steps + 1) = k + 1 + steps := by omega
    rw [hsum] at hfree hleast ⊢
    refine .passed htaken (ih ?_ (Nat.le_add_right _ _) hfree)
    rintro j ⟨hj, hjfree⟩
    exact hleast ⟨by omega, hjfree⟩

theorem seeks_iff :
    Seeks taken base k m ↔ IsLeast {j | k ≤ j ∧ numbered base j ∉ taken} m := by
  constructor
  · intro h
    induction h with
    | found hfree => exact ⟨⟨Nat.le_refl _, hfree⟩, fun j hj => hj.1⟩
    | @passed k m htaken _ ih =>
      obtain ⟨⟨hle, hfree⟩, hleast⟩ := ih
      refine ⟨⟨by omega, hfree⟩, ?_⟩
      rintro j ⟨hj, hjfree⟩
      have hne : k ≠ j := by
        rintro rfl
        exact hjfree htaken
      exact hleast ⟨by omega, hjfree⟩
  · exact seeks_of_isLeast

theorem le_freeFrom (taken : List String) (base : String) (k fuel : Nat) :
    k ≤ freeFrom taken base k fuel := by
  induction fuel generalizing k with
  | zero => exact Nat.le_refl k
  | succ fuel ih =>
    simp only [freeFrom]
    split
    · exact Nat.le_of_succ_le (ih (k + 1))
    · exact Nat.le_refl k

/-- The bound of the search is never met. -/
theorem isLeast_freeFrom (taken : List String) (base : String) (k : Nat) :
    IsLeast {j | k ≤ j ∧ numbered base j ∉ taken} (freeFrom taken base k (taken.length + 1)) := by
  constructor
  · exact ⟨le_freeFrom taken base k _, freeFrom_not_mem taken base k⟩
  · rintro j ⟨hj, hfree⟩
    by_contra hlt
    exact hfree (mem_of_lt_freeFrom taken base k _ j hj (Nat.lt_of_not_le hlt))

/-! ### Numbers that were tried -/

/-- The numbers below the next one to try make names that are taken. -/
structure Tried (names : Names) : Prop where
  one_le : ∀ base, 1 ≤ names.nextFor base
  mem_taken : ∀ base j, 1 ≤ j → j < names.nextFor base → numbered base j ∈ names.taken

theorem tried_none : none.Tried where
  one_le _ := Nat.le_refl 1
  mem_taken _ _ hj hlt := absurd hlt (Nat.not_lt.mpr hj)

theorem nextFor_claim (names : Names) (base other : String) :
    (names.claim base).2.nextFor other =
      if base ∈ names.taken ∧ other = base then
        freeFrom names.taken base (names.nextFor base) (names.taken.length + 1) + 1
      else names.nextFor other := by
  unfold claim
  by_cases hbase : base ∈ names.taken
  · rw [if_pos (List.contains_iff_mem.mpr hbase)]
    by_cases hother : other = base
    · rw [if_pos ⟨hbase, hother⟩, hother]
      simp [nextFor]
    · rw [if_neg fun h => hother h.2]
      simp only [nextFor]
      rw [lookup_cons_of_ne _ hother, lookup_filter_of_ne hother]
  · rw [if_neg (mt List.contains_iff_mem.mp hbase), if_neg fun h => hbase h.1]
    rfl

variable {names : Names}

/-- Where the search starts does not matter then. -/
theorem Tried.freeFrom_nextFor (h : names.Tried) (base : String) :
    freeFrom names.taken base (names.nextFor base) (names.taken.length + 1) =
      leastFree names.taken base := by
  obtain ⟨⟨hle, hfree⟩, hleast⟩ := isLeast_freeFrom names.taken base (names.nextFor base)
  refine IsLeast.unique (s := {j | 1 ≤ j ∧ numbered base j ∉ names.taken}) ⟨?_, ?_⟩ ?_
  · exact ⟨(h.one_le base).trans hle, hfree⟩
  · rintro j ⟨hj, hjfree⟩
    refine hleast ⟨?_, hjfree⟩
    by_contra hlt
    exact hjfree (h.mem_taken base j hj (Nat.lt_of_not_le hlt))
  · exact isLeast_freeFrom names.taken base 1

theorem claim_of_free (h : base ∉ names.taken) : (names.claim base).1 = base := by
  unfold claim
  rw [if_neg (mt List.contains_iff_mem.mp h)]

theorem Tried.claim_of_taken (h : names.Tried) (hbase : base ∈ names.taken) :
    (names.claim base).1 = numbered base (leastFree names.taken base) := by
  unfold Names.claim
  rw [if_pos (List.contains_iff_mem.mpr hbase), ← h.freeFrom_nextFor]

theorem Tried.claim (h : names.Tried) (base : String) : (names.claim base).2.Tried := by
  constructor
  · intro other
    rw [nextFor_claim]
    split
    · exact Nat.le_add_left 1 _
    · exact h.one_le other
  · intro other j hj hlt
    rw [nextFor_claim] at hlt
    rw [taken_claim]
    split at hlt
    · next hsame =>
      obtain ⟨hbase, rfl⟩ := hsame
      rw [h.freeFrom_nextFor] at hlt
      -- below the number found all were taken before, and the claim takes the one found
      rcases Nat.lt_succ_iff_lt_or_eq.mp hlt with hbelow | rfl
      · refine List.mem_cons_of_mem _ ?_
        exact mem_of_lt_freeFrom names.taken other 1 _ j hj hbelow
      · rw [h.claim_of_taken hbase]
        exact List.mem_cons_self
    · exact List.mem_cons_of_mem _ (h.mem_taken other j hj hlt)

theorem Tried.claimAll (h : names.Tried) (bases : List String) : (names.claimAll bases).2.Tried := by
  induction bases generalizing names with
  | nil => exact h
  | cons base bases ih => exact ih (h.claim base)

/-! ### Claims in a row -/

theorem taken_claimAll (names : Names) (bases : List String) :
    (names.claimAll bases).2.taken = (names.claimAll bases).1.reverse ++ names.taken := by
  induction bases generalizing names with
  | nil => rfl
  | cons base bases ih =>
    simp only [claimAll, List.reverse_cons, List.append_assoc, List.singleton_append]
    rw [ih, taken_claim]

theorem contains_claimAll (bases : List String) (other : String) :
    (none.claimAll bases).2.contains other = true ↔ other ∈ (none.claimAll bases).1 := by
  unfold contains
  rw [List.contains_iff_mem, taken_claimAll, List.mem_append, List.mem_reverse]
  exact or_iff_left List.not_mem_nil

/-- After any claims in a row, the names that are taken are those returned.  A name that is not
taken is claimed as it is; for one that is, the search ends, and at the least number from `1` on
that makes it free.  Either way the name returned was free and is taken then, so no two of all names
returned are the same. -/
theorem claim_takes_least (earlier : List String) (base : String) :
    (∀ other, (none.claimAll earlier).2.contains other = true ↔
      other ∈ (none.claimAll earlier).1) ∧
    let returned := (none.claimAll earlier).1
    let names := (none.claimAll earlier).2
    let name := (names.claim base).1
    (base ∉ returned → name = base) ∧
      (base ∈ returned → ∃ k, Seeks names.taken base (names.nextFor base) k ∧
        IsLeast {k | 1 ≤ k ∧ names.contains (base ++ natText k) = false} k ∧
        name = base ++ natText k) ∧
      names.contains name = false ∧ (names.claim base).2.contains name = true ∧
      (returned ++ [name]).Nodup := by
  have hreturned := contains_claimAll earlier
  refine ⟨hreturned, ?_⟩
  intro returned names name
  have htaken : ∀ other, other ∈ names.taken ↔ other ∈ returned := fun other =>
    List.contains_iff_mem.symm.trans (hreturned other)
  have hfresh : name ∉ returned := mt (htaken name).mpr (claim_not_mem names base)
  refine ⟨?_, ?_, ?_, ?_, ?_⟩
  · intro hbase
    exact claim_of_free (mt (htaken base).mp hbase)
  · intro hbase
    have htried : names.Tried := tried_none.claimAll earlier
    have hleast := isLeast_freeFrom names.taken base (names.nextFor base)
    rw [htried.freeFrom_nextFor] at hleast
    refine ⟨leastFree names.taken base, seeks_iff.mpr hleast, ?_, ?_⟩
    · have hfree : ∀ k, names.contains (base ++ natText k) = false ↔
          numbered base k ∉ names.taken := fun k => by
        rw [← Bool.not_eq_true, hreturned, htaken, numbered]
      simp only [hfree]
      exact isLeast_freeFrom names.taken base 1
    · exact htried.claim_of_taken ((htaken base).mpr hbase)
  · rw [← Bool.not_eq_true, hreturned]
    exact hfresh
  · exact List.contains_iff_mem.mpr (claim_mem names base)
  · rw [List.nodup_append']
    refine ⟨(none.claimAll_fresh earlier).2.1, List.nodup_singleton name, ?_⟩
    rintro other hother hname
    rw [List.mem_singleton.mp hname] at hother
    exact hfresh hother

/-- The search for a third `id` starts at `2` and passes over a name that was claimed for itself. -/
theorem claim_takes_least_id :
    let names := (none.claimAll ["id2", "id", "id"]).2
    "id" ∈ (none.claimAll ["id2", "id", "id"]).1 ∧ names.nextFor "id" = 2 ∧
      (names.claim "id").1 = "id3" ∧
      IsLeast {k | 1 ≤ k ∧ names.contains ("id" ++ natText k) = false} 3 := by
  intro names
  obtain ⟨-, -, hleast, -⟩ := claim_takes_least ["id2", "id", "id"] "id"
  have hid : "id" ∈ (none.claimAll ["id2", "id", "id"]).1 := by decide +kernel
  obtain ⟨k, -, hk, hname⟩ := hleast hid
  have hthird : (names.claim "id").1 = "id" ++ natText 3 := by decide +kernel
  obtain rfl : 3 = k := numbered_injective "id" (hthird.symm.trans hname)
  exact ⟨hid, by decide +kernel, by decide +kernel, hk⟩

end BoundSql.Names
