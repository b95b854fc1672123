import BoundSql.Proofs.Claiming

/-!
# Renaming what another statement bound

A statement that becomes part of another one claims a name for each of its bindings and is renamed,
all at once, to what it was given (`Fragment.claimNames`).  Where its own names are different from
each other, each is renamed to the name claimed for it, so its markers go on naming its bindings and
nothing in the other statement.
-/

namespace BoundSql

namespace Fragment

variable {known : List String}

/-- Of pairs with different names in front, those that change something rename each name to what is
paired with it. -/
theorem renamed_of_mem {pairs : List (String × String)} (hpairs : (pairs.map (·.1)).Nodup)
    {old new : String} (hmem : (old, new) ∈ pairs) :
    renamed (pairs.filter fun (old, new) => new != old) old = new := by
  unfold renamed
  cases hlookup : (pairs.filter fun (old, new) => new != old).reverse.lookup old with
  | none =>
    rw [List.lookup_eq_none_iff] at hlookup
    by_cases heq : new = old
    · simp [heq]
    · exfalso
      have hkept : (old, new) ∈ (pairs.filter fun (old, new) => new != old).reverse := by
        simp [hmem, heq]
      simpa using hlookup (old, new) hkept
  | some other =>
    have hother : (old, other) ∈ pairs :=
      List.mem_of_mem_filter (List.mem_reverse.mp (mem_of_lookup hlookup))
    have hsame := List.inj_on_of_nodup_map hpairs hother hmem rfl
    simpa using hsame

/-- What `claimNames` renames a name to. -/
def claimedName (f : Fragment) (names : Names) : String → String :=
  renamed ((f.names.zip (names.claimAll f.names).1).filter fun (old, new) => new != old)

theorem claimNames_bindings (f : Fragment) (names : Names) :
    (f.claimNames names).1.bindings =
      f.bindings.map fun b => { b with name := f.claimedName names b.name } := rfl

theorem claimNames_names (f : Fragment) (names : Names) :
    (f.claimNames names).1.names = f.names.map (f.claimedName names) := by
  simp [Fragment.names, claimNames_bindings]

theorem paramNames_rename (f : Fragment) (pairs : List (String × String)) :
    Token.paramNames (f.rename pairs).tokens =
      (Token.paramNames f.tokens).map (renamed pairs) := by
  show Token.paramNames (f.tokens.map _) = _
  induction f.tokens with
  | nil => rfl
  | cons t ts ih => cases t <;> simpa using ih

theorem paramNames_claimNames (f : Fragment) (names : Names) :
    Token.paramNames (f.claimNames names).1.tokens =
      (Token.paramNames f.tokens).map (f.claimedName names) :=
  paramNames_rename f _

/-- Where names are bound once, they are renamed to the names claimed for them, in order. -/
theorem map_claimedName (f : Fragment) (names : Names) (hf : f.names.Nodup) :
    f.names.map (f.claimedName names) = (names.claimAll f.names).1 := by
  have hlength : (names.claimAll f.names).1.length = f.names.length :=
    (names.claimAll_fresh f.names).1
  have hpairs : ((f.names.zip (names.claimAll f.names).1).map (·.1)).Nodup := by
    rw [List.map_fst_zip (by omega)]
    exact hf
  apply List.ext_getElem (by simp [hlength])
  intro i hi hi'
  rw [List.getElem_map]
  apply renamed_of_mem hpairs
  have hin : i < (f.names.zip (names.claimAll f.names).1).length := by
    simp only [List.length_map] at hi
    simp [hlength, hi]
  have hpair := List.getElem_mem hin
  rwa [List.getElem_zip] at hpair

/-- A bound fragment is claimed by renaming it. -/
theorem claimed_claimNames (f : Fragment) (hf : f.Bound []) (names : Names) :
    (f.claimNames names).1.Claimed known names (f.claimNames names).2 := by
  obtain ⟨-, hnodup, hfree, htaken, -⟩ := names.claimAll_fresh f.names
  have hnames : (f.claimNames names).1.names = (names.claimAll f.names).1 := by
    rw [claimNames_names, map_claimedName f names hf.nodup]
  refine ⟨⟨by rw [hnames]; exact hnodup, ?_⟩, by rw [hnames]; exact hfree, ?_⟩
  · intro name hname
    rw [paramNames_claimNames] at hname
    obtain ⟨old, hold, rfl⟩ := List.mem_map.mp hname
    have hbound : old ∈ f.names := by simpa using hf.marked old hold
    rw [claimNames_names]
    exact .inl (List.mem_map_of_mem hbound)
  · rw [hnames]
    exact htaken

theorem taken_subset_claimNames (f : Fragment) (names : Names) :
    names.taken ⊆ (f.claimNames names).2.taken :=
  (names.claimAll_fresh f.names).2.2.2.2

end Fragment

end BoundSql
