import BoundSql.Proofs.Matching
import BoundSql.Proofs.Refinement

/-!
# Bindings that come later

Whatever is put into a statement binds names that were free, also where a text made by hand brings
markers of its own along (`Restriction.fresh_fragment`).  So a marker goes on standing for the value
that was bound under its name (`Builder.Adds.valueOf_eq`).  This holds for what another statement
bound as well: each of its names is renamed to one that was free, and stands for the same value
afterwards (`Fragment.valueOf_claimNames`).
-/

namespace BoundSql

/-! ### Values -/

namespace Fragment

variable {bindings more : List Binding} {name : String}

theorem valueOf_append_of_mem (h : name ∈ more.map (·.name)) :
    valueOf (bindings ++ more) name = valueOf more name := by
  obtain ⟨x, hx, hname⟩ := List.mem_map.mp h
  have hsome : (more.reverse.find? (·.name == name)).isSome := by
    rw [List.find?_isSome]
    exact ⟨x, List.mem_reverse.mpr hx, by simpa using hname⟩
  obtain ⟨found, hfound⟩ := Option.isSome_iff_exists.mp hsome
  simp only [valueOf, List.reverse_append, List.find?_append, hfound, Option.some_or]

theorem valueOf_append_of_not_mem (h : name ∉ more.map (·.name)) :
    valueOf (bindings ++ more) name = valueOf bindings name := by
  have hnone : more.reverse.find? (·.name == name) = none := by
    rw [List.find?_eq_none]
    intro x hx hname
    exact h (List.mem_map.mpr ⟨x, List.mem_reverse.mp hx, by simpa using hname⟩)
  simp only [valueOf, List.reverse_append, List.find?_append, hnone, Option.none_or]

variable {f : Fragment} {names : Names}

/-- A name is renamed to one that was claimed for it. -/
theorem mem_zip_claimedName (names : Names) (hname : name ∈ f.names) :
    (name, f.claimedName names name) ∈ f.names.zip (names.claimAll f.names).1 := by
  have hlength := (names.claimAll_fresh f.names).1
  obtain ⟨new, -, hlookup⟩ := lookup_zip hlength hname
  have hclaimed : f.claimedName names name = new := by
    rw [claimedName, renamed_filter (pairwise_claimAll names f.names), renamed, hlookup]
    rfl
  rw [hclaimed]
  exact List.mem_reverse.mp (mem_of_lookup hlookup)

theorem claimedName_fresh (names : Names) (hname : name ∈ f.names) :
    f.claimedName names name ∉ names.taken ∧
      f.claimedName names name ∈ (f.claimNames names).2.taken := by
  obtain ⟨-, -, hfree, htaken, -⟩ := names.claimAll_fresh f.names
  have hnew := (List.of_mem_zip (mem_zip_claimedName names hname)).2
  exact ⟨hfree _ hnew, htaken _ hnew⟩

theorem claimedName_inj {other : String} (hname : name ∈ f.names) (hother : other ∈ f.names)
    (h : f.claimedName names name = f.claimedName names other) : name = other := by
  obtain ⟨hlength, hnodup, -⟩ := names.claimAll_fresh f.names
  have hnews : ((f.names.zip (names.claimAll f.names).1).map (·.2)).Nodup := by
    rw [List.map_snd_zip (by omega)]
    exact hnodup
  exact congrArg Prod.fst (List.inj_on_of_nodup_map hnews (mem_zip_claimedName names hname)
    (mem_zip_claimedName names hother) h)

theorem fresh_claimNames (x : Binding) (hx : x ∈ (f.claimNames names).1.bindings) :
    x.name ∉ names.taken := by
  rw [claimNames_bindings] at hx
  obtain ⟨old, hold, rfl⟩ := List.mem_map.mp hx
  exact (claimedName_fresh names (List.mem_map_of_mem hold)).1

/-- Under its new name a parameter stands for the same value. -/
theorem valueOf_claimNames (hname : name ∈ f.names) :
    valueOf (f.claimNames names).1.bindings (f.claimedName names name) =
      valueOf f.bindings name := by
  have hsame : ∀ x ∈ f.bindings.reverse,
      (f.claimedName names x.name == f.claimedName names name) = (x.name == name) := by
    intro x hx
    rw [Bool.eq_iff_iff, beq_iff_eq, beq_iff_eq]
    refine ⟨fun h => claimedName_inj ?_ hname h, fun h => by rw [h]⟩
    exact List.mem_map_of_mem (List.mem_reverse.mp hx)
  have hfind : f.bindings.reverse.find? (fun x => f.claimedName names x.name ==
      f.claimedName names name) = f.bindings.reverse.find? (·.name == name) := by
    rw [← List.head?_filter, List.filter_congr hsame, List.head?_filter]
  unfold valueOf
  rw [claimNames_bindings, ← List.map_reverse, List.find?_map]
  simp only [Function.comp_def, hfind, Option.map_map]

/-- So it does behind other bindings. -/
theorem valueOf_append_claimNames (hname : name ∈ f.names) :
    valueOf (bindings ++ (f.claimNames names).1.bindings) (f.claimedName names name) =
      valueOf f.bindings name := by
  have hmem : f.claimedName names name ∈ (f.claimNames names).1.names := by
    rw [claimNames_names]
    exact List.mem_map_of_mem hname
  rw [valueOf_append_of_mem hmem, valueOf_claimNames hname]

end Fragment

/-! ### Names that were free -/

namespace Claiming

/-- Names stay taken, and what is bound was free when the state was `before`. -/
def FreshFrom (before : Names) (c : Claiming Fragment) (names : Names) : Prop :=
  names.taken ⊆ (c names).2.taken ∧
    ∀ f, (c names).1 = .ok f → ∀ x ∈ f.bindings, x.name ∉ before.taken

/-- A computation whose fragments bind names that were free at its start. -/
def Fresh (c : Claiming Fragment) : Prop := ∀ names, FreshFrom names c names

theorem Sound.fresh {known : List String} {c : Claiming Fragment} (hc : Sound known c) :
    Fresh c := by
  intro names
  obtain ⟨hgrow, hclaimed⟩ := hc names
  refine ⟨hgrow, ?_⟩
  intro f hf x hx
  exact (hclaimed f hf).free _ (List.mem_map_of_mem hx)

theorem fresh_pure {f : Fragment} (hf : f.bindings = []) : Fresh (pure f) := by
  intro names
  refine ⟨List.Subset.refl _, ?_⟩
  intro g hg
  cases hg
  simp [hf]

theorem FreshFrom.bind {before names : Names} {c : Claiming Fragment}
    {k : Fragment → Claiming Fragment} (hc : Fresh c)
    (hk : ∀ f after, names.taken ⊆ after.taken → (∀ x ∈ f.bindings, x.name ∉ names.taken) →
      FreshFrom before (k f) after) : FreshFrom before (c >>= k) names := by
  obtain ⟨hgrow, hfresh⟩ := hc names
  unfold FreshFrom
  rw [bind_apply]
  rcases hrun : c names with ⟨r, after⟩
  rw [hrun] at hgrow hfresh
  cases r with
  | error e => exact ⟨hgrow, fun f hf => by cases hf⟩
  | ok f =>
    obtain ⟨hkeep, hresult⟩ := hk f after hgrow (hfresh f rfl)
    exact ⟨List.Subset.trans hgrow hkeep, hresult⟩

/-- A fragment put between texts. -/
theorem Fresh.map {c : Claiming Fragment} {g : Fragment → Fragment} (hc : Fresh c)
    (hbindings : ∀ f, (g f).bindings = f.bindings) : Fresh (c >>= fun f => pure (g f)) := by
  intro names
  apply FreshFrom.bind hc
  intro f after _ hfree
  refine ⟨List.Subset.refl _, ?_⟩
  intro whole hwhole x hx
  cases hwhole
  rw [hbindings] at hx
  exact hfree x hx

/-- One fragment and another one behind it, put together with texts. -/
theorem Fresh.map₂ {c : Claiming Fragment} {k : Fragment → Claiming Fragment}
    {g : Fragment → Fragment → Fragment} (hc : Fresh c) (hk : ∀ f, Fresh (k f))
    (hbindings : ∀ l r, (g l r).bindings = l.bindings ++ r.bindings) :
    Fresh (c >>= fun l => k l >>= fun r => pure (g l r)) := by
  intro names
  apply FreshFrom.bind hc
  intro l middle hgrow hleft
  apply FreshFrom.bind (hk l)
  intro r after _ hright
  refine ⟨List.Subset.refl _, ?_⟩
  intro whole hwhole x hx
  cases hwhole
  rw [hbindings, List.mem_append] at hx
  rcases hx with hx | hx
  · exact hleft x hx
  · exact fun hold => hright x hx (hgrow hold)

theorem fresh_splice (name : String) (w : WrappedValue) : Fresh (w.splice name) := by
  intro names
  unfold WrappedValue.splice
  split
  · next items item _ =>
    split
    · next hlength =>
      obtain ⟨hgrow, hclaimed⟩ :=
        WrappedValue.bindMarkers_claimed [] names w.template items hlength
      refine ⟨hgrow, ?_⟩
      intro f hf x hx
      cases hf
      exact hclaimed.free _ (List.mem_map_of_mem hx)
    · exact ⟨List.Subset.refl _, fun f hf => by cases hf⟩
  · refine ⟨names.taken_subset_claim name, ?_⟩
    intro f hf x hx
    cases hf
    obtain rfl := List.mem_singleton.mp hx
    exact names.claim_not_mem name

theorem fresh_place (name : String) (arg : Option Arg) : Fresh (Building.place name arg) := by
  cases arg with
  | none => exact fresh_pure rfl
  | some arg =>
    cases arg with
    | value v =>
      have hsound : Sound [] (boundAs name v) := sound_boundAs name v
      exact hsound.fresh
    | wrapped w => exact fresh_splice name w

theorem fresh_expand (resolved : List (String × Arg)) (again : List (String × List Token))
    (ts : List Token) : Fresh (Building.expand resolved again ts) := by
  induction again, ts using Building.expand.induct with
  | case1 again => exact fresh_pure rfl
  | case2 again name ts tokens hname ih =>
    simp only [Building.expand, hname]
    exact ih.map fun f => rfl
  | case3 again name ts hname ih =>
    simp only [Building.expand, hname]
    exact (fresh_place name _).map₂ ih fun _ _ => rfl
  | case4 again t ts ht ih =>
    rw [Building.expand_cons ht]
    exact ih.map fun _ => rfl

theorem fresh_ofExcept_bind {α : Type} {r : Except Fault α} {k : α → Claiming Fragment}
    (hk : ∀ a, Fresh (k a)) : Fresh (ofExcept r >>= k) := by
  intro names
  unfold FreshFrom
  rw [bind_apply]
  cases r with
  | error e => exact ⟨List.Subset.refl _, fun f hf => by cases hf⟩
  | ok a => exact hk a names

end Claiming

open Claiming

/-- Whatever goes into the filter clause binds names that were free. -/
theorem Restriction.fresh_fragment (r : Restriction) (d : Dialect) (scope : Scope) :
    Fresh (r.fragment d scope) := by
  cases r with
  | filter n =>
    have hcondition : Fresh (d.condition scope false n) := by
      have hsound : Sound [] (d.compile scope .filter n) := d.sound_compile scope .filter n
      exact hsound.fresh
    apply hcondition.map
    intro f
    show [] ++ f.bindings ++ [] = f.bindings
    rw [List.append_nil, List.nil_append]
  | append template args =>
    apply fresh_ofExcept_bind
    intro resolved
    exact (fresh_expand resolved [] _).map fun f => rfl
  | appendFormat template args =>
    apply fresh_ofExcept_bind
    intro text
    exact fresh_pure rfl
  | appendSubquery head sub =>
    intro names
    refine ⟨sub.toFragment.taken_subset_claimNames names, ?_⟩
    intro f hf x hx
    cases hf
    have hx : x ∈ [] ++ (sub.toFragment.claimNames names).1.bindings ++ [] := hx
    rw [List.append_nil, List.nil_append] at hx
    exact Fragment.fresh_claimNames x hx

/-! ### Statements that bind more -/

/-- Names stay taken, and what is bound behind the bindings there were was free. -/
structure Builder.Adds (b b' : Builder) : Prop where
  taken : b.names.taken ⊆ b'.names.taken
  bindings : ∃ more, b'.body.bindings = b.body.bindings ++ more ∧
    ∀ x ∈ more, x.name ∉ b.names.taken

namespace Builder

theorem Adds.refl (b : Builder) : b.Adds b :=
  ⟨List.Subset.refl _, [], (List.append_nil _).symm, by simp⟩

theorem Adds.trans {b b' b'' : Builder} (h : b.Adds b') (h' : b'.Adds b'') : b.Adds b'' := by
  obtain ⟨hgrow, more, hmore, hfree⟩ := h
  obtain ⟨hkeep, others, hothers, hfree'⟩ := h'
  refine ⟨List.Subset.trans hgrow hkeep, more ++ others, ?_, ?_⟩
  · rw [hothers, hmore, List.append_assoc]
  · intro x hx
    rcases List.mem_append.mp hx with hx | hx
    · exact hfree x hx
    · exact fun hold => hfree' x hx (hgrow hold)

/-- A marker under a name that is taken goes on standing for the same value. -/
theorem Adds.valueOf_eq {b b' : Builder} (h : b.Adds b') {name : String}
    (hname : name ∈ b.names.taken) :
    Fragment.valueOf b'.body.bindings name = Fragment.valueOf b.body.bindings name := by
  obtain ⟨-, more, hmore, hfree⟩ := h
  rw [hmore]
  apply Fragment.valueOf_append_of_not_mem
  intro hmem
  obtain ⟨x, hx, rfl⟩ := List.mem_map.mp hmem
  exact hfree x hx hname

end Builder

end BoundSql
