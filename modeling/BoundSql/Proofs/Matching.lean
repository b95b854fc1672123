import BoundSql.Proofs.Composition
import BoundSql.Proofs.Expansion
import BoundSql.Proofs.Relabeling
import Mathlib.Data.List.Induction

/-!
# The same claims from other names

A computation that is run from two matched states of the names of a statement gives the same fault,
or the same fragment up to a relabeling that extends the one matched before; and the states it
leaves are matched again (`Claiming.Follows`).  Nothing is assumed of the states but that they are
matched, so this holds whatever was claimed besides in one of them.

Whether two computations follow each other is stated for two and not for one, because what an
expansion has written before is relabeled too (`Building.follows_expand`).
-/

namespace BoundSql

open Names (Matched)

variable {ρ σ : Equiv.Perm String} {known : List String} {names others : Names}

/-! ### Matched states -/

theorem Names.Matched.congr (h : Matched σ known names others)
    (hσ : ∀ name ∈ known, σ name = ρ name) : Matched ρ known names others := by
  refine ⟨h.taken, ?_⟩
  intro name hname
  rw [← hσ name hname]
  exact h.relabeled name hname

/-! ### Computations -/

namespace Claiming

/-- The same fault, or the same fragment up to a relabeling that agrees with `ρ` on the names
known. -/
inductive Matches (ρ : Equiv.Perm String) (known : List String) :
    Except Fault Fragment × Names → Except Fault Fragment × Names → Prop where
  | ok {σ : Equiv.Perm String} {f : Fragment} {after after' : Names}
    (hσ : ∀ name ∈ known, σ name = ρ name)
    (h : Matched σ (f.labels ++ known) after after') :
    Matches ρ known (.ok f, after) (.ok (f.relabel σ), after')
  | error {e : Fault} {after after' : Names} (h : Matched ρ known after after') :
    Matches ρ known (.error e, after) (.error e, after')

/-- From matched states the second computation does what the first one does. -/
def Follows (ρ : Equiv.Perm String) (known : List String) (c c' : Claiming Fragment) : Prop :=
  ∀ names others, Matched ρ known names others → Matches ρ known (c names) (c' others)

theorem follows_pure {f : Fragment} (hf : f.labels ⊆ known) :
    Follows ρ known (pure f) (pure (f.relabel ρ)) := by
  intro names others h
  refine .ok (fun _ _ => rfl) (h.mono ?_)
  intro name hname
  rcases List.mem_append.mp hname with hname | hname
  · exact hf hname
  · exact hname

theorem follows_fault (e : Fault) : Follows ρ known (fault e) (fault e) := fun _ _ h => .error h

theorem follows_written (s : String) : Follows ρ known (written s) (written s) := by
  have htext : Follows ρ known (written s) (pure ((Fragment.text s).relabel ρ)) :=
    follows_pure (by simp)
  rwa [Fragment.relabel_text] at htext

theorem follows_boundAs (base : String) (v : Value) :
    Follows ρ known (boundAs base v) (boundAs base v) := by
  intro names others h
  obtain ⟨σ, hσ, hnew, hmatched⟩ := h.claim base base
  rw [boundAs_apply, boundAs_apply, ← hnew]
  refine .ok (f := .param (names.claim base).1 v) hσ (hmatched.mono ?_)
  simp [Fragment.labels, Fragment.names]

/-- What follows on a fragment may use the names that occur in it. -/
theorem Follows.bind {c c' : Claiming Fragment} {k k' : Fragment → Claiming Fragment}
    (hc : Follows ρ known c c')
    (hk : ∀ (σ : Equiv.Perm String) f, (∀ name ∈ known, σ name = ρ name) →
      Follows σ (f.labels ++ known) (k f) (k' (f.relabel σ))) :
    Follows ρ known (c >>= k) (c' >>= k') := by
  intro names others h
  have hfirst := hc names others h
  rw [bind_apply, bind_apply]
  rcases hrun : c names with ⟨r, after⟩
  rcases hrun' : c' others with ⟨r', after'⟩
  rw [hrun, hrun'] at hfirst
  cases hfirst with
  | error h => exact .error h
  | @ok σ f _ _ hσ hmatched =>
    have hsecond := hk σ f hσ after after' hmatched
    have hkept : known ⊆ f.labels ++ known := List.subset_append_right _ _
    show Matches ρ known (k f after) (k' (f.relabel σ) after')
    rcases hnext : k f after with ⟨s, last⟩
    rcases hnext' : k' (f.relabel σ) after' with ⟨s', last'⟩
    rw [hnext, hnext'] at hsecond
    cases hsecond with
    | error h => exact .error ((h.mono hkept).congr hσ)
    | @ok τ g _ _ hτ hlast =>
      refine .ok ?_ (hlast.mono ?_)
      · intro name hname
        rw [hτ name (hkept hname), hσ name hname]
      · intro name hname
        rcases List.mem_append.mp hname with hname | hname
        · exact List.mem_append_left _ hname
        · exact List.mem_append_right _ (hkept hname)

/-- A fragment is written into others that bring along only names known. -/
theorem Follows.map {c c' : Claiming Fragment} {g g' : Fragment → Fragment}
    (hc : Follows ρ known c c') (hlabels : ∀ f, (g f).labels ⊆ f.labels ++ known)
    (hg : ∀ (σ : Equiv.Perm String) f, (∀ name ∈ known, σ name = ρ name) →
      g' (f.relabel σ) = (g f).relabel σ) :
    Follows ρ known (c >>= fun f => pure (g f)) (c' >>= fun f => pure (g' f)) := by
  apply hc.bind
  intro σ f hσ
  rw [hg σ f hσ]
  exact follows_pure (hlabels f)

end Claiming

open Claiming

/-! ### Values with text around them -/

namespace WrappedValue

/-- Items are bound to markers one by one. -/
theorem matches_bindMarkers (h : Matched ρ known names others) (ts : List Token)
    (vs : List Value) (hlength : (Token.paramNames ts).length = vs.length) :
    ∃ σ : Equiv.Perm String, (∀ name ∈ known, σ name = ρ name) ∧
      (bindMarkers others ts vs).1.1 = (bindMarkers names ts vs).1.1.map (Token.relabel σ) ∧
      (bindMarkers others ts vs).1.2 =
        (bindMarkers names ts vs).1.2.map (fun b => { b with name := σ b.name }) ∧
      Matched σ (Fragment.labels ⟨(bindMarkers names ts vs).1.1, (bindMarkers names ts vs).1.2⟩
        ++ known) (bindMarkers names ts vs).2 (bindMarkers others ts vs).2 := by
  induction ts generalizing ρ known names others vs with
  | nil => exact ⟨ρ, fun _ _ => rfl, rfl, rfl, h⟩
  | cons t ts ih =>
    cases t with
    | param stale =>
      cases vs with
      | nil => simp at hlength
      | cons v vs =>
        obtain ⟨σ, hσ, hnew, hclaimed⟩ := h.claim stale stale
        obtain ⟨τ, hτ, htokens, hbindings, hmatched⟩ := ih hclaimed vs (by simpa using hlength)
        have hfirst : τ (names.claim stale).1 = (others.claim stale).1 := by
          rw [hτ _ List.mem_cons_self, hnew]
        refine ⟨τ, ?_, ?_, ?_, ?_⟩
        · intro name hname
          rw [hτ name (List.mem_cons_of_mem _ hname), hσ name hname]
        · simp [bindMarkers, htokens, hfirst]
        · simp [bindMarkers, hbindings, hfirst]
        · apply hmatched.mono
          intro name hname
          simp only [Fragment.labels, Fragment.names, bindMarkers, Token.paramNames_cons_param,
            List.map_cons, List.cons_append, List.mem_cons, List.mem_append] at hname ⊢
          rcases hname with rfl | (hname | rfl | hname) | hname <;> simp [*]
    | _ =>
      obtain ⟨σ, hσ, htokens, hbindings, hmatched⟩ := ih h vs (by simpa using hlength)
      refine ⟨σ, hσ, ?_, ?_, ?_⟩
      · simp [bindMarkers, htokens]
      · simp [bindMarkers, hbindings]
      · exact hmatched

theorem relabel_fillSlot (name : String) {ts : List Token} (hts : Token.paramNames ts = []) :
    (ts.map (fillSlot name)).map (Token.relabel ρ) = ts.map (fillSlot (ρ name)) := by
  rw [List.map_map]
  apply List.map_congr_left
  intro t ht
  cases t with
  | param other => exact absurd (Token.mem_paramNames.mpr ht) (by simp [hts])
  | _ => rfl

theorem follows_splice (name : String) (w : WrappedValue) (hw : w.Proper) :
    Follows ρ known (w.splice name) (w.splice name) := by
  intro names others h
  unfold splice
  split
  · next items item hvalue =>
    split
    · next hlength =>
      obtain ⟨σ, hσ, htokens, hbindings, hmatched⟩ :=
        matches_bindMarkers h w.template items hlength
      simp only [htokens, hbindings]
      rw [Token.compact_relabel]
      refine .ok (f := ⟨Token.compact (bindMarkers names w.template items).1.1,
        (bindMarkers names w.template items).1.2⟩) hσ ?_
      simpa [Fragment.labels, Fragment.names] using hmatched
    · exact .error h
  · next value hvalue =>
    have hmarkers : w.markers = [] := by
      rcases hw with ⟨items, item, hlist⟩ | hmarkers
      · exact absurd hlist (hvalue items item)
      · exact hmarkers
    obtain ⟨σ, hσ, hnew, hmatched⟩ := h.claim name name
    simp only [← hnew]
    rw [← relabel_fillSlot _ hmarkers, Token.compact_relabel]
    refine .ok (f := ⟨Token.compact (w.template.map (fillSlot (names.claim name).1)),
      [⟨(names.claim name).1, w.value⟩]⟩) hσ (hmatched.mono ?_)
    intro other hother
    simp only [Fragment.labels, Fragment.names, Token.paramNames_compact,
      paramNames_fillSlot _ _ hmarkers, List.map_cons, List.map_nil, List.mem_append,
      List.mem_singleton] at hother
    rcases hother with (hother | rfl) | hother
    · rw [List.eq_of_mem_replicate hother]
      exact List.mem_cons_self
    · exact List.mem_cons_self
    · exact List.mem_cons_of_mem _ hother

end WrappedValue

/-! ### Expressions -/

namespace Dialect

variable (d : Dialect)

theorem negatedIf_relabel (negated : Bool) (f : Fragment) :
    negatedIf negated (f.relabel ρ) = (negatedIf negated f).relabel ρ := by
  cases negated <;> simp [negatedIf, Fragment.relabel_append]

theorem labels_negatedIf (negated : Bool) (f : Fragment) :
    (negatedIf negated f).labels = f.labels := by
  simp [Fragment.labels, Fragment.names]

theorem joined_relabel (op : BinaryOp) (f g : Fragment) :
    joined op (f.relabel ρ) (g.relabel ρ) = (joined op f g).relabel ρ := by
  simp [joined, Fragment.relabel_append]

theorem mem_labels_joined {op : BinaryOp} {f g : Fragment} {name : String} :
    name ∈ (joined op f g).labels ↔ name ∈ f.labels ∨ name ∈ g.labels := by
  simp [joined, Fragment.mem_labels_append]

end Dialect

namespace Claiming

/-- Whatever is put together from texts, markers, patterns and lists. -/
theorem Composed.follows {c : Claiming Fragment} (hc : Composed c) : Follows ρ known c c := by
  induction hc generalizing ρ known with
  | fault e => exact follows_fault e
  | written s => exact follows_written s
  | marker base v => exact follows_boundAs base v
  | pattern d method s name => exact WrappedValue.follows_splice name _ (d.proper_pattern method s)
  | list d vs name => exact WrappedValue.follows_splice name _ (d.proper_forList vs)
  | after s hc ih =>
    apply ih.map
    · intro f name hname
      rcases Fragment.mem_labels_append.mp hname with hname | hname
      · simp at hname
      · exact List.mem_append_left _ hname
    · intro σ f _
      rw [Fragment.relabel_append, Fragment.relabel_text]
  | negated negated hc ih =>
    apply ih.map
    · intro f
      rw [Dialect.labels_negatedIf]
      exact List.subset_append_left _ _
    · intro σ f _
      exact Dialect.negatedIf_relabel negated f
  | joined negated op hl hr ihl ihr =>
    apply ihl.bind
    intro σ f _
    apply ihr.map
    · intro g name hname
      rw [Dialect.labels_negatedIf, Dialect.mem_labels_joined] at hname
      simp only [List.mem_append]
      rcases hname with hname | hname
      · exact .inr (.inl hname)
      · exact .inl hname
    · intro τ g hτ
      have hleft : f.relabel σ = f.relabel τ :=
        Fragment.relabel_congr fun name hname => (hτ name (List.mem_append_left _ hname)).symm
      rw [hleft, Dialect.joined_relabel, Dialect.negatedIf_relabel]

end Claiming

/-! ### Templates -/

namespace Building

theorem follows_place (name : String) (arg : Option Arg)
    (harg : ∀ w, arg = some (.wrapped w) → w.Proper) :
    Follows ρ known (place name arg) (place name arg) := by
  cases arg with
  | none => exact follows_pure (f := .empty) (by simp)
  | some arg =>
    cases arg with
    | value v => exact follows_boundAs name v
    | wrapped w => exact WrappedValue.follows_splice name w (harg w rfl)

/-- Tokens whose markers are known are written in front of what follows. -/
theorem follows_rewrite {c c' : Claiming Fragment} {ts us : List Token} (hc : Follows ρ known c c')
    (hts : Token.paramNames ts ⊆ known) (hus : us = ts.map (Token.relabel ρ)) :
    Follows ρ known (c >>= fun rest => pure (Fragment.empty.pushTokens ts ++ rest))
      (c' >>= fun rest => pure (Fragment.empty.pushTokens us ++ rest)) := by
  apply hc.map
  · intro rest name hname
    rcases Fragment.mem_labels_append.mp hname with hname | hname
    · exact List.mem_append_right _ (hts (by simpa [Fragment.labels, Fragment.names] using hname))
    · exact List.mem_append_left _ hname
  · intro σ rest hσ
    have hsame : us = ts.map (Token.relabel σ) := by
      rw [hus]
      exact Token.map_relabel_congr fun name hname => (hσ name (hts hname)).symm
    rw [hsame, Fragment.relabel_append, Fragment.relabel_pushTokens, Fragment.relabel_empty]

/-- The induction is on the tokens that are left.  What was written for a placeholder is there in
the other expansion too, relabeled, and the names that occur in it are known. -/
theorem follows_expand (resolved : List (String × Arg))
    (hresolved : ∀ name w, resolved.lookup name = some (.wrapped w) → w.Proper)
    (known : List String) (again again' : List (String × List Token)) (ts : List Token)
    (hagain : ∀ name tokens, again.lookup name = some tokens → Token.paramNames tokens ⊆ known)
    (hagain' : ∀ name, again'.lookup name =
      (again.lookup name).map (List.map (Token.relabel ρ))) :
    Follows ρ known (expand resolved again ts) (expand resolved again' ts) := by
  induction again, ts using expand.induct generalizing ρ known again' with
  | case1 again => exact follows_pure (f := .empty) (by simp)
  | case2 again name ts tokens hname ih =>
    have hother : again'.lookup name = some (tokens.map (Token.relabel ρ)) := by
      rw [hagain', hname]
      rfl
    simp only [expand, hname, hother]
    exact follows_rewrite (ih known again' hagain hagain') (hagain name tokens hname) rfl
  | case3 again name ts hname ih =>
    have hother : again'.lookup name = none := by
      rw [hagain', hname]
      rfl
    simp only [expand, hname, hother]
    apply (follows_place name _ (hresolved name)).bind
    intro σ value hσ
    have hrest : Follows σ (value.labels ++ known)
        (expand resolved ((name, value.tokens) :: again) ts)
        (expand resolved ((name, (value.relabel σ).tokens) :: again') ts) := by
      apply ih value
      · intro other tokens hlookup
        rw [List.lookup_cons] at hlookup
        split at hlookup
        · obtain rfl : value.tokens = tokens := by simpa using hlookup
          intro marker hmarker
          exact List.mem_append_left _ (List.mem_append_left _ hmarker)
        · exact List.Subset.trans (hagain other tokens hlookup) (List.subset_append_right _ _)
      · intro other
        rw [List.lookup_cons, List.lookup_cons]
        split
        · rfl
        · rw [hagain']
          cases hlookup : again.lookup other with
          | none => rfl
          | some tokens =>
            have hsame : tokens.map (Token.relabel ρ) = tokens.map (Token.relabel σ) :=
              Token.map_relabel_congr fun marker hmarker =>
                (hσ marker (hagain other tokens hlookup hmarker)).symm
            simp [hsame]
    apply hrest.map
    · intro rest marker hmarker
      simp only [List.mem_append]
      rcases Fragment.mem_labels_append.mp hmarker with hmarker | hmarker
      · exact .inr (.inl hmarker)
      · exact .inl hmarker
    · intro τ rest hτ
      have hvalue : value.relabel σ = value.relabel τ :=
        Fragment.relabel_congr fun marker hmarker =>
          (hτ marker (List.mem_append_left _ hmarker)).symm
      rw [hvalue, Fragment.relabel_append]
  | case4 again t ts ht ih =>
    have hmarkers : Token.paramNames [t] = [] := Token.paramNames_cons_of_ne ht []
    rw [expand_cons ht, expand_cons ht]
    refine follows_rewrite (ih known again' hagain hagain') (by simp [hmarkers]) ?_
    exact (Token.map_relabel_of_unmarked hmarkers).symm

end Building

/-! ### Statements that become part of another one -/

namespace Fragment

/-- Where no name is given that was renamed before, pairs that change nothing can be left out: the
last pair of a name changes it, or there is one pair only. -/
theorem renamed_filter {pairs : List (String × String)}
    (hpairs : pairs.Pairwise fun p q => q.2 ≠ p.1) (name : String) :
    renamed (pairs.filter fun (old, new) => new != old) name = renamed pairs name := by
  induction pairs using List.reverseRecOn with
  | nil => rfl
  | append_singleton pairs last ih =>
    obtain ⟨hbefore, -, hlast⟩ := List.pairwise_append.mp hpairs
    obtain ⟨old, new⟩ := last
    by_cases hname : name = old
    · subst hname
      by_cases hsame : new = name
      · -- no earlier pair renames the name
        subst hsame
        have hnone : (pairs.filter fun (old, new) => new != old).reverse.lookup new = none := by
          rw [List.lookup_eq_none_iff]
          intro p hp
          have hne := hlast p (List.mem_of_mem_filter (List.mem_reverse.mp hp)) _
            List.mem_cons_self
          simpa using hne
        simp [renamed, hnone]
      · simp [renamed, hsame]
    · have hskip : ∀ ps : List (String × String),
          renamed (ps ++ [(old, new)]) name = renamed ps name := by
        intro ps
        have hother : (name == old) = false := by simpa using hname
        simp [renamed, List.lookup_cons, hother]
      rw [List.filter_append, hskip, ← ih hbefore]
      by_cases hsame : new = old
      · simp [hsame]
      · have hkept : [(old, new)].filter (fun (old, new) => new != old) = [(old, new)] := by
          simp [hsame]
        rw [hkept, hskip]

/-- What is given for a name is never the name of an earlier claim. -/
theorem pairwise_claimAll (names : Names) (bases : List String) :
    (bases.zip (names.claimAll bases).1).Pairwise fun p q => q.2 ≠ p.1 := by
  induction bases generalizing names with
  | nil => exact List.Pairwise.nil
  | cons base bases ih =>
    refine List.Pairwise.cons ?_ (ih (names.claim base).2)
    intro q hq
    obtain ⟨-, -, hfree, -⟩ := (names.claim base).2.claimAll_fresh bases
    intro heq
    apply hfree q.2 (List.of_mem_zip hq).2
    rw [heq]
    exact names.base_mem_claim base

/-- Every name of a list is paired with one of another list that is as long. -/
theorem lookup_zip {olds news : List String} (hlength : news.length = olds.length) {name : String}
    (hname : name ∈ olds) : ∃ new ∈ news, (olds.zip news).reverse.lookup name = some new := by
  have hsome : ((olds.zip news).reverse.lookup name).isSome := by
    rw [List.lookup_isSome_iff]
    obtain ⟨i, hi, rfl⟩ := List.getElem_of_mem hname
    have hin : i < (olds.zip news).length := by simp; omega
    refine ⟨(olds.zip news)[i], List.mem_reverse.mpr (List.getElem_mem hin), ?_⟩
    simp
  obtain ⟨new, hnew⟩ := Option.isSome_iff_exists.mp hsome
  exact ⟨new, (List.of_mem_zip (List.mem_reverse.mp (mem_of_lookup hnew))).2, hnew⟩

/-- The names under which a statement is put into two others correspond, if its markers all have
bindings. -/
theorem follows_claimNames (f : Fragment) (hf : Token.paramNames f.tokens ⊆ f.names) :
    Follows ρ known (fun names => (.ok (f.claimNames names).1, (f.claimNames names).2))
      (fun names => (.ok (f.claimNames names).1, (f.claimNames names).2)) := by
  intro names others h
  obtain ⟨σ, hσ, hnews, hmatched⟩ := h.claimAll f.names
  have hlength := (names.claimAll_fresh f.names).1
  have hclaimed : ∀ name ∈ f.names, ∃ new ∈ (names.claimAll f.names).1,
      f.claimedName names name = new ∧ f.claimedName others name = σ new := by
    intro name hname
    obtain ⟨new, hnew, hlookup⟩ := lookup_zip hlength hname
    refine ⟨new, hnew, ?_, ?_⟩
    · rw [claimedName, renamed_filter (pairwise_claimAll names f.names), renamed, hlookup]
      rfl
    · rw [claimedName, renamed_filter (pairwise_claimAll others f.names), renamed, hnews,
        List.zip_map_right, ← List.map_reverse, lookup_map_snd, hlookup]
      rfl
  have hbound : f.labels ⊆ f.names := List.append_subset.mpr ⟨hf, List.Subset.refl _⟩
  have hresult : (f.claimNames others).1 = ((f.claimNames names).1).relabel σ := by
    show f.rename _ = (f.rename _).relabel σ
    rw [rename_eq_relabel, rename_eq_relabel, relabel_relabel]
    apply relabel_congr
    intro name hname
    obtain ⟨new, -, hnew, hother⟩ := hclaimed name (hbound hname)
    exact hother.trans (congrArg σ hnew).symm
  show Matches ρ known (.ok (f.claimNames names).1, _) (.ok (f.claimNames others).1, _)
  rw [hresult]
  refine .ok hσ (hmatched.mono ?_)
  intro name hname
  rcases List.mem_append.mp hname with hname | hname
  · unfold labels at hname
    rw [paramNames_claimNames, claimNames_names, ← List.map_append] at hname
    obtain ⟨old, hold, rfl⟩ := List.mem_map.mp hname
    obtain ⟨new, hmem, hnew, -⟩ := hclaimed old (hbound hold)
    rw [hnew]
    exact List.mem_append_left _ hmem
  · exact List.mem_append_right _ hname

end Fragment

end BoundSql
