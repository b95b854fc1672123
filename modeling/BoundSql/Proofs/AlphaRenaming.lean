import BoundSql.Proofs.EmbeddedStatement

/-!
# Renaming apart

A statement that is put into another one keeps its text, its bindings and what its markers stand
for.  Only its names change: each becomes one that was free in the statement around it, and two of
them never become the same (`Building.appendSubquery_renames`).

The new names are claimed one after the other, so that one of them may well be the old name of
another parameter.  They are put in place all at once, by one function on names, and a marker under
the old name is never taken for one under the new name.
-/

namespace BoundSql

namespace Fragment

variable {f : Fragment}

/-- Claiming names only renames. -/
theorem claimNames_eq_relabel (f : Fragment) (names : Names) :
    f.claimNames names =
      (f.relabel (f.claimedName names), (names.claimAll f.names).2) :=
  Prod.ext (rename_eq_relabel f _) rfl

/-- A name that is bound once is bound once under its new name. -/
theorem filter_claimNames {names : Names} {name : String} (hname : name ∈ f.names) :
    (f.claimNames names).1.bindings.filter (·.name = f.claimedName names name) =
      (f.bindings.filter (·.name = name)).map fun x =>
        { x with name := f.claimedName names name } := by
  have hsame : ∀ x ∈ f.bindings, decide (f.claimedName names x.name = f.claimedName names name) =
      decide (x.name = name) := by
    intro x hx
    rw [decide_eq_decide]
    exact ⟨claimedName_inj (List.mem_map_of_mem hx) hname, fun h => by rw [h]⟩
  rw [claimNames_bindings, List.filter_map]
  simp only [Function.comp_def]
  rw [List.filter_congr hsame]
  apply List.map_congr_left
  intro x hx
  have hx : x.name = name := by simpa using (List.mem_filter.mp hx).2
  rw [hx]

end Fragment

namespace Building

open Fragment

/-- What a statement with another one in parentheses behind it is. -/
theorem appendSubquery_apply (head : String) (sub : Fragment) (b : Builder) :
    appendSubquery head sub b = (.ok (), { b with
      body := ⟨Token.append b.body.tokens (.text (Subquery.opening head) ::
          sub.tokens.map (Token.relabel (sub.claimedName b.names)) ++ [.text ")"]),
        b.body.bindings ++ (sub.claimNames b.names).1.bindings⟩
      names := (b.names.claimAll sub.names).2 }) := by
  have htokens : (b.body ++ (Subquery.fragment sub).embedded head b.names).tokens =
      Token.append b.body.tokens (.text (Subquery.opening head) ::
        sub.tokens.map (Token.relabel (sub.claimedName b.names)) ++ [.text ")"]) := by
    rw [append_tokens, Subquery.embedded_tokens, Token.append_compact_right]
    show Token.append _ (_ :: (sub.claimNames b.names).1.tokens ++ _) = _
    rw [claimNames_eq_relabel]
    rfl
  have hbindings : (b.body ++ (Subquery.fragment sub).embedded head b.names).bindings =
      b.body.bindings ++ (sub.claimNames b.names).1.bindings := by
    rw [append_bindings, Subquery.embedded_bindings]
    rfl
  have hperform := Extension.perform_embed head (.fragment sub) b
  rw [← htokens, ← hbindings]
  exact hperform

/-- A fragment that is bound on its own is put behind any statement under new names.  They differ
from each other and from all names taken before, and only names change: what was there stays as it
is, the tokens and the bindings of the fragment follow in their order, and each marker stands for the
value it stood for, in the statement and in the fragment. -/
theorem appendSubquery_renames (head : String) {sub : Fragment} (hsub : sub.Bound [])
    (b : Builder) :
    ∃ (ρ : String → String) (body : Fragment) (names : Names),
      appendSubquery head sub b = (.ok (), { b with body, names }) ∧
      body.tokens = Token.append b.body.tokens (.text (" " ++ Text.trim head ++ " (") ::
        sub.tokens.map (Token.relabel ρ) ++ [.text ")"]) ∧
      Token.Kept b.body.tokens body.tokens ∧
      body.bindings = b.body.bindings ++ sub.bindings.map (fun x => { x with name := ρ x.name }) ∧
      sub.names.map ρ = (b.names.claimAll sub.names).1 ∧
      (∀ name ∈ sub.names, ∀ other ∈ sub.names, ρ name = ρ other → name = other) ∧
      (∀ name ∈ sub.names, ρ name ∉ b.names.taken ∧ ρ name ∈ names.taken) ∧
      (∀ name ∈ b.names.taken, name ∈ names.taken ∧
        valueOf body.bindings name = valueOf b.body.bindings name) ∧
      ∀ name, .param name ∈ sub.tokens → ∃ x, sub.bindings.filter (·.name = name) = [x] ∧
        valueOf body.bindings (ρ name) = x.value ∧
        (b.WellBound → body.bindings.filter (·.name = ρ name) = [{ x with name := ρ name }]) := by
  refine ⟨sub.claimedName b.names, _, _, appendSubquery_apply head sub b, rfl, ?_, rfl,
    map_claimedName sub b.names hsub.nodup, ?_, fun name => claimedName_fresh b.names, ?_, ?_⟩
  · exact Token.kept_append_text (by simp [Subquery.opening]) _ _
  · intro name hname other hother
    exact claimedName_inj hname hother
  · intro name htaken
    refine ⟨sub.taken_subset_claimNames b.names htaken, ?_⟩
    apply valueOf_append_of_not_mem
    intro hmem
    obtain ⟨x, hx, rfl⟩ := List.mem_map.mp hmem
    exact fresh_claimNames x hx htaken
  · intro name hmarker
    have hname : name ∈ sub.names := by
      simpa using hsub.marked name (Token.mem_paramNames.mpr hmarker)
    obtain ⟨x, hx⟩ := hsub.exists_unique_binding hmarker
    obtain ⟨hmem, rfl⟩ : x ∈ sub.bindings ∧ x.name = name := by
      have hfound : x ∈ sub.bindings.filter (·.name = name) := hx ▸ List.mem_singleton_self x
      simpa only [List.mem_filter, decide_eq_true_eq] using hfound
    refine ⟨x, hx, ?_, ?_⟩
    · show valueOf (_ ++ _) _ = _
      rw [valueOf_append_claimNames hname, valueOf_of_nodup hsub.nodup hmem]
    · intro hb
      have hnone : b.body.bindings.filter (·.name = sub.claimedName b.names x.name) = [] := by
        rw [List.filter_eq_nil_iff]
        intro y hy hsame
        -- what the statement binds is taken, and the new name was free
        have htaken := hb.taken y.name (List.mem_map_of_mem hy)
        rw [of_decide_eq_true hsame] at htaken
        exact (claimedName_fresh b.names hname).1 htaken
      show List.filter _ (_ ++ _) = _
      rw [List.filter_append, hnone, filter_claimNames hname, hx]
      rfl

/-- The new name of `id` is the old name of `id1`, which gives it up. -/
theorem appendSubquery_renames_id :
    let b := (filter (.binary .eq (.member ⟨"id", "id", "customer"⟩ none)
      (.constant (.varchar "a"))) (Builder.condition .sqlite)).2
    let sub : Fragment := ⟨[.text "SELECT ", .param "id", .text ", ", .param "id1"],
      [⟨"id", .varchar "b"⟩, ⟨"id1", .varchar "c"⟩]⟩
    sub.Bound [] ∧ b.WellBound ∧ ∃ body names,
      appendSubquery "AND id IN" sub b = (.ok (), { b with body, names }) ∧
      body.tokens = [.sentinel, .text " AND (\x60id\x60 = ", .param "id", .text
        ") AND id IN (SELECT ", .param "id1", .text ", ", .param "id11", .text ")"] ∧
      valueOf body.bindings "id" = .varchar "a" ∧ valueOf body.bindings "id1" = .varchar "b" ∧
      valueOf body.bindings "id11" = .varchar "c" := by
  intro b sub
  have hsub : sub.Bound [] := ⟨by decide, by decide⟩
  have hb : b.WellBound := ⟨⟨by decide +kernel, by decide +kernel⟩, by decide +kernel,
    by decide +kernel⟩
  obtain ⟨ρ, body, names, hrun, htokens, -, -, hclaimed, -, -, hkept, hmarkers⟩ :=
    appendSubquery_renames "AND id IN" hsub b
  have hclaims : (b.names.claimAll sub.names).1 = ["id1", "id11"] := by decide +kernel
  obtain ⟨hid, hid1⟩ : ρ "id" = "id1" ∧ ρ "id1" = "id11" := by
    rw [hclaims] at hclaimed
    simpa [sub, Fragment.names] using hclaimed
  refine ⟨hsub, hb, body, names, hrun, ?_, ?_, ?_, ?_⟩
  · rw [htokens]
    simp only [sub, List.map_cons, List.map_nil, Token.relabel_text, Token.relabel_param, hid, hid1]
    decide +kernel
  · rw [(hkept "id" (by decide +kernel)).2]
    rfl
  · obtain ⟨x, hx, hvalue, -⟩ := hmarkers "id" (by decide)
    rw [hid] at hvalue
    rw [hvalue]
    cases hx
    rfl
  · obtain ⟨x, hx, hvalue, -⟩ := hmarkers "id1" (by decide)
    rw [hid1] at hvalue
    rw [hvalue]
    cases hx
    rfl

end Building

end BoundSql
