import BoundSql.Proofs.Renaming
import Mathlib.Logic.Equiv.Basic

/-!
# Other names for the same parameters

Relabeling a fragment puts other names in the place of the names of its markers and bindings, the
same for both.  Nothing that is done to fragments looks at names: they can be put together, cut,
edited and trimmed before they are relabeled or after.

Only claims look at names.  `Names.Matched` relates two states of the names of a statement by a
permutation: the names known so far are taken in the one, and what they are relabeled to is taken
in the other.  Whatever is claimed in both states next, the permutation can be changed to take the
one claimed name to the other, and keep its values at the names known (`Names.Matched.claim`).
-/

namespace BoundSql

variable {ρ σ : String → String}

/-! ### Tokens -/

namespace Token

/-- The token with another name, if it is a marker. -/
def relabel (ρ : String → String) : Token → Token
  | param name => .param (ρ name)
  | t => t

@[simp] theorem relabel_text (s : String) : relabel ρ (.text s) = .text s := rfl

@[simp] theorem relabel_param (name : String) : relabel ρ (.param name) = .param (ρ name) := rfl

@[simp] theorem relabel_slot : relabel ρ .slot = .slot := rfl

@[simp] theorem relabel_sentinel : relabel ρ .sentinel = .sentinel := rfl

theorem relabel_eq_text {t : Token} {s : String} : relabel ρ t = .text s ↔ t = .text s := by
  cases t <;> simp

theorem relabel_eq_sentinel {t : Token} : relabel ρ t = .sentinel ↔ t = .sentinel := by
  cases t <;> simp

variable {ts us : List Token}

@[simp] theorem paramNames_relabel : paramNames (ts.map (relabel ρ)) = (paramNames ts).map ρ := by
  induction ts with
  | nil => rfl
  | cons t ts ih => cases t <;> simp [ih]

/-- Only the names of the markers matter. -/
theorem map_relabel_congr (h : ∀ name ∈ paramNames ts, ρ name = σ name) :
    ts.map (relabel ρ) = ts.map (relabel σ) := by
  apply List.map_congr_left
  intro t ht
  cases t with
  | param name => exact congrArg param (h name (mem_paramNames.mpr ht))
  | _ => rfl

theorem map_relabel_of_unmarked (h : paramNames ts = []) : ts.map (relabel ρ) = ts := by
  have hid : ts.map (relabel ρ) = ts.map (relabel id) := map_relabel_congr (by simp [h])
  have hsame : relabel id = id := funext fun t => by cases t <;> rfl
  rw [hid, hsame, List.map_id]

theorem consText_relabel (s : String) :
    consText s (ts.map (relabel ρ)) = (consText s ts).map (relabel ρ) := by
  unfold consText
  by_cases hs : s = ""
  · simp [hs]
  · cases ts with
    | nil => simp [hs]
    | cons t ts => cases t <;> simp [hs]

theorem compact_relabel : compact (ts.map (relabel ρ)) = (compact ts).map (relabel ρ) := by
  induction ts with
  | nil => rfl
  | cons t ts ih => cases t <;> simp [compact, ih, consText_relabel]

theorem join_relabel :
    join (ts.map (relabel ρ)) (us.map (relabel ρ)) = (join ts us).map (relabel ρ) := by
  induction ts with
  | nil => rfl
  | cons t ts ih =>
    cases ts with
    | nil => cases t <;> simp [join, consText_relabel]
    | cons u ts => cases t <;> simpa [join] using ih

theorem append_relabel :
    append (ts.map (relabel ρ)) (us.map (relabel ρ)) = (append ts us).map (relabel ρ) := by
  unfold append
  rw [compact_relabel, join_relabel]

end Token

/-! ### Fragments -/

namespace Fragment

/-- The names that occur in a fragment, at markers and at bindings. -/
def labels (f : Fragment) : List String := Token.paramNames f.tokens ++ f.names

/-- The fragment with other names at its markers and bindings. -/
def relabel (ρ : String → String) (f : Fragment) : Fragment where
  tokens := f.tokens.map (Token.relabel ρ)
  bindings := f.bindings.map fun b => { b with name := ρ b.name }

@[simp] theorem tokens_relabel (f : Fragment) :
    (f.relabel ρ).tokens = f.tokens.map (Token.relabel ρ) := rfl

@[simp] theorem bindings_relabel (f : Fragment) :
    (f.relabel ρ).bindings = f.bindings.map fun b => { b with name := ρ b.name } := rfl

@[simp] theorem labels_text (s : String) : (text s).labels = [] := by simp [labels]

@[simp] theorem labels_sentinel : sentinel.labels = [] := by simp [labels, names]

@[simp] theorem labels_empty : empty.labels = [] := by simp [labels, names]

theorem mem_labels_append {f g : Fragment} {name : String} :
    name ∈ (f ++ g).labels ↔ name ∈ f.labels ∨ name ∈ g.labels := by
  simp only [labels, append_tokens, Token.paramNames_append, names_append, List.mem_append]
  constructor
  · rintro ((h | h) | h | h) <;> simp [h]
  · rintro ((h | h) | h | h) <;> simp [h]

/-- Only the names that occur matter. -/
theorem relabel_congr {f : Fragment} (h : ∀ name ∈ f.labels, ρ name = σ name) :
    f.relabel ρ = f.relabel σ := by
  have htokens : f.tokens.map (Token.relabel ρ) = f.tokens.map (Token.relabel σ) :=
    Token.map_relabel_congr fun name hname => h name (List.mem_append_left _ hname)
  have hbindings : (f.relabel ρ).bindings = (f.relabel σ).bindings := by
    apply List.map_congr_left
    intro b hb
    rw [h b.name (List.mem_append_right _ (List.mem_map_of_mem hb))]
  exact congrArg₂ Fragment.mk htokens hbindings

theorem relabel_id (f : Fragment) : f.relabel id = f := by
  have hsame : Token.relabel id = id := funext fun t => by cases t <;> rfl
  have htokens : f.tokens.map (Token.relabel id) = f.tokens := by rw [hsame, List.map_id]
  exact congrArg₂ Fragment.mk htokens (List.map_id _)

theorem relabel_relabel (f : Fragment) (α β : String → String) :
    (f.relabel α).relabel β = f.relabel (β ∘ α) := by
  have htokens : (f.tokens.map (Token.relabel α)).map (Token.relabel β) =
      f.tokens.map (Token.relabel (β ∘ α)) := by
    rw [List.map_map]
    apply List.map_congr_left
    intro t _
    cases t <;> rfl
  have hbindings : ((f.relabel α).relabel β).bindings = (f.relabel (β ∘ α)).bindings := by
    simp
  exact congrArg₂ Fragment.mk htokens hbindings

@[simp] theorem relabel_text (s : String) : (text s).relabel ρ = text s := by
  have htokens : (Token.compact [.text s]).map (Token.relabel ρ) = Token.compact [.text s] :=
    Token.map_relabel_of_unmarked (by simp)
  exact congrArg₂ Fragment.mk htokens rfl

@[simp] theorem relabel_sentinel : sentinel.relabel ρ = sentinel := rfl

@[simp] theorem relabel_empty : empty.relabel ρ = empty := rfl

theorem relabel_append (f g : Fragment) : (f ++ g).relabel ρ = f.relabel ρ ++ g.relabel ρ := by
  have htokens : (Token.append f.tokens g.tokens).map (Token.relabel ρ) =
      Token.append (f.relabel ρ).tokens (g.relabel ρ).tokens := Token.append_relabel.symm
  exact congrArg₂ Fragment.mk htokens List.map_append

theorem relabel_pushTokens (f : Fragment) (ts : List Token) :
    (f.pushTokens ts).relabel ρ = (f.relabel ρ).pushTokens (ts.map (Token.relabel ρ)) := by
  have htokens : (Token.append f.tokens ts).map (Token.relabel ρ) =
      Token.append (f.relabel ρ).tokens (ts.map (Token.relabel ρ)) := Token.append_relabel.symm
  exact congrArg₂ Fragment.mk htokens rfl

/-- Renaming what pairs name is a relabeling. -/
theorem rename_eq_relabel (f : Fragment) (pairs : List (String × String)) :
    f.rename pairs = f.relabel (renamed pairs) := by
  have htokens : (f.rename pairs).tokens = f.tokens.map (Token.relabel (renamed pairs)) := by
    apply List.map_congr_left
    intro t _
    cases t <;> rfl
  exact congrArg₂ Fragment.mk htokens rfl

/-! ### Cutting, editing and trimming -/

theorem cutFilter?_relabel (ts : List Token) :
    cutFilter? (ts.map (Token.relabel ρ)) =
      (cutFilter? ts).map fun (before, clause) =>
        (before.map (Token.relabel ρ), clause.map (Token.relabel ρ)) := by
  induction ts with
  | nil => rfl
  | cons t ts ih =>
    simp only [List.map_cons, cutFilter?, ih]
    cases cutFilter? ts with
    | some parts => rfl
    | none =>
      simp only [Option.map_none, Token.relabel_eq_sentinel]
      by_cases ht : t = .sentinel <;> simp [ht]

theorem takeFilterClause_relabel (f : Fragment) :
    (f.relabel ρ).takeFilterClause =
      (f.takeFilterClause.1.map (List.map (Token.relabel ρ)),
        f.takeFilterClause.2.relabel ρ) := by
  unfold takeFilterClause
  rw [tokens_relabel, cutFilter?_relabel]
  cases cutFilter? f.tokens <;> rfl

theorem editTokens?_relabel (edit : List String → List String) (ts : List Token) :
    editTokens? edit (ts.map (Token.relabel ρ)) =
      (editTokens? edit ts).map (List.map (Token.relabel ρ)) := by
  induction ts with
  | nil => rfl
  | cons t ts ih =>
    cases t with
    | text s =>
      simp only [List.map_cons, Token.relabel_text, editTokens?]
      cases editText? edit s with
      | some edited => rfl
      | none =>
        simp only [ih, Option.map_map]
        rfl
    | _ =>
      simp only [List.map_cons, Token.relabel, editTokens?, ih, Option.map_map]
      rfl

theorem editSelectList?_relabel (edit : List String → List String) (f : Fragment) :
    (f.relabel ρ).editSelectList? edit = (f.editSelectList? edit).map (relabel ρ) := by
  unfold editSelectList?
  rw [tokens_relabel, editTokens?_relabel, Option.map_map, Option.map_map]
  rfl

theorem trimFirst_relabel (ts : List Token) :
    trimFirst (ts.map (Token.relabel ρ)) = (trimFirst ts).map (Token.relabel ρ) := by
  cases ts with
  | nil => rfl
  | cons t ts => cases t <;> rfl

theorem trimLast_relabel (ts : List Token) :
    trimLast (ts.map (Token.relabel ρ)) = (trimLast ts).map (Token.relabel ρ) := by
  induction ts with
  | nil => rfl
  | cons t ts ih =>
    cases ts with
    | nil => cases t <;> rfl
    | cons u ts => cases t <;> simpa [trimLast] using ih

theorem trim_relabel (f : Fragment) : (f.relabel ρ).trim = f.trim.relabel ρ := by
  have hfilter : ∀ ts : List Token, (ts.map (Token.relabel ρ)).filter (· ≠ .text "") =
      (ts.filter (· ≠ .text "")).map (Token.relabel ρ) := by
    intro ts
    rw [List.filter_map]
    congr 2
    funext t
    simp [Token.relabel_eq_text]
  have htokens : (f.relabel ρ).trim.tokens = f.trim.tokens.map (Token.relabel ρ) := by
    simp only [trim, tokens_relabel]
    rw [trimFirst_relabel, trimLast_relabel, hfilter]
  exact congrArg₂ Fragment.mk htokens rfl

theorem sealed_relabel (f : Fragment) : (f.relabel ρ).sealed = f.sealed.relabel ρ := by
  have hseal : sealToken ∘ Token.relabel ρ = Token.relabel ρ ∘ sealToken :=
    funext fun t => by cases t <;> rfl
  have htokens : (f.relabel ρ).sealed.tokens = f.sealed.tokens.map (Token.relabel ρ) := by
    simp only [sealed, tokens_relabel]
    rw [← Token.compact_relabel, List.map_map, List.map_map, hseal]
  exact congrArg₂ Fragment.mk htokens rfl

end Fragment

/-! ### Names -/

namespace Names

/-- A name that was claimed is taken, also where another one was given for it. -/
theorem base_mem_claim (names : Names) (base : String) : base ∈ (names.claim base).2.taken := by
  by_cases hbase : base ∈ names.taken
  · exact taken_subset_claim names base hbase
  · have hfree : (names.claim base).1 = base := by simp [claim, hbase]
    rw [taken_claim, hfree]
    exact List.mem_cons_self

/-- The names known are taken in the one state, and what they are relabeled to in the other. -/
structure Matched (ρ : Equiv.Perm String) (known : List String) (names others : Names) : Prop where
  taken : known ⊆ names.taken
  relabeled : ∀ name ∈ known, ρ name ∈ others.taken

variable {ρ : Equiv.Perm String} {known : List String} {names others : Names}

theorem Matched.mono (h : Matched ρ known names others) {fewer : List String}
    (hfewer : fewer ⊆ known) : Matched ρ fewer names others :=
  ⟨fun _ hname => h.taken (hfewer hname), fun name hname => h.relabeled name (hfewer hname)⟩

/-- Two names that were free can be matched with each other. -/
theorem Matched.claim (h : Matched ρ known names others) (base base' : String) :
    ∃ σ : Equiv.Perm String, (∀ name ∈ known, σ name = ρ name) ∧
      σ (names.claim base).1 = (others.claim base').1 ∧
      Matched σ ((names.claim base).1 :: known) (names.claim base).2 (others.claim base').2 := by
  -- where the new name went until now and where it is to go are exchanged
  let σ : Equiv.Perm String :=
    ρ.trans (Equiv.swap (ρ (names.claim base).1) (others.claim base').1)
  have hkept : ∀ name ∈ known, σ name = ρ name := by
    intro name hname
    apply Equiv.swap_apply_of_ne_of_ne
    · intro heq
      have hold := h.taken hname
      rw [ρ.injective heq] at hold
      exact claim_not_mem names base hold
    · intro heq
      have hold := h.relabeled name hname
      rw [heq] at hold
      exact claim_not_mem others base' hold
  have hnew : σ (names.claim base).1 = (others.claim base').1 := Equiv.swap_apply_left _ _
  refine ⟨σ, hkept, hnew, ?_, ?_⟩
  · intro name hname
    rcases List.mem_cons.mp hname with rfl | hname
    · exact claim_mem names base
    · exact taken_subset_claim names base (h.taken hname)
  · intro name hname
    rcases List.mem_cons.mp hname with rfl | hname
    · rw [hnew]
      exact claim_mem others base'
    · rw [hkept name hname]
      exact taken_subset_claim others base' (h.relabeled name hname)

/-- Claims in a row are matched one by one. -/
theorem Matched.claimAll (h : Matched ρ known names others) (bases : List String) :
    ∃ σ : Equiv.Perm String, (∀ name ∈ known, σ name = ρ name) ∧
      (others.claimAll bases).1 = (names.claimAll bases).1.map σ ∧
      Matched σ ((names.claimAll bases).1 ++ known) (names.claimAll bases).2
        (others.claimAll bases).2 := by
  induction bases generalizing ρ known names others with
  | nil => exact ⟨ρ, fun _ _ => rfl, rfl, h⟩
  | cons base bases ih =>
    obtain ⟨σ, hσ, hfirst, hmatched⟩ := h.claim base base
    obtain ⟨τ, hτ, hrest, hall⟩ := ih hmatched
    refine ⟨τ, ?_, ?_, ?_⟩
    · intro name hname
      rw [hτ name (List.mem_cons_of_mem _ hname), hσ name hname]
    · show (others.claim base).1 :: ((others.claim base).2.claimAll bases).1 = _
      rw [hrest, ← hfirst, ← hτ _ List.mem_cons_self]
      rfl
    · apply hall.mono
      intro name hname
      simp only [Names.claimAll, List.cons_append, List.mem_cons, List.mem_append] at hname ⊢
      rcases hname with hname | hname | hname
      · exact .inr (.inl hname)
      · exact .inl hname
      · exact .inr (.inr hname)

end Names

end BoundSql
