import BoundSql.Proofs.Names
import BoundSql.Proofs.Sequencing
import BoundSql.Proofs.Tokens
import BoundSql.Query.Builder

/-!
# Fragments that claim their names

A fragment is `Claimed` between two states of the names of a statement when it binds each name once,
every name it binds was free in the first state and is taken in the second, and every marker has a
binding, in the fragment or among the names known outside of it.  Fragments claimed one after the
other stay so when they are put together (`Claimed.append`); this is the invariant that every
computation on names keeps (`Claiming.Sound`).
-/

namespace BoundSql

/-! ### Sequencing -/

theorem Claiming.of_ofExcept_bind_ok {α β : Type} {r : Except Fault α} {k : α → Claiming β} {b : β}
    {names after : Names} (h : (ofExcept r >>= k) names = (.ok b, after)) :
    ∃ a, r = .ok a ∧ k a names = (.ok b, after) := by
  rw [bind_apply] at h
  cases r with
  | error e => cases h
  | ok a => exact ⟨a, rfl, h⟩

/-- A computation has one result. -/
theorem Claiming.ok_inj {α : Type} {a b : α} {names after : Names}
    (h : (pure a : Claiming α) names = (.ok b, after)) : a = b := by
  cases h
  rfl

@[simp] theorem Claiming.pure_apply {α : Type} (a : α) (names : Names) :
    (pure a : Claiming α) names = (.ok a, names) := rfl

@[simp] theorem Claiming.ofExcept_apply {α : Type} (r : Except Fault α) (names : Names) :
    Claiming.ofExcept r names = (r, names) := rfl

@[simp] theorem written_apply (s : String) (names : Names) :
    written s names = (.ok (.text s), names) := rfl

@[simp] theorem obstructed_apply {α : Type} (kind : NodeKind) (obstacle : Obstacle)
    (names : Names) :
    obstructed (α := α) kind obstacle names = (.error (.compile kind obstacle), names) := rfl

@[simp] theorem boundAs_apply (base : String) (v : Value) (names : Names) :
    boundAs base v names = (.ok (.param (names.claim base).1 v), (names.claim base).2) := rfl

/-! ### Fragments -/

namespace Fragment

/-- The names that a fragment binds, in order. -/
def names (f : Fragment) : List String := f.bindings.map (·.name)

@[simp] theorem append_tokens (f g : Fragment) :
    (f ++ g).tokens = Token.append f.tokens g.tokens := rfl

@[simp] theorem append_bindings (f g : Fragment) :
    (f ++ g).bindings = f.bindings ++ g.bindings := rfl

@[simp] theorem pushTokens_tokens (f : Fragment) (ts : List Token) :
    (f.pushTokens ts).tokens = Token.append f.tokens ts := rfl

@[simp] theorem pushTokens_bindings (f : Fragment) (ts : List Token) :
    (f.pushTokens ts).bindings = f.bindings := rfl

@[simp] theorem text_tokens (s : String) : (text s).tokens = Token.compact [.text s] := rfl

@[simp] theorem text_bindings (s : String) : (text s).bindings = [] := rfl

@[simp] theorem param_tokens (name : String) (v : Value) :
    (param name v).tokens = [.param name] := rfl

@[simp] theorem param_bindings (name : String) (v : Value) :
    (param name v).bindings = [⟨name, v⟩] := rfl

@[simp] theorem sentinel_tokens : sentinel.tokens = [.sentinel] := rfl

@[simp] theorem sentinel_bindings : sentinel.bindings = [] := rfl

@[simp] theorem empty_tokens : empty.tokens = [] := rfl

@[simp] theorem empty_bindings : empty.bindings = [] := rfl

@[simp] theorem names_append (f g : Fragment) : (f ++ g).names = f.names ++ g.names := by
  simp [names]

@[simp] theorem names_text (s : String) : (text s).names = [] := rfl

/-- Each name is bound once, and every marker has a binding here or is known outside. -/
structure Bound (known : List String) (f : Fragment) : Prop where
  nodup : f.names.Nodup
  marked : ∀ name ∈ Token.paramNames f.tokens, name ∈ f.names ∨ name ∈ known

/-- Bound, to names that were free before and are taken afterwards. -/
structure Claimed (known : List String) (before after : Names) (f : Fragment) : Prop
    extends Bound known f where
  free : ∀ name ∈ f.names, name ∉ before.taken
  taken : ∀ name ∈ f.names, name ∈ after.taken

variable {known : List String} {before middle after : Names} {f g : Fragment}

/-- Whether a fragment is claimed shows in its markers and bindings alone. -/
theorem Claimed.congr (hf : f.Claimed known before after)
    (hmarkers : Token.paramNames g.tokens ⊆ Token.paramNames f.tokens)
    (hbindings : g.bindings = f.bindings) : g.Claimed known before after := by
  have hnames : g.names = f.names := by simp only [names, hbindings]
  refine ⟨⟨?_, ?_⟩, ?_, ?_⟩
  · rw [hnames]
    exact hf.nodup
  · intro name hname
    rw [hnames]
    exact hf.marked name (hmarkers hname)
  · rw [hnames]
    exact hf.free
  · rw [hnames]
    exact hf.taken

/-- Fragments claimed one after the other, put together; the later one may refer to the names that
the earlier one binds. -/
theorem Claimed.append (hf : f.Claimed known before middle)
    (hg : g.Claimed (f.names ++ known) middle after)
    (hgrow : before.taken ⊆ middle.taken) (hkeep : middle.taken ⊆ after.taken) :
    (f ++ g).Claimed known before after := by
  refine ⟨⟨?_, ?_⟩, ?_, ?_⟩
  · rw [names_append, List.nodup_append']
    refine ⟨hf.nodup, hg.nodup, ?_⟩
    intro name hleft hright
    exact hg.free name hright (hf.taken name hleft)
  · intro name hname
    rw [append_tokens, Token.paramNames_append, List.mem_append] at hname
    rw [names_append, List.mem_append]
    rcases hname with hname | hname
    · rcases hf.marked name hname with h | h
      · exact .inl (.inl h)
      · exact .inr h
    · rcases hg.marked name hname with h | h
      · exact .inl (.inr h)
      · rcases List.mem_append.mp h with h | h
        · exact .inl (.inl h)
        · exact .inr h
  · intro name hname
    rw [names_append, List.mem_append] at hname
    rcases hname with hname | hname
    · exact hf.free name hname
    · exact fun hold => hg.free name hname (hgrow hold)
  · intro name hname
    rw [names_append, List.mem_append] at hname
    rcases hname with hname | hname
    · exact hkeep (hf.taken name hname)
    · exact hg.taken name hname

/-- A fragment without bindings whose markers are known claims nothing. -/
theorem Claimed.of_unbound (hbindings : f.bindings = [])
    (hmarkers : Token.paramNames f.tokens ⊆ known) : f.Claimed known before after := by
  have hnames : f.names = [] := by simp [names, hbindings]
  refine ⟨⟨by simp [hnames], fun name hname => .inr (hmarkers hname)⟩, ?_, ?_⟩ <;> simp [hnames]

theorem claimed_text (s : String) : (text s).Claimed known before after :=
  .of_unbound rfl (by simp)

/-- A marker of its own, named by a claim. -/
theorem claimed_param (names : Names) (base : String) (v : Value) :
    (param (names.claim base).1 v).Claimed known names (names.claim base).2 := by
  refine ⟨⟨by simp [Fragment.names], ?_⟩, ?_, ?_⟩
  · intro name hname
    exact .inl (by simpa [Fragment.names] using hname)
  · intro name hname
    obtain rfl : name = (names.claim base).1 := by simpa [Fragment.names] using hname
    exact Names.claim_not_mem names base
  · intro name hname
    obtain rfl : name = (names.claim base).1 := by simpa [Fragment.names] using hname
    exact Names.claim_mem names base

theorem Claimed.mono {known' : List String} (hf : f.Claimed known before after)
    (hknown : known ⊆ known') : f.Claimed known' before after :=
  { hf with marked := fun name hname => (hf.marked name hname).imp_right (hknown ·) }

/-- Where names are bound once, the value that a marker stands for is that of its binding. -/
theorem valueOf_of_nodup {bindings : List Binding} (hnodup : (bindings.map (·.name)).Nodup)
    {b : Binding} (hb : b ∈ bindings) : valueOf bindings b.name = b.value := by
  have hmem : b ∈ bindings.reverse := List.mem_reverse.mpr hb
  have hnodup : (bindings.reverse.map (·.name)).Nodup := by
    rw [List.map_reverse, List.nodup_reverse]
    exact hnodup
  have hfind : bindings.reverse.find? (·.name == b.name) = some b := by
    obtain ⟨x, hx⟩ : ∃ x, bindings.reverse.find? (·.name == b.name) = some x := by
      rw [← Option.isSome_iff_exists, List.find?_isSome]
      exact ⟨b, hmem, by simp⟩
    have hname : x.name = b.name := by simpa using List.find?_some hx
    rw [hx, List.inj_on_of_nodup_map hnodup (List.mem_of_find?_eq_some hx) hmem hname]
  rw [valueOf, hfind]
  rfl

/-- A marker of a bound fragment names one binding and no more. -/
theorem Bound.exists_unique_binding (hf : f.Bound []) {name : String}
    (hname : .param name ∈ f.tokens) :
    ∃ b, f.bindings.filter (·.name = name) = [b] := by
  have hmem : name ∈ f.names := by
    have h := hf.marked name (Token.mem_paramNames.mpr hname)
    simpa using h
  have hcount : f.names.count name = 1 := List.count_eq_one_of_mem hf.nodup hmem
  have hlength : (f.bindings.filter (·.name = name)).length = 1 := by
    rw [← List.countP_eq_length_filter, ← hcount, names, List.count, List.countP_map]
    congr 1
  exact List.length_eq_one_iff.mp hlength

end Fragment

/-! ### Compact fragments -/

namespace Fragment

/-- Neighbouring texts of the fragment are merged. -/
def Merged (f : Fragment) : Prop := Token.compact f.tokens = f.tokens

variable {f g : Fragment}

theorem merged_compact (ts : List Token) (bindings : List Binding) :
    Merged ⟨Token.compact ts, bindings⟩ :=
  Token.compact_compact ts

theorem merged_text (s : String) : (text s).Merged := Token.compact_compact [.text s]

theorem merged_pushTokens (ts : List Token) : (Fragment.empty.pushTokens ts).Merged :=
  Token.compact_compact ts

theorem Merged.append_tokens_eq (hf : f.Merged) (us : List Token) :
    Token.append f.tokens us = Token.compact (f.tokens ++ us) := by
  have happend := Token.append_compact f.tokens us
  rw [hf] at happend
  exact happend

theorem Merged.append (hf : f.Merged) (g : Fragment) : (f ++ g).Merged := by
  unfold Merged
  rw [append_tokens, hf.append_tokens_eq, Token.compact_compact]

theorem Merged.empty_append (hf : f.Merged) : Fragment.empty ++ f = f :=
  congrArg (Fragment.mk · f.bindings) hf

theorem Merged.append_assoc (hf : f.Merged) (hg : g.Merged) (h : Fragment) :
    (f ++ g) ++ h = f ++ (g ++ h) := by
  have htokens : Token.append (Token.append f.tokens g.tokens) h.tokens =
      Token.append f.tokens (Token.append g.tokens h.tokens) := by
    rw [hf.append_tokens_eq, Token.append_compact, hg.append_tokens_eq, hf.append_tokens_eq,
      Token.compact_append_compact, List.append_assoc]
  exact congrArg₂ Fragment.mk htokens (List.append_assoc ..)

end Fragment

theorem merged_boundAs (base : String) (v : Value) : Yields Fragment.Merged (boundAs base v) := by
  intro names f hf
  obtain rfl : Fragment.param (names.claim base).1 v = f := by simpa using hf
  rfl

theorem WrappedValue.merged_splice (name : String) (w : WrappedValue) :
    Yields Fragment.Merged (w.splice name) := by
  intro names f hf
  unfold splice at hf
  split at hf
  · split at hf
    · cases hf
      exact Fragment.merged_compact _ _
    · cases hf
  · cases hf
    exact Fragment.merged_compact _ _

/-! ### Computations -/

namespace Claiming

/-- Names stay taken, and a fragment that results is claimed from the names that were free when the
state was `before`. -/
def SoundFrom (known : List String) (before : Names) (c : Claiming Fragment) (names : Names) :
    Prop :=
  names.taken ⊆ (c names).2.taken ∧
    ∀ f, (c names).1 = .ok f → f.Claimed known before (c names).2

/-- A computation whose fragments are claimed between its start and its end. -/
def Sound (known : List String) (c : Claiming Fragment) : Prop :=
  ∀ names, SoundFrom known names c names

variable {known : List String}

theorem soundFrom_pure {before names : Names} {f : Fragment}
    (hf : f.Claimed known before names) : SoundFrom known before (pure f) names := by
  refine ⟨List.Subset.refl _, ?_⟩
  intro g hg
  obtain rfl : f = g := by simpa using hg
  exact hf

/-- A step whose fragment is claimed, and what is done with the fragment. -/
theorem SoundFrom.bind {before names : Names} {c : Claiming Fragment}
    {k : Fragment → Claiming Fragment} (hc : Sound known c)
    (hk : ∀ f after, f.Claimed known names after → names.taken ⊆ after.taken →
      SoundFrom known before (k f) after) :
    SoundFrom known before (c >>= k) names := by
  obtain ⟨hgrow, hclaimed⟩ := hc names
  unfold SoundFrom
  rw [bind_apply]
  rcases hrun : c names with ⟨r, after⟩
  rw [hrun] at hgrow hclaimed
  cases r with
  | error e => exact ⟨hgrow, by simp⟩
  | ok f =>
    obtain ⟨hkeep, hresult⟩ := hk f after (hclaimed f rfl) hgrow
    exact ⟨List.Subset.trans hgrow hkeep, hresult⟩

theorem sound_written (s : String) : Sound known (written s) := by
  intro names
  exact soundFrom_pure (Fragment.claimed_text s)

theorem sound_fault (e : Fault) : Sound known (fault e) := by
  intro names
  refine ⟨List.Subset.refl _, ?_⟩
  intro f hf
  cases hf

theorem sound_boundAs (base : String) (v : Value) : Sound known (boundAs base v) := by
  intro names
  refine ⟨Names.taken_subset_claim names base, ?_⟩
  intro f hf
  obtain rfl : Fragment.param (names.claim base).1 v = f := by simpa using hf
  exact Fragment.claimed_param names base v

/-- A fragment put between text without markers. -/
theorem Sound.map {c : Claiming Fragment} {g : Fragment → Fragment} (hc : Sound known c)
    (hmarkers : ∀ f, Token.paramNames (g f).tokens = Token.paramNames f.tokens)
    (hbindings : ∀ f, (g f).bindings = f.bindings) :
    Sound known (c >>= fun f => pure (g f)) := by
  intro names
  apply SoundFrom.bind hc
  intro f after hf _
  refine soundFrom_pure (hf.congr ?_ (hbindings f))
  rw [hmarkers f]
  exact List.Subset.refl _

theorem Sound.mono {known' : List String} {c : Claiming Fragment} (hc : Sound known c)
    (hknown : known ⊆ known') : Sound known' c := fun names =>
  ⟨(hc names).1, fun f hf => ((hc names).2 f hf).mono hknown⟩

/-- Two fragments claimed one after the other and put together between text without markers; the
second one may refer to the names that the first one binds. -/
theorem Sound.map₂ {c : Claiming Fragment} {c' : Fragment → Claiming Fragment}
    {g : Fragment → Fragment → Fragment} (hc : Sound known c)
    (hc' : ∀ l, l.Bound known → Sound (l.names ++ known) (c' l))
    (hmarkers : ∀ l r, Token.paramNames (g l r).tokens =
      Token.paramNames l.tokens ++ Token.paramNames r.tokens)
    (hbindings : ∀ l r, (g l r).bindings = l.bindings ++ r.bindings) :
    Sound known (c >>= fun l => c' l >>= fun r => pure (g l r)) := by
  intro names
  apply SoundFrom.bind hc
  intro l middle hl hgrow
  have hright := hc' l hl.toBound middle
  unfold SoundFrom at hright ⊢
  rw [bind_apply]
  rcases hrun : c' l middle with ⟨r, after⟩
  rw [hrun] at hright
  cases r with
  | error e => exact ⟨hright.1, by simp⟩
  | ok r =>
    refine ⟨hright.1, ?_⟩
    intro f hf
    obtain rfl : g l r = f := by simpa using hf
    have hboth := hl.append (hright.2 r rfl) hgrow hright.1
    refine hboth.congr ?_ (hbindings l r)
    rw [hmarkers l r, Fragment.append_tokens, Token.paramNames_append]
    exact List.Subset.refl _

end Claiming

end BoundSql
