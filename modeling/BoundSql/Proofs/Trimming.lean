import BoundSql.Proofs.Closed
import BoundSql.Proofs.Rendering
import Mathlib.Data.List.Chain

/-!
# Blanks at the ends of a statement

A fragment is trimmed by its tokens: of a text at an end the blanks go, and the text as a whole if
nothing else is in it.  Markers stay as they are written.  The text of the fragment is trimmed as
well, then, unless a marker at an end is written with a blank there
(`Fragment.trim_render_of_trimmed`).
-/

namespace BoundSql

namespace Text

variable {s t : String}

/-- The text ends with something else than a blank. -/
def Firm (s : String) : Prop := ∃ c ∈ s.toList.getLast?, isBlank c = false

theorem Firm.ne_empty (h : Firm s) : s ≠ "" := by
  rintro rfl
  obtain ⟨c, hc, -⟩ := h
  cases hc

theorem Firm.append (ht : Firm t) : Firm (s ++ t) := by
  obtain ⟨c, hc, hblank⟩ := ht
  refine ⟨c, ?_, hblank⟩
  rw [String.toList_append, List.getLast?_append, Option.mem_def.mp hc]
  rfl

theorem trimStart_eq_self : trimStart s = s ↔ ∀ c ∈ s.toList.head?, isBlank c = false := by
  have hchars : trimStart s = s ↔ s.toList.dropWhile isBlank = s.toList := by
    unfold trimStart
    constructor
    · intro h
      have := congrArg String.toList h
      rwa [String.toList_ofList] at this
    · intro h
      rw [h, String.ofList_toList]
  rw [hchars, List.dropWhile_eq_self_iff]
  cases s.toList with
  | nil => simp
  | cons c cs => simp

theorem trimEnd_eq_self : trimEnd s = s ↔ ∀ c ∈ s.toList.getLast?, isBlank c = false := by
  have hchars : trimEnd s = s ↔ trimStart (String.ofList s.toList.reverse) =
      String.ofList s.toList.reverse := by
    unfold trimEnd trimStart dropBlankEnd
    rw [String.toList_ofList]
    constructor
    · intro h
      have hreverse := congrArg (List.reverse ∘ String.toList) h
      simp only [Function.comp, String.toList_ofList, List.reverse_reverse] at hreverse
      rw [hreverse]
    · intro h
      rw [String.ofList_injective h, List.reverse_reverse, String.ofList_toList]
  rw [hchars, trimStart_eq_self, String.toList_ofList, List.head?_reverse]

theorem Firm.trimEnd (h : Firm s) : trimEnd s = s := by
  obtain ⟨c, hc, hblank⟩ := h
  rw [trimEnd_eq_self]
  intro d hd
  cases Option.mem_unique hc hd
  exact hblank

theorem Firm.eq_empty_of_append {blanks : String} (h : Firm (s ++ blanks))
    (hblanks : allBlank blanks = true) : blanks = "" := by
  by_contra hne
  obtain ⟨c, hc, hsolid⟩ := h
  have hlast : blanks.toList.getLast? = some c := by
    rw [String.toList_append, List.getLast?_append_of_ne_nil _
      (mt String.toList_eq_nil_iff.mp hne)] at hc
    exact hc
  have hblank := List.all_eq_true.mp hblanks c (List.mem_of_getLast? hlast)
  rw [hsolid] at hblank
  cases hblank

theorem firm_of_trimEnd (hs : s ≠ "") (h : trimEnd s = s) : Firm s := by
  have hne : s.toList ≠ [] := fun hnil => hs (String.toList_eq_nil_iff.mp hnil)
  have hlast : s.toList.getLast hne ∈ s.toList.getLast? := List.getLast_mem_getLast? hne
  exact ⟨_, hlast, trimEnd_eq_self.mp h _ hlast⟩

/-- Whether a text starts with a blank is seen at its first part. -/
theorem trimStart_append_eq_self (hs : s ≠ "") :
    trimStart (s ++ t) = s ++ t ↔ trimStart s = s := by
  have hne : s.toList ≠ [] := fun hnil => hs (String.toList_eq_nil_iff.mp hnil)
  rw [trimStart_eq_self, trimStart_eq_self, String.toList_append, List.head?_append_of_ne_nil _ hne]

/-- Whether a text ends with a blank is seen at its last part. -/
theorem trimEnd_append_eq_self (ht : t ≠ "") : trimEnd (s ++ t) = s ++ t ↔ trimEnd t = t := by
  have hne : t.toList ≠ [] := fun hnil => ht (String.toList_eq_nil_iff.mp hnil)
  rw [trimEnd_eq_self, trimEnd_eq_self, String.toList_append, List.getLast?_append_of_ne_nil _ hne]

theorem trimStart_trimStart (s : String) : trimStart (trimStart s) = trimStart s := by
  unfold trimStart
  rw [String.toList_ofList, List.dropWhile_idempotent]

theorem trimEnd_trimEnd (s : String) : trimEnd (trimEnd s) = trimEnd s := by
  unfold trimEnd
  rw [String.toList_ofList]
  exact congrArg String.ofList (List.rdropWhile_idempotent isBlank s.toList)

/-- What is cut off the start of a text are blanks. -/
theorem append_trimStart (s : String) :
    ∃ blanks, allBlank blanks = true ∧ blanks ++ trimStart s = s := by
  refine ⟨String.ofList (s.toList.takeWhile isBlank), ?_, ?_⟩
  · unfold allBlank
    rw [String.toList_ofList, List.all_eq_true]
    intro c hc
    exact List.mem_takeWhile_imp hc
  · unfold trimStart
    rw [← String.ofList_append, List.takeWhile_append_dropWhile, String.ofList_toList]

/-- Cutting the end of a text leaves its start as it is. -/
theorem trimStart_trimEnd (h : trimStart s = s) : trimStart (trimEnd s) = trimEnd s := by
  obtain ⟨blanks, -, hwhole⟩ := trimEnd_append s
  by_cases hne : trimEnd s = ""
  · rw [hne]
    rfl
  · rw [← trimStart_append_eq_self hne (t := blanks), hwhole]
    exact h

theorem trimStart_blanks_append {blanks : String} (h : allBlank blanks = true) (s : String) :
    trimStart (blanks ++ s) = trimStart s := by
  unfold trimStart
  rw [String.toList_append, List.dropWhile_append_of_pos (List.all_eq_true.mp h)]

theorem trimEnd_append_blanks {blanks : String} (h : allBlank blanks = true) (s : String) :
    trimEnd (s ++ blanks) = trimEnd s := by
  have hreverse : ∀ c ∈ blanks.toList.reverse, isBlank c = true := by
    intro c hc
    exact List.all_eq_true.mp h c (List.mem_reverse.mp hc)
  unfold trimEnd dropBlankEnd
  rw [String.toList_append, List.reverse_append, List.dropWhile_append_of_pos hreverse]

theorem trimStart_of_allBlank {blanks : String} (h : allBlank blanks = true) :
    trimStart blanks = "" := by
  have hnothing := trimStart_blanks_append h ""
  rw [String.append_empty] at hnothing
  exact hnothing

theorem trimStart_append_of_ne_empty (h : trimStart s ≠ "") :
    trimStart (s ++ t) = trimStart s ++ t := by
  obtain ⟨blanks, hblanks, hwhole⟩ := append_trimStart s
  have hstart : trimStart (trimStart s ++ t) = trimStart s ++ t :=
    (trimStart_append_eq_self h).mpr (trimStart_trimStart s)
  have hsplit : s ++ t = blanks ++ (trimStart s ++ t) := by
    rw [← String.append_assoc, hwhole]
  rw [hsplit, trimStart_blanks_append hblanks, hstart]

/-- Blanks around a text do not matter once it is trimmed. -/
theorem trim_of_blanks {front back : String} (hfront : allBlank front = true)
    (hback : allBlank back = true) (s : String) : trim (front ++ s ++ back) = trim s := by
  unfold trim
  rw [String.append_assoc, trimStart_blanks_append hfront]
  by_cases hs : trimStart s = ""
  · -- then the text is blank, and what is behind it too
    obtain ⟨blanks, hblanks, hwhole⟩ := append_trimStart s
    rw [hs, String.append_empty] at hwhole
    rw [← hwhole, trimStart_blanks_append hblanks, trimStart_of_allBlank hback,
      trimStart_of_allBlank hblanks]
  · rw [trimStart_append_of_ne_empty hs, trimEnd_append_blanks hback]

theorem firm_trim (h : allBlank s = false) : Firm (trim s) := by
  apply firm_of_trimEnd _ (trimEnd_trimEnd _)
  intro hnothing
  obtain ⟨front, hfront, hstart⟩ := append_trimStart s
  obtain ⟨back, hback, hend⟩ := trimEnd_append (trimStart s)
  have hcut : trimEnd (trimStart s) = "" := hnothing
  rw [hcut, String.empty_append] at hend
  have hall : allBlank s = true := by
    rw [← hstart, ← hend]
    unfold allBlank at hfront hback ⊢
    rw [String.toList_append, List.all_append, hfront, hback]
    rfl
  rw [hall] at h
  cases h

theorem trim_eq_self : trim s = s ↔ trimStart s = s ∧ trimEnd s = s := by
  constructor
  · intro h
    have hcut : trimEnd (trimStart s) = s := h
    have hstart := trimStart_trimEnd (trimStart_trimStart s)
    have hend := trimEnd_trimEnd (trimStart s)
    rw [hcut] at hstart hend
    exact ⟨hstart, hend⟩
  · rintro ⟨hstart, hend⟩
    unfold trim
    rw [hstart, hend]

theorem trim_trim (s : String) : trim (trim s) = trim s :=
  trim_eq_self.mpr ⟨trimStart_trimEnd (trimStart_trimStart s), trimEnd_trimEnd _⟩

end Text

theorem SqlType.firm_name (t : SqlType) : Text.Firm t.name := by
  unfold SqlType.name
  split <;> exact ⟨_, rfl, rfl⟩

/-- Behind the name of a marker its type may stand. -/
theorem Dialect.firm_marker (d : Dialect) {name : String}
    (hname : d.typedMarkers = false → Text.Firm name) (v : Value) :
    Text.Firm (d.marker name v) := by
  unfold Dialect.marker
  cases htyped : d.typedMarkers with
  | false =>
    rw [if_neg Bool.false_ne_true, String.append_empty]
    exact (hname htyped).append
  | true => exact (v.type.firm_name.append).append

/-! ### Texts among tokens -/

namespace Token

/-- Not both of them are texts. -/
def Apart (t u : Token) : Prop := (∀ s, t ≠ .text s) ∨ ∀ s, u ≠ .text s

theorem Apart.ne_text {s : String} {t : Token} (h : Apart (.text s) t) : ∀ u, t ≠ .text u := by
  rcases h with hs | ht
  · exact (hs s rfl).elim
  · exact ht

/-- Next to a token one text is like another. -/
theorem apart_text {s : String} (u : String) {ts : List Token}
    (h : (.text s :: ts).IsChain Apart) : (.text u :: ts).IsChain Apart :=
  h.imp_head fun hs => .inr hs.ne_text

theorem apart_consText (s : String) {ts : List Token} (hts : ts.IsChain Apart) :
    (consText s ts).IsChain Apart := by
  unfold consText
  split
  · exact hts
  · split
    · exact apart_text _ hts
    · next hfirst =>
      apply hts.cons
      intro t ht
      right
      rintro u rfl
      obtain ⟨rest, rfl⟩ := List.head?_eq_some_iff.mp ht
      exact hfirst u rest rfl

/-- In compact tokens no texts are neighbours. -/
theorem apart_compact (ts : List Token) : (compact ts).IsChain Apart := by
  induction ts with
  | nil => exact .nil
  | cons t ts ih =>
    cases t with
    | text s => exact apart_consText s ih
    | _ => exact ih.cons fun _ _ => .inl (by simp)

theorem ne_empty_of_mem_compact {s : String} {ts : List Token} (h : .text s ∈ compact ts) :
    s ≠ "" := by
  induction ts with
  | nil => cases h
  | cons t ts ih =>
    cases t with
    | text u =>
      rw [compact] at h
      unfold consText at h
      split at h
      · exact ih h
      · next hu =>
        split at h
        · next v rest hrest =>
          rcases List.mem_cons.mp h with hs | hs
          · cases hs
            simp [hu]
          · exact ih (hrest ▸ List.mem_cons_of_mem _ hs)
        · rcases List.mem_cons.mp h with hs | hs
          · cases hs
            exact hu
          · exact ih hs
    | _ => exact ih (by simpa [compact] using h)

end Token

namespace Fragment

open Token (Apart)

variable {ts : List Token}

theorem apart_trimFirst (hts : ts.IsChain Apart) : (trimFirst ts).IsChain Apart := by
  unfold trimFirst
  split
  · exact Token.apart_text _ hts
  · exact hts

/-- The tokens that are left of tokens trimmed at the end. -/
def remaining (ts : List Token) : List Token := (trimLast ts).filter (· ≠ .text "")

theorem remaining_cons {t : Token} (ht : ∀ s, t ≠ .text s) (ts : List Token) :
    remaining (t :: ts) = t :: remaining ts := by
  have hlast : trimLast (t :: ts) = t :: trimLast ts := by
    rw [trimLast]
    intro s hs
    exact (ht s hs).elim
  unfold remaining
  rw [hlast, List.filter_cons_of_pos (by simpa using ht "")]

theorem remaining_cons_text (s : String) (hts : ts ≠ []) :
    remaining (.text s :: ts) = if s = "" then remaining ts else .text s :: remaining ts := by
  have hlast : trimLast (.text s :: ts) = .text s :: trimLast ts := by
    rw [trimLast]
    intro u _ hnil
    exact hts hnil
  unfold remaining
  rw [hlast]
  by_cases hs : s = ""
  · rw [if_pos hs, List.filter_cons_of_neg (by simp [hs])]
  · rw [if_neg hs, List.filter_cons_of_pos (by simp [hs])]

theorem remaining_singleton (s : String) :
    remaining [.text s] = if Text.trimEnd s = "" then [] else [.text (Text.trimEnd s)] := by
  unfold remaining
  rw [trimLast]
  by_cases hs : Text.trimEnd s = ""
  · simp [hs]
  · simp [hs]

/-- What is trimmed at the end of tokens does not end with a text that ends with a blank. -/
theorem trimEnd_of_getLast?_remaining (hts : ts.IsChain Apart) {s : String}
    (h : (remaining ts).getLast? = some (.text s)) : Text.trimEnd s = s := by
  induction ts with
  | nil => cases h
  | cons t ts ih =>
    by_cases ht : ∃ u, t = .text u
    · obtain ⟨u, rfl⟩ := ht
      cases ts with
      | nil =>
        rw [remaining_singleton] at h
        split at h
        · cases h
        · have hs : Text.trimEnd u = s := Token.text.inj (Option.some.inj h)
          rw [← hs, Text.trimEnd_trimEnd]
      | cons v ts =>
        -- the token behind a text is none, and stays
        have hv := (List.isChain_cons_cons.mp hts).1.ne_text
        have hrest : (remaining (v :: ts)).getLast? = some (.text s) := by
          rw [remaining_cons_text u (List.cons_ne_nil v ts)] at h
          split at h
          · exact h
          · rw [remaining_cons hv] at h ⊢
            rwa [List.getLast?_cons_cons] at h
        exact ih (List.isChain_cons_cons.mp hts).2 hrest
    · have hnotext : ∀ u, t ≠ .text u := fun u hu => ht ⟨u, hu⟩
      rw [remaining_cons hnotext, List.getLast?_cons] at h
      cases hrest : (remaining ts).getLast? with
      | none =>
        rw [hrest] at h
        exact (hnotext s (Option.some.inj h)).elim
      | some v =>
        rw [hrest] at h
        exact ih hts.of_cons (hrest.trans h)

/-- What is trimmed at both ends does not start with a text that starts with a blank. -/
theorem trimStart_of_head?_remaining (hts : ts.IsChain Apart) {s : String}
    (h : (remaining (trimFirst ts)).head? = some (.text s)) : Text.trimStart s = s := by
  cases ts with
  | nil => cases h
  | cons t ts =>
    by_cases ht : ∃ u, t = .text u
    · obtain ⟨u, rfl⟩ := ht
      have hu := Text.trimStart_trimStart u
      rw [trimFirst] at h
      cases ts with
      | nil =>
        rw [remaining_singleton] at h
        split at h
        · cases h
        · have hs : Text.trimEnd (Text.trimStart u) = s := Token.text.inj (Option.some.inj h)
          rw [← hs, Text.trimStart_trimEnd hu]
      | cons v ts =>
        have hv := (List.isChain_cons_cons.mp hts).1.ne_text
        rw [remaining_cons_text _ (List.cons_ne_nil v ts)] at h
        split at h
        · rw [remaining_cons hv] at h
          exact (hv s (Option.some.inj h)).elim
        · have hs : Text.trimStart u = s := Token.text.inj (Option.some.inj h)
          rw [← hs, hu]
    · have hnotext : ∀ u, t ≠ .text u := fun u hu => ht ⟨u, hu⟩
      have hfirst : trimFirst (t :: ts) = t :: ts := by
        cases t with
        | text u => exact (hnotext u rfl).elim
        | _ => rfl
      rw [hfirst, remaining_cons hnotext] at h
      exact (hnotext s (Option.some.inj h)).elim

/-! ### The text of trimmed tokens -/

variable (marker : String → Value → String)

theorem append_render_trimFirst (bindings : List Binding) (ts : List Token) :
    ∃ blanks, Text.allBlank blanks = true ∧
      blanks ++ render marker ⟨trimFirst ts, bindings⟩ = render marker ⟨ts, bindings⟩ := by
  unfold trimFirst
  split
  · next s ts =>
    obtain ⟨blanks, hblanks, hwhole⟩ := Text.append_trimStart s
    refine ⟨blanks, hblanks, ?_⟩
    rw [render_cons, render_cons, ← String.append_assoc]
    exact congrArg (· ++ render marker ⟨ts, bindings⟩) hwhole
  · exact ⟨"", rfl, String.empty_append⟩

/-- Trimming the tokens cuts nothing off that trimming the text would not. -/
theorem trim_render_trim (f : Fragment) :
    Text.trim (render marker f.trim) = Text.trim (render marker f) := by
  obtain ⟨front, hfront, hstart⟩ := append_render_trimFirst marker f.bindings f.tokens
  obtain ⟨back, hback, hend⟩ := render_trimLast marker f.bindings (trimFirst f.tokens)
  have htrim : render marker f.trim =
      render marker ⟨trimLast (trimFirst f.tokens), f.bindings⟩ := render_filter_text _ _ _
  have hwhole : render marker f = front ++ render marker f.trim ++ back := by
    rw [htrim, String.append_assoc, hend]
    exact hstart.symm
  rw [hwhole, Text.trim_of_blanks hfront hback]

theorem render_sealed (f : Fragment) : render marker f.sealed = render marker f := by
  unfold sealed
  rw [render_compact]
  unfold render
  rw [List.map_map]
  congr 1
  apply List.map_congr_left
  intro t _
  cases t <;> rfl

variable {marker} {f : Fragment}

theorem trimStart_render_eq_self
    (hf : ∀ t ∈ f.tokens, renderToken marker f.bindings t ≠ "") :
    Text.trimStart (render marker f) = render marker f ↔
      ∀ t ∈ f.tokens.head?, Text.trimStart (renderToken marker f.bindings t) =
        renderToken marker f.bindings t := by
  obtain ⟨ts, bindings⟩ := f
  cases ts with
  | nil => exact iff_of_true rfl (by simp)
  | cons t ts =>
    rw [render_cons, Text.trimStart_append_eq_self (hf t List.mem_cons_self)]
    simp

theorem trimEnd_render_eq_self
    (hf : ∀ t ∈ f.tokens, renderToken marker f.bindings t ≠ "") :
    Text.trimEnd (render marker f) = render marker f ↔
      ∀ t ∈ f.tokens.getLast?, Text.trimEnd (renderToken marker f.bindings t) =
        renderToken marker f.bindings t := by
  obtain ⟨ts, bindings⟩ := f
  rcases List.eq_nil_or_concat' ts with rfl | ⟨front, t, rfl⟩
  · exact iff_of_true rfl (by simp)
  · have hlast : render marker ⟨[t], bindings⟩ = renderToken marker bindings t := by
      rw [render_cons]
      exact String.append_empty
    rw [render_append, hlast, Text.trimEnd_append_eq_self (hf t (by simp))]
    simp

/-- No marker at an end of the fragment is written with a blank there. -/
def FlushMarkers (d : Dialect) (f : Fragment) : Prop :=
  (∀ name, f.tokens.head? = some (.param name) →
    let marker := d.marker name (valueOf f.bindings name)
    Text.trimStart marker = marker) ∧
  ∀ name, f.tokens.getLast? = some (.param name) →
    let marker := d.marker name (valueOf f.bindings name)
    Text.trimEnd marker = marker

/-- The text of trimmed tokens is trimmed, but for the markers at its ends. -/
theorem trim_render_eq_self (d : Dialect) (hapart : f.tokens.IsChain Apart) (hf : f.Closed)
    (hslot : .slot ∉ f.tokens) :
    Text.trim (d.render f.trim) = d.render f.trim ↔ f.trim.FlushMarkers d := by
  have hwritten : ∀ t ∈ f.trim.tokens, renderToken d.marker f.trim.bindings t ≠ "" := by
    intro t ht
    cases t with
    | text s =>
      rintro rfl
      simpa using (List.mem_filter.mp ht).2
    | param name => simp [renderToken, Dialect.marker]
    | slot => exact (hslot (mem_of_mem_trim (by simp) ht)).elim
    | sentinel => exact (hf.trim ht).elim
  have hstart : ∀ s, f.trim.tokens.head? = some (.text s) → Text.trimStart s = s := fun s hs =>
    trimStart_of_head?_remaining hapart hs
  have hend : ∀ s, f.trim.tokens.getLast? = some (.text s) → Text.trimEnd s = s := fun s hs =>
    trimEnd_of_getLast?_remaining (apart_trimFirst hapart) hs
  rw [Text.trim_eq_self]
  unfold Dialect.render
  rw [trimStart_render_eq_self hwritten, trimEnd_render_eq_self hwritten]
  -- a token at an end is a text, which is trimmed, or a marker
  have hmarker : ∀ (end? : Option Token) (trimmed : String → Prop),
      (∀ t ∈ end?, t ∈ f.trim.tokens) → (∀ s, end? = some (.text s) → trimmed s) →
        ((∀ t ∈ end?, trimmed (renderToken d.marker f.trim.bindings t)) ↔
          ∀ name, end? = some (.param name) →
            trimmed (d.marker name (valueOf f.trim.bindings name))) := by
    intro end? trimmed hmem htext
    constructor
    · intro h name hname
      exact h _ hname
    · intro h t ht
      cases t with
      | text s => exact htext s ht
      | param name => exact h name ht
      | slot => exact (hslot (mem_of_mem_trim (by simp) (hmem _ ht))).elim
      | sentinel => exact (hf.trim (hmem _ ht)).elim
  exact and_congr (hmarker _ (fun s => Text.trimStart s = s) (fun _ => List.mem_of_head?) hstart)
    (hmarker _ (fun s => Text.trimEnd s = s) (fun _ => List.mem_of_getLast?) hend)

/-- With a sign that is no blank it takes a name that ends with one, and no type behind it. -/
theorem flushMarkers_of_names (d : Dialect) (hsign : Text.isBlank d.sign = false)
    (hnames : d.typedMarkers = false → ∀ name, f.tokens.getLast? = some (.param name) →
      Text.trimEnd name = name) : f.FlushMarkers d := by
  constructor
  · intro name _
    dsimp only [Dialect.marker]
    rw [String.append_assoc, Text.trimStart_append_eq_self (by simp), Text.trimStart_eq_self]
    intro c hc
    obtain rfl : d.sign = c := by simpa using hc
    exact hsign
  · intro name hlast
    by_cases hfirm : d.typedMarkers = false → Text.Firm name
    · exact (d.firm_marker hfirm _).trimEnd
    · -- a name without a last character
      obtain ⟨htyped, hname⟩ := Classical.not_imp.mp hfirm
      have hempty : name = "" := by
        by_contra hne
        exact hname (Text.firm_of_trimEnd hne (hnames htyped name hlast))
      rw [hempty, Text.trimEnd_eq_self]
      intro c hc
      obtain rfl : d.sign = c := by simpa [Dialect.marker, htyped] using hc
      exact hsign

end Fragment

end BoundSql
