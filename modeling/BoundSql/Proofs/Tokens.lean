import BoundSql.Template.Token

/-!
# Laws of compact tokens

Compacting and joining move text around and nothing else: the markers of a list of tokens stay the
same, in the same order.  What is put together from compacted pieces is the compacted list of all
pieces, so that a statement can be read as one list of pieces.
-/

namespace BoundSql

namespace Token

/-! ### Markers -/

@[simp] theorem paramNames_nil : paramNames [] = [] := rfl

@[simp] theorem paramNames_cons_text (s : String) (ts : List Token) :
    paramNames (.text s :: ts) = paramNames ts := rfl

@[simp] theorem paramNames_cons_param (name : String) (ts : List Token) :
    paramNames (.param name :: ts) = name :: paramNames ts := rfl

@[simp] theorem paramNames_cons_slot (ts : List Token) :
    paramNames (.slot :: ts) = paramNames ts := rfl

@[simp] theorem paramNames_cons_sentinel (ts : List Token) :
    paramNames (.sentinel :: ts) = paramNames ts := rfl

theorem paramNames_cons_of_ne {t : Token} (ht : ∀ name, t ≠ .param name) (ts : List Token) :
    paramNames (t :: ts) = paramNames ts := by
  cases t with
  | param name => exact (ht name rfl).elim
  | _ => rfl

@[simp] theorem paramNames_append_list (ts us : List Token) :
    paramNames (ts ++ us) = paramNames ts ++ paramNames us :=
  List.filterMap_append

theorem mem_paramNames {name : String} {ts : List Token} :
    name ∈ paramNames ts ↔ .param name ∈ ts := by
  unfold paramNames
  rw [List.mem_filterMap]
  constructor
  · rintro ⟨t, ht, hname⟩
    cases t with
    | param other =>
      simp only [paramName?, Option.some.injEq] at hname
      rw [← hname]
      exact ht
    | _ => simp [paramName?] at hname
  · intro h
    exact ⟨.param name, h, rfl⟩

@[simp] theorem paramNames_consText (s : String) (ts : List Token) :
    paramNames (consText s ts) = paramNames ts := by
  unfold consText
  split
  · rfl
  · cases ts with
    | nil => rfl
    | cons t ts => cases t <;> rfl

@[simp] theorem paramNames_compact (ts : List Token) : paramNames (compact ts) = paramNames ts := by
  induction ts with
  | nil => rfl
  | cons t ts ih => cases t <;> simp [compact, ih]

theorem paramNames_join (ts us : List Token) :
    paramNames (join ts us) = paramNames ts ++ paramNames us := by
  induction ts with
  | nil => rfl
  | cons t ts ih =>
    cases ts with
    | nil => cases t <;> simp [join]
    | cons u ts => cases t <;> simp [join, ih]

@[simp] theorem paramNames_append (ts us : List Token) :
    paramNames (append ts us) = paramNames ts ++ paramNames us := by
  simp [append, paramNames_join]

/-- Dropping texts keeps the markers. -/
@[simp] theorem paramNames_filter_text (s : String) (ts : List Token) :
    paramNames (ts.filter (· ≠ .text s)) = paramNames ts := by
  induction ts with
  | nil => rfl
  | cons t ts ih =>
    cases t with
    | text u =>
      by_cases hu : u = s
      · simpa [hu] using ih
      · simpa [hu] using ih
    | _ => simpa using ih

@[simp] theorem paramNames_intersperse_slot (ts : List Token) :
    paramNames (ts.intersperse .slot) = paramNames ts := by
  induction ts with
  | nil => rfl
  | cons t ts ih =>
    cases ts with
    | nil => rfl
    | cons u ts =>
      rw [List.intersperse_cons_cons]
      cases t <;> simpa using ih

/-! ### Tokens that are no texts -/

section

variable {t : Token} {ts us : List Token} (ht : ∀ s, t ≠ .text s)

include ht

theorem mem_consText {s : String} : t ∈ consText s ts ↔ t ∈ ts := by
  unfold consText
  split
  · exact Iff.rfl
  · split
    · simp [ht]
    · simp [ht]

theorem mem_compact : t ∈ compact ts ↔ t ∈ ts := by
  induction ts with
  | nil => exact Iff.rfl
  | cons u ts ih => cases u <;> simp [compact, mem_consText ht, ih, ht]

theorem mem_join : t ∈ join ts us ↔ t ∈ ts ∨ t ∈ us := by
  induction ts with
  | nil => simp [join]
  | cons u ts ih =>
    cases ts with
    | nil => cases u <;> simp [join, mem_consText ht, ht]
    | cons v ts => cases u <;> simp [join, ih, ht, or_assoc]

theorem mem_append : t ∈ append ts us ↔ t ∈ ts ∨ t ∈ us := by
  unfold append
  rw [mem_join ht, mem_compact ht]

end

/-! ### Pieces -/

theorem consText_consText (s u : String) (ts : List Token) :
    consText s (consText u ts) = consText (s ++ u) ts := by
  by_cases hu : u = ""
  · subst hu
    simp [consText]
  · by_cases hs : s = ""
    · subst hs
      simp [consText]
    · have hsu : s ++ u ≠ "" := by simp [hs]
      cases ts with
      | nil => simp [consText, hu, hs]
      | cons t ts => cases t <;> simp [consText, hu, hs, String.append_assoc]

theorem compact_consText (s : String) (ts : List Token) :
    compact (consText s ts) = consText s (compact ts) := by
  by_cases hs : s = ""
  · subst hs
    simp [consText]
  · cases ts with
    | nil => simp [consText, compact, hs]
    | cons t ts =>
      cases t with
      | text u =>
        have h : consText s (.text u :: ts) = .text (s ++ u) :: ts := by simp [consText, hs]
        rw [h]
        simp only [compact]
        rw [consText_consText]
      | _ => simp [consText, compact, hs]

/-- Compact tokens stay as they are. -/
@[simp] theorem compact_compact (ts : List Token) : compact (compact ts) = compact ts := by
  induction ts with
  | nil => rfl
  | cons t ts ih => cases t <;> simp [compact, compact_consText, ih]

theorem join_consText (s : String) (ts us : List Token) :
    join (consText s ts) us = consText s (join ts us) := by
  by_cases hs : s = ""
  · subst hs
    simp [consText]
  · cases ts with
    | nil => simp [consText, join, hs]
    | cons t ts =>
      cases ts with
      | nil =>
        cases t with
        | text u =>
          have h : consText s [.text u] = [.text (s ++ u)] := by simp [consText, hs]
          rw [h]
          simp only [join]
          rw [consText_consText]
        | _ => simp [consText, join, hs]
      | cons v ts => cases t <;> simp [consText, join, hs]

/-- Tokens after compacted ones are the compacted list of both. -/
theorem append_compact (ts us : List Token) :
    append (compact ts) us = compact (ts ++ us) := by
  unfold append
  induction ts with
  | nil => rfl
  | cons t ts ih =>
    cases t with
    | text s =>
      simp only [compact, List.cons_append]
      rw [join_consText, ih]
    | _ =>
      simp only [compact, List.cons_append]
      rw [← ih]
      rfl

theorem append_compact_right (ts us : List Token) : append ts (compact us) = append ts us := by
  unfold append
  rw [compact_compact]

/-- What is compacted already may be compacted again with the rest. -/
theorem compact_append_compact (ts us : List Token) :
    compact (ts ++ compact us) = compact (ts ++ us) := by
  rw [← append_compact, ← append_compact, append_compact_right]

theorem compact_compact_append (ts us : List Token) :
    compact (compact ts ++ us) = compact (ts ++ us) := by
  rw [← append_compact, compact_compact, append_compact]

theorem compact_append_congr {us vs : List Token} (h : compact us = compact vs) (ts : List Token) :
    compact (ts ++ us) = compact (ts ++ vs) := by
  rw [← compact_append_compact, h, compact_append_compact]

/-! ### Three lists of tokens -/

theorem join_cons_of_ne_nil {ts : List Token} (hts : ts ≠ []) (t : Token) (us : List Token) :
    join (t :: ts) us = t :: join ts us := by
  cases ts with
  | nil => exact (hts rfl).elim
  | cons u ts => cases t <;> rfl

theorem consText_ne_nil {s : String} (hs : s ≠ "") (ts : List Token) : consText s ts ≠ [] := by
  unfold consText
  rw [if_neg hs]
  split <;> simp

theorem join_ne_nil {us : List Token} (hus : us ≠ []) (ts : List Token) : join ts us ≠ [] := by
  cases ts with
  | nil => exact hus
  | cons t ts =>
    cases ts with
    | nil =>
      cases t with
      | text s =>
        by_cases hs : s = ""
        · subst hs
          exact hus
        · exact consText_ne_nil hs us
      | _ => exact List.cons_ne_nil _ _
    | cons u ts =>
      rw [join_cons_of_ne_nil (List.cons_ne_nil u ts)]
      exact List.cons_ne_nil _ _

/-- Behind an empty text nothing would be joined with the text in front of it, so there must be
something between the first tokens and the last ones. -/
theorem join_assoc {us : List Token} (hus : us ≠ []) (ts vs : List Token) :
    join (join ts us) vs = join ts (join us vs) := by
  induction ts with
  | nil => rfl
  | cons t ts ih =>
    cases ts with
    | nil =>
      cases t with
      | text s => exact join_consText s us vs
      | _ => exact join_cons_of_ne_nil hus _ vs
    | cons u ts =>
      rw [join_cons_of_ne_nil (List.cons_ne_nil u ts),
        join_cons_of_ne_nil (join_ne_nil hus (u :: ts)), ih,
        join_cons_of_ne_nil (List.cons_ne_nil u ts)]

/-- What is put behind tokens piece by piece may be put there at once, if the first piece is not
empty. -/
theorem append_append {us : List Token} (hus : compact us ≠ []) (ts vs : List Token) :
    append (append ts us) vs = append ts (us ++ vs) := by
  unfold append
  rw [join_assoc hus, ← append_compact]
  rfl

/-! ### Tokens that go on -/

/-- The second tokens are the first ones and more behind them, where a text at the end of the first
ones may go on. -/
def Kept (ts us : List Token) : Prop :=
  ts <+: us ∨ ∃ front s u back, ts = front ++ [.text s] ∧ us = front ++ .text (s ++ u) :: back

theorem Kept.cons {ts us : List Token} (h : Kept ts us) (t : Token) : Kept (t :: ts) (t :: us) := by
  rcases h with hprefix | ⟨front, s, u, back, rfl, rfl⟩
  · exact .inl (List.prefix_cons_inj t |>.mpr hprefix)
  · exact .inr ⟨t :: front, s, u, back, rfl, rfl⟩

/-- Tokens that start with a text leave those in front of them as they are, but for a text at their
end. -/
theorem kept_append_text {s : String} (hs : s ≠ "") (ts us : List Token) :
    Kept ts (append ts (.text s :: us)) := by
  obtain ⟨u, back, hback⟩ : ∃ u back, compact (.text s :: us) = .text u :: back := by
    unfold compact consText
    rw [if_neg hs]
    split <;> exact ⟨_, _, rfl⟩
  unfold append
  rw [hback]
  induction ts with
  | nil => exact .inl List.nil_prefix
  | cons t ts ih =>
    cases ts with
    | nil =>
      cases t with
      | text v =>
        refine .inr ⟨[], v, u, back, rfl, ?_⟩
        by_cases hv : v = ""
        · simp [join, consText, hv]
        · simp [join, consText, hv]
      | _ => exact .inl (List.prefix_append _ _)
    | cons t' ts =>
      rw [join_cons_of_ne_nil (List.cons_ne_nil t' ts)]
      exact ih.cons t

end Token

end BoundSql
