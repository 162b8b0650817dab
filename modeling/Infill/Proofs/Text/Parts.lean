import Infill.Text.Basic

/-!
# Parts of a text

Joining the parts between separators gives a text back (`joinWith_splitOn`), so that a text is known by
them.  A text that extends another by further parts is the other text, a separator, and more; dotted keys
and paths are ordered in this way.
-/

set_option autoImplicit false

namespace Infill.Text

/-- The parts of a text are those that the list of its characters splits into. -/
theorem splitOn_eq_list_splitOn (separator : Char) (t : Text) :
    splitOn separator t = List.splitOn separator t := by
  induction t with
  | nil => rfl
  | cons c t ih =>
    rw [List.splitOn_eq_splitOnP] at ih ⊢
    rw [splitOn, List.splitOnP_cons_eq_if_modifyHead, ih]
    by_cases hc : c = separator
    · simp [hc]
    · have hne := List.splitOnP_ne_nil (fun x => x == separator) t
      obtain ⟨part, parts, hparts⟩ := List.exists_cons_of_ne_nil hne
      simp [hc, hparts, consFirst]

/-- The parts of a text with the separator between them are the text. -/
theorem joinWith_splitOn (separator : Char) (t : Text) :
    joinWith [separator] (splitOn separator t) = t := by
  rw [splitOn_eq_list_splitOn]
  exact List.intercalate_splitOn separator

/-- The parts behind a separator follow those in front of it. -/
theorem splitOn_append (separator : Char) (s t : Text) :
    splitOn separator (s ++ separator :: t) = splitOn separator s ++ splitOn separator t := by
  simp only [splitOn_eq_list_splitOn]
  exact List.splitOn_append_cons_self s t

/-- A text without a separator is one part. -/
theorem splitOn_of_not_mem {separator : Char} {t : Text} (h : separator ∉ t) : splitOn separator t = [t] := by
  induction t with
  | nil => rfl
  | cons c t ih =>
    obtain ⟨hc, ht⟩ := List.ne_and_not_mem_of_not_mem_cons h
    rw [splitOn, if_neg hc.symm, ih ht]
    rfl

/-- A text without the separator is its only part. -/
theorem eq_of_mem_splitOn {separator : Char} {t part : Text} (h : separator ∉ t) (hpart : part ∈ splitOn separator t) :
    part = t := by
  rw [splitOn_of_not_mem h] at hpart
  exact List.mem_singleton.1 hpart

/-- Separators in front are so many empty parts. -/
theorem splitOn_replicate_append (separator : Char) (k : Nat) (t : Text) :
    splitOn separator (List.replicate k separator ++ t) = List.replicate k [] ++ splitOn separator t := by
  induction k with
  | zero => rfl
  | succ k ih =>
    rw [List.replicate_succ, List.replicate_succ, List.cons_append, List.cons_append, splitOn, if_pos rfl, ih]

/-- A part has no separator in it, and nothing that is not in the text. -/
theorem mem_splitOn {separator : Char} {t part : Text} (h : part ∈ splitOn separator t) :
    separator ∉ part ∧ part ⊆ t := by
  induction t generalizing part with
  | nil =>
    obtain rfl : part = [] := by simpa [splitOn] using h
    exact ⟨List.not_mem_nil, List.nil_subset _⟩
  | cons c t ih =>
    rw [splitOn] at h
    by_cases hc : c = separator
    · rw [if_pos hc] at h
      rcases List.mem_cons.1 h with rfl | h
      · exact ⟨List.not_mem_nil, List.nil_subset _⟩
      · exact ⟨(ih h).1, List.subset_cons_of_subset c (ih h).2⟩
    · obtain ⟨first, parts, hparts⟩ := List.exists_cons_of_ne_nil (splitOn_ne_nil separator t)
      rw [if_neg hc, hparts, consFirst] at h
      rcases List.mem_cons.1 h with rfl | h
      · obtain ⟨hfirst, hsub⟩ := ih (hparts ▸ List.mem_cons_self)
        refine ⟨?_, List.cons_subset_cons c hsub⟩
        rw [List.mem_cons, not_or]
        exact ⟨fun heq => hc heq.symm, hfirst⟩
      · obtain ⟨hpart, hsub⟩ := ih (hparts ▸ List.mem_cons_of_mem first h)
        exact ⟨hpart, List.subset_cons_of_subset c hsub⟩

/-- Texts with the same parts are the same. -/
theorem splitOn_inj {separator : Char} {s t : Text} (h : splitOn separator s = splitOn separator t) :
    s = t := by
  rw [← joinWith_splitOn separator s, h, joinWith_splitOn]

/-- The first part stands alone, and in front of every other one stands the separator. -/
theorem joinWith_cons (separator : Char) (part : Text) (parts : List Text) :
    joinWith [separator] (part :: parts) = part ++ parts.flatMap (separator :: ·) := by
  unfold joinWith
  induction parts generalizing part with
  | nil => simp
  | cons next parts ih =>
    rw [List.intercalate_cons_cons, ih, List.flatMap_cons, List.append_assoc]
    rfl

/-- Joined parts come one behind the other. -/
theorem joinWith_append (separator : Char) {parts more : List Text} (hparts : parts ≠ [])
    (hmore : more ≠ []) :
    joinWith [separator] (parts ++ more) =
      joinWith [separator] parts ++ separator :: joinWith [separator] more := by
  obtain ⟨next, more, rfl⟩ := List.exists_cons_of_ne_nil hmore
  unfold joinWith
  induction parts with
  | nil => exact absurd rfl hparts
  | cons part parts ih =>
    cases parts with
    | nil => simp [List.intercalate_cons_cons]
    | cons part' parts =>
      have hrest := ih (List.cons_ne_nil part' parts)
      simp only [List.cons_append, List.intercalate_cons_cons] at hrest ⊢
      rw [hrest]
      simp

/-- Parts that were joined in groups are joined as if there were no groups.  An empty group would be lost. -/
theorem joinWith_map_joinWith (separator : Char) {groups : List (List Text)} (h : ∀ group ∈ groups, group ≠ []) :
    joinWith [separator] (groups.map (joinWith [separator])) = joinWith [separator] groups.flatten := by
  induction groups with
  | nil => rfl
  | cons group groups ih =>
    obtain ⟨hgroup, hgroups⟩ := List.forall_mem_cons.1 h
    cases groups with
    | nil => simp [joinWith]
    | cons next groups =>
      have hrest : (next :: groups).flatten ≠ [] := by
        have hnext : next ≠ [] := hgroups next List.mem_cons_self
        simp [hnext]
      rw [List.flatten_cons, joinWith_append separator hgroup hrest, ← ih hgroups]
      simp [joinWith, List.intercalate_cons_cons]

/-- Fewer parts at the front make a shorter text. -/
theorem joinWith_sublist (separator : Char) {parts more : List Text} (h : parts <+: more) :
    (joinWith [separator] parts).Sublist (joinWith [separator] more) := by
  obtain ⟨rest, rfl⟩ := h
  by_cases hparts : parts = []
  · subst hparts
    exact List.nil_sublist _
  · by_cases hrest : rest = []
    · simp [hrest]
    · rw [joinWith_append separator hparts hrest]
      exact List.sublist_append_left _ _

/-- A text is cut wherever the separator is in it. -/
theorem cutAtLast?_eq_none_iff {separator : Char} {t : Text} :
    cutAtLast? separator t = none ↔ separator ∉ t := by
  induction t with
  | nil => simp [cutAtLast?]
  | cons c t ih =>
    rw [cutAtLast?, List.mem_cons, not_or, ← ih]
    cases cutAtLast? separator t with
    | some cut => simp
    | none => simp [eq_comm]

/-- A text is cut at a separator behind which there is no other. -/
theorem cutAtLast?_eq_some_iff {separator : Char} {t before rest : Text} :
    cutAtLast? separator t = some (before, rest) ↔ t = before ++ separator :: rest ∧ separator ∉ rest := by
  constructor
  · intro h
    fun_induction cutAtLast? separator t generalizing before with
    | case1 => cases h
    | case2 c t front back hcut ih =>
      obtain ⟨rfl, rfl⟩ : c :: front = before ∧ back = rest := by simpa using h
      obtain ⟨ht, hrest⟩ := ih hcut
      exact ⟨congrArg (c :: ·) ht, hrest⟩
    | case3 t hcut _ =>
      obtain ⟨rfl, rfl⟩ : [] = before ∧ t = rest := by simpa using h
      exact ⟨rfl, cutAtLast?_eq_none_iff.1 hcut⟩
    | case4 => cases h
  · rintro ⟨rfl, hrest⟩
    induction before with
    | nil => rw [List.nil_append, cutAtLast?, cutAtLast?_eq_none_iff.2 hrest, if_pos rfl]
    | cons c before ih => rw [List.cons_append, cutAtLast?, ih]

/-! ## Texts with further parts -/

/-- The second text has the parts of the first and more behind them. -/
def Extends (separator : Char) (s t : Text) : Prop :=
  ∃ more, more ≠ [] ∧ splitOn separator t = splitOn separator s ++ more

namespace Extends

variable {separator : Char} {s t : Text}

/-- A text that extends another one begins with it and a separator. -/
theorem eq_append (h : Extends separator s t) : ∃ rest, t = s ++ separator :: rest := by
  obtain ⟨more, hmore, hsplit⟩ := h
  have hjoin := joinWith_append separator (splitOn_ne_nil separator s) hmore
  rw [← hsplit, joinWith_splitOn, joinWith_splitOn] at hjoin
  exact ⟨_, hjoin⟩

/-- A text that extends another one has more parts. -/
theorem length_lt (h : Extends separator s t) :
    (splitOn separator s).length < (splitOn separator t).length := by
  obtain ⟨more, hmore, hsplit⟩ := h
  have hpos : 0 < more.length := List.length_pos_iff.2 hmore
  rw [hsplit, List.length_append]
  omega

/-- A text does not extend itself. -/
theorem ne (h : Extends separator s t) : s ≠ t := by
  rintro rfl
  exact Nat.lt_irrefl _ h.length_lt

/-- A text comes in front of the texts that extend it. -/
theorem lt (h : Extends separator s t) : s < t := by
  obtain ⟨rest, rfl⟩ := h.eq_append
  clear h
  induction s with
  | nil => exact List.nil_lt_cons separator rest
  | cons c s ih => exact List.cons_lt_cons_iff.2 (.inr ⟨rfl, ih⟩)

end Extends

/-- Texts whose parts begin alike are the same, or one extends the other. -/
theorem eq_or_extends_of_parts {separator : Char} {s t : Text}
    (h : splitOn separator s <+: splitOn separator t) : s = t ∨ Extends separator s t := by
  obtain ⟨more, hmore⟩ := h
  by_cases hnil : more = []
  · subst hnil
    exact .inl (splitOn_inj (by simpa using hmore))
  · exact .inr ⟨more, hnil, hmore.symm⟩

/-- A text extends another one if it has its parts at the front, and more. -/
theorem extends_iff {separator : Char} {s t : Text} :
    Extends separator s t ↔ splitOn separator s <+: splitOn separator t ∧ s ≠ t := by
  constructor
  · intro h
    have hne : s ≠ t := h.ne
    obtain ⟨more, -, hsplit⟩ := h
    exact ⟨⟨more, hsplit.symm⟩, hne⟩
  · rintro ⟨hpre, hne⟩
    exact (eq_or_extends_of_parts hpre).resolve_left hne

instance (separator : Char) (s t : Text) : Decidable (Extends separator s t) :=
  decidable_of_iff _ extends_iff.symm

end Infill.Text
