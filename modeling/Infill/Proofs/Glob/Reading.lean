import Infill.Glob.Match
import Mathlib.Data.List.TakeWhile
import Mathlib.Tactic.SplitIfs

/-!
# Reading patterns

A text without wildcards is read as the pattern of its characters, and it can stand in front of any pattern: behind
a slash the rest is read as if it stood alone (`exists_parse_append`).  The only difference is that `**/**` at the
front of a pattern is read as two runs of folders and elsewhere as one; both match the same texts.

A pattern has no characters but those of the text that it was read from (`mem_of_char_mem_parse`), and without slashes
in the text it has no run of folders, unless the text is `**` (`not_mem_anyFolders_of_parse`).
-/

set_option autoImplicit false

namespace Infill.Glob

/-- No character of a text is a wildcard. -/
def IsLiteral (t : Text) : Prop := ∀ c ∈ t, c ≠ '?' ∧ c ≠ '*' ∧ c ≠ '['

instance (t : Text) : Decidable (IsLiteral t) := List.decidableBAll (fun c => c ≠ '?' ∧ c ≠ '*' ∧ c ≠ '[') t

variable {q p t : Text} {pattern : Pattern}

/-! ## Texts without wildcards -/

/-- Characters that are no wildcards are read as themselves. -/
theorem readElements_literal (hq : IsLiteral q) (rounds position : Nat) (previous : Option Char) (read : List Element)
    (p : Text) : readElements (q.length + rounds) position previous read (q ++ p) =
      readElements rounds (position + q.length) (q.getLast?.or previous) ((q.map .char).reverse ++ read) p := by
  induction q generalizing position previous read with
  | nil => simp
  | cons c q ih =>
    obtain ⟨⟨hany, hrun, hclass⟩, hq⟩ := List.forall_mem_cons.1 hq
    rw [List.length_cons, Nat.add_right_comm, List.cons_append, readElements, if_neg hany, if_neg hrun, if_neg hclass,
      ih hq, Nat.add_assoc, Nat.add_comm 1]
    congr 1
    · cases hlast : q.getLast? with
      | none =>
        rw [List.getLast?_eq_none_iff.1 hlast]
        rfl
      | some d => simp [List.getLast?_cons, hlast]
    · simp

/-- A text without wildcards reads as itself. -/
theorem parse_literal (ht : IsLiteral t) : Pattern.parse t = .ok (t.map .char) := by
  have hread := readElements_literal ht 0 0 none [] []
  rw [List.append_nil] at hread
  unfold Pattern.parse
  rw [← Nat.add_zero t.length, hread, readElements]
  simp

/-- Such a pattern stands for its text. -/
theorem literal?_map_char (t : Text) : Pattern.literal? (t.map .char) = some t := by
  induction t with
  | nil => rfl
  | cons c t ih => rw [List.map_cons, Pattern.literal?, ih, Option.map_some]

/-- What a text without wildcards stands in front of begins with this text. -/
theorem matches_literal_append (q : Text) (pattern : Pattern) (t : Text) :
    Pattern.matches (q.map .char ++ pattern) (q ++ t) = pattern.matches t := by
  induction q with
  | nil => rfl
  | cons c q ih =>
    simp [Pattern.matches, Element.admits, ih]

/-! ## Runs of characters -/

/-- A run of characters leaves some tail of the text. -/
theorem anyTail_iff {rest : Text → Bool} : anyTail rest t = true ↔ ∃ s, s <:+ t ∧ rest s = true := by
  induction t with
  | nil => simp [anyTail]
  | cons c t ih => simp [anyTail, ih, List.suffix_cons_iff, or_and_right, exists_or]

/-- A run of characters matches every text. -/
@[simp] theorem matches_anyRun (t : Text) : Pattern.matches [.anyRun] t = true := by
  rw [Pattern.matches, anyTail_iff]
  exact ⟨[], List.nil_suffix, rfl⟩

/-! ## Runs of folders at the front -/

/-- Leaving a run of folders twice is leaving it once. -/
theorem anyFolderTail_or (rest : Text → Bool) (t : Text) :
    anyFolderTail (fun t => rest t || anyFolderTail rest t) t = anyFolderTail rest t := by
  induction t with
  | nil => simp [anyFolderTail]
  | cons c t ih =>
    rw [anyFolderTail, ih, anyFolderTail]
    cases c == '/' <;> cases rest t <;> simp

/-- Two runs of folders are one. -/
theorem matches_anyFolders_anyFolders (pattern : Pattern) (t : Text) :
    Pattern.matches (.anyFolders :: .anyFolders :: pattern) t = Pattern.matches (.anyFolders :: pattern) t := by
  have hone : ∀ t, Pattern.matches (.anyFolders :: pattern) t =
      (pattern.matches t || anyFolderTail pattern.matches t) := fun t => by rw [Pattern.matches]
  rw [Pattern.matches, funext hone, anyFolderTail_or, Bool.or_assoc, Bool.or_self]

/-- Elements read so far, last first, of which the first two may be runs of folders where the other list has
one. -/
def Squeezed (read read' : List Element) : Prop :=
  read = read' ∨ ∃ others, read = others ++ [.anyFolders, .anyFolders] ∧ read' = others ++ [.anyFolders]

variable {read read' front : List Element}

/-- An element more stands behind both. -/
theorem Squeezed.cons (h : Squeezed read read') (element : Element) :
    Squeezed (element :: read) (element :: read') := by
  rcases h with rfl | ⟨others, rfl, rfl⟩
  · exact .inl rfl
  · exact .inr ⟨element :: others, rfl, rfl⟩

/-- Both match the same texts. -/
theorem Squeezed.matches_eq (h : Squeezed read read') (t : Text) :
    Pattern.matches read.reverse t = Pattern.matches read'.reverse t := by
  rcases h with rfl | ⟨others, rfl, rfl⟩
  · rfl
  · simp only [List.reverse_append, List.reverse_cons, List.reverse_nil, List.nil_append, List.cons_append]
    exact matches_anyFolders_anyFolders others.reverse t

/-- A run of folders is added to the elements read before, unless one was just added. -/
def addFolders (read : List Element) : List Element :=
  if 1 < read.length ∧ read.head? = some .anyFolders then read else .anyFolders :: read

/-- Both end in the same element. -/
theorem Squeezed.head?_eq (h : Squeezed read read') : read.head? = read'.head? := by
  rcases h with rfl | ⟨others, rfl, rfl⟩
  · rfl
  · cases others <;> rfl

/-- Behind other elements no second run of folders is added. -/
theorem Squeezed.addFolders (h : Squeezed read read') (hfront : front ≠ [])
    (hhead : front.head? ≠ some .anyFolders) :
    ∃ added, addFolders (read' ++ front) = added ++ front ∧ Squeezed (addFolders read) added := by
  have hlength := List.length_pos_iff.2 hfront
  by_cases hlast : read'.head? = some .anyFolders
  · obtain ⟨others, rfl⟩ : ∃ others, read' = .anyFolders :: others := List.head?_eq_some_iff.1 hlast
    have hstays : 1 < (.anyFolders :: others ++ front).length ∧
        (.anyFolders :: others ++ front).head? = some Element.anyFolders := by
      refine ⟨?_, rfl⟩
      rw [List.length_append, List.length_cons]
      omega
    refine ⟨.anyFolders :: others, if_pos hstays, ?_⟩
    unfold Glob.addFolders
    split_ifs with hread
    · exact h
    · -- A single run of folders was read so far.
      rw [h.head?_eq, hlast, eq_self, and_true, Nat.not_lt] at hread
      rcases h with rfl | ⟨others', rfl, -⟩
      · obtain rfl : others = [] := List.length_eq_zero_iff.1 (by simpa using hread)
        exact .inr ⟨[], rfl, rfl⟩
      · simp at hread
  · have hadds : ¬ (1 < (read' ++ front).length ∧ (read' ++ front).head? = some Element.anyFolders) := by
      rintro ⟨-, hfirst⟩
      cases read' with
      | nil => exact hhead hfirst
      | cons element others => exact hlast hfirst
    refine ⟨.anyFolders :: read', if_neg hadds, ?_⟩
    unfold Glob.addFolders
    rw [h.head?_eq, if_neg fun hread => hlast hread.2]
    exact h.cons .anyFolders

/-! ## Patterns behind a text without wildcards -/

/-- A run of stars is read by its length and by what stands around it. -/
theorem readElements_star (rounds position : Nat) (previous : Option Char) (read : List Element) (t : Text) :
    readElements (rounds + 1) position previous read ('*' :: t) =
      let stars := ('*' :: t).takeWhile (· == '*')
      let after := ('*' :: t).dropWhile (· == '*')
      if 2 < stars.length then .error ⟨position + 2, .tooManyStars⟩
      else if stars.length = 2 then
        if previous.all (· == '/') then
          match after with
          | [] => .ok (addFolders read).reverse
          | d :: tail =>
            if d = '/' then readElements rounds (position + 3) (some '/') (addFolders read) tail
            else .error ⟨position + 2, .foldersNotAlone⟩
        else .error ⟨position - 1, .foldersNotAlone⟩
      else readElements rounds (position + 1) (some '*') (.anyRun :: read) after := by
  rw [readElements]
  rfl

/-- Reading on behind other elements gives the same elements behind them, but for a second run of folders at the
front. -/
theorem exists_readElements_append (hfront : front ≠ []) (hhead : front.head? ≠ some .anyFolders)
    {rounds position : Nat} (position' : Nat) {previous previous' : Option Char}
    (hprevious : previous.all (· == '/') = previous'.all (· == '/')) (hsqueezed : Squeezed read read')
    (h : readElements rounds position previous read t = .ok pattern) :
    ∃ all pattern', readElements rounds position' previous' (read' ++ front) t = .ok all ∧
      all = front.reverse ++ pattern' ∧ ∀ t, Pattern.matches pattern' t = pattern.matches t := by
  induction rounds generalizing position position' previous previous' read read' t with
  | zero =>
    obtain rfl := Except.ok.inj h
    exact ⟨_, read'.reverse, rfl, List.reverse_append, fun t => (hsqueezed.matches_eq t).symm⟩
  | succ rounds ih =>
    cases t with
    | nil =>
      obtain rfl := Except.ok.inj h
      exact ⟨_, read'.reverse, rfl, List.reverse_append, fun t => (hsqueezed.matches_eq t).symm⟩
    | cons c t =>
      by_cases hrun : c = '*'
      · subst hrun
        rw [readElements_star] at h ⊢
        dsimp only at h ⊢
        rw [← hprevious]
        split_ifs at h ⊢ with hmany htwo hslash
        · obtain ⟨added, hadded, hsqueezed'⟩ := hsqueezed.addFolders hfront hhead
          rw [hadded]
          split at h
          · obtain rfl := Except.ok.inj h
            exact ⟨_, added.reverse, rfl, List.reverse_append, fun t => (hsqueezed'.matches_eq t).symm⟩
          · split_ifs at h ⊢ with hd
            exact ih _ rfl hsqueezed' h
        · exact ih _ rfl (hsqueezed.cons .anyRun) h
      · rw [readElements] at h ⊢
        split_ifs at h ⊢ with hany hclass
        · exact ih _ rfl (hsqueezed.cons .anyChar) h
        · cases hread : readClass? t with
          | none =>
            rw [hread] at h
            cases h
          | some found =>
            rw [hread] at h
            exact ih _ rfl (hsqueezed.cons found.1) h
        · exact ih _ rfl (hsqueezed.cons (.char c)) h

/-- Behind a text without wildcards that is empty or ends in a slash, a pattern is read as if it stood alone. -/
theorem exists_parse_append (hq : IsLiteral q) (hslash : q = [] ∨ q.getLast? = some '/')
    (h : Pattern.parse p = .ok pattern) :
    ∃ pattern' : Pattern, Pattern.parse (q ++ p) = .ok (q.map .char ++ pattern') ∧
      ∀ t, pattern'.matches t = pattern.matches t := by
  by_cases hempty : q = []
  · subst hempty
    exact ⟨pattern, h, fun _ => rfl⟩
  · have hlast := hslash.resolve_left hempty
    obtain ⟨front, rfl⟩ := List.getLast?_eq_some_iff.1 hlast
    unfold Pattern.parse at h ⊢
    have hne : ((front ++ ['/']).map Element.char).reverse ≠ [] := by simp
    have hhead : ((front ++ ['/']).map Element.char).reverse.head? ≠ some .anyFolders := by simp
    have hprevious : (none : Option Char).all (· == '/') = (some '/').all (· == '/') := rfl
    obtain ⟨all, pattern', hread, rfl, hmatches⟩ :=
      exists_readElements_append hne hhead (0 + (front ++ ['/']).length) hprevious (.inl rfl) h
    refine ⟨pattern', ?_, hmatches⟩
    rw [List.length_append, readElements_literal hq, hlast]
    simpa using hread

/-- So behind a text without wildcards a pattern matches what it matches alone. -/
theorem exists_parse_append_matches (hq : IsLiteral q) (hslash : q = [] ∨ q.getLast? = some '/')
    (h : Pattern.parse p = .ok pattern) :
    ∃ all : Pattern, Pattern.parse (q ++ p) = .ok all ∧ ∀ t, all.matches (q ++ t) = pattern.matches t := by
  obtain ⟨pattern', hparse, hmatches⟩ := exists_parse_append hq hslash h
  exact ⟨_, hparse, fun t => (matches_literal_append q pattern' t).trans (hmatches t)⟩

/-! ## The characters of a pattern -/

/-- What follows a class is the end of the text. -/
theorem suffix_of_cutAtBracket? {items rest : Text} (h : cutAtBracket? t = some (items, rest)) : rest <:+ t := by
  induction t generalizing items with
  | nil => cases h
  | cons c t ih =>
    cases t with
    | nil => cases h
    | cons d tail =>
      rw [cutAtBracket?] at h
      split_ifs at h with hd
      · obtain ⟨-, rfl⟩ := Prod.mk.inj (Option.some.inj h)
        exact ⟨[c, d], rfl⟩
      · obtain ⟨⟨items', rest'⟩, hcut, heq⟩ := Option.map_eq_some_iff.1 h
        obtain ⟨-, rfl⟩ := Prod.mk.inj heq
        exact (ih hcut).trans (List.suffix_cons c _)

/-- A class stands for one character, and what follows it is a rest of the text. -/
theorem of_readClass? {element : Element} {rest : Text} (h : readClass? t = some (element, rest)) :
    rest <:+ t ∧ ∃ items, element = .within items ∨ element = .except items := by
  unfold readClass? at h
  split at h
  · obtain ⟨⟨items, rest'⟩, hcut, heq⟩ := Option.map_eq_some_iff.1 h
    obtain ⟨rfl, rfl⟩ := Prod.mk.inj heq
    exact ⟨(suffix_of_cutAtBracket? hcut).trans (List.suffix_cons '!' _), _, .inr rfl⟩
  · obtain ⟨⟨items, rest'⟩, hcut, heq⟩ := Option.map_eq_some_iff.1 h
    obtain ⟨rfl, rfl⟩ := Prod.mk.inj heq
    exact ⟨suffix_of_cutAtBracket? hcut, _, .inl rfl⟩

/-- The characters of a pattern were read before or stand in the text. -/
theorem mem_of_char_mem_readElements {rounds position : Nat} {previous : Option Char} {d : Char}
    (h : readElements rounds position previous read t = .ok pattern) (hd : .char d ∈ pattern) :
    .char d ∈ read ∨ d ∈ t := by
  induction rounds generalizing position previous read t with
  | zero =>
    obtain rfl := Except.ok.inj h
    exact .inl (List.mem_reverse.1 hd)
  | succ rounds ih =>
    cases t with
    | nil =>
      obtain rfl := Except.ok.inj h
      exact .inl (List.mem_reverse.1 hd)
    | cons c t =>
      -- The next element stands for a character of the text, or for none.
      have hpush : ∀ {element : Element} {rest : Text}, (element = .char d → d ∈ c :: t) → rest <:+ c :: t →
          (.char d ∈ element :: read ∨ d ∈ rest) → .char d ∈ read ∨ d ∈ c :: t := by
        intro element rest helement hrest hor
        rcases hor with hmem | hmem
        · rcases List.mem_cons.1 hmem with heq | hmem
          · exact .inr (helement heq.symm)
          · exact .inl hmem
        · exact .inr (hrest.subset hmem)
      by_cases hrun : c = '*'
      · subst hrun
        have hafter : ('*' :: t).dropWhile (· == '*') <:+ '*' :: t := List.dropWhile_suffix _
        have hfolders : .char d ∈ addFolders read → .char d ∈ read := by
          unfold addFolders
          split_ifs <;> simp
        rw [readElements_star] at h
        dsimp only at h
        split_ifs at h with hmany htwo hslash
        · split at h
          · obtain rfl := Except.ok.inj h
            exact .inl (hfolders (List.mem_reverse.1 hd))
          · rename_i heq
            split_ifs at h
            exact (ih h).imp hfolders fun hmem => ((List.suffix_cons _ _).trans (heq ▸ hafter)).subset hmem
        · exact hpush (fun heq => by cases heq) hafter (ih h)
      · rw [readElements] at h
        split_ifs at h with hany hclass
        · exact hpush (fun heq => by cases heq) (List.suffix_cons c t) (ih h)
        · cases hread : readClass? t with
          | none =>
            rw [hread] at h
            cases h
          | some found =>
            rw [hread] at h
            obtain ⟨hrest, items, hclass⟩ := of_readClass? hread
            have hchar : found.1 ≠ .char d := by rcases hclass with heq | heq <;> simp [heq]
            exact hpush (fun heq => absurd heq hchar) (hrest.trans (List.suffix_cons c t)) (ih h)
        · refine hpush (fun heq => ?_) (List.suffix_cons c t) (ih h)
          obtain rfl := Element.char.inj heq
          exact List.mem_cons_self

/-- A pattern has no characters but those of its text. -/
theorem mem_of_char_mem_parse {d : Char} (h : Pattern.parse t = .ok pattern) (hd : .char d ∈ pattern) : d ∈ t :=
  (mem_of_char_mem_readElements h hd).resolve_left (by simp)

/-! ## Runs of folders -/

/-- Without slashes in the text a run of folders is read only from `**` alone. -/
theorem of_anyFolders_mem_readElements {rounds position : Nat} {previous : Option Char} (hslash : '/' ∉ t)
    (h : readElements rounds position previous read t = .ok pattern) (hmem : .anyFolders ∈ pattern) :
    .anyFolders ∈ read ∨ previous.all (· == '/') = true ∧ t = ['*', '*'] := by
  induction rounds generalizing position previous read t with
  | zero =>
    obtain rfl := Except.ok.inj h
    exact .inl (List.mem_reverse.1 hmem)
  | succ rounds ih =>
    cases t with
    | nil =>
      obtain rfl := Except.ok.inj h
      exact .inl (List.mem_reverse.1 hmem)
    | cons c t =>
      -- Behind a character of the text nothing else can be a run of folders.
      have hpush : ∀ {position : Nat} {d : Char} {element : Element} {rest : Text}, d ≠ '/' → element ≠ .anyFolders →
          rest <:+ c :: t → readElements rounds position (some d) (element :: read) rest = .ok pattern →
          .anyFolders ∈ read ∨ previous.all (· == '/') = true ∧ c :: t = ['*', '*'] := by
        intro position d element rest hd helement hrest h
        rcases ih (fun hmem => hslash (hrest.subset hmem)) h with hmem | ⟨hall, -⟩
        · exact .inl ((List.mem_cons.1 hmem).resolve_left helement.symm)
        · exact absurd (beq_iff_eq.1 hall) hd
      have hc : c ≠ '/' := fun heq => hslash (heq ▸ List.mem_cons_self)
      by_cases hrun : c = '*'
      · subst hrun
        have hafter : ('*' :: t).dropWhile (· == '*') <:+ '*' :: t := List.dropWhile_suffix _
        rw [readElements_star] at h
        dsimp only at h
        split_ifs at h with hmany htwo hfront
        · split at h
          · rename_i hend
            right
            refine ⟨hfront, ?_⟩
            have hall : ('*' :: t).takeWhile (· == '*') = '*' :: t := by
              have hparts := List.takeWhile_append_dropWhile (p := (· == '*')) (l := '*' :: t)
              rwa [hend, List.append_nil] at hparts
            have hstars : ∀ c ∈ ('*' :: t).takeWhile (· == '*'), c = '*' :=
              fun c hc => beq_iff_eq.1 (List.mem_takeWhile_imp (p := (· == '*')) hc)
            rw [← hall, List.eq_replicate_of_mem hstars, htwo]
            rfl
          · rename_i d tail hnext
            split_ifs at h with hd
            exact absurd (hafter.subset (hnext ▸ hd ▸ List.mem_cons_self)) hslash
        · exact hpush (by decide) (by simp) hafter h
      · rw [readElements] at h
        split_ifs at h with hany hclass
        · exact hpush hc (by simp) (List.suffix_cons c t) h
        · cases hread : readClass? t with
          | none =>
            rw [hread] at h
            cases h
          | some found =>
            rw [hread] at h
            obtain ⟨hrest, items, hclass⟩ := of_readClass? hread
            have helement : found.1 ≠ .anyFolders := by rcases hclass with heq | heq <;> simp [heq]
            exact hpush (by decide) helement (hrest.trans (List.suffix_cons c t)) h
        · exact hpush hc (by simp) (List.suffix_cons c t) h

/-- A pattern without slashes has no run of folders in it, unless it is `**`. -/
theorem not_mem_anyFolders_of_parse (hslash : '/' ∉ t) (hstars : t ≠ ['*', '*']) (h : Pattern.parse t = .ok pattern) :
    .anyFolders ∉ pattern := by
  intro hmem
  rcases of_anyFolders_mem_readElements hslash h hmem with hread | ⟨-, heq⟩
  · cases hread
  · exact hstars heq

end Infill.Glob
