import Infill.Proofs.Glob.InFolder

/-!
# How found paths are spelled

The search writes the paths that it finds anew: it leaves out `.` at the front of a pattern, and slashes beyond the
first.  A folder that is spelled directly is not changed by this (`arrival_of_isDirect`), so that everything found in
it begins with its text and a slash (`Reached.exists_rest`).  Behind that, a path has no parts but moves, unless a
component of the pattern leads to `.` (`Reached.exists_parts`), so that two files found with the same components are
the same path.
-/

set_option autoImplicit false

namespace Infill.Glob

variable {folder scope path next : Path} {n : Text} {allowed : Text → Prop}

/-- A relative path that does not begin with `.`, with single slashes between its parts. -/
def IsDirect (folder : Path) : Prop :=
  (∀ part ∈ Text.splitOn '/' folder.stem, part ≠ []) ∧ (Text.splitOn '/' folder.stem).head? ≠ some ['.']

instance (folder : Path) : Decidable (IsDirect folder) := inferInstanceAs (Decidable (_ ∧ _))

/-! ## Paths without a slash at the end -/

/-- A path whose last part is not empty has no slash at its end. -/
theorem stem_of_splitOn {before : List Text} (h : Text.splitOn '/' path = before ++ [n]) (hn : n ≠ []) :
    path.stem = path := by
  unfold Path.stem
  rw [if_neg fun hslash => ?_]
  obtain ⟨front, rfl⟩ := List.getLast?_eq_some_iff.1 hslash
  rw [Text.splitOn_append] at h
  exact hn (List.cons.inj (List.append_inj' h rfl).2).1.symm

/-- Behind a path with moves the search puts a name like any other path. -/
theorem below_of_moves_ne_nil (h : scope.moves ≠ []) (n : Text) : below scope n = scope.join n := by
  unfold below
  rw [if_neg fun hcurrent => h (moves_of_components_eq hcurrent).1]

/-- Behind a path with moves there is one way to put a name. -/
theorem next_of_moves_ne_nil (h : scope.moves ≠ []) (hnext : next = below scope n ∨ next = scope.join n) :
    next = scope.join n := by
  rw [below_of_moves_ne_nil h] at hnext
  exact hnext.elim id id

/-! ## Folders that are spelled directly -/

/-- Behind a path with moves, names become its last parts. -/
theorem splitOn_foldl_below {names : List Text} (hnames : ∀ n ∈ names, n ≠ [] ∧ '/' ∉ n) (hmoves : scope.moves ≠ [])
    (hstem : scope.stem = scope) : Text.splitOn '/' (names.foldl below scope) = Text.splitOn '/' scope ++ names := by
  induction names generalizing scope with
  | nil => exact (List.append_nil _).symm
  | cons n names ih =>
    obtain ⟨⟨hn, hslash⟩, hnames⟩ := List.forall_mem_cons.1 hnames
    have hjoined : Text.splitOn '/' (scope.join n) = Text.splitOn '/' scope ++ [n] := by
      rw [Path.splitOn_join (Path.ne_nil_of_moves hmoves) (isAbsolute_of_not_mem hslash), hstem,
        Text.splitOn_of_not_mem hslash]
    have hmoves' : (scope.join n).moves ≠ [] := by
      rw [(moves_next hslash (.inr rfl : scope.join n = below scope n ∨ _)).1]
      simp [hmoves]
    rw [List.foldl_cons, below_of_moves_ne_nil hmoves, ih hnames hmoves' (stem_of_splitOn hjoined hn), hjoined,
      List.append_assoc, List.singleton_append]

/-- No component of a path is empty, and the first one is not `.`. -/
def IsSpelledOut (folder : Path) : Prop :=
  (∀ part ∈ folderComponents folder, part ≠ []) ∧ (folderComponents folder).head? ≠ some ['.']

instance (folder : Path) : Decidable (IsSpelledOut folder) := inferInstanceAs (Decidable (_ ∧ _))

namespace IsSpelledOut

variable (h : IsSpelledOut folder)
include h

/-- The path of such a folder is not empty. -/
theorem ne_nil : folder ≠ [] := by
  rintro rfl
  exact h.1 [] (by decide) rfl

/-- Nor does it have a gap. -/
theorem noGap : NoGap folder := by
  intro _ hhead
  exact h.1 [] ((List.dropWhile_suffix _).subset (List.mem_of_mem_head? hhead)) rfl

variable (hne : folderComponents folder ≠ [])
include hne

/-- It has moves, and no slash at the end of its text, if it has components. -/
theorem stem : folder.stem.moves ≠ [] ∧ folder.stem.stem = folder.stem := by
  obtain ⟨part, parts, hparts⟩ := List.exists_cons_of_ne_nil hne
  constructor
  · have hmove : Path.IsMove part :=
      ⟨h.1 part (hparts ▸ List.mem_cons_self), fun heq => h.2 (by rw [hparts, heq, List.head?_cons])⟩
    rw [Path.moves_stem, ← movesOf_folderComponents, hparts, Path.movesOf_cons_of_isMove hmove]
    exact List.cons_ne_nil _ _
  · have hlast : Text.splitOn '/' folder.stem =
        startParts folder (folderComponents folder).dropLast ++ [(folderComponents folder).getLast hne] := by
      rw [← startParts_append, List.dropLast_append_getLast hne, startParts_folderComponents]
    exact stem_of_splitOn hlast (h.1 _ (List.getLast_mem hne))

/-- The search arrives at such a folder under its own text. -/
theorem arrival_eq : arrival folder = folder.stem := by
  obtain ⟨part, parts, hparts⟩ := List.exists_cons_of_ne_nil hne
  have hslashes : ∀ n ∈ folderComponents folder, '/' ∉ n := by
    intro n hn
    have hmem : n ∈ Text.splitOn '/' folder.stem := by
      rw [← startParts_folderComponents]
      unfold startParts
      split_ifs
      · exact List.mem_cons_of_mem [] hn
      · exact hn
    exact (Text.mem_splitOn hmem).1
  obtain ⟨hempty, hfirst⟩ := h
  have hstart : Text.splitOn '/' folder.stem = startParts folder (part :: parts) := by
    rw [← hparts, startParts_folderComponents]
  rw [hparts] at hempty hfirst hslashes
  obtain ⟨hpart, hothers⟩ := List.forall_mem_cons.1 hempty
  obtain ⟨hslash, hslashes⟩ := List.forall_mem_cons.1 hslashes
  have hmove : Path.IsMove part := ⟨hpart, fun heq => hfirst (by rw [heq, List.head?_cons])⟩
  -- The first component is put behind the root, or stands alone.
  have hsplit : Text.splitOn '/' (below (start folder) part) = startParts folder [] ++ [part] := by
    unfold start startParts
    split_ifs
    · rw [below_root hslash, Text.splitOn, if_pos rfl, Text.splitOn_of_not_mem hslash]
      rfl
    · rw [below_current, Text.splitOn_of_not_mem hslash]
      rfl
  have hmoves : (below (start folder) part).moves ≠ [] := by
    rw [(moves_next hslash (.inl rfl)).1, Path.movesOf_cons_of_isMove hmove]
    simp
  refine Text.splitOn_inj (?_ : Text.splitOn '/' _ = Text.splitOn '/' _)
  calc Text.splitOn '/' (arrival folder)
      = Text.splitOn '/' (parts.foldl below (below (start folder) part)) := by
        unfold arrival
        rw [hparts, List.foldl_cons]
    _ = startParts folder ([] ++ [part] ++ parts) := by
        rw [splitOn_foldl_below (fun n hn => ⟨hothers n hn, hslashes n hn⟩) hmoves (stem_of_splitOn hsplit hpart), hsplit,
          startParts_append, startParts_append]
    _ = Text.splitOn '/' folder.stem := hstart.symm

end IsSpelledOut

/-- A path that is spelled directly is relative. -/
theorem isAbsolute_of_isDirect (h : IsDirect folder) : Path.isAbsolute folder = false := by
  refine Bool.eq_false_iff.2 fun habsolute => ?_
  obtain ⟨parts, hparts⟩ := exists_splitOn_stem_of_isAbsolute habsolute
  exact h.1 [] (hparts ▸ List.mem_cons_self) rfl

/-- Its components are its parts. -/
theorem folderComponents_of_isDirect (h : IsDirect folder) : folderComponents folder = Text.splitOn '/' folder.stem := by
  unfold folderComponents
  rw [if_neg (by simp [isAbsolute_of_isDirect h])]

/-- It is spelled out. -/
theorem IsDirect.isSpelledOut (h : IsDirect folder) : IsSpelledOut folder := by
  unfold IsSpelledOut
  rw [folderComponents_of_isDirect h]
  exact h

/-- It has components. -/
theorem IsDirect.folderComponents_ne_nil (h : IsDirect folder) : folderComponents folder ≠ [] := by
  rw [folderComponents_of_isDirect h]
  exact Text.splitOn_ne_nil '/' folder.stem

/-- It has moves, and no slash at the end of its text. -/
theorem stem_of_isDirect (h : IsDirect folder) : folder.stem.moves ≠ [] ∧ folder.stem.stem = folder.stem :=
  h.isSpelledOut.stem h.folderComponents_ne_nil

/-- The search arrives at a folder that is spelled directly under its own text. -/
theorem arrival_of_isDirect (h : IsDirect folder) : arrival folder = folder.stem :=
  h.isSpelledOut.arrival_eq h.folderComponents_ne_nil

/-! ## What is found in a folder -/

section Reached

variable (hmoves : folder.moves ≠ []) (hstem : folder.stem = folder)
include hmoves hstem

/-- A name is put behind a path without a slash at its end with a slash between. -/
theorem join_of_stem_eq (hn : '/' ∉ n) : folder.join n = folder ++ '/' :: n := by
  rw [Path.join_eq_stem_append (Path.ne_nil_of_moves hmoves) (isAbsolute_of_not_mem hn), hstem]

/-- What is found in a folder begins with the text of the folder. -/
theorem Reached.exists_rest (hallowed : ∀ n, allowed n → '/' ∉ n) (h : Reached allowed folder path) :
    path = folder ∨ ∃ rest, path = folder ++ '/' :: rest := by
  suffices hgeneral : ∀ scope, scope.moves ≠ [] → (scope = folder ∨ ∃ rest, scope = folder ++ '/' :: rest) →
      Reached allowed scope path → path = folder ∨ ∃ rest, path = folder ++ '/' :: rest from
    hgeneral folder hmoves (.inl rfl) h
  clear h
  intro scope hscope hrest h
  induction h with
  | refl scope => exact hrest
  | @step scope next path n hn hnext _ ih =>
    have hslash := hallowed n hn
    refine ih ?_ (.inr ?_)
    · rw [(moves_next hslash hnext).1]
      simp [hscope]
    · obtain rfl := next_of_moves_ne_nil hscope hnext
      rcases hrest with rfl | ⟨rest, rfl⟩
      · exact ⟨n, join_of_stem_eq hmoves hstem hslash⟩
      · obtain ⟨more, hjoin⟩ := Path.exists_join_eq_append (p := folder ++ '/' :: rest) (isAbsolute_of_not_mem hslash)
        exact ⟨rest ++ more, by rw [hjoin, List.append_assoc, List.cons_append]⟩

/-- If no component of the pattern leads to `.`, what is found in a folder has no parts behind the folder but moves,
and perhaps a slash at the end. -/
theorem Reached.exists_parts (hallowed : ∀ n, allowed n → '/' ∉ n ∧ n ≠ ['.']) (h : Reached allowed folder path) :
    ∃ names, (∀ n ∈ names, Path.IsMove n) ∧ Text.splitOn '/' path.stem = Text.splitOn '/' folder ++ names := by
  suffices hgeneral : ∀ scope, scope.moves ≠ [] →
      (∃ names, (∀ n ∈ names, Path.IsMove n) ∧ Text.splitOn '/' scope.stem = Text.splitOn '/' folder ++ names) →
      Reached allowed scope path →
      ∃ names, (∀ n ∈ names, Path.IsMove n) ∧ Text.splitOn '/' path.stem = Text.splitOn '/' folder ++ names from
    hgeneral folder hmoves ⟨[], by simp, by rw [hstem, List.append_nil]⟩ h
  clear h
  intro scope hscope hparts h
  induction h with
  | refl scope => exact hparts
  | @step scope next path n hn hnext _ ih =>
    obtain ⟨hslash, hcurrent⟩ := hallowed n hn
    refine ih ?_ ?_
    · rw [(moves_next hslash hnext).1]
      simp [hscope]
    · obtain ⟨names, hnames, hsplit⟩ := hparts
      obtain rfl := next_of_moves_ne_nil hscope hnext
      have hne := Path.ne_nil_of_moves hscope
      by_cases hempty : n = []
      · subst hempty
        refine ⟨names, hnames, ?_⟩
        rw [Path.join_eq_stem_append hne rfl, ← hsplit]
        unfold Path.stem
        simp
      · have hjoined : Text.splitOn '/' (scope.join n) = Text.splitOn '/' folder ++ names ++ [n] := by
          rw [Path.splitOn_join hne (isAbsolute_of_not_mem hslash), hsplit, Text.splitOn_of_not_mem hslash]
        refine ⟨names ++ [n], fun m hm => ?_, ?_⟩
        · rcases List.mem_append.1 hm with hm | hm
          · exact hnames m hm
          · obtain rfl := List.mem_singleton.1 hm
            exact ⟨hempty, hcurrent⟩
        · rw [stem_of_splitOn hjoined hempty, hjoined, List.append_assoc]

end Reached

/-- Behind a folder that is spelled out the search puts a name as anyone does. -/
theorem IsSpelledOut.next_arrival (h : IsSpelledOut folder) (hn : '/' ∉ n)
    (hnext : next = below (arrival folder) n ∨ next = (arrival folder).join n) : next = folder.join n := by
  have hjoin := Path.join_eq_stem_append h.ne_nil (isAbsolute_of_not_mem hn)
  by_cases hne : folderComponents folder = []
  · -- Only the root has no components.
    have hparts : startParts folder [] = Text.splitOn '/' folder.stem := by
      rw [← hne, startParts_folderComponents]
    unfold startParts at hparts
    split_ifs at hparts with habsolute
    · have hstem : folder.stem = [] := Text.splitOn_inj hparts.symm
      have harrival : arrival folder = ['/'] := by
        unfold arrival start
        rw [hne, if_pos habsolute, List.foldl_nil]
      have hroot : Path.join ['/'] n = '/' :: n :=
        Path.join_eq_stem_append (by decide) (isAbsolute_of_not_mem hn)
      rw [harrival, below_root hn, hroot, or_self] at hnext
      rw [hjoin, hstem, hnext, List.nil_append]
    · exact absurd hparts.symm (Text.splitOn_ne_nil '/' folder.stem)
  · obtain ⟨hmoves, hstem⟩ := h.stem hne
    rw [h.arrival_eq hne] at hnext
    rw [next_of_moves_ne_nil hmoves hnext, join_of_stem_eq hmoves hstem hn, hjoin]

/-! ## Telling paths by their components -/

/-- Moves can be told by their components. -/
theorem eq_of_component?_eq {m : Text} (hn : Path.IsMove n) (hm : Path.IsMove m)
    (h : Path.component? n = Path.component? m) : n = m := by
  unfold Path.component? at h
  rw [if_neg (not_or.2 hn), if_neg (not_or.2 hm)] at h
  split_ifs at h with hn' hm' hm'
  · rw [hn', hm']
  · cases h
  · cases h
  · exact Path.Component.name.inj (Option.some.inj h)

/-- So can lists of moves. -/
theorem eq_of_filterMap_component?_eq {names others : List Text} (hnames : ∀ n ∈ names, Path.IsMove n)
    (hothers : ∀ n ∈ others, Path.IsMove n)
    (h : names.filterMap Path.component? = others.filterMap Path.component?) : names = others := by
  have hsome : ∀ {n : Text}, Path.IsMove n → ∃ component, Path.component? n = some component := fun hn =>
    Option.isSome_iff_exists.1 (Path.isSome_component?_iff.2 hn)
  induction names generalizing others with
  | nil =>
    cases others with
    | nil => rfl
    | cons m others =>
      obtain ⟨component, hcomponent⟩ := hsome (hothers m List.mem_cons_self)
      rw [List.filterMap_cons_some hcomponent] at h
      cases h
  | cons n names ih =>
    obtain ⟨hn, hnames⟩ := List.forall_mem_cons.1 hnames
    obtain ⟨component, hcomponent⟩ := hsome hn
    rw [List.filterMap_cons_some hcomponent] at h
    cases others with
    | nil => cases h
    | cons m others =>
      obtain ⟨hm, hothers⟩ := List.forall_mem_cons.1 hothers
      obtain ⟨component', hcomponent'⟩ := hsome hm
      rw [List.filterMap_cons_some hcomponent'] at h
      obtain ⟨rfl, hrest⟩ := List.cons.inj h
      rw [eq_of_component?_eq hn hm (hcomponent.trans hcomponent'.symm), ih hnames hothers hrest]

/-- Behind one folder, paths that have no parts but moves can be told by their components. -/
theorem eq_of_components_eq {rest other : Text} (hfolder : folder ≠ [])
    (hrest : ∀ part ∈ Text.splitOn '/' rest, Path.IsMove part)
    (hother : ∀ part ∈ Text.splitOn '/' other, Path.IsMove part)
    (h : Path.components (folder ++ '/' :: rest) = Path.components (folder ++ '/' :: other)) : rest = other := by
  rw [Path.components_append_slash hfolder, Path.components_append_slash hfolder, List.append_cancel_left_eq] at h
  exact Text.splitOn_inj (eq_of_filterMap_component?_eq hrest hother h)

end Infill.Glob
