import Infill.Proofs.Files.LastPart

/-!
# The moves of a path

Empty parts of a path and the part `.` stay where they are, if that is a folder; its other parts are moves.  Where a
path leads, its moves lead (`walk_moves`), and to a folder a path leads if its moves do (`walk_of_moves`), so that
paths with the same moves lead to the same folder however they are spelled.
-/

set_option autoImplicit false

namespace Infill

namespace Path

/-- A part of a path that does not stay where it is. -/
def IsMove (part : Text) : Prop := part ≠ [] ∧ part ≠ ['.']

instance (part : Text) : Decidable (IsMove part) := inferInstanceAs (Decidable (_ ∧ _))

/-- The moves among some parts of a path. -/
def movesOf (parts : List Text) : List Text := parts.filter fun part => decide (IsMove part)

/-- The moves of a path. -/
def moves (p : Path) : List Text := movesOf (Text.splitOn '/' p)

variable {p : Path} {n : Text} {parts : List Text}

/-- A name is a move that does not lead upwards. -/
theorem isName_iff : IsName n ↔ IsMove n ∧ n ≠ ['.', '.'] := and_assoc.symm

/-- The moves of parts behind others follow those of the others. -/
@[simp] theorem movesOf_append (parts more : List Text) : movesOf (parts ++ more) = movesOf parts ++ movesOf more :=
  List.filter_append parts more

/-- Empty parts do not move. -/
@[simp] theorem movesOf_replicate_nil (k : Nat) : movesOf (List.replicate k []) = [] := by
  simp [movesOf, IsMove]

/-- A move in front is the first move. -/
theorem movesOf_cons_of_isMove (h : IsMove n) (parts : List Text) : movesOf (n :: parts) = n :: movesOf parts :=
  List.filter_cons_of_pos (by simpa using h)

/-- A part in front that does not move is left out. -/
theorem movesOf_cons_of_not_isMove (h : ¬ IsMove n) (parts : List Text) : movesOf (n :: parts) = movesOf parts :=
  List.filter_cons_of_neg (by simpa using h)

/-- The moves are moves. -/
theorem isMove_of_mem_movesOf (h : n ∈ movesOf parts) : IsMove n := of_decide_eq_true (List.mem_filter.1 h).2

/-- A path with moves is not empty. -/
theorem ne_nil_of_moves (h : p.moves ≠ []) : p ≠ [] := by
  rintro rfl
  exact h rfl

/-- A path has the same moves without the slash at its end. -/
theorem moves_stem (p : Path) : p.stem.moves = p.moves := by
  obtain ⟨k, hparts⟩ := p.exists_splitOn_eq_stem
  unfold moves
  rw [hparts, movesOf_append, movesOf_replicate_nil, List.append_nil]

/-- A path without slashes has one move at most. -/
theorem moves_of_not_mem (h : '/' ∉ n) : moves n = movesOf [n] := by
  unfold moves
  rw [Text.splitOn_of_not_mem h]

/-- Behind the front, the parts that move are the components. -/
theorem isSome_component?_iff : (component? n).isSome = true ↔ IsMove n := by
  unfold component? IsMove
  by_cases hempty : n = []
  · simp [hempty]
  · by_cases hcurrent : n = ['.']
    · simp [hcurrent]
    · by_cases hparent : n = ['.', '.'] <;> simp [hempty, hcurrent, hparent]

/-- What a path stands for behind its front depends on its moves only. -/
theorem behindFront_eq (p : Path) : behindFront p = p.moves.filterMap component? := by
  unfold behindFront moves movesOf
  rw [List.filterMap_filter]
  refine List.filterMap_congr fun part _ => ?_
  by_cases hmove : IsMove part
  · simp [hmove]
  · have hnone : component? part = none := by
      rw [← Option.not_isSome_iff_eq_none, isSome_component?_iff]
      exact hmove
    simp [hmove, hnone]

end Path

namespace FileTree

open Infill.Path (IsMove movesOf)

variable {t : FileTree} {budget left : Nat} {here l : Location} {parts : List Text} {n : Text} {p : Path}

/-- A part that is no move stays in a folder. -/
theorem walk_cons_of_not_isMove (hn : ¬ IsMove n) (hfolder : t.isFolderAt here = true) (budget : Nat)
    (parts : List Text) : t.walk budget here (n :: parts) = t.walk budget here parts := by
  have hstay : ¬ Path.IsName n := fun hname => hn (Path.isName_iff.1 hname).1
  have hparent : n ≠ ['.', '.'] := by
    rintro rfl
    exact hn (by decide)
  cases budget with
  | zero =>
    rw [walk, walkParts_cons_of_not_isName hfolder hstay, if_neg hparent]
    rfl
  | succ budget =>
    rw [walk, walkParts_cons_of_not_isName hfolder hstay, if_neg hparent]
    rfl

/-- Without parts a walk stays where it is. -/
theorem walk_nil (t : FileTree) (budget : Nat) (here : Location) : t.walk budget here [] = .ok (here, budget) := by
  cases budget <;> rfl

/-- A walk along some parts starts in a folder. -/
theorem isFolderAt_of_walk_cons {r : Location × Nat} (h : t.walk budget here (n :: parts) = .ok r) :
    t.isFolderAt here = true := by
  obtain ⟨follow, hfollow⟩ := t.exists_walk_eq_walkParts budget here (n :: parts)
  exact isFolderAt_of_walkParts_cons (hfollow ▸ h)

/-- Where some parts lead, the moves among them lead. -/
theorem walk_moves {r : Location × Nat} (h : t.walk budget here parts = .ok r) :
    t.walk budget here (movesOf parts) = .ok r := by
  induction parts generalizing budget here with
  | nil => exact h
  | cons n parts ih =>
    by_cases hn : IsMove n
    · rw [Path.movesOf_cons_of_isMove hn, ← List.singleton_append, walk_append]
      rw [← List.singleton_append, walk_append] at h
      obtain ⟨⟨l, left⟩, hfirst, hrest⟩ := Result.bind_eq_ok.1 h
      rw [hfirst]
      exact ih hrest
    · rw [walk_cons_of_not_isMove hn (isFolderAt_of_walk_cons h)] at h
      rw [Path.movesOf_cons_of_not_isMove hn]
      exact ih h

/-- Some parts lead to a folder, if the moves among them do. -/
theorem walk_of_moves (hfolder : t.isFolderAt l = true) (h : t.walk budget here (movesOf parts) = .ok (l, left)) :
    t.walk budget here parts = .ok (l, left) := by
  induction parts generalizing budget here with
  | nil => exact h
  | cons n parts ih =>
    by_cases hn : IsMove n
    · rw [Path.movesOf_cons_of_isMove hn, ← List.singleton_append, walk_append] at h
      rw [← List.singleton_append, walk_append]
      obtain ⟨⟨m, rest⟩, hfirst, hrest⟩ := Result.bind_eq_ok.1 h
      rw [hfirst]
      exact ih hrest
    · rw [Path.movesOf_cons_of_not_isMove hn] at h
      have hhere : t.isFolderAt here = true := by
        cases hmoves : movesOf parts with
        | nil =>
          rw [hmoves, walk_nil] at h
          obtain ⟨rfl, -⟩ := Prod.mk.inj (Except.ok.inj h)
          exact hfolder
        | cons part others => exact isFolderAt_of_walk_cons (hmoves ▸ h)
      rw [walk_cons_of_not_isMove hn hhere]
      exact ih h

/-! ## Whole paths -/

/-- A folder is found where the moves of a path lead. -/
theorem find_folder_iff (hfolder : t.isFolderAt l = true) : t.find p = .ok l ↔ checkPath p = .ok () ∧
    ∃ left, t.walk linkLimit (baseOf t.workingFolder p) p.moves = .ok (l, left) := by
  rw [find_eq_ok_iff]
  exact and_congr_right fun _ => exists_congr fun _ => ⟨walk_moves, walk_of_moves hfolder⟩

/-- The empty path leads nowhere. -/
theorem ne_nil_of_find (h : t.find p = .ok l) : p ≠ [] :=
  (checkPath_eq_ok_iff.1 (find_eq_ok_iff.1 h).1).2.1

/-! ## Inside a folder -/

/-- A path leads to a file if it is found where one stands. -/
theorem isFile_iff : t.isFile p = true ↔ ∃ m content, t.find p = .ok m ∧ t.entryAt? m = some (.file content) := by
  unfold isFile
  cases t.find p with
  | error fault => simp
  | ok m =>
    cases hentry : t.entryAt? m with
    | none => simp [hentry]
    | some entry => cases entry <;> simp [hentry]

/-- What is a folder is no file. -/
theorem isFile_of_isFolder (h : t.isFolder p = true) : t.isFile p = false := by
  obtain ⟨l, hfind, hl⟩ := isFolder_iff.1 h
  refine Bool.eq_false_iff.2 fun hfile => ?_
  obtain ⟨m, content, hfound, hcontent⟩ := isFile_iff.1 hfile
  obtain rfl := Except.ok.inj (hfind.symm.trans hfound)
  rw [isFolderAt_iff, hcontent] at hl
  cases hl

/-- Under a path that the system does not take there is no file. -/
theorem isFile_of_checkPath {fault : SystemFault} (h : checkPath p = .error fault) : t.isFile p = false := by
  unfold isFile
  rw [find_of_checkPath h]

/-- The path of a file does not end in a slash. -/
theorem stem_of_isFile (h : t.isFile p = true) : p.stem = p := by
  unfold Path.stem
  rw [if_neg fun hslash => ?_]
  obtain ⟨front, rfl⟩ := List.getLast?_eq_some_iff.1 hslash
  obtain ⟨m, content, hfind, hcontent⟩ := isFile_iff.1 h
  obtain ⟨-, left, hwalk⟩ := find_eq_ok_iff.1 hfind
  rw [Text.splitOn_append] at hwalk
  obtain ⟨l, rest, -, hfolder, hend⟩ :=
    exists_walk_of_append (fun hnil => absurd hnil (Text.splitOn_ne_nil '/' [])) hwalk
  change t.walk rest l [[]] = .ok (m, left) at hend
  rw [walk_cons_of_not_isMove (by decide) hfolder, walk_nil] at hend
  obtain ⟨rfl, -⟩ := Prod.mk.inj (Except.ok.inj hend)
  rw [isFolderAt_iff, hcontent] at hfolder
  cases hfolder

/-- Names lead from one location to another, links followed. -/
def LeadsInto (t : FileTree) (l m : Location) : Prop :=
  ∃ names budget left, names ≠ [] ∧ (∀ n ∈ names, Path.IsName n) ∧ t.walk budget l names = .ok (m, left)

/-- Where no links stand, names lead to what they name. -/
theorem walkParts_eq_append {follow : Location → Path → List Text → Except SystemFault (Location × Nat)}
    {names : List Text} (hnames : ∀ n ∈ names, Path.IsName n)
    (hlinks : ∀ more target, t.entryAt? (here ++ more) ≠ some (.link target)) {r : Location × Nat}
    (h : t.walkParts follow budget here names = .ok r) : r.1 = here ++ names := by
  induction names generalizing here with
  | nil =>
    obtain rfl := Except.ok.inj h
    exact (List.append_nil here).symm
  | cons n names ih =>
    obtain ⟨hn, hnames⟩ := List.forall_mem_cons.1 hnames
    rw [walkParts_cons_of_isName (isFolderAt_of_walkParts_cons h) hn] at h
    have hmore : t.walkParts follow budget (here ++ [n]) names = .ok r := by
      split at h
      · cases h
      · cases h
      · rename_i target hlookUp
        unfold lookUp at hlookUp
        split_ifs at hlookUp
        exact absurd (Except.ok.inj hlookUp) (hlinks [n] target)
      · exact h
    rw [ih hnames (fun more => by rw [← List.append_cons]; exact hlinks (n :: more)) hmore, ← List.append_cons]

/-- Where no links stand in a folder, names lead to what is below it. -/
theorem LeadsInto.isBelow {m : Location} (h : t.LeadsInto l m)
    (hlinks : ∀ more target, t.entryAt? (l ++ more) ≠ some (.link target)) : isBelow l m = true := by
  obtain ⟨names, budget, left, hne, hnames, hwalk⟩ := h
  obtain ⟨follow, hfollow⟩ := t.exists_walk_eq_walkParts budget l names
  obtain rfl : m = l ++ names := walkParts_eq_append hnames hlinks (hfollow ▸ hwalk)
  exact isBelow_iff.2 ⟨List.prefix_append l names, by simpa using hne⟩

/-- Paths with the same moves that start at the same place lead to one location. -/
theorem eq_of_moves_eq {q : Path} {m : Location} (hmoves : p.moves = q.moves)
    (habsolute : Path.isAbsolute p = Path.isAbsolute q) (hp : t.find p = .ok l) (hq : t.find q = .ok m) : l = m := by
  obtain ⟨-, left, hwalk⟩ := find_eq_ok_iff.1 hp
  obtain ⟨-, rest, hwalk'⟩ := find_eq_ok_iff.1 hq
  have hbase : baseOf t.workingFolder p = baseOf t.workingFolder q := by
    unfold baseOf
    rw [habsolute]
  have hsame : t.walk linkLimit (baseOf t.workingFolder q) q.moves = .ok (l, left) := by
    rw [← hbase, ← hmoves]
    exact walk_moves hwalk
  exact (Prod.mk.inj (Except.ok.inj (hsame.symm.trans (walk_moves hwalk')))).1

/-- A file in whose path the moves of a folder come first stands in the folder. -/
theorem leadsInto_of_moves {folder : Path} {names : List Text} (hnames : ∀ n ∈ names, Path.IsName n)
    (hmoves : p.moves = folder.moves ++ names) (habsolute : Path.isAbsolute p = Path.isAbsolute folder)
    (hfind : t.find folder = .ok l) (hfolder : t.isFolderAt l = true) (hfile : t.isFile p = true) :
    ∃ m content, t.find p = .ok m ∧ t.entryAt? m = some (.file content) ∧ t.LeadsInto l m := by
  obtain ⟨m, content, hfound, hcontent⟩ := isFile_iff.1 hfile
  obtain ⟨-, left, hwalk⟩ := find_eq_ok_iff.1 hfound
  obtain ⟨-, rest, hfolderWalk⟩ := (find_folder_iff hfolder).1 hfind
  have hbase : baseOf t.workingFolder p = baseOf t.workingFolder folder := by
    unfold baseOf
    rw [habsolute]
  have hinside : t.walk rest l names = .ok (m, left) := by
    have hall := walk_moves hwalk
    rw [hbase] at hall
    change t.walk linkLimit (baseOf t.workingFolder folder) p.moves = .ok (m, left) at hall
    rw [hmoves, walk_append, hfolderWalk] at hall
    exact hall
  refine ⟨m, content, hfound, hcontent, names, rest, left, ?_, hnames, hinside⟩
  rintro rfl
  rw [walk_nil] at hinside
  obtain ⟨rfl, -⟩ := Prod.mk.inj (Except.ok.inj hinside)
  rw [isFolderAt_iff, hcontent] at hfolder
  cases hfolder

end FileTree
end Infill
