import Infill.Files.Walk
import Infill.Proofs.Path

/-!
# Walks

A walk along some parts of a path and then along more of them is one walk (`walk_append`), whatever links
it follows on the way.

Where no links stand, a walk along names does what the names say.  If all of them but the last lead to
folders, it arrives at what the last one names (`walkParts_of_isFolderAt`); and if it meets nothing but
folders until something is missing, it says so (`exists_walkParts_eq_error`), unless a name is too long
to be looked up at all.
-/

set_option autoImplicit false

namespace Infill.FileTree

variable {t : FileTree} {follow : Location → Path → List Text → Except SystemFault (Location × Nat)}
  {budget : Nat} {here : Location} {part : Text} {rest : List Text}

/-! ## Single steps -/

/-- A name that is not too long to be looked up. -/
def FitsName (name : Text) : Prop := (Utf8.encode name).length ≤ nameLimit

/-- The system takes a path, and all names in it. -/
def Takes (p : Path) : Prop := checkPath p = .ok () ∧ ∀ name ∈ Text.splitOn '/' p, FitsName name

instance (name : Text) : Decidable (FitsName name) := inferInstanceAs (Decidable (_ ≤ _))

/-- A name that is not too long is looked up. -/
theorem lookUp_of_fitsName (t : FileTree) (folder : Location) {name : Text} (h : FitsName name) :
    t.lookUp folder name = .ok (t.entryAt? (folder ++ [name])) := by
  unfold lookUp
  rw [if_neg (Nat.not_lt.2 h)]

/-- A name that is too long is not looked up. -/
theorem lookUp_of_not_fitsName (t : FileTree) (folder : Location) {name : Text} (h : ¬ FitsName name) :
    t.lookUp folder name = .error .nameTooLong := by
  unfold lookUp
  rw [if_pos (Nat.not_le.1 h)]

/-- In a folder a name is looked up. -/
theorem walkParts_cons_of_isName (hfolder : t.isFolderAt here = true) (hname : Path.IsName part) :
    t.walkParts follow budget here (part :: rest) =
      match t.lookUp here part with
      | .error fault => .error fault
      | .ok none => .error .notFound
      | .ok (some (.link target)) => follow here target rest
      | .ok (some _) => t.walkParts follow budget (here ++ [part]) rest := by
  obtain ⟨hempty, hcurrent, hparent⟩ := hname
  rewrite [walkParts, if_neg (by simp [hfolder]), if_neg (by simp [hempty, hcurrent]), if_neg hparent]
  rfl

/-- A part that is no name stays in the folder or leads to the one above it. -/
theorem walkParts_cons_of_not_isName (hfolder : t.isFolderAt here = true) (hname : ¬ Path.IsName part) :
    t.walkParts follow budget here (part :: rest) =
      t.walkParts follow budget (if part = ['.', '.'] then here.dropLast else here) rest := by
  rw [walkParts, if_neg (by simp [hfolder])]
  by_cases hstay : part = [] ∨ part = ['.']
  · have hup : part ≠ ['.', '.'] := by
      rintro rfl
      simp at hstay
    rw [if_pos hstay, if_neg hup]
  · rw [not_or] at hstay
    have hup : part = ['.', '.'] :=
      Decidable.of_not_not fun hup => hname ⟨hstay.1, hstay.2, hup⟩
    rw [if_neg (not_or.2 hstay), if_pos hup, if_pos hup]

/-- Empty parts stay in the folder. -/
theorem walkParts_replicate_nil (hfolder : t.isFolderAt here = true) (k : Nat) :
    t.walkParts follow budget here (List.replicate k []) = .ok (here, budget) := by
  induction k with
  | zero => rfl
  | succ k ih =>
    rw [List.replicate_succ, walkParts_cons_of_not_isName hfolder (by decide), if_neg (by decide), ih]

/-- Only in a folder there is a way on. -/
theorem isFolderAt_of_walkParts_cons {r : Location × Nat}
    (h : t.walkParts follow budget here (part :: rest) = .ok r) : t.isFolderAt here = true := by
  cases hfolder : t.isFolderAt here with
  | true => rfl
  | false =>
    rw [walkParts, if_pos (by simp [hfolder])] at h
    cases h

/-! ## Walks in two parts -/

/-- A walk goes on from where its first part ends, if what follows links does. -/
theorem walkParts_append {next : Location × Nat → Except SystemFault (Location × Nat)}
    (more : List Text)
    (hfollow : ∀ folder target parts,
      follow folder target (parts ++ more) = (follow folder target parts).bind next)
    (hnext : ∀ l, next (l, budget) = t.walkParts follow budget l more)
    (here : Location) (parts : List Text) :
    t.walkParts follow budget here (parts ++ more) =
      (t.walkParts follow budget here parts).bind next := by
  induction parts generalizing here with
  | nil => exact (hnext here).symm
  | cons part parts ih =>
    rw [List.cons_append, walkParts, walkParts]
    split
    · rfl
    · split
      · exact ih here
      · split
        · exact ih here.dropLast
        · cases t.lookUp here part with
          | error fault => rfl
          | ok entry =>
            match entry with
            | none => rfl
            | some (.link target) => exact hfollow here target parts
            | some (.file _) | some .folder => exact ih (here ++ [part])

/-- A walk goes on from where its first part ends. -/
theorem walk_append (t : FileTree) (budget : Nat) (here : Location) (parts more : List Text) :
    t.walk budget here (parts ++ more) =
      (t.walk budget here parts).bind fun (l, left) => t.walk left l more := by
  induction budget generalizing here parts with
  | zero => exact walkParts_append more (fun _ _ _ => rfl) (fun _ => rfl) here parts
  | succ budget ih =>
    refine walkParts_append more ?_ (fun _ => rfl) here parts
    intro folder target parts
    rw [← List.append_assoc]
    exact ih _ _

/-! ## Walks without links -/

/-- A walk along names arrives, if all of them but the last lead to folders and the last one to what is
no link. -/
theorem walkParts_of_isFolderAt
    (hnames : ∀ name ∈ rest, Path.IsName name ∧ FitsName name)
    (hfolders : ∀ front back, rest = front ++ back → back ≠ [] → t.isFolderAt (here ++ front) = true)
    (hthere : ∀ front name, rest = front ++ [name] → ∃ entry, t.entryAt? (here ++ rest) = some entry ∧
      ∀ target, entry ≠ .link target) :
    t.walkParts follow budget here rest = .ok (here ++ rest, budget) := by
  induction rest generalizing here with
  | nil => simp [walkParts]
  | cons part rest ih =>
    obtain ⟨hname, hfits⟩ := hnames part List.mem_cons_self
    have hhere : t.isFolderAt here = true := by
      simpa using hfolders [] (part :: rest) rfl (List.cons_ne_nil _ _)
    have hrun : t.walkParts follow budget (here ++ [part]) rest =
        .ok (here ++ part :: rest, budget) := by
      rw [List.append_cons here part rest]
      apply ih
      · exact fun name hmem => hnames name (List.mem_cons_of_mem part hmem)
      · intro front back hsplit hback
        rw [← List.append_cons]
        exact hfolders (part :: front) back (by rw [hsplit, List.cons_append]) hback
      · intro front name hsplit
        rw [← List.append_cons]
        exact hthere (part :: front) name (by rw [hsplit, List.cons_append])
    obtain ⟨entry, hentry, hlink⟩ : ∃ entry, t.entryAt? (here ++ [part]) = some entry ∧
        ∀ target, entry ≠ .link target := by
      cases rest with
      | nil => exact hthere [] part rfl
      | cons next rest =>
        have hfolder := hfolders [part] (next :: rest) rfl (List.cons_ne_nil _ _)
        exact ⟨.folder, by simpa [isFolderAt] using hfolder, by simp⟩
    rw [walkParts_cons_of_isName hhere hname, lookUp_of_fitsName t here hfits, hentry]
    match entry with
    | .link target => exact absurd rfl (hlink target)
    | .file _ | .folder => exact hrun

/-- A walk along names that meets nothing but folders ends without a result, if what the names lead to is
missing. -/
theorem exists_walkParts_eq_error (hhere : t.isFolderAt here = true)
    (hnames : ∀ name ∈ rest, Path.IsName name)
    (hfolders : ∀ front back, rest = front ++ back → front ≠ [] → back ≠ [] →
      t.entryAt? (here ++ front) = some .folder ∨ t.entryAt? (here ++ front) = none)
    (hmissing : t.entryAt? (here ++ rest) = none) :
    ∃ fault, t.walkParts follow budget here rest = .error fault ∧
      ((∀ name ∈ rest, FitsName name) → fault = .notFound) := by
  induction rest generalizing here with
  | nil =>
    rw [List.append_nil] at hmissing
    simp [isFolderAt, hmissing] at hhere
  | cons part rest ih =>
    rw [walkParts_cons_of_isName hhere (hnames part List.mem_cons_self)]
    by_cases hfits : FitsName part
    · rw [lookUp_of_fitsName t here hfits]
      have hentry : t.entryAt? (here ++ [part]) = some .folder ∨ t.entryAt? (here ++ [part]) = none := by
        cases rest with
        | nil => exact .inr hmissing
        | cons next rest => exact hfolders [part] (next :: rest) rfl (by simp) (by simp)
      rcases hentry with hentry | hentry
      · have hfolder : t.isFolderAt (here ++ [part]) = true := by simp [isFolderAt, hentry]
        have hrun := ih hfolder
          (fun name hmem => hnames name (List.mem_cons_of_mem part hmem))
          (fun front back hsplit _ hback => by
            rw [← List.append_cons]
            exact hfolders (part :: front) back (by rw [hsplit, List.cons_append]) (by simp) hback)
          (by rwa [← List.append_cons])
        obtain ⟨fault, hfault, hkind⟩ := hrun
        rw [hentry]
        exact ⟨fault, hfault, fun hall => hkind fun name hmem =>
          hall name (List.mem_cons_of_mem part hmem)⟩
      · rw [hentry]
        exact ⟨.notFound, rfl, fun _ => rfl⟩
    · rw [lookUp_of_not_fitsName t here hfits]
      exact ⟨.nameTooLong, rfl, fun hall => absurd (hall part List.mem_cons_self) hfits⟩

/-! ## Whole paths -/

/-- A path is found by a walk along its parts, if the system takes it. -/
theorem find_eq (t : FileTree) (p : Path) :
    t.find p = (checkPath p).bind fun _ =>
      (t.walk linkLimit (baseOf t.workingFolder p) (Text.splitOn '/' p)).map (·.1) := by
  unfold find
  cases checkPath p with
  | error fault => rfl
  | ok _ => cases t.walk linkLimit (baseOf t.workingFolder p) (Text.splitOn '/' p) <;> rfl

/-- A path that the system takes is found where its parts lead. -/
theorem find_of_walk {p : Path} (htaken : checkPath p = .ok ()) {location : Location} {left : Nat}
    (hwalk : t.walk linkLimit (baseOf t.workingFolder p) (Text.splitOn '/' p) = .ok (location, left)) :
    t.find p = .ok location := by
  rw [find_eq, htaken]
  simp only [Except.bind, hwalk]
  rfl

/-- The content of a file that is found is read. -/
theorem readFile_of_find {p : Path} {location : Location} (hfind : t.find p = .ok location) {content : Bytes}
    (hfile : t.entryAt? location = some (.file content)) : t.readFile p = .ok content := by
  unfold readFile
  rw [hfind]
  simp only [bind, Except.bind, hfile]

/-- A plain path starts where it is met. -/
theorem baseOf_of_isPlain (here : Location) {p : Path} (h : p.IsPlain) : baseOf here p = here := by
  unfold baseOf
  rw [h.isAbsolute_eq_false]
  rfl

/-- A walk is a walk along parts, whatever its budget is for. -/
theorem exists_walk_eq_walkParts (t : FileTree) (budget : Nat) (here : Location) (parts : List Text) :
    ∃ follow, t.walk budget here parts = t.walkParts follow budget here parts := by
  cases budget with
  | zero => exact ⟨_, rfl⟩
  | succ budget => exact ⟨_, rfl⟩

/-- A plain path whose names lead through folders to what is no link is found. -/
theorem find_of_isFolderAt {p : Path} (hplain : p.IsPlain) (htakes : Takes p)
    (hfolders : ∀ front back, Text.splitOn '/' p = front ++ back → back ≠ [] →
      t.isFolderAt (t.workingFolder ++ front) = true)
    {entry : Entry} (hentry : t.entryAt? (t.workingFolder ++ Text.splitOn '/' p) = some entry)
    (hlink : ∀ target, entry ≠ .link target) :
    t.find p = .ok (t.workingFolder ++ Text.splitOn '/' p) := by
  obtain ⟨follow, hwalk⟩ := t.exists_walk_eq_walkParts linkLimit t.workingFolder (Text.splitOn '/' p)
  have hrun : t.walkParts follow linkLimit t.workingFolder (Text.splitOn '/' p) =
      .ok (t.workingFolder ++ Text.splitOn '/' p, linkLimit) :=
    walkParts_of_isFolderAt (fun name hname => ⟨hplain name hname, htakes.2 name hname⟩) hfolders
      fun _ _ _ => ⟨entry, hentry, hlink⟩
  apply find_of_walk htakes.1
  rw [baseOf_of_isPlain _ hplain, hwalk, hrun]

/-- A plain path whose names lead through nothing but folders to nothing is not found. -/
theorem exists_find_eq_error {p : Path} (hplain : p.IsPlain)
    (hfolder : t.isFolderAt t.workingFolder = true)
    (hfolders : ∀ front back, Text.splitOn '/' p = front ++ back → front ≠ [] → back ≠ [] →
      t.entryAt? (t.workingFolder ++ front) = some .folder ∨
        t.entryAt? (t.workingFolder ++ front) = none)
    (hmissing : t.entryAt? (t.workingFolder ++ Text.splitOn '/' p) = none) :
    ∃ fault, t.find p = .error fault ∧ (Takes p → fault = .notFound) := by
  rw [find_eq, baseOf_of_isPlain _ hplain]
  cases hcheck : checkPath p with
  | error fault =>
    refine ⟨fault, rfl, fun htakes => ?_⟩
    rw [htakes.1] at hcheck
    cases hcheck
  | ok _ =>
    obtain ⟨follow, hwalk⟩ := t.exists_walk_eq_walkParts linkLimit t.workingFolder (Text.splitOn '/' p)
    rw [hwalk]
    obtain ⟨fault, hfault, hkind⟩ := exists_walkParts_eq_error hfolder hplain hfolders hmissing
    refine ⟨fault, ?_, fun htakes => hkind htakes.2⟩
    rw [hfault]
    rfl

end Infill.FileTree
