import Infill.Files.Store
import Infill.Proofs.Files.Walk
import Infill.Proofs.Result

/-!
# Writing files

A path is written where its last name is to be looked up, or where the link that stands there leads
(`placeToWrite_succ_eq_ok`).  A walk passes through folders and links only, so that a file which is new or
has a new content is in no one's way (`Keeps.walk`).  Therefore the path leads to what was written under it,
and nothing else has changed (`exists_written_of_writeFile`).
-/

set_option autoImplicit false

namespace Infill

namespace FileTree

variable {t u : FileTree}

/-! ## Trees that keep what stands in another one -/

/-- What stands in `t` stands in `u` as well, but files may have another content there. -/
def Keeps (t u : FileTree) : Prop :=
  ∀ l entry, t.entryAt? l = some entry →
    u.entryAt? l = some entry ∨ ∃ old new, entry = .file old ∧ u.entryAt? l = some (.file new)

namespace Keeps

/-- A tree keeps itself. -/
theorem refl (t : FileTree) : Keeps t t := fun _ _ h => .inl h

/-- Folders and links stay as they are. -/
theorem entryAt?_eq_some (h : Keeps t u) {l : Location} {entry : Entry}
    (hentry : t.entryAt? l = some entry) (hfile : ∀ content, entry ≠ .file content) :
    u.entryAt? l = some entry := by
  rcases h l entry hentry with hsame | ⟨old, new, heq, -⟩
  · exact hsame
  · exact absurd heq (hfile old)

/-- Folders stay folders. -/
theorem isFolderAt (h : Keeps t u) {l : Location} (hfolder : t.isFolderAt l = true) :
    u.isFolderAt l = true := by
  unfold FileTree.isFolderAt at hfolder ⊢
  rw [beq_iff_eq] at hfolder ⊢
  exact h.entryAt?_eq_some hfolder (by simp)

/-- A walk that arrives does so in every tree that keeps what it passes. -/
theorem walkParts (h : Keeps t u)
    {follow follow' : Location → Path → List Text → Except SystemFault (Location × Nat)}
    (hfollow : ∀ folder target rest r, follow folder target rest = .ok r →
      follow' folder target rest = .ok r)
    {budget : Nat} {here : Location} {parts : List Text} {r : Location × Nat}
    (hwalk : t.walkParts follow budget here parts = .ok r) :
    u.walkParts follow' budget here parts = .ok r := by
  induction parts generalizing here with
  | nil => exact hwalk
  | cons part parts ih =>
    have hfolder : t.isFolderAt here = true := isFolderAt_of_walkParts_cons hwalk
    by_cases hname : Path.IsName part
    · rw [walkParts_cons_of_isName hfolder hname] at hwalk
      rw [walkParts_cons_of_isName (h.isFolderAt hfolder) hname]
      by_cases hfits : FitsName part
      · rw [lookUp_of_fitsName t here hfits] at hwalk
        rw [lookUp_of_fitsName u here hfits]
        cases hentry : t.entryAt? (here ++ [part]) with
        | none =>
          rw [hentry] at hwalk
          cases hwalk
        | some entry =>
          rw [hentry] at hwalk
          rcases h _ entry hentry with hsame | ⟨old, new, rfl, hnew⟩
          · rw [hsame]
            cases entry with
            | file content => exact ih hwalk
            | link target => exact hfollow _ _ _ _ hwalk
            | folder => exact ih hwalk
          · rw [hnew]
            exact ih hwalk
      · rw [lookUp_of_not_fitsName t here hfits] at hwalk
        cases hwalk
    · rw [walkParts_cons_of_not_isName hfolder hname] at hwalk
      rw [walkParts_cons_of_not_isName (h.isFolderAt hfolder) hname]
      exact ih hwalk

/-- A walk that arrives does so in every tree that keeps more. -/
theorem walk (h : Keeps t u) {budget : Nat} {here : Location} {parts : List Text}
    {r : Location × Nat} (hwalk : t.walk budget here parts = .ok r) :
    u.walk budget here parts = .ok r := by
  induction budget generalizing here parts r with
  | zero => exact h.walkParts (fun _ _ _ _ hloop => hloop) hwalk
  | succ budget ih => exact h.walkParts (fun _ _ _ _ hfollow => ih hfollow) hwalk

end Keeps

/-- A file can be put where nothing or a file stands. -/
theorem keeps_put {location : Location}
    (hplace : t.entryAt? location = none ∨ ∃ old, t.entryAt? location = some (.file old))
    (content : Bytes) : Keeps t (t.put location (.file content)) := by
  intro l entry hentry
  by_cases hl : l = location
  · subst hl
    have hroot : l ≠ [] := by
      rintro rfl
      simp [entryAt?] at hplace
    rcases hplace with hnone | ⟨old, hold⟩
    · rw [hnone] at hentry
      cases hentry
    · rw [hold] at hentry
      cases hentry
      exact .inr ⟨old, content, rfl, entryAt?_put_self hroot _⟩
  · exact .inl (by rw [entryAt?_put_of_ne hl, hentry])

/-! ## The end of a path -/

/-- A path that ends in a name has it as its last part. -/
theorem splitOn_of_splitLast {p : Path} {before : List Text} {n : Text}
    (h : splitLast p = (before, .name n false)) :
    Text.splitOn '/' p = before ++ [n] ∧ Path.IsName n := by
  have hname : ∀ (last : Text) (slash : Bool),
      (if last = ['.'] then LastPart.current
        else if last = ['.', '.'] then .parent else .name last slash) = .name n false →
      last = n ∧ slash = false ∧ last ≠ ['.'] ∧ last ≠ ['.', '.'] := by
    intro last slash hlast
    by_cases hcurrent : last = ['.']
    · simp [hcurrent] at hlast
    · by_cases hparent : last = ['.', '.']
      · simp [hparent] at hlast
      · rw [if_neg hcurrent, if_neg hparent] at hlast
        obtain ⟨hn, hslash⟩ := LastPart.name.inj hlast
        exact ⟨hn, hslash, hcurrent, hparent⟩
  have hparts : Text.splitOn '/' p = (Text.splitOn '/' p).reverse.reverse := by simp
  unfold splitLast at h
  cases hbackwards : (Text.splitOn '/' p).reverse with
  | nil => simp [hbackwards] at h
  | cons last front =>
    rw [hbackwards] at hparts h
    by_cases hempty : last = []
    · -- A path that ends in a slash has an empty part there.
      subst hempty
      simp only [List.head?_cons, beq_self_eq_true] at h
      split at h
      · simp at h
      · obtain ⟨-, hslash, -⟩ := hname _ _ (Prod.mk.inj h).2
        cases hslash
    · have hdrop : (last :: front).dropWhile (·.isEmpty) = last :: front := by simp [hempty]
      simp only [hdrop, Prod.mk.injEq] at h
      obtain ⟨rfl, hlast⟩ := h
      obtain ⟨rfl, -, hcurrent, hparent⟩ := hname _ _ hlast
      exact ⟨by simpa using hparts, hempty, hcurrent, hparent⟩

/-- A path that the system takes ends in the name `n`, which is to be looked up in `folder` with `left`
of the budget. -/
structure EndsIn (t : FileTree) (budget : Nat) (here : Location) (p : Path) (folder : Location)
    (n : Text) (left : Nat) : Prop where
  taken : checkPath p = .ok ()
  isName : Path.IsName n
  fits : FitsName n
  isFolderAt : t.isFolderAt folder = true
  arrives : ∃ before, Text.splitOn '/' p = before ++ [n] ∧
    t.walk budget (baseOf here p) before = .ok (folder, left)

namespace EndsIn

variable {budget left : Nat} {here folder : Location} {p : Path} {n : Text}

/-- A path ends in the same name and folder in a tree that keeps more. -/
theorem keeps (h : EndsIn t budget here p folder n left) (hkeeps : Keeps t u) :
    EndsIn u budget here p folder n left := by
  obtain ⟨before, hparts, hwalk⟩ := h.arrives
  exact ⟨h.taken, h.isName, h.fits, hkeeps.isFolderAt h.isFolderAt, before, hparts, hkeeps.walk hwalk⟩

/-- The walk along the whole path looks its last name up. -/
theorem walk_eq (h : EndsIn t budget here p folder n left) :
    t.walk budget (baseOf here p) (Text.splitOn '/' p) = t.walk left folder [n] := by
  obtain ⟨before, hparts, hwalk⟩ := h.arrives
  rw [hparts, walk_append, hwalk]
  rfl

/-- A path that ends in the name of what is no link leads there. -/
theorem walk_of_entry (h : EndsIn t budget here p folder n left) {entry : Entry}
    (hentry : t.entryAt? (folder ++ [n]) = some entry) (hlink : ∀ target, entry ≠ .link target) :
    t.walk budget (baseOf here p) (Text.splitOn '/' p) = .ok (folder ++ [n], left) := by
  obtain ⟨follow, hfollow⟩ := t.exists_walk_eq_walkParts left folder [n]
  rw [h.walk_eq, hfollow, walkParts_cons_of_isName h.isFolderAt h.isName,
    lookUp_of_fitsName t folder h.fits, hentry]
  match entry with
  | .link target => exact absurd rfl (hlink target)
  | .file _ | .folder => rfl

/-- A path that ends in a name under which nothing stands leads nowhere. -/
theorem walk_of_none (h : EndsIn t budget here p folder n left)
    (hnone : t.entryAt? (folder ++ [n]) = none) :
    t.walk budget (baseOf here p) (Text.splitOn '/' p) = .error .notFound := by
  obtain ⟨follow, hfollow⟩ := t.exists_walk_eq_walkParts left folder [n]
  rw [h.walk_eq, hfollow, walkParts_cons_of_isName h.isFolderAt h.isName,
    lookUp_of_fitsName t folder h.fits, hnone]

/-- A path that ends in the name of a link leads on to where the link points. -/
theorem walk_of_link (h : EndsIn t budget here p folder n (left + 1)) {target : Path}
    (hlink : t.entryAt? (folder ++ [n]) = some (.link target)) :
    t.walk budget (baseOf here p) (Text.splitOn '/' p) =
      t.walk left (baseOf folder target) (Text.splitOn '/' target) := by
  rw [h.walk_eq, walk, walkParts_cons_of_isName h.isFolderAt h.isName,
    lookUp_of_fitsName t folder h.fits, hlink]
  simp

end EndsIn

/-- A path ends in the folder in which its last name is looked up. -/
theorem endsIn_of_findParentFrom {budget left : Nat} {here folder : Location} {p : Path} {n : Text}
    (h : findParentFrom t budget here p = .ok (folder, .name n false, left)) (hfits : FitsName n) :
    EndsIn t budget here p folder n left := by
  unfold findParentFrom at h
  obtain ⟨_, htaken, h⟩ := Result.bind_eq_ok.1 h
  cases hsplit : splitLast p with
  | mk before last =>
    rw [hsplit] at h
    obtain ⟨⟨folder', left'⟩, hwalk, h⟩ := Result.bind_eq_ok.1 h
    by_cases hfolder : t.isFolderAt folder' = true
    · simp only [hfolder, if_true, Except.ok.injEq, Prod.mk.injEq] at h
      obtain ⟨rfl, rfl, rfl⟩ := h
      obtain ⟨hparts, hname⟩ := splitOn_of_splitLast hsplit
      exact ⟨htaken, hname, hfits, hfolder, before, hparts, hwalk⟩
    · simp [hfolder] at h

/-! ## The place to write -/

/-- One round finds the place where nothing or a file stands under the last name, or follows the link that
stands there. -/
theorem placeToWrite_succ_eq_ok {rounds budget : Nat} {here location : Location} {p : Path}
    (h : placeToWrite t (rounds + 1) budget here p = .ok location) :
    ∃ folder n left, EndsIn t budget here p folder n left ∧
      (location = folder ++ [n] ∧
        (t.entryAt? location = none ∨ ∃ old, t.entryAt? location = some (.file old)) ∨
      ∃ target k, t.entryAt? (folder ++ [n]) = some (.link target) ∧ left = k + 1 ∧
        placeToWrite t rounds k folder target = .ok location) := by
  unfold placeToWrite at h
  obtain ⟨⟨folder, last, left⟩, hparent, h⟩ := Result.bind_eq_ok.1 h
  match last with
  | .root | .current | .parent | .name n true => cases h
  | .name n false =>
    obtain ⟨entry, hlookUp, h⟩ := Result.bind_eq_ok.1 h
    by_cases hfits : FitsName n
    · rw [lookUp_of_fitsName t folder hfits, Except.ok.injEq] at hlookUp
      refine ⟨folder, n, left, endsIn_of_findParentFrom hparent hfits, ?_⟩
      match entry, h with
      | none, h =>
        obtain rfl : folder ++ [n] = location := Except.ok.inj h
        exact .inl ⟨rfl, .inl hlookUp⟩
      | some (.file old), h =>
        obtain rfl : folder ++ [n] = location := Except.ok.inj h
        exact .inl ⟨rfl, .inr ⟨old, hlookUp⟩⟩
      | some (.link target), h =>
        cases left with
        | zero => cases h
        | succ k => exact .inr ⟨target, k, hlookUp, rfl, h⟩
    · rw [lookUp_of_not_fitsName t folder hfits] at hlookUp
      cases hlookUp

section Place

variable {rounds budget : Nat} {here location : Location} {p : Path}

/-- Nothing or a file stands where a path is written. -/
theorem entryAt?_of_placeToWrite (h : placeToWrite t rounds budget here p = .ok location) :
    t.entryAt? location = none ∨ ∃ old, t.entryAt? location = some (.file old) := by
  induction rounds generalizing budget here p with
  | zero => cases h
  | succ rounds ih =>
    obtain ⟨folder, n, left, -, ⟨-, hplace⟩ | ⟨target, k, -, -, hnext⟩⟩ := placeToWrite_succ_eq_ok h
    · exact hplace
    · exact ih hnext

/-- A file where a path is written is what the path leads to, whatever else is put into other files. -/
theorem walk_of_placeToWrite (h : placeToWrite t rounds budget here p = .ok location)
    (hkeeps : Keeps t u) {content : Bytes} (hfile : u.entryAt? location = some (.file content)) :
    ∃ left, u.walk budget (baseOf here p) (Text.splitOn '/' p) = .ok (location, left) := by
  induction rounds generalizing budget here p with
  | zero => cases h
  | succ rounds ih =>
    obtain ⟨folder, n, left, hends, ⟨rfl, -⟩ | ⟨target, k, hlink, rfl, hnext⟩⟩ :=
      placeToWrite_succ_eq_ok h
    · exact ⟨left, (hends.keeps hkeeps).walk_of_entry hfile (by simp)⟩
    · rw [(hends.keeps hkeeps).walk_of_link (hkeeps.entryAt?_eq_some hlink (by simp))]
      exact ih hnext

/-- As long as nothing stands where a path is written, the path leads nowhere. -/
theorem walk_of_placeToWrite_of_none (h : placeToWrite t rounds budget here p = .ok location)
    (hnone : t.entryAt? location = none) :
    t.walk budget (baseOf here p) (Text.splitOn '/' p) = .error .notFound := by
  induction rounds generalizing budget here p with
  | zero => cases h
  | succ rounds ih =>
    obtain ⟨folder, n, left, hends, ⟨rfl, -⟩ | ⟨target, k, hlink, rfl, hnext⟩⟩ :=
      placeToWrite_succ_eq_ok h
    · exact hends.walk_of_none hnone
    · rw [hends.walk_of_link hlink]
      exact ih hnext

end Place

/-! ## Writing -/

/-- A file with `content` has been written at `location`, to which `p` leads, and nothing else has changed.
Before that the file was there, or nothing was. -/
structure Written (t : FileTree) (p : Path) (content : Bytes) (location : Location) (u : FileTree) :
    Prop where
  before : (t.find p = .ok location ∧ ∃ old, t.entryAt? location = some (.file old)) ∨
    (t.find p = .error .notFound ∧ t.entryAt? location = none)
  found : u.find p = .ok location
  file : u.entryAt? location = some (.file content)
  others : ∀ l, l ≠ location → u.entryAt? l = t.entryAt? l
  workingFolder : u.workingFolder = t.workingFolder

/-- What was written is read. -/
theorem Written.readFile {p : Path} {content : Bytes} {location : Location}
    (h : t.Written p content location u) : u.readFile p = .ok content :=
  readFile_of_find h.found h.file

/-- Writing a file leaves its content somewhere. -/
theorem exists_written_of_writeFile {p : Path} {content : Bytes}
    (h : t.writeFile p content = .ok u) : ∃ location, t.Written p content location u := by
  unfold writeFile at h
  obtain ⟨location, hplace, h⟩ := Result.bind_eq_ok.1 h
  obtain rfl : t.put location (.file content) = u := Except.ok.inj h
  have hentry := entryAt?_of_placeToWrite hplace
  have hkeeps : Keeps t (t.put location (.file content)) := keeps_put hentry content
  have htaken : checkPath p = .ok () := by
    obtain ⟨folder, n, left, hends, -⟩ := placeToWrite_succ_eq_ok hplace
    exact hends.taken
  have hroot : location ≠ [] := by
    rintro rfl
    simp [entryAt?] at hentry
  have hfile : (t.put location (.file content)).entryAt? location = some (.file content) :=
    entryAt?_put_self hroot _
  refine ⟨location, ?_, ?_, hfile, fun l hl => entryAt?_put_of_ne hl _, rfl⟩
  · rcases hentry with hnone | ⟨old, hold⟩
    · refine .inr ⟨?_, hnone⟩
      rw [find_eq, htaken]
      simp only [Except.bind, walk_of_placeToWrite_of_none hplace hnone]
      rfl
    · refine .inl ⟨?_, old, hold⟩
      obtain ⟨left, hwalk⟩ := walk_of_placeToWrite hplace (.refl t) hold
      exact find_of_walk htaken hwalk
  · obtain ⟨left, hwalk⟩ := walk_of_placeToWrite hplace hkeeps hfile
    exact find_of_walk htaken hwalk

end FileTree

/-- Writing a text writes its bytes. -/
theorem Files.result_write (t : FileTree) (path : Path) (content : Text) :
    (write t path content).result = atPath path (t.writeFile path (Utf8.encode content)) := by
  unfold write
  simp only [Traced.result_bind, Traced.result_ofExcept, Traced.result_say]
  cases t.writeFile path (Utf8.encode content) <;> rfl

end Infill
