import Infill.Files.Store
import Infill.Proofs.Glob.InFolder
import Infill.Proofs.Glob.Spelling
import Mathlib.Data.List.Permutation

/-!
# Listing files

What is listed was found by a search behind the folder and is a file, and no ignore pattern matches it
(`result_listFiles_eq_ok_iff`).  The text of the folder becomes a part of every pattern.  If it has no wildcards, the
patterns mean behind it what they mean alone: what is listed is a file of the folder, and no file with a point in its
name is missed (`listFiles_of_literal_folder`).

Ignore patterns are matched against the paths as the search spells them, which it does anew.  They take out what they
are to take out if the folder is spelled as the search spells it (`listFiles_honours_ignored`).

A listing with patterns that can be read fails for one reason only: it has met a folder whose path is too long for the
system (`IsTooLong`, `exists_listFiles_or_isTooLong`).
-/

set_option autoImplicit false

namespace Infill.Files

open Glob (Avoids IsLiteral Pattern)

variable {t : FileTree} {folder path : Path} {paths files : List Path} {patterns ignored : List Text}
  {found : List (List Path)}

/-! ## Paths that are not repeated -/

/-- A path more is left out if its components occurred before. -/
theorem distinct_concat (paths : List Path) (path : Path) :
    distinct (paths ++ [path]) =
      if (distinct paths).any (fun other => other.components == path.components) then distinct paths
      else distinct paths ++ [path] := by
  unfold distinct
  rw [List.foldl_append, List.foldl_cons, List.foldl_nil, List.any_reverse]
  split_ifs <;> simp

/-- What is left is among the paths. -/
theorem mem_of_mem_distinct (h : path ∈ distinct paths) : path ∈ paths := by
  induction paths using List.reverseRecOn with
  | nil => cases h
  | append_singleton paths other ih =>
    rw [distinct_concat] at h
    split_ifs at h
    · exact List.mem_append_left _ (ih h)
    · exact (List.mem_append.1 h).elim (fun h => List.mem_append_left _ (ih h)) (List.mem_append_right _)

/-- Of the spellings of a path one is left. -/
theorem exists_mem_distinct (h : path ∈ paths) : ∃ other ∈ distinct paths, other.components = path.components := by
  induction paths using List.reverseRecOn with
  | nil => cases h
  | append_singleton paths last ih =>
    rw [distinct_concat]
    rcases List.mem_append.1 h with h | h
    · obtain ⟨other, hother, hsame⟩ := ih h
      split_ifs
      · exact ⟨other, hother, hsame⟩
      · exact ⟨other, List.mem_append_left _ hother, hsame⟩
    · obtain rfl := List.mem_singleton.1 h
      split_ifs with hany
      · obtain ⟨other, hother, hsame⟩ := List.any_eq_true.1 hany
        exact ⟨other, hother, beq_iff_eq.1 hsame⟩
      · exact ⟨path, List.mem_append_right _ (List.mem_singleton_self path), rfl⟩

/-- Leaving paths out and leaving repetitions out can change places, if spellings of one path are left out
together. -/
theorem distinct_filter {keep : Path → Bool}
    (hkeep : ∀ path ∈ paths, ∀ other ∈ paths, path.components = other.components → keep path = keep other) :
    distinct (paths.filter keep) = (distinct paths).filter keep := by
  induction paths using List.reverseRecOn with
  | nil => rfl
  | append_singleton paths last ih =>
    have hprevious := ih fun path hpath other hother =>
      hkeep path (List.mem_append_left _ hpath) other (List.mem_append_left _ hother)
    rw [List.filter_append, distinct_concat]
    by_cases hlast : keep last = true
    · have hone : [last].filter keep = [last] := by simp [hlast]
      have hany : ((distinct paths).filter keep).any (fun other => other.components == last.components) =
          (distinct paths).any fun other => other.components == last.components := by
        rw [Bool.eq_iff_iff, List.any_eq_true, List.any_eq_true]
        constructor
        · rintro ⟨other, hother, hsame⟩
          exact ⟨other, List.mem_of_mem_filter hother, hsame⟩
        · rintro ⟨other, hother, hsame⟩
          have hkept := hkeep other (List.mem_append_left _ (mem_of_mem_distinct hother)) last
            (List.mem_append_right _ (List.mem_singleton_self last)) (beq_iff_eq.1 hsame)
          exact ⟨other, List.mem_filter.2 ⟨hother, hkept.trans hlast⟩, hsame⟩
      rw [hone, distinct_concat, hprevious, hany]
      split_ifs
      · rfl
      · rw [List.filter_append, hone]
    · have hnone : [last].filter keep = [] := by simp [hlast]
      rw [hnone, List.append_nil, hprevious]
      split_ifs
      · rfl
      · rw [List.filter_append, hnone, List.append_nil]

/-! ## The files that are listed -/

/-- The patterns that are searched for: the default one if none is given. -/
def chosen (patterns : List Text) : List Text := if patterns.isEmpty then [defaultPattern] else patterns

/-- Paths are texts, so that nothing of a folder is lost in a pattern behind it. -/
theorem joinPattern_eq (folder : Path) (pattern : Text) : joinPattern folder pattern = folder.join pattern :=
  Utf8.decodeLossy_encode _

/-- A search has a result if it meets paths only. -/
theorem searchFor_eq_ok_iff {pattern : Text} :
    searchFor t pattern = .ok paths ↔ Glob.search t pattern = .ok (paths.map .ok) := by
  unfold searchFor
  constructor
  · intro h
    obtain ⟨met, hmet, h⟩ := Result.bind_eq_ok.1 h
    rw [Result.mapError_eq_ok.1 hmet, Result.mapM_mapError_eq_ok.1 h]
  · intro h
    exact Result.bind_eq_ok.2 ⟨_, Result.mapError_eq_ok.2 h, Result.mapM_mapError_eq_ok.2 rfl⟩

/-- A search without a result has met a folder that it cannot read, if its pattern can be read. -/
theorem exists_of_searchFor_eq_error {pattern : Text} {met : List (Except Glob.SearchError Path)}
    (hmet : Glob.search t pattern = .ok met) {e : StoreError} (h : searchFor t pattern = .error e) :
    ∃ cause, .error cause ∈ met ∧ e = .search cause.folder cause.fault := by
  unfold searchFor at h
  rw [hmet] at h
  obtain ⟨item, hitem, h⟩ := Result.exists_of_mapM_eq_error h
  obtain ⟨cause, rfl, rfl⟩ := Result.mapError_eq_error.1 h
  exact ⟨cause, hitem, rfl⟩

/-- If the ignore patterns can be read, a listing filters what is found and leaves repetitions out. -/
theorem result_listFiles_of_parsed {parsed : List Pattern}
    (hparsed : ignored.mapM (fun p => Pattern.parse (folder.join p)) = .ok parsed) :
    (listFiles t folder patterns ignored).result =
      ((chosen patterns).mapM fun p => searchFor t (folder.join p)).map fun found =>
        distinct (found.flatten.filter fun path => t.isFile path && !parsed.any (·.matches path)) := by
  unfold listFiles
  simp only [Traced.result_bind, Traced.result_ofExcept, Traced.result_say, Traced.result_pure, joinPattern_eq, hparsed]
  change ((chosen patterns).mapM fun p => searchFor t (folder.join p)) >>= _ = _
  cases (chosen patterns).mapM fun p => searchFor t (folder.join p) <;> rfl

/-- What is searched for is filtered, and not repeated. -/
theorem result_listFiles_eq_ok_iff : (listFiles t folder patterns ignored).result = .ok files ↔
    ∃ parsed found, ignored.mapM (fun p => Pattern.parse (folder.join p)) = .ok parsed ∧
      (chosen patterns).mapM (fun p => searchFor t (folder.join p)) = .ok found ∧
      files = distinct (found.flatten.filter fun path => t.isFile path && !parsed.any (·.matches path)) := by
  cases hparsed : ignored.mapM fun p => Pattern.parse (folder.join p) with
  | error e =>
    have herror : (listFiles t folder patterns ignored).result = .error (.pattern e) := by
      unfold listFiles
      simp only [Traced.result_bind, Traced.result_ofExcept, joinPattern_eq, hparsed]
      rfl
    simp [herror]
  | ok parsed =>
    rw [result_listFiles_of_parsed hparsed]
    cases (chosen patterns).mapM fun p => searchFor t (folder.join p) with
    | error e => simp [Except.map]
    | ok found => simp [Except.map, eq_comm]

/-- Without ignore patterns all files are listed that are found. -/
theorem result_listFiles_nil : (listFiles t folder patterns []).result =
    ((chosen patterns).mapM fun p => searchFor t (folder.join p)).map fun found =>
      distinct (found.flatten.filter t.isFile) := by
  rw [result_listFiles_of_parsed (rfl : [].mapM (fun p => Pattern.parse (folder.join p)) = .ok [])]
  simp

/-- What is found is found by one of the patterns. -/
theorem exists_search_of_mem_flatten
    (hfound : (chosen patterns).mapM (fun p => searchFor t (folder.join p)) = .ok found)
    (hpath : path ∈ found.flatten) :
    ∃ pattern ∈ chosen patterns, ∃ met, Glob.search t (folder.join pattern) = .ok met ∧ .ok path ∈ met := by
  obtain ⟨some, hsome, hpath⟩ := List.mem_flatten.1 hpath
  obtain ⟨pattern, hpattern, hsearch⟩ := Result.exists_of_mem_mapM hfound hsome
  exact ⟨pattern, hpattern, _, searchFor_eq_ok_iff.1 hsearch, List.mem_map_of_mem hpath⟩

/-- What is listed is a file that was found by one of the patterns. -/
theorem of_mem_listFiles (h : (listFiles t folder patterns ignored).result = .ok files) (hpath : path ∈ files) :
    t.isFile path = true ∧ ∃ pattern ∈ chosen patterns, ∃ met,
      Glob.search t (folder.join pattern) = .ok met ∧ .ok path ∈ met := by
  obtain ⟨parsed, found, -, hfound, rfl⟩ := result_listFiles_eq_ok_iff.1 h
  obtain ⟨hmem, hkept⟩ := List.mem_filter.1 (mem_of_mem_distinct hpath)
  rw [Bool.and_eq_true] at hkept
  exact ⟨hkept.1, exists_search_of_mem_flatten hfound hmem⟩

/-- The default pattern reads as a point between two runs of characters. -/
theorem parse_defaultPattern : Pattern.parse defaultPattern = .ok [.anyRun, .char '.', .anyRun] := rfl

/-- The default pattern stands for the names with a point. -/
theorem matches_defaultPattern (n : Text) : Pattern.matches [.anyRun, .char '.', .anyRun] n = true ↔ '.' ∈ n := by
  rw [Pattern.matches, Glob.anyTail_iff]
  constructor
  · rintro ⟨s, hs, hmatches⟩
    cases s with
    | nil => cases hmatches
    | cons c s =>
      obtain ⟨rfl, -⟩ : c = '.' ∧ _ := by simpa [Pattern.matches, Glob.Element.admits] using hmatches
      exact hs.subset List.mem_cons_self
  · intro hpoint
    obtain ⟨before, behind, rfl⟩ := List.append_of_mem hpoint
    exact ⟨'.' :: behind, List.suffix_append _ _,
      (Glob.matches_literal_append ['.'] [.anyRun] behind).trans (Glob.matches_anyRun behind)⟩

/-- The default pattern stands for names of entries only. -/
theorem matchesNames_defaultPattern : Glob.MatchesNames [.anyRun, .char '.', .anyRun] := ⟨rfl, rfl, rfl⟩

/-- What holds of the patterns that are given and of the default one holds of those searched for. -/
theorem forall_mem_chosen {P : Text → Prop} (hdefault : P defaultPattern) (h : ∀ p ∈ patterns, P p) :
    ∀ p ∈ chosen patterns, P p := by
  unfold chosen
  split_ifs
  · intro p hp
    obtain rfl := List.mem_singleton.1 hp
    exact hdefault
  · exact h

/-! ## Patterns that can be read -/

/-- A pattern that can be read, as a whole and by its components. -/
def IsReadable (pattern : Text) : Prop :=
  (∃ p, Pattern.parse pattern = .ok p) ∧ ∀ part ∈ Text.splitOn '/' pattern, ∃ p, Pattern.parse part = .ok p

/-- A pattern of one component can be read if it can be read as a whole. -/
theorem isReadable_of_parse {pattern : Text} {p : Pattern} (hslash : '/' ∉ pattern)
    (hparse : Pattern.parse pattern = .ok p) : IsReadable pattern :=
  ⟨⟨p, hparse⟩, fun _ hpart => ⟨p, Text.eq_of_mem_splitOn hslash hpart ▸ hparse⟩⟩

/-- The default pattern can be read. -/
theorem isReadable_defaultPattern : IsReadable defaultPattern := isReadable_of_parse (by decide) parse_defaultPattern

/-- A search has met a folder whose path is too long for the system. -/
def IsTooLong (e : StoreError) : Prop :=
  ∃ folder, e = .search folder .nameTooLong ∧ FileTree.pathLimit < (Utf8.encode folder).length

/-- Behind a folder without wildcards, patterns that can be read are searched for, unless a path becomes too long. -/
theorem isTooLong_of_mapM_search (htree : t.IsTree) (hliteral : IsLiteral folder) (hne : folder ≠ [])
    (hpatterns : ∀ p ∈ patterns, Path.isAbsolute p = false ∧ IsReadable p) {e : StoreError}
    (h : (chosen patterns).mapM (fun p => searchFor t (folder.join p)) = .error e) : IsTooLong e := by
  obtain ⟨p, hp, hsearch⟩ := Result.exists_of_mapM_eq_error h
  obtain ⟨hrelative, hparse, hparts⟩ := forall_mem_chosen ⟨rfl, isReadable_defaultPattern⟩ hpatterns p hp
  obtain ⟨met, hmet⟩ := Glob.exists_search_join hne hliteral hrelative t hparse hparts
  obtain ⟨cause, hcause, rfl⟩ := exists_of_searchFor_eq_error hmet hsearch
  obtain ⟨hlong, hfault⟩ := Glob.tooLong_of_mem_search htree hmet hcause
  exact ⟨cause.folder, by rw [hfault], FileTree.lt_of_checkPath_eq_nameTooLong hlong⟩

/-! ## Patterns behind a folder -/

/-- Whether a pattern matches a text. -/
def covers (pattern rest : Text) : Bool :=
  match Pattern.parse pattern with
  | .ok p => p.matches rest
  | .error _ => false

/-- What stands behind the text of a folder in a path, and behind the slash that follows it. -/
def behind (folder path : Path) : Text := path.drop (folder.stem.length + 1)

/-- What was put behind the text of a folder is found there. -/
theorem behind_append (folder : Path) (rest : Text) : behind folder (folder.stem ++ '/' :: rest) = rest := by
  unfold behind
  rw [← List.singleton_append, ← List.append_assoc]
  exact List.drop_left' (by simp)

section Behind

variable (hliteral : IsLiteral folder) (hne : folder ≠ [])
include hliteral hne

/-- A pattern behind a folder without wildcards matches what is behind the folder as it does alone. -/
theorem exists_parse_join {pattern : Text} (hrelative : Path.isAbsolute pattern = false)
    (hparse : ∃ p, Pattern.parse pattern = .ok p) : ∃ p, Pattern.parse (folder.join pattern) = .ok p ∧
      ∀ rest, p.matches (folder.stem ++ '/' :: rest) = covers pattern rest := by
  obtain ⟨p, hp⟩ := hparse
  obtain ⟨all, hall, hmatches⟩ :=
    Glob.exists_parse_append_matches (Glob.isLiteral_stem_slash hliteral) (.inr List.getLast?_concat) hp
  refine ⟨all, ?_, fun rest => ?_⟩
  · rw [Path.join_eq_stem_append hne hrelative, ← hall, List.append_assoc, List.singleton_append]
  · unfold covers
    have hrest := hmatches rest
    rw [List.append_assoc, List.singleton_append] at hrest
    rw [hp]
    exact hrest

/-- Ignore patterns behind a folder without wildcards match what is behind it as they do alone. -/
theorem exists_mapM_parse_join (hignored : ∀ p ∈ ignored, Path.isAbsolute p = false ∧ ∃ c, Pattern.parse p = .ok c) :
    ∃ parsed, ignored.mapM (fun p => Pattern.parse (folder.join p)) = .ok parsed ∧
      ∀ rest, parsed.any (·.matches (folder.stem ++ '/' :: rest)) = ignored.any (covers · rest) := by
  induction ignored with
  | nil => exact ⟨[], rfl, fun rest => rfl⟩
  | cons p ignored ih =>
    obtain ⟨⟨hrelative, hparse⟩, hignored⟩ := List.forall_mem_cons.1 hignored
    obtain ⟨c, hc, hmatches⟩ := exists_parse_join hliteral hne hrelative hparse
    obtain ⟨parsed, hparsed, hany⟩ := ih hignored
    refine ⟨c :: parsed, Result.mapM_cons_eq_ok.2 ⟨c, parsed, hc, hparsed, rfl⟩, fun rest => ?_⟩
    rw [List.any_cons, List.any_cons, hmatches, hany]

end Behind

/-! ## Files of the folder -/

/-- A pattern that is to be read below a folder and has no component that leads to `..`. -/
def StaysBelow (pattern : Text) : Prop := Path.isAbsolute pattern = false ∧ Avoids pattern ['.', '.']

/-- The default pattern leads to no step. -/
theorem avoids_defaultPattern (step : Text) : Avoids defaultPattern step :=
  Glob.avoids_of_parse (by decide) parse_defaultPattern rfl

section Folder

variable (htree : t.IsTree) (hliteral : IsLiteral folder) {l : Location} (hfind : t.find folder = .ok l)
  (hfolder : t.isFolderAt l = true)
include htree hliteral hfind hfolder

/-- What is listed is a file of the folder. -/
theorem leadsInto_of_mem_listFiles (hpatterns : ∀ p ∈ patterns, StaysBelow p)
    (h : (listFiles t folder patterns ignored).result = .ok files) (hpath : path ∈ files) :
    ∃ m content, t.find path = .ok m ∧ t.entryAt? m = some (.file content) ∧ t.LeadsInto l m := by
  obtain ⟨hfile, pattern, hpattern, met, hsearch, hpath⟩ := of_mem_listFiles h hpath
  obtain ⟨hrelative, havoids⟩ := forall_mem_chosen ⟨rfl, avoids_defaultPattern _⟩ hpatterns pattern hpattern
  have hne := FileTree.ne_nil_of_find hfind
  obtain ⟨names, hnames, hmoves, habsolute⟩ :=
    Glob.exists_moves_of_mem_search hne hliteral hrelative hsearch hpath htree
  refine FileTree.leadsInto_of_moves (fun n hn => ?_) hmoves habsolute hfind hfolder hfile
  obtain ⟨hmove, hleads⟩ := hnames n hn
  exact Path.isName_iff.2 ⟨hmove, havoids.ne_of_leadsOn (.inr rfl) htree hleads⟩

variable (hgap : Glob.NoGap folder)
include hgap

/-- Without patterns, the files of a folder that have a point in their name are listed. -/
theorem exists_mem_listFiles : ∃ files, (listFiles t folder [] []).result = .ok files ∧
    ∀ n ∈ t.namesIn l, '.' ∈ n → t.isFile (folder.join n) = true →
      ∃ path ∈ files, path.fileName? = some n ∧ t.find path = t.find (folder.join n) := by
  have hsearch := Glob.search_join_eq hliteral hfind hfolder hgap (by decide) (by decide) parse_defaultPattern
    matchesNames_defaultPattern
  have hfound : (chosen []).mapM (fun p => searchFor t (folder.join p)) = _ :=
    Result.mapM_cons_eq_ok.2 ⟨_, [], searchFor_eq_ok_iff.2 hsearch, rfl, rfl⟩
  refine ⟨_, result_listFiles_nil.trans (by rw [hfound]; rfl), fun n hn hpoint hfile => ?_⟩
  have hentry : ∀ m ∈ t.namesIn l, FileTree.IsEntryName m := fun m => Glob.isEntryName_of_mem_namesIn htree
  have hname : ∀ m ∈ t.namesIn l, Path.fileName? (Glob.below (Glob.arrival folder) m) = some m := fun m hm =>
    Glob.fileName?_next (hentry m hm).noSlash (hentry m hm).isName (.inl rfl)
  have hsame : t.find (Glob.below (Glob.arrival folder) n) = t.find (folder.join n) := by
    obtain ⟨m, content, hfound, -⟩ := FileTree.isFile_iff.1 hfile
    exact Glob.find_below_arrival hliteral hfind hfolder (hentry n hn).noSlash
      (Path.isName_iff.1 (hentry n hn).isName).1 (FileTree.find_eq_ok_iff.1 hfound).1
  have hisFile : t.isFile (Glob.below (Glob.arrival folder) n) = true := by
    unfold FileTree.isFile at hfile ⊢
    rwa [hsame]
  -- Of the paths with the same components one is kept, and it was found in the same way.
  obtain ⟨path, hpath, hcomponents⟩ := exists_mem_distinct (List.mem_filter.2
    ⟨List.mem_flatten.2 ⟨_, List.mem_singleton_self _, List.mem_map_of_mem (List.mem_filter.2
      ⟨hn, (matches_defaultPattern n).2 hpoint⟩)⟩, hisFile⟩)
  refine ⟨path, hpath, ?_⟩
  have hfound := List.mem_of_mem_filter (mem_of_mem_distinct hpath)
  rw [List.flatten_singleton] at hfound
  obtain ⟨m, hm, rfl⟩ := List.mem_map.1 hfound
  have hlast : Path.fileName? (Glob.below (Glob.arrival folder) m) = some n := by
    rw [← hname n hn]
    unfold Path.fileName?
    rw [hcomponents]
  obtain rfl : m = n := Option.some.inj ((hname m (List.mem_of_mem_filter hm)).symm.trans hlast)
  exact ⟨hlast, hsame⟩

end Folder

/-- Behind a folder without wildcards, a listing with patterns that can be read succeeds, unless a path becomes too
long. -/
theorem exists_listFiles_or_isTooLong (htree : t.IsTree) (hliteral : IsLiteral folder) (hne : folder ≠ [])
    (hpatterns : ∀ p ∈ patterns, Path.isAbsolute p = false ∧ IsReadable p)
    (hignored : ∀ p ∈ ignored, Path.isAbsolute p = false ∧ ∃ c, Pattern.parse p = .ok c) :
    (∃ files, (listFiles t folder patterns ignored).result = .ok files) ∨
      ∃ e, (listFiles t folder patterns ignored).result = .error e ∧ IsTooLong e := by
  obtain ⟨parsed, hparsed, -⟩ := exists_mapM_parse_join hliteral hne hignored
  rw [result_listFiles_of_parsed hparsed]
  cases hfound : (chosen patterns).mapM fun p => searchFor t (folder.join p) with
  | ok found => exact .inl ⟨_, rfl⟩
  | error e => exact .inr ⟨e, rfl, isTooLong_of_mapM_search htree hliteral hne hpatterns hfound⟩

/-- Listing a folder without wildcards in its path: if all patterns can be read, it succeeds, or it has met a folder
whose path is too long for the system; if no component of a pattern leads to `..`, all that is listed is a file of the
folder; and without patterns it succeeds, and no file of the folder with a point in its name is left out.

The path of the folder and the names in the tree are texts.  A name that is not UTF-8 cannot be a part of a pattern, as
little as wildcards can that are to stand for themselves.  A link in the folder leads where it leads; so that what is
listed stands below the folder is only said of a folder without links in it.  Where `.` and an empty part come first in
a relative path, the search loses the folder, and nothing is said about the files that are left out. -/
theorem listFiles_of_literal_folder (htree : t.IsTree) (hliteral : IsLiteral folder) {l : Location}
    (hfind : t.find folder = .ok l) (hfolder : t.isFolderAt l = true) :
    (∀ patterns ignored, (∀ p ∈ patterns, Path.isAbsolute p = false ∧ IsReadable p) →
      (∀ p ∈ ignored, Path.isAbsolute p = false ∧ ∃ c, Pattern.parse p = .ok c) →
        (∃ files, (listFiles t folder patterns ignored).result = .ok files) ∨
          ∃ e, (listFiles t folder patterns ignored).result = .error e ∧ IsTooLong e) ∧
    (∀ patterns ignored files, (∀ p ∈ patterns, StaysBelow p) →
      (listFiles t folder patterns ignored).result = .ok files → ∀ path ∈ files,
        ∃ m content, t.find path = .ok m ∧ t.entryAt? m = some (.file content) ∧ t.LeadsInto l m ∧
          ((∀ more target, t.entryAt? (l ++ more) ≠ some (.link target)) → FileTree.isBelow l m = true)) ∧
    (Glob.NoGap folder → ∃ files, (listFiles t folder [] []).result = .ok files ∧
      ∀ n ∈ t.namesIn l, '.' ∈ n → t.isFile (folder.join n) = true →
        ∃ path ∈ files, path.fileName? = some n ∧ t.find path = t.find (folder.join n)) := by
  refine ⟨?_, ?_, exists_mem_listFiles htree hliteral hfind hfolder⟩
  · intro patterns ignored
    exact exists_listFiles_or_isTooLong htree hliteral (FileTree.ne_nil_of_find hfind)
  · intro patterns ignored files hpatterns h path hpath
    obtain ⟨m, content, hfound, hcontent, hleads⟩ :=
      leadsInto_of_mem_listFiles htree hliteral hfind hfolder hpatterns h hpath
    exact ⟨m, content, hfound, hcontent, hleads, hleads.isBelow⟩

/-- A folder with brackets in its name, and one that these brackets match. -/
def bracketed : FileTree :=
  ⟨[(["a[b]".toList], .folder), (["a[b]".toList, "x.txt".toList], .file []), (["ab".toList], .folder),
    (["ab".toList, "y.txt".toList], .file [])], []⟩

/-- Folders may have brackets in their names. -/
theorem isTree_bracketed : bracketed.IsTree := ⟨by decide, by decide +kernel, by decide⟩

/-- In the folder without brackets its file is found, and only this one. -/
theorem listFiles_of_literal_folder_ab :
    ∃ files, (listFiles bracketed "ab".toList [] []).result = .ok files ∧
      (∃ path ∈ files, path.fileName? = some "y.txt".toList) ∧
      ∀ path ∈ files, ∃ m content, bracketed.find path = .ok m ∧ bracketed.entryAt? m = some (.file content) ∧
        FileTree.isBelow ["ab".toList] m = true := by
  have hfind : bracketed.find "ab".toList = .ok ["ab".toList] := by decide +kernel
  have hnolinks : ∀ more target, bracketed.entryAt? (["ab".toList] ++ more) ≠ some (.link target) := by
    intro more target h
    have hmem := (isTree_bracketed.entryAt?_eq_some_iff (by simp)).1 h
    simp [bracketed] at hmem
  obtain ⟨-, hinside, hall⟩ :=
    listFiles_of_literal_folder isTree_bracketed (by decide +kernel) hfind (by decide +kernel)
  obtain ⟨files, hfiles, hnames⟩ := hall (by decide +kernel)
  refine ⟨files, hfiles, ?_, fun path hpath => ?_⟩
  · obtain ⟨path, hpath, hname, -⟩ := hnames "y.txt".toList (by decide +kernel) (by decide +kernel) (by decide +kernel)
    exact ⟨path, hpath, hname⟩
  · obtain ⟨m, content, hfound, hcontent, -, hbelow⟩ := hinside [] [] files (by simp) hfiles path hpath
    exact ⟨m, content, hfound, hcontent, hbelow hnolinks⟩

/-- For the folder with brackets a file of the other folder is listed, and its own file is left out. -/
theorem listFiles_of_bracketed_folder :
    bracketed.find "a[b]".toList = .ok ["a[b]".toList] ∧ bracketed.isFolderAt ["a[b]".toList] = true ∧
      bracketed.isFile "a[b]/x.txt".toList = true ∧
      (listFiles bracketed "a[b]".toList [] []).result = .ok ["ab/y.txt".toList] ∧
      bracketed.find "ab/y.txt".toList = .ok ["ab".toList, "y.txt".toList] ∧
      FileTree.isBelow ["a[b]".toList] ["ab".toList, "y.txt".toList] = false := by
  refine ⟨by decide +kernel, by decide +kernel, by decide +kernel, ?_, by decide +kernel, by decide +kernel⟩
  simp only [listFiles, joinPattern_eq]
  cbv

/-! ## Ignored files -/

section Direct

variable (hliteral : IsLiteral folder) (hdirect : Glob.IsDirect folder) (hfolder : t.isFolder folder = true)
  {pattern : Text} (hrelative : Path.isAbsolute pattern = false) {met : List (Except Glob.SearchError Path)}
  (hsearch : Glob.search t (folder.join pattern) = .ok met) (hpath : .ok path ∈ met)
include hliteral hdirect hfolder hrelative hsearch hpath

/-- What is found in a folder that is spelled directly is reached from its text. -/
theorem reached_of_isDirect : Glob.Reached (Glob.LeadsOn t pattern) folder.stem path := by
  obtain ⟨l, hfind, -⟩ := FileTree.isFolder_iff.1 hfolder
  have hreached := Glob.reached_of_mem_search (FileTree.ne_nil_of_find hfind) hliteral hrelative hsearch hpath
  rwa [Glob.arrival_of_isDirect hdirect] at hreached

variable (htree : t.IsTree) (hfile : t.isFile path = true)
include htree hfile

/-- A file that is found in a folder that is spelled directly begins with the text of the folder. -/
theorem exists_rest_of_mem_search : ∃ rest, path = folder.stem ++ '/' :: rest := by
  obtain ⟨hmoves, hstem⟩ := Glob.stem_of_isDirect hdirect
  have hreached := reached_of_isDirect hliteral hdirect hfolder hrelative hsearch hpath
  refine (hreached.exists_rest hmoves hstem fun n => Glob.not_mem_of_leadsOn htree).resolve_left ?_
  rintro rfl
  obtain ⟨l, hfind, hl⟩ := FileTree.isFolder_iff.1 hfolder
  obtain ⟨m, content, hfound, hcontent⟩ := FileTree.isFile_iff.1 hfile
  obtain ⟨hsame, habsolute⟩ := Glob.moves_arrival hliteral
  rw [Glob.arrival_of_isDirect hdirect] at hsame habsolute
  obtain rfl := FileTree.eq_of_moves_eq hsame habsolute hfound hfind
  rw [FileTree.isFolderAt_iff, hcontent] at hl
  cases hl

/-- Behind that it has no parts but moves, if no component of the pattern leads to `.`. -/
theorem exists_parts_of_mem_search (havoids : Avoids pattern ['.']) :
    ∃ rest, path = folder.stem ++ '/' :: rest ∧ ∀ part ∈ Text.splitOn '/' rest, Path.IsMove part := by
  obtain ⟨rest, rfl⟩ := exists_rest_of_mem_search hliteral hdirect hfolder hrelative hsearch hpath htree hfile
  obtain ⟨hmoves, hstem⟩ := Glob.stem_of_isDirect hdirect
  have hreached := reached_of_isDirect hliteral hdirect hfolder hrelative hsearch hpath
  obtain ⟨names, hnames, hparts⟩ := hreached.exists_parts hmoves hstem fun n hn =>
    ⟨Glob.not_mem_of_leadsOn htree hn, havoids.ne_of_leadsOn (.inl rfl) htree hn⟩
  rw [FileTree.stem_of_isFile hfile, Text.splitOn_append, List.append_cancel_left_eq] at hparts
  exact ⟨rest, rfl, hparts ▸ hnames⟩

end Direct

section Ignored

variable (htree : t.IsTree) (hliteral : IsLiteral folder) (hdirect : Glob.IsDirect folder)
  (hfolder : t.isFolder folder = true) (hrelative : ∀ p ∈ chosen patterns, Path.isAbsolute p = false)
  (hfound : (chosen patterns).mapM (fun p => searchFor t (folder.join p)) = .ok found) {parsed : List Pattern}
  (hany : ∀ rest, parsed.any (·.matches (folder.stem ++ '/' :: rest)) = ignored.any (covers · rest))
include htree hliteral hdirect hfolder hrelative hfound hany

/-- A file that is kept begins with the text of the folder, and no ignore pattern matches what stands behind that. -/
theorem of_mem_kept (hpath : path ∈ found.flatten.filter fun path => t.isFile path && !parsed.any (·.matches path)) :
    path = folder.stem ++ '/' :: behind folder path ∧ ∀ p ∈ ignored, covers p (behind folder path) = false := by
  obtain ⟨hmem, hkept⟩ := List.mem_filter.1 hpath
  rw [Bool.and_eq_true, Bool.not_eq_true'] at hkept
  obtain ⟨pattern, hpattern, met, hsearch, hpath⟩ := exists_search_of_mem_flatten hfound hmem
  obtain ⟨rest, rfl⟩ := exists_rest_of_mem_search hliteral hdirect hfolder (hrelative pattern hpattern) hsearch hpath
    htree hkept.1
  rw [behind_append]
  refine ⟨rfl, fun p hp => ?_⟩
  have hnone := hany rest
  rw [hkept.2] at hnone
  exact Bool.eq_false_iff.2 (List.any_eq_false.1 hnone.symm p hp)

/-- If no component of a pattern leads to `.`, the files that are kept are those that no ignore pattern matches. -/
theorem distinct_kept (hstays : ∀ p ∈ patterns, Avoids p ['.']) :
    distinct (found.flatten.filter fun path => t.isFile path && !parsed.any (·.matches path)) =
      (distinct (found.flatten.filter t.isFile)).filter fun path => !ignored.any (covers · (behind folder path)) := by
  have hspelled : ∀ path ∈ found.flatten.filter t.isFile, ∃ rest, path = folder.stem ++ '/' :: rest ∧
      ∀ part ∈ Text.splitOn '/' rest, Path.IsMove part := by
    intro path hpath
    obtain ⟨hmem, hfile⟩ := List.mem_filter.1 hpath
    obtain ⟨pattern, hpattern, met, hsearch, hpath⟩ := exists_search_of_mem_flatten hfound hmem
    exact exists_parts_of_mem_search hliteral hdirect hfolder (hrelative pattern hpattern) hsearch hpath htree hfile
      (forall_mem_chosen (avoids_defaultPattern ['.']) hstays pattern hpattern)
  have hstem := Path.ne_nil_of_moves (Glob.stem_of_isDirect hdirect).1
  calc distinct (found.flatten.filter fun path => t.isFile path && !parsed.any (·.matches path))
      = distinct ((found.flatten.filter t.isFile).filter fun path => !parsed.any (·.matches path)) := by
        rw [List.filter_filter]
        simp only [Bool.and_comm]
    _ = (distinct (found.flatten.filter t.isFile)).filter fun path => !parsed.any (·.matches path) := by
        refine distinct_filter fun path hpath other hother hsame => ?_
        obtain ⟨rest, rfl, hrest⟩ := hspelled path hpath
        obtain ⟨rest', rfl, hrest'⟩ := hspelled other hother
        rw [Glob.eq_of_components_eq hstem hrest hrest' hsame]
    _ = (distinct (found.flatten.filter t.isFile)).filter
          fun path => !ignored.any (covers · (behind folder path)) := by
        refine List.filter_congr fun path hpath => ?_
        obtain ⟨rest, rfl, -⟩ := hspelled path (mem_of_mem_distinct hpath)
        rw [behind_append, hany]

end Ignored

/-- Ignore patterns are honoured in a folder that is spelled directly and without wildcards, if all patterns can be
read.  With and without ignore patterns the listing fails alike, and only on a folder whose path is too long for the
system.  Else each path begins with the text of the folder, and what stands behind that is matched by no ignore pattern.
If no component of a pattern leads to `.`, the ignore patterns take exactly those files out of the list that they
match. -/
theorem listFiles_honours_ignored (htree : t.IsTree) (hliteral : IsLiteral folder) (hdirect : Glob.IsDirect folder)
    (hfolder : t.isFolder folder = true) (hpatterns : ∀ p ∈ patterns, Path.isAbsolute p = false ∧ IsReadable p)
    (hignored : ∀ p ∈ ignored, Path.isAbsolute p = false ∧ ∃ c, Pattern.parse p = .ok c) :
    (∃ e, IsTooLong e ∧ (listFiles t folder patterns []).result = .error e ∧
      (listFiles t folder patterns ignored).result = .error e) ∨
    ∃ all files, (listFiles t folder patterns []).result = .ok all ∧
      (listFiles t folder patterns ignored).result = .ok files ∧
      (∀ path ∈ files, path = folder.stem ++ '/' :: behind folder path ∧
        ∀ p ∈ ignored, covers p (behind folder path) = false) ∧
      ((∀ p ∈ patterns, Avoids p ['.']) →
        files = all.filter fun path => !ignored.any (covers · (behind folder path))) := by
  obtain ⟨l, hfind, hl⟩ := FileTree.isFolder_iff.1 hfolder
  have hne := FileTree.ne_nil_of_find hfind
  obtain ⟨parsed, hparsed, hany⟩ := exists_mapM_parse_join hliteral hne hignored
  rw [result_listFiles_nil, result_listFiles_of_parsed hparsed]
  cases hfound : (chosen patterns).mapM fun p => searchFor t (folder.join p) with
  | error e => exact .inl ⟨e, isTooLong_of_mapM_search htree hliteral hne hpatterns hfound, rfl, rfl⟩
  | ok found =>
    have hrelative : ∀ p ∈ chosen patterns, Path.isAbsolute p = false :=
      forall_mem_chosen rfl fun p hp => (hpatterns p hp).1
    exact .inr ⟨_, _, rfl, rfl,
      fun path hpath => of_mem_kept htree hliteral hdirect hfolder hrelative hfound hany (mem_of_mem_distinct hpath),
      distinct_kept htree hliteral hdirect hfolder hrelative hfound hany⟩

/-- Two files, and the same names again in a folder. -/
def pages : FileTree :=
  ⟨[(["a.md".toList], .file []), (["b.md".toList], .file []), (["site".toList], .folder),
    (["site".toList, "a.md".toList], .file []), (["site".toList, "b.md".toList], .file [])], []⟩

/-- A folder beside files is a tree. -/
theorem isTree_pages : pages.IsTree := ⟨by decide, by decide +kernel, by decide⟩

/-- Where the folder is spelled by its name, the file that is to be ignored is left out. -/
theorem listFiles_honours_ignored_site : ∃ all files,
    (listFiles pages "site".toList ["*.md".toList] []).result = .ok all ∧
      (listFiles pages "site".toList ["*.md".toList] ["a.md".toList]).result = .ok files ∧
      files = all.filter fun path => !covers "a.md".toList (behind "site".toList path) := by
  have hparse : Pattern.parse "*.md".toList = .ok [.anyRun, .char '.', .char 'm', .char 'd'] := rfl
  have hsucceeds : (listFiles pages "site".toList ["*.md".toList] []).result =
      .ok ["site/a.md".toList, "site/b.md".toList] := by
    simp only [listFiles, joinPattern_eq]
    cbv
  rcases @listFiles_honours_ignored pages "site".toList ["*.md".toList] ["a.md".toList] isTree_pages
      (by decide +kernel) (by decide +kernel) (by decide +kernel)
      (List.forall_mem_singleton.2 ⟨by decide +kernel, isReadable_of_parse (by decide +kernel) hparse⟩)
      (List.forall_mem_singleton.2 ⟨by decide +kernel, _, Glob.parse_literal (by decide +kernel)⟩) with
    ⟨e, -, hfails, -⟩ | ⟨all, files, hall, hfiles, -, hsame⟩
  · rw [hsucceeds] at hfails
    cases hfails
  refine ⟨all, files, hall, hfiles, ?_⟩
  rw [hsame (List.forall_mem_singleton.2 (Glob.avoids_of_parse (by decide +kernel) hparse rfl))]
  simp only [List.any_cons, List.any_nil, Bool.or_false]

/-- Where the path of the folder begins with `.`, the file that is to be ignored is listed. -/
theorem listFiles_misses_ignored :
    covers "a.md".toList "a.md".toList = true ∧
      pages.isFolder ".".toList = true ∧ pages.isFolder "./site".toList = true ∧
      (listFiles pages ".".toList ["*.md".toList] ["a.md".toList]).result = .ok ["a.md".toList, "b.md".toList] ∧
      (listFiles pages "./site".toList ["*.md".toList] ["a.md".toList]).result =
        .ok ["site/a.md".toList, "site/b.md".toList] := by
  refine ⟨by decide +kernel, by decide +kernel, by decide +kernel, ?_, ?_⟩ <;>
  · simp only [listFiles, joinPattern_eq]
    cbv

end Infill.Files
