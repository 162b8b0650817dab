import Infill.Proofs.Files.Listed
import Infill.Proofs.Glob.Component
import Infill.Proofs.Text.Utf8

/-!
# The order of a listing

Patterns are searched for one after the other, and each finds names in alphabetical order.  A file that several of
them match is listed where the first one finds it, so that a listing goes through the patterns in turn: what the first
one matches, then of the other files what the second one matches, and so on (`inTurn`).  Whatever has been listed
before is left out, which is the invariant of the loop over the patterns (`distinct_map_flatMap`).
-/

set_option autoImplicit false

namespace Infill.Files

open Glob (IsLiteral IsSpelledOut Pattern)

variable {t : FileTree} {folder path : Path} {paths more : List Path} {patterns ignored names : List Text} {n m : Text}

/-! ## Listing pattern by pattern -/

/-- The names that some patterns match: those of the first pattern, and then of the others those of the next ones. -/
def inTurn : List Text → List Text → List Text
  | [], _ => []
  | p :: patterns, names => names.filter (covers p) ++ inTurn patterns (names.filter fun n => !covers p n)

/-- A name comes before another one if the first pattern that matches it does, or if both have this pattern in common and
its bytes come first. -/
def ComesBefore (patterns : List Text) (n m : Text) : Prop :=
  patterns.findIdx (covers · n) < patterns.findIdx (covers · m) ∨
    patterns.findIdx (covers · n) = patterns.findIdx (covers · m) ∧ Utf8.encode n < Utf8.encode m

/-- Of two names one comes before the other. -/
theorem ComesBefore.asymm (h : ComesBefore patterns n m) : ¬ ComesBefore patterns m n := by
  intro h'
  rcases h with hlt | ⟨heq, hbytes⟩
  · rcases h' with hlt' | ⟨heq', -⟩ <;> omega
  · rcases h' with hlt' | ⟨-, hbytes'⟩
    · omega
    · exact List.lt_irrefl _ (List.lt_trans hbytes hbytes')

/-- The names in turn are those that some pattern matches. -/
theorem mem_inTurn_iff : n ∈ inTurn patterns names ↔ n ∈ names ∧ ∃ p ∈ patterns, covers p n = true := by
  induction patterns generalizing names with
  | nil => simp [inTurn]
  | cons p patterns ih =>
    rw [inTurn, List.mem_append, ih, List.mem_filter, List.mem_filter, List.exists_mem_cons_iff]
    by_cases hp : covers p n = true <;> simp [hp]

/-- Behind a pattern that does not match either of them, names stand as they do without it. -/
theorem comesBefore_cons_iff {p : Text} (hn : covers p n = false) (hm : covers p m = false) :
    ComesBefore (p :: patterns) n m ↔ ComesBefore patterns n m := by
  unfold ComesBefore
  rw [List.findIdx_cons, List.findIdx_cons, hn, hm, cond_false, cond_false, Nat.add_lt_add_iff_right,
    Nat.add_right_cancel_iff]

/-- In turn the names stand in order. -/
theorem pairwise_inTurn (h : names.Pairwise (· < ·)) : (inTurn patterns names).Pairwise (ComesBefore patterns) := by
  induction patterns generalizing names with
  | nil => exact .nil
  | cons p patterns ih =>
    rw [inTurn, List.pairwise_append]
    refine ⟨(h.filter _).imp_of_mem ?_, (ih (h.filter _)).imp_of_mem ?_, ?_⟩
    · intro n m hn hm hlt
      have hfirst : ∀ {k}, k ∈ names.filter (covers p) → (p :: patterns).findIdx (covers · k) = 0 := by
        intro k hk
        rw [List.findIdx_cons, (List.mem_filter.1 hk).2, cond_true]
      right
      exact ⟨(hfirst hn).trans (hfirst hm).symm, Utf8.encode_lt_encode hlt⟩
    · intro n m hn hm hbefore
      have hrest : ∀ {k}, k ∈ inTurn patterns (names.filter fun n => !covers p n) → covers p k = false := by
        intro k hk
        simpa using (List.mem_filter.1 (mem_inTurn_iff.1 hk).1).2
      exact (comesBefore_cons_iff (hrest hn) (hrest hm)).2 hbefore
    · intro n hn m hm
      have hfirst : covers p n = true := (List.mem_filter.1 hn).2
      have hrest : covers p m = false := by simpa using (List.mem_filter.1 (mem_inTurn_iff.1 hm).1).2
      left
      rw [List.findIdx_cons, List.findIdx_cons, hfirst, hrest, cond_true, cond_false]
      exact Nat.succ_pos _

/-! ## Leaving out what was listed before -/

/-- Leaving out repetitions leaves the components of every path. -/
theorem any_distinct (paths : List Path) (components : List Path.Component) :
    (distinct paths).any (fun path => path.components == components) =
      paths.any fun path => path.components == components := by
  rw [Bool.eq_iff_iff, List.any_eq_true, List.any_eq_true]
  constructor
  · rintro ⟨path, hpath, hsame⟩
    exact ⟨path, mem_of_mem_distinct hpath, hsame⟩
  · rintro ⟨path, hpath, hsame⟩
    obtain ⟨other, hother, heq⟩ := exists_mem_distinct hpath
    exact ⟨other, hother, by rwa [heq]⟩

/-- Of more paths those are listed behind the first ones that are not among them. -/
theorem distinct_append (paths more : List Path) : distinct (paths ++ more) = distinct paths ++
    distinct (more.filter fun path => !paths.any fun other => other.components == path.components) := by
  induction more using List.reverseRecOn with
  | nil => simp [distinct]
  | append_singleton more last ih =>
    rw [← List.append_assoc, distinct_concat, List.filter_append, any_distinct, List.any_append]
    by_cases hlast : paths.any (fun other => other.components == last.components) = true
    · have hnone : [last].filter (fun path => !paths.any fun other => other.components == path.components) = [] := by
        simp [hlast]
      rw [hlast, hnone, Bool.true_or, if_pos rfl, List.append_nil, ih]
    · have hone : [last].filter (fun path => !paths.any fun other => other.components == path.components) = [last] := by
        simp [hlast]
      have hany : (more.filter fun path => !paths.any fun other => other.components == path.components).any
          (fun path => path.components == last.components) =
            more.any fun path => path.components == last.components := by
        rw [List.any_filter]
        congr 1
        funext path
        by_cases hsame : path.components = last.components
        · simp [hsame, hlast]
        · simp [hsame]
      rw [hone, distinct_concat, any_distinct, hany, Bool.eq_false_iff.2 hlast, Bool.false_or, ih]
      split_ifs
      · rfl
      · rw [List.append_assoc]

/-- Paths of which no two have the same components are listed as they are. -/
theorem distinct_of_nodup (h : (paths.map Path.components).Nodup) : distinct paths = paths := by
  induction paths using List.reverseRecOn with
  | nil => rfl
  | append_singleton paths last ih =>
    rw [List.map_append, List.nodup_append] at h
    obtain ⟨hpaths, -, hlast⟩ := h
    rw [distinct_concat, any_distinct, ih hpaths, if_neg]
    rw [List.any_eq_true]
    rintro ⟨other, hother, hsame⟩
    exact hlast _ (List.mem_map_of_mem hother) _ (by simp) (beq_iff_eq.1 hsame)

/-! ## Files of a folder -/

/-- Entries of a folder can be told by the components of their paths. -/
theorem eq_of_components_join (hn : FileTree.IsEntryName n) (hm : FileTree.IsEntryName m)
    (h : (folder.join n).components = (folder.join m).components) : n = m := by
  have hname : ∀ {k}, FileTree.IsEntryName k → (folder.join k).fileName? = some k :=
    fun hk => Glob.fileName?_next hk.noSlash hk.isName (.inr rfl)
  apply Option.some.inj
  rw [← hname hn, ← hname hm]
  unfold Path.fileName?
  rw [h]

/-- Different names in a folder have paths with different components. -/
theorem nodup_components (hentries : ∀ n ∈ names, FileTree.IsEntryName n) (h : names.Nodup) (folder : Path) :
    ((names.map folder.join).map Path.components).Nodup := by
  rw [List.map_map]
  refine List.Nodup.map_on (fun n hn m hm heq => ?_) h
  exact eq_of_components_join (hentries n hn) (hentries m hm) heq

/-- Listing what the patterns match one after the other, without repetitions, is listing them in turn. -/
theorem distinct_map_flatMap (hentries : ∀ n ∈ names, FileTree.IsEntryName n) (h : names.Nodup) (folder : Path)
    (patterns : List Text) :
    distinct ((patterns.flatMap fun p => names.filter (covers p)).map folder.join) =
      (inTurn patterns names).map folder.join := by
  induction patterns generalizing names with
  | nil => rfl
  | cons p patterns ih =>
    have hfilter : ∀ {keep : Text → Bool}, ∀ n ∈ names.filter keep, FileTree.IsEntryName n :=
      fun n hn => hentries n (List.mem_of_mem_filter hn)
    have hfirst := distinct_of_nodup (nodup_components hfilter (h.filter (covers p)) folder)
    -- A name was listed for the first pattern exactly if this matches it.
    have hbefore : ∀ n ∈ names, (((names.filter (covers p)).map folder.join).any
        fun other => other.components == (folder.join n).components) = covers p n := by
      intro n hn
      rw [Bool.eq_iff_iff, List.any_map, List.any_eq_true]
      constructor
      · rintro ⟨m, hm, hsame⟩
        obtain ⟨hm, hcovers⟩ := List.mem_filter.1 hm
        exact eq_of_components_join (hentries m hm) (hentries n hn) (beq_iff_eq.1 hsame) ▸ hcovers
      · exact fun hcovers => ⟨n, List.mem_filter.2 ⟨hn, hcovers⟩, beq_iff_eq.2 rfl⟩
    have hrest : ∀ q, (names.filter (covers q)).filter ((fun path => !((names.filter (covers p)).map folder.join).any
        fun other => other.components == path.components) ∘ folder.join) =
          (names.filter fun n => !covers p n).filter (covers q) := by
      intro q
      rw [List.filter_filter, List.filter_filter]
      apply List.filter_congr
      intro n hn
      rw [Function.comp_apply, hbefore n hn, Bool.and_comm]
    rw [List.flatMap_cons, List.map_append, distinct_append, hfirst, List.filter_map, List.filter_flatMap, funext hrest,
      ih hfilter (h.filter fun n => !covers p n), inTurn, List.map_append]

/-! ## Patterns of one component -/

/-- A pattern that can be read and is one component, but not `**`. -/
structure IsComponent (p : Text) : Prop where
  noSlash : '/' ∉ p
  notFolders : p ≠ ['*', '*']
  isRead : ∃ c, Pattern.parse p = .ok c

/-- What is to be listed in a folder: the names of its entries that are files, links followed, that some pattern
matches, and whose paths no ignore pattern matches that was put behind the folder. -/
structure IsListed (t : FileTree) (folder : Path) (patterns ignored : List Text) (n : Text) : Prop where
  isEntry : ∃ l, t.find folder = .ok l ∧ n ∈ t.namesIn l
  isFile : t.isFile (folder.join n) = true
  isMatched : ∃ p ∈ patterns, covers p n = true
  isKept : ∀ p ∈ ignored, covers (folder.join p) (folder.join n) = false

/-- The names of the files of a folder whose paths no ignore pattern matches, in alphabetical order. -/
def keptNames (t : FileTree) (folder : Path) (ignored : List Text) : List Text :=
  (t.fileNames folder).filter fun n => !ignored.any fun p => covers (folder.join p) (folder.join n)

/-- What is to be listed are the names that are kept, in turn. -/
theorem isListed_iff : IsListed t folder patterns ignored n ↔ n ∈ inTurn patterns (keptNames t folder ignored) := by
  rw [mem_inTurn_iff, keptNames, List.mem_filter, FileTree.mem_fileNames_iff, Bool.not_eq_true', List.any_eq_false]
  simp only [Bool.not_eq_true]
  constructor
  · rintro ⟨hentry, hfile, hmatched, hkept⟩
    exact ⟨⟨⟨hentry, hfile⟩, hkept⟩, hmatched⟩
  · rintro ⟨⟨⟨hentry, hfile⟩, hkept⟩, hmatched⟩
    exact ⟨hentry, hfile, hmatched, hkept⟩

/-- A pattern that can be read covers what it matches. -/
theorem covers_of_parse {p : Text} {c : Pattern} (h : Pattern.parse p = .ok c) (rest : Text) :
    covers p rest = c.matches rest := by
  unfold covers
  rw [h]

/-- Ignore patterns that can be read alone can be read behind a folder without wildcards, and match what they match
there. -/
theorem exists_mapM_parse_ignored (hliteral : IsLiteral folder) (hne : folder ≠ [])
    (hignored : ∀ p ∈ ignored, ∃ c, Pattern.parse p = .ok c) :
    ∃ parsed, ignored.mapM (fun p => Pattern.parse (folder.join p)) = .ok parsed ∧
      ∀ path, parsed.any (·.matches path) = ignored.any fun p => covers (folder.join p) path := by
  induction ignored with
  | nil => exact ⟨[], rfl, fun path => rfl⟩
  | cons p ignored ih =>
    obtain ⟨hp, hignored⟩ := List.forall_mem_cons.1 hignored
    obtain ⟨parsed, hparsed, hany⟩ := ih hignored
    obtain ⟨c, hc⟩ : ∃ c, Pattern.parse (folder.join p) = .ok c := by
      by_cases habsolute : Path.isAbsolute p = true
      · -- An absolute pattern stands alone.
        rw [Path.join, if_pos habsolute]
        exact hp
      · obtain ⟨c, hc, -⟩ := exists_parse_join hliteral hne (Bool.eq_false_iff.2 habsolute) hp
        exact ⟨c, hc⟩
    refine ⟨c :: parsed, Result.mapM_cons_eq_ok.2 ⟨c, parsed, hc, hparsed, rfl⟩, fun path => ?_⟩
    rw [List.any_cons, List.any_cons, hany, covers_of_parse hc]

/-- A search for one component behind a folder succeeds, and the files that it finds are the files of the folder whose
names the component matches. -/
theorem exists_searchFor (htree : t.IsTree) (hliteral : IsLiteral folder) (hspelled : IsSpelledOut folder) {p : Text}
    (hp : IsComponent p) : ∃ paths, searchFor t (folder.join p) = .ok paths ∧
      paths.filter t.isFile = ((t.fileNames folder).filter (covers p)).map folder.join := by
  obtain ⟨hslash, hstars, c, hc⟩ := hp
  obtain ⟨met, hmet⟩ := Glob.exists_search_join hspelled.ne_nil hliteral (Glob.isAbsolute_of_not_mem hslash) t ⟨c, hc⟩
    (isReadable_of_parse hslash hc).2
  obtain ⟨paths, rfl, hfiles⟩ := Glob.findsFiles_of_search htree hliteral hspelled hslash hstars hc hmet
  refine ⟨paths, searchFor_eq_ok_iff.2 hmet, ?_⟩
  rw [hfiles, funext (covers_of_parse hc)]

/-- What remains of all that was found is what remains of each search. -/
theorem filter_flatten_of_mapM {f : Text → Except StoreError (List Path)} {keep : Path → Bool}
    {g : Text → List Text} {found : List (List Path)} (h : patterns.mapM f = .ok found)
    (hsearch : ∀ p ∈ patterns, ∀ some, f p = .ok some → some.filter keep = (g p).map folder.join) :
    found.flatten.filter keep = (patterns.flatMap g).map folder.join := by
  induction patterns generalizing found with
  | nil =>
    obtain rfl : [] = found := by simpa [pure, Except.pure] using h
    rfl
  | cons p patterns ih =>
    obtain ⟨some, rest, hsome, hrest, rfl⟩ := Result.mapM_cons_eq_ok.1 h
    obtain ⟨hp, hpatterns⟩ := List.forall_mem_cons.1 hsearch
    rw [List.flatten_cons, List.filter_append, hp some hsome, ih hrest hpatterns, List.flatMap_cons, List.map_append]

/-- What is listed are the files of the folder that are kept, pattern by pattern. -/
theorem result_listFiles_of_components (htree : t.IsTree) (hliteral : IsLiteral folder) (hspelled : IsSpelledOut folder)
    (hne : patterns ≠ []) (hpatterns : ∀ p ∈ patterns, IsComponent p)
    (hignored : ∀ p ∈ ignored, ∃ c, Pattern.parse p = .ok c) :
    (listFiles t folder patterns ignored).result =
      .ok ((inTurn patterns (keptNames t folder ignored)).map folder.join) := by
  obtain ⟨parsed, hparsed, hany⟩ := exists_mapM_parse_ignored hliteral hspelled.ne_nil hignored
  have hfinds := fun p hp => exists_searchFor htree hliteral hspelled (hpatterns p hp)
  obtain ⟨found, hfound⟩ := Result.exists_mapM_eq_ok fun p hp => (hfinds p hp).imp fun _ => And.left
  have hchosen : chosen patterns = patterns := if_neg (by simpa using hne)
  have hentries : ∀ n ∈ keptNames t folder ignored, FileTree.IsEntryName n :=
    fun n hn => (htree.of_mem_fileNames (List.mem_of_mem_filter hn)).1
  have hnodup : (keptNames t folder ignored).Nodup := (htree.nodup_fileNames folder).filter _
  refine result_listFiles_eq_ok_iff.2 ⟨parsed, found, hparsed, hchosen.symm ▸ hfound, ?_⟩
  rw [← distinct_map_flatMap hentries hnodup]
  congr 1
  symm
  apply filter_flatten_of_mapM hfound
  intro p hp some hsome
  obtain ⟨paths, hpaths, hfiles⟩ := hfinds p hp
  obtain rfl := Except.ok.inj (hsome.symm.trans hpaths)
  calc some.filter (fun path => t.isFile path && !parsed.any (·.matches path))
      = (some.filter t.isFile).filter fun path => !parsed.any (·.matches path) := by
        rw [List.filter_filter]
        simp only [Bool.and_comm]
    _ = (((t.fileNames folder).filter (covers p)).map folder.join).filter fun path => !parsed.any (·.matches path) := by
        rw [hfiles]
    _ = ((keptNames t folder ignored).filter (covers p)).map folder.join := by
        rw [List.filter_map, keptNames, List.filter_filter, List.filter_filter]
        congr 1
        apply List.filter_congr
        intro n _
        rw [Function.comp_apply, hany, Bool.and_comm]

/-! ## The listing -/

/-- In a list that is in a strict order, one member comes before another exactly if it is in this order before it. -/
theorem pair_sublist_iff {α : Type} {r : α → α → Prop} {l : List α} (h : l.Pairwise r) (hasymm : ∀ a b, r a b → ¬ r b a)
    {a b : α} (ha : a ∈ l) (hb : b ∈ l) : [a, b].Sublist l ↔ r a b := by
  refine ⟨fun hsub => List.pairwise_iff_forall_sublist.1 h hsub, fun hr => ?_⟩
  obtain ⟨front, back, rfl⟩ := List.append_of_mem ha
  obtain ⟨-, hback, hcross⟩ := List.pairwise_append.1 h
  rcases List.mem_append.1 hb with hb | hb
  · exact absurd hr (hasymm b a (hcross b hb a List.mem_cons_self))
  · rcases List.mem_cons.1 hb with rfl | hb
    · exact absurd hr (hasymm b b hr)
    · exact ((List.singleton_sublist.2 hb).cons_cons a).trans (List.sublist_append_right front _)

/-- Each file of a folder that matches is listed once, in a determined order.  The folder is spelled out and without
wildcards, and there are patterns of one component each.  Then listing succeeds; what is listed are the entries of the
folder that are files, match a pattern and are not ignored; no path is listed twice; and of two of them the one comes first
that an earlier pattern finds, or the one whose bytes come first, if the same pattern finds both first.  So the files do
not depend on the order of the patterns, and on how often each of them is given. -/
theorem listFiles_once_in_order (htree : t.IsTree) (hliteral : IsLiteral folder) (hspelled : IsSpelledOut folder)
    (hne : patterns ≠ []) (hpatterns : ∀ p ∈ patterns, IsComponent p)
    (hignored : ∀ p ∈ ignored, ∃ c, Pattern.parse p = .ok c) :
    ∃ files, (listFiles t folder patterns ignored).result = .ok files ∧
      (∀ path, path ∈ files ↔ ∃ n, IsListed t folder patterns ignored n ∧ path = folder.join n) ∧
      (files.map Path.components).Nodup ∧
      (∀ n m, IsListed t folder patterns ignored n → IsListed t folder patterns ignored m →
        ([folder.join n, folder.join m].Sublist files ↔ ComesBefore patterns n m)) ∧
      ∀ others : List Text, (∀ p, p ∈ others ↔ p ∈ patterns) →
        ∃ files', (listFiles t folder others ignored).result = .ok files' ∧ ∀ path, path ∈ files' ↔ path ∈ files := by
  have hnames : ∀ {n}, IsListed t folder patterns ignored n → FileTree.IsEntryName n :=
    fun hn => (htree.of_mem_fileNames (FileTree.mem_fileNames_iff.2 ⟨hn.isEntry, hn.isFile⟩)).1
  have hbehind : ∀ {n}, IsListed t folder patterns ignored n → behind folder (folder.join n) = n := by
    intro n hn
    rw [Path.join_eq_stem_append hspelled.ne_nil (Glob.isAbsolute_of_not_mem (hnames hn).noSlash), behind_append]
  have hmem : ∀ {n}, n ∈ inTurn patterns (keptNames t folder ignored) → IsListed t folder patterns ignored n :=
    isListed_iff.2
  have hlisted : ∀ patterns path, path ∈ (inTurn patterns (keptNames t folder ignored)).map folder.join ↔
      ∃ n, IsListed t folder patterns ignored n ∧ path = folder.join n := by
    intro patterns path
    simp only [List.mem_map, isListed_iff, eq_comm]
  have hsorted : (keptNames t folder ignored).Pairwise (· < ·) := (htree.pairwise_fileNames folder).filter _
  have horder : (inTurn patterns (keptNames t folder ignored)).Pairwise (ComesBefore patterns) :=
    pairwise_inTurn hsorted
  have hnodup : (inTurn patterns (keptNames t folder ignored)).Nodup := by
    refine horder.imp ?_
    rintro n _ hbefore rfl
    exact hbefore.asymm hbefore
  refine ⟨_, result_listFiles_of_components htree hliteral hspelled hne hpatterns hignored, hlisted patterns,
    nodup_components (fun n hn => hnames (hmem hn)) hnodup folder, ?_, ?_⟩
  · intro n m hn hm
    have hpaths : ((inTurn patterns (keptNames t folder ignored)).map folder.join).Pairwise
        fun path other => ComesBefore patterns (behind folder path) (behind folder other) := by
      rw [List.pairwise_map]
      refine horder.imp_of_mem ?_
      intro a b ha hb hbefore
      rwa [hbehind (hmem ha), hbehind (hmem hb)]
    have hpair := pair_sublist_iff hpaths (fun _ _ hbefore => hbefore.asymm)
      ((hlisted patterns _).2 ⟨n, hn, rfl⟩) ((hlisted patterns _).2 ⟨m, hm, rfl⟩)
    rwa [hbehind hn, hbehind hm] at hpair
  · intro others hothers
    have hne' : others ≠ [] := by
      obtain ⟨p, hp⟩ := List.exists_mem_of_ne_nil patterns hne
      exact List.ne_nil_of_mem ((hothers p).2 hp)
    refine ⟨_, result_listFiles_of_components htree hliteral hspelled hne'
      (fun p hp => hpatterns p ((hothers p).1 hp)) hignored, fun path => ?_⟩
    simp only [List.mem_map, mem_inTurn_iff, hothers]

/-- A folder with files, a link to one of them, a link that leads nowhere, and a folder. -/
def assorted : FileTree :=
  ⟨[(["site".toList], .folder), (["site".toList, "a.md".toList], .file []), (["site".toList, "b.md".toList], .file []),
    (["site".toList, "c.md".toList], .file []), (["site".toList, "d.md".toList], .link "a.md".toList),
    (["site".toList, "e.md".toList], .link "z.md".toList), (["site".toList, "f.md".toList], .folder)], []⟩

/-- A folder with files, links and a folder in it is a tree. -/
theorem isTree_assorted : assorted.IsTree := ⟨by decide, by decide +kernel, by decide⟩

/-- The file that two patterns match is listed where the first one finds it, the link as the file that it leads to; the
file that is ignored is not listed, and neither are the other link and the folder. -/
theorem listFiles_once_in_order_assorted :
    ∃ files, (listFiles assorted "site".toList ["b*".toList, "*.md".toList] ["c.md".toList]).result = .ok files ∧
      (files.map Path.components).Nodup ∧ ["site/b.md".toList, "site/a.md".toList].Sublist files ∧
      ["site/a.md".toList, "site/d.md".toList].Sublist files ∧
      "site/c.md".toList ∉ files ∧ "site/e.md".toList ∉ files ∧ "site/f.md".toList ∉ files := by
  have hpatterns : ∀ p ∈ ["b*".toList, "*.md".toList], IsComponent p := by
    have hrun : Pattern.parse "b*".toList = .ok [.char 'b', .anyRun] := by cbv
    have hend : Pattern.parse "*.md".toList = .ok [.anyRun, .char '.', .char 'm', .char 'd'] := by cbv
    simp only [List.forall_mem_cons, List.not_mem_nil, false_implies, implies_true, and_true]
    exact ⟨⟨by decide, by decide, _, hrun⟩, ⟨by decide, by decide, _, hend⟩⟩
  have hignored : ∀ p ∈ ["c.md".toList], ∃ c, Pattern.parse p = .ok c :=
    List.forall_mem_singleton.2 ⟨_, Glob.parse_literal (by decide +kernel)⟩
  obtain ⟨files, hfiles, hmem, hnodup, horder, -⟩ := listFiles_once_in_order isTree_assorted
    (by decide +kernel : IsLiteral "site".toList) (by decide +kernel) (by simp) hpatterns hignored
  have hlisted : ∀ n ∈ ["a.md".toList, "b.md".toList, "d.md".toList],
      IsListed assorted "site".toList ["b*".toList, "*.md".toList] ["c.md".toList] n := by
    intro n hn
    have hall : ∀ n ∈ ["a.md".toList, "b.md".toList, "d.md".toList],
        (assorted.entryAt? (["site".toList] ++ [n])).isSome = true ∧ assorted.isFile (Path.join "site".toList n) = true ∧
          covers "*.md".toList n = true ∧
            covers (Path.join "site".toList "c.md".toList) (Path.join "site".toList n) = false := by decide +kernel
    obtain ⟨hentry, hfile, hmatched, hkept⟩ := hall n hn
    exact ⟨⟨["site".toList], by decide +kernel, FileTree.mem_namesIn_iff.2 (Option.isSome_iff_exists.1 hentry)⟩, hfile,
      ⟨"*.md".toList, by simp, hmatched⟩, List.forall_mem_singleton.2 hkept⟩
  have hnot : ∀ path, assorted.isFile path = false ∨ covers "site/c.md".toList path = true → path ∉ files := by
    intro path hpath hin
    obtain ⟨n, hn, rfl⟩ := (hmem path).1 hin
    rcases hpath with hpath | hpath
    · exact Bool.false_ne_true (hpath.symm.trans hn.isFile)
    · exact Bool.false_ne_true ((hn.isKept _ List.mem_cons_self).symm.trans hpath)
  refine ⟨files, hfiles, hnodup, ?_, ?_, hnot _ (.inr (by decide +kernel)), hnot _ (.inl (by decide +kernel)),
    hnot _ (.inl (by decide +kernel))⟩
  · exact (horder "b.md".toList "a.md".toList (hlisted _ (by simp)) (hlisted _ (by simp))).2 (.inl (by decide +kernel))
  · exact (horder "a.md".toList "d.md".toList (hlisted _ (by simp)) (hlisted _ (by simp))).2
      (.inr ⟨by decide +kernel, by decide +kernel⟩)

end Infill.Files
