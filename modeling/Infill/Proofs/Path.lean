import Infill.Path
import Infill.Proofs.Text.Parts

/-!
# Paths and their components

A plain path is names with single slashes between them.  Its components are its names, so that a plain
path can be told from its components.

Paths with the same components are spellings of one path (`SameAs`).  A slash more, a slash at the end and
a `.` between slashes make no difference; a slash or a `.` in front does, and so does every `..`.
-/

set_option autoImplicit false

namespace Infill.Path

/-- A part of a path that names an entry: it is not empty, and it is neither of the two words for a folder
that is there anyway. -/
def IsName (part : Text) : Prop := part ≠ [] ∧ part ≠ ['.'] ∧ part ≠ ['.', '.']

/-- All parts of a path are names. -/
def IsPlain (p : Path) : Prop := ∀ part ∈ Text.splitOn '/' p, IsName part

instance (part : Text) : Decidable (IsName part) := inferInstanceAs (Decidable (_ ∧ _ ∧ _))

instance (p : Path) : Decidable (IsPlain p) := inferInstanceAs (Decidable (∀ part ∈ _, IsName part))

variable {p q : Path}

/-- A plain path is relative. -/
theorem IsPlain.isAbsolute_eq_false (h : IsPlain p) : isAbsolute p = false := by
  cases p with
  | nil => rfl
  | cons c p =>
    by_cases hc : c = '/'
    · subst hc
      have hempty : IsName [] := h [] (by simp [Text.splitOn])
      exact absurd rfl hempty.1
    · simp [isAbsolute, hc]

/-- A name stands for itself. -/
theorem component?_of_isName {part : Text} (h : IsName part) : component? part = some (.name part) := by
  obtain ⟨hempty, hcurrent, hparent⟩ := h
  unfold component?
  rw [if_neg (by simp [hempty, hcurrent]), if_neg hparent]

/-- What is special about the first part of a path. -/
def front (p : Path) : List Component :=
  if isAbsolute p then [.root] else if (Text.splitOn '/' p).head? = some ['.'] then [.current] else []

/-- The components that the parts of a path stand for behind its front. -/
def behindFront (p : Path) : List Component := (Text.splitOn '/' p).filterMap component?

/-- The components are those at the front and those behind it. -/
theorem components_eq (p : Path) : components p = front p ++ behindFront p := rfl

/-- At the front of a plain path stands no component of its own. -/
theorem IsPlain.components_eq_behindFront (h : IsPlain p) : components p = behindFront p := by
  have hhead : (Text.splitOn '/' p).head? ≠ some ['.'] := by
    intro hhead
    exact (h ['.'] (List.mem_of_mem_head? hhead)).2.1 rfl
  have hfront : front p = [] := by
    unfold front
    simp [h.isAbsolute_eq_false, hhead]
  rw [components_eq, hfront, List.nil_append]

/-- The components of a plain path are its parts. -/
theorem components_of_isPlain (h : IsPlain p) :
    components p = (Text.splitOn '/' p).map Component.name := by
  have hparts : ∀ parts : List Text, (∀ part ∈ parts, IsName part) →
      parts.filterMap component? = parts.map Component.name := by
    intro parts hnames
    induction parts with
    | nil => rfl
    | cons part parts ih =>
      rw [List.filterMap_cons_some (component?_of_isName (hnames part List.mem_cons_self)), List.map_cons,
        ih fun other hother => hnames other (List.mem_cons_of_mem part hother)]
  rw [h.components_eq_behindFront, behindFront, hparts _ h]

/-- Plain paths with the same components are the same. -/
theorem IsPlain.eq_of_components_eq (hp : IsPlain p) (hq : IsPlain q)
    (h : components p = components q) : p = q := by
  rw [components_of_isPlain hp, components_of_isPlain hq] at h
  have hparts := (List.map_inj_right fun _ _ heq => Component.name.inj heq).1 h
  exact Text.splitOn_inj hparts

/-! ## Spellings -/

/-- Two paths have the same components. -/
def SameAs (p q : Path) : Prop := components p = components q

instance (p q : Path) : Decidable (SameAs p q) := inferInstanceAs (Decidable (_ = _))

/-- A slash in front is the root. -/
theorem components_slash (p : Path) : components ('/' :: p) = .root :: behindFront p := by
  simp [components_eq, front, behindFront, isAbsolute, Text.splitOn, component?]

/-- A point and a slash in front are the working folder. -/
theorem components_dot_slash (p : Path) : components ('.' :: '/' :: p) = .current :: behindFront p := by
  have hparts : Text.splitOn '/' ('.' :: '/' :: p) = ['.'] :: Text.splitOn '/' p :=
    Text.splitOn_append '/' ['.'] p
  simp [components_eq, front, behindFront, isAbsolute, hparts, component?]

/-- Two points and a slash in front are the folder above. -/
theorem components_dots_slash (p : Path) :
    components ('.' :: '.' :: '/' :: p) = .parent :: behindFront p := by
  have hparts : Text.splitOn '/' ('.' :: '.' :: '/' :: p) = ['.', '.'] :: Text.splitOn '/' p :=
    Text.splitOn_append '/' ['.', '.'] p
  simp [components_eq, front, behindFront, isAbsolute, hparts, component?]

/-- What follows a slash is never the front. -/
theorem components_append_slash (hp : p ≠ []) (q : Path) :
    components (p ++ '/' :: q) = components p ++ behindFront q := by
  have habsolute : isAbsolute (p ++ '/' :: q) = isAbsolute p := by
    obtain ⟨c, p, rfl⟩ := List.exists_cons_of_ne_nil hp
    rfl
  have hfront : front (p ++ '/' :: q) = front p := by
    obtain ⟨part, parts, hparts⟩ := List.exists_cons_of_ne_nil (Text.splitOn_ne_nil '/' p)
    unfold front
    rw [habsolute, Text.splitOn_append, hparts]
    rfl
  have hbehind : behindFront (p ++ '/' :: q) = behindFront p ++ behindFront q := by
    unfold behindFront
    rw [Text.splitOn_append, List.filterMap_append]
  rw [components_eq, components_eq, hfront, hbehind, List.append_assoc]

/-- A slash in front is at the front. -/
theorem behindFront_slash (p : Path) : behindFront ('/' :: p) = behindFront p := by
  simp [behindFront, Text.splitOn, component?]

/-- A point in front is at the front. -/
theorem behindFront_dot_slash (p : Path) : behindFront ('.' :: '/' :: p) = behindFront p := by
  have hparts : Text.splitOn '/' ('.' :: '/' :: p) = ['.'] :: Text.splitOn '/' p :=
    Text.splitOn_append '/' ['.'] p
  simp [behindFront, hparts, component?]

/-- Behind the same beginning only what the parts stand for counts. -/
theorem sameAs_append_slash (p : Path) {q q' : Path} (h : behindFront q = behindFront q') :
    SameAs (p ++ '/' :: q) (p ++ '/' :: q') := by
  unfold SameAs
  by_cases hp : p = []
  · rw [hp, List.nil_append, List.nil_append, components_slash, components_slash, h]
  · rw [components_append_slash hp, components_append_slash hp, h]

/-- A path that ends in a slash is the path without it. -/
theorem sameAs_append_singleton (hp : p ≠ []) : SameAs (p ++ ['/']) p := by
  unfold SameAs
  rw [components_append_slash hp []]
  exact List.append_nil _

/-- Two points at the end are the folder above. -/
theorem components_append_dots (hp : p ≠ []) : components (p ++ ['/', '.', '.']) = components p ++ [.parent] :=
  components_append_slash hp ['.', '.']

/-! ## Joining -/

/-- A path below one that ends in a name comes behind a slash. -/
theorem join_of_splitOn {before : List Text} {last : Text} (hparts : Text.splitOn '/' p = before ++ [last])
    (hlast : last ≠ []) (hq : isAbsolute q = false) : p.join q = p ++ '/' :: q := by
  have hend : ∀ front, Text.splitOn '/' p ≠ front ++ [[]] := by
    intro front h
    rw [hparts] at h
    obtain ⟨-, heq⟩ := List.append_inj' h rfl
    exact hlast (List.cons.inj heq).1
  have hempty : p ≠ [] := by
    rintro rfl
    exact hend [] rfl
  have hslash : p.getLast? ≠ some '/' := by
    intro h
    obtain ⟨front, rfl⟩ := List.getLast?_eq_some_iff.1 h
    exact hend _ (Text.splitOn_append '/' front [])
  unfold join
  rw [if_neg (by simp [hq]), if_neg (not_or.2 ⟨hempty, hslash⟩)]

/-- A path without the slash at its end, if it has one. -/
def stem (p : Path) : Path := if p.getLast? = some '/' then p.dropLast else p

/-- A path without the slash at its end is a part of it. -/
theorem stem_sublist (p : Path) : p.stem.Sublist p := by
  unfold stem
  by_cases hslash : p.getLast? = some '/'
  · rw [if_pos hslash]
    exact List.dropLast_sublist p
  · simp [hslash]

/-- A path below another one comes behind a slash. -/
theorem join_eq_stem_append (hp : p ≠ []) (hq : isAbsolute q = false) : p.join q = p.stem ++ '/' :: q := by
  unfold join stem
  rw [if_neg (by simp [hq])]
  by_cases hslash : p.getLast? = some '/'
  · obtain ⟨front, rfl⟩ := List.getLast?_eq_some_iff.1 hslash
    rw [if_pos (.inr hslash), if_pos hslash, List.dropLast_concat, List.append_assoc, List.singleton_append]
  · rw [if_neg (not_or.2 ⟨hp, hslash⟩), if_neg hslash]

/-- A path has the parts of its stem, and empty ones behind them. -/
theorem exists_splitOn_eq_stem (p : Path) :
    ∃ k, Text.splitOn '/' p = Text.splitOn '/' p.stem ++ List.replicate k [] := by
  unfold stem
  by_cases hslash : p.getLast? = some '/'
  · obtain ⟨front, rfl⟩ := List.getLast?_eq_some_iff.1 hslash
    rw [if_pos hslash, List.dropLast_concat]
    exact ⟨1, Text.splitOn_append '/' front []⟩
  · exact ⟨0, by rw [if_neg hslash, List.replicate_zero, List.append_nil]⟩

/-- The parts of a joined path are those of the stem and those of what stands behind it. -/
theorem splitOn_join (hp : p ≠ []) (hq : isAbsolute q = false) :
    Text.splitOn '/' (p.join q) = Text.splitOn '/' p.stem ++ Text.splitOn '/' q := by
  rw [join_eq_stem_append hp hq, Text.splitOn_append]

/-- A joined path begins with the first one. -/
theorem exists_join_eq_append (hq : isAbsolute q = false) : ∃ more, p.join q = p ++ more := by
  unfold join
  rw [if_neg (by simp [hq])]
  by_cases hend : p = [] ∨ p.getLast? = some '/'
  · exact ⟨q, if_pos hend⟩
  · exact ⟨'/' :: q, if_neg hend⟩

/-- The parts of a path come behind those of the path that it is joined to, of which an empty one at the end
does not count. -/
theorem exists_splitOn_join (hp : p ≠ []) (hq : isAbsolute q = false) :
    ∃ front k, Text.splitOn '/' p = front ++ List.replicate k [] ∧
      Text.splitOn '/' (p.join q) = front ++ Text.splitOn '/' q := by
  obtain ⟨k, hparts⟩ := exists_splitOn_eq_stem p
  exact ⟨Text.splitOn '/' p.stem, k, hparts, splitOn_join hp hq⟩

/-- A joined path starts where the first one does. -/
theorem isAbsolute_join (hp : p ≠ []) (hq : isAbsolute q = false) : isAbsolute (p.join q) = isAbsolute p := by
  obtain ⟨more, hjoin⟩ := exists_join_eq_append (p := p) hq
  obtain ⟨c, p, rfl⟩ := List.exists_cons_of_ne_nil hp
  rw [hjoin]
  rfl

/-- A joined path is not empty. -/
theorem join_ne_nil (hp : p ≠ []) (q : Path) : p.join q ≠ [] := by
  by_cases hq : isAbsolute q = true
  · rw [join, if_pos hq]
    rintro rfl
    cases hq
  · obtain ⟨more, hjoin⟩ := exists_join_eq_append (p := p) (Bool.eq_false_iff.2 hq)
    rw [hjoin]
    simp [hp]

/-! ## Extensions -/

/-- A path ends in a name if that is its last component. -/
theorem fileName?_eq_some_iff {n : Text} :
    fileName? p = some n ↔ ∃ before, components p = before ++ [.name n] := by
  unfold fileName?
  rw [← List.getLast?_eq_some_iff]
  cases (components p).getLast? with
  | none => simp
  | some component => cases component <;> simp

/-- The extension of a path is what follows the last point of its last component, if that is a name with
something in front of the point. -/
theorem extension?_eq_some_iff {extension : Text} (h : '.' ∉ extension) :
    extension? p = some extension ↔
      ∃ before stem, stem ≠ [] ∧ components p = before ++ [.name (stem ++ '.' :: extension)] := by
  constructor
  · intro hextension
    obtain ⟨n, hn, hcut⟩ := Option.bind_eq_some_iff.1 hextension
    obtain ⟨before, hbefore⟩ := fileName?_eq_some_iff.1 hn
    split at hcut
    · rename_i stem rest hcut'
      obtain ⟨rfl, -⟩ := Text.cutAtLast?_eq_some_iff.1 hcut'
      split at hcut
      · cases hcut
      · rename_i hstem
        obtain rfl : rest = extension := by simpa using hcut
        exact ⟨before, stem, hstem, hbefore⟩
    · cases hcut
  · rintro ⟨before, stem, hstem, hcomponents⟩
    have hname : fileName? p = some (stem ++ '.' :: extension) :=
      fileName?_eq_some_iff.2 ⟨before, hcomponents⟩
    have hcut : Text.cutAtLast? '.' (stem ++ '.' :: extension) = some (stem, extension) :=
      Text.cutAtLast?_eq_some_iff.2 ⟨rfl, h⟩
    unfold extension?
    rw [hname, Option.bind_some, hcut]
    exact if_neg hstem

end Infill.Path
