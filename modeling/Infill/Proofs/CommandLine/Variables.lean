import Infill.CommandLine.Variables
import Infill.Proofs.Data.Precedence
import Infill.Proofs.Text.FirstOccurrence
import Infill.Proofs.Text.Parts

/-!
# What variables amount to

Assignments set variables: each is cut at its first equals sign, and of several for one key the last one
counts (`get?_parse_eq_some_iff`).  As a layer of data each variable is one nested object, and the objects
are merged in the order of the keys.

A key comes in front of every key that extends it by further segments.  So when the object of a key is
laid over the others, what may still come is no key that its segments pass through, and a key that none
extends keeps its value (`leads_toJson`): each later object leaves the segments of the key open
(`leavesOpen_nest`).
-/

set_option autoImplicit false

namespace Infill.Variables

/-- The last of some assignments to a key gives it this value.  A key holds no equals sign, so that an
assignment is cut at its first one. -/
def SetTo (assignments : List Text) (key value : Text) : Prop :=
  ∃ before after, assignments = before ++ (key ++ '=' :: value) :: after ∧ '=' ∉ key ∧
    ∀ assignment ∈ after, ∀ other, assignment ≠ key ++ '=' :: other

/-- No key has an empty segment. -/
def Plain (v : Variables) : Prop :=
  ∀ entry ∈ v, ∀ segment ∈ Text.splitOn '.' entry.1, segment ≠ []

/-! ## Assignments -/

/-- An assignment is cut at its first equals sign. -/
theorem parseAssignment_eq_ok_iff {assignment key value : Text} :
    parseAssignment assignment = .ok (key, value) ↔
      assignment = key ++ '=' :: value ∧ '=' ∉ key := by
  have hcut : ∀ front back : Text, '=' ∉ front →
      Text.cutAtFirst? ['='] (front ++ '=' :: back) = some (front, back) := by
    intro front back hfront
    exact Text.cutAtFirst?_of_avoids (Text.avoids_of_not_mem hfront) back
  constructor
  · intro h
    unfold parseAssignment at h
    split at h
    · rename_i entry hentry
      obtain rfl : entry = (key, value) := by simpa using h
      have htext : assignment = key ++ '=' :: value := by
        simpa using Text.eq_append_of_cutAtFirst? hentry
      refine ⟨htext, fun hmem => ?_⟩
      -- An equals sign inside the key would have been the first one.
      obtain ⟨front, back, rfl, hfront⟩ := List.eq_append_cons_of_mem hmem
      have hfirst := hcut front (back ++ '=' :: value) hfront
      rw [htext, List.append_assoc, List.cons_append, hfirst] at hentry
      have hlen := congrArg List.length (Prod.mk.inj (Option.some.inj hentry)).1
      simp at hlen
    · simp at h
  · rintro ⟨rfl, hkey⟩
    simp [parseAssignment, hcut key value hkey]

/-- Assignments are read if all of them are written with an equals sign; the entries are what stands on
its two sides. -/
theorem mapM_parseAssignment {assignments : List Text} {entries : List (Text × Text)}
    (h : assignments.mapM parseAssignment = .ok entries) :
    assignments = entries.map (fun e => e.1 ++ '=' :: e.2) ∧ ∀ entry ∈ entries, '=' ∉ entry.1 := by
  induction assignments generalizing entries with
  | nil =>
    obtain rfl : [] = entries := by simpa [pure, Except.pure] using h
    simp
  | cons assignment assignments ih =>
    rw [List.mapM_cons] at h
    obtain ⟨⟨key, value⟩, hhead, h⟩ := Result.bind_eq_ok.1 h
    obtain ⟨rest, hrest, h⟩ := Result.bind_eq_ok.1 h
    obtain rfl : (key, value) :: rest = entries := by simpa [pure, Except.pure] using h
    obtain ⟨rfl, hkey⟩ := parseAssignment_eq_ok_iff.1 hhead
    obtain ⟨rfl, hkeys⟩ := ih hrest
    refine ⟨by simp, ?_⟩
    intro entry hentry
    rcases List.mem_cons.1 hentry with rfl | hentry
    · exact hkey
    · exact hkeys entry hentry

/-- What is written on the two sides of an equals sign can be told from the whole. -/
theorem assignment_inj {key key' value value' : Text} (hkey : '=' ∉ key) (hkey' : '=' ∉ key')
    (h : key ++ '=' :: value = key' ++ '=' :: value') : key = key' ∧ value = value' := by
  have hparsed : parseAssignment (key ++ '=' :: value) = .ok (key, value) :=
    parseAssignment_eq_ok_iff.2 ⟨rfl, hkey⟩
  have hparsed' : parseAssignment (key' ++ '=' :: value') = .ok (key', value') :=
    parseAssignment_eq_ok_iff.2 ⟨rfl, hkey'⟩
  rw [h, hparsed'] at hparsed
  simpa [eq_comm] using hparsed

/-- The variables that assignments set hold the last value that each key is set to. -/
theorem get?_parse_eq_some_iff {assignments : List Text} {v : Variables}
    (h : parse assignments = .ok v) {key value : Text} :
    Keyed.get? key v = some value ↔ SetTo assignments key value := by
  cases hentries : assignments.mapM parseAssignment with
  | error e => simp [parse, hentries, Except.map] at h
  | ok entries =>
    obtain rfl : Keyed.ofList entries = v := by simpa [parse, hentries, Except.map] using h
    obtain ⟨rfl, hkeys⟩ := mapM_parseAssignment hentries
    rw [Keyed.get?_ofList_eq_some_iff]
    constructor
    · rintro ⟨before, after, rfl, hafter⟩
      have hkey : '=' ∉ key := hkeys (key, value) (by simp)
      refine ⟨_, _, List.map_append, hkey, ?_⟩
      intro assignment hassignment other heq
      obtain ⟨entry, hentry, rfl⟩ := List.mem_map.1 hassignment
      have hentryKey : '=' ∉ entry.1 := hkeys entry (by simp [hentry])
      exact hafter entry hentry (assignment_inj hentryKey hkey heq).1
    · rintro ⟨before, after, hsplit, hkey, hafter⟩
      obtain ⟨front, back, rfl, -, hback⟩ := List.map_eq_append_iff.1 hsplit
      obtain ⟨entry, rest, rfl, hentry, hrest⟩ := List.map_eq_cons_iff.1 hback
      have hentryKey : '=' ∉ entry.1 := hkeys entry (by simp)
      obtain ⟨hk, hv⟩ := assignment_inj hentryKey hkey hentry
      obtain rfl : entry = (key, value) := Prod.ext hk hv
      refine ⟨front, rest, rfl, ?_⟩
      rintro other hother rfl
      exact hafter _ (hrest ▸ List.mem_map_of_mem hother) other.2 rfl

/-- The variables that assignments set are in order. -/
theorem sorted_parse {assignments : List Text} {v : Variables} (h : parse assignments = .ok v) :
    Keyed.Sorted v := by
  cases hentries : assignments.mapM parseAssignment with
  | error e => simp [parse, hentries, Except.map] at h
  | ok entries =>
    obtain rfl : Keyed.ofList entries = v := by simpa [parse, hentries, Except.map] using h
    exact Keyed.sorted_ofList entries

/-- Variables that are set keep the order of the keys. -/
theorem sorted_update {old new : Variables} (h : Keyed.Sorted old) : Keyed.Sorted (update old new) :=
  (Keyed.sorted_foldl_insert new h).1

/-- After an update a key has the value that the last assignment gives it, or else the value that it
had. -/
theorem get?_update_eq_some_iff {assignments : List Text} {assigned old : Variables}
    (h : parse assignments = .ok assigned) {key value : Text} :
    Keyed.get? key (update old assigned) = some value ↔
      SetTo assignments key value ∨
        (∀ other, ¬ SetTo assignments key other) ∧ Keyed.get? key old = some value := by
  have hset : ∀ other, Keyed.get? key assigned = some other ↔ SetTo assignments key other :=
    fun other => get?_parse_eq_some_iff h
  rw [update, Keyed.get?_foldl_insert (sorted_parse h)]
  cases hkey : Keyed.get? key assigned with
  | none =>
    have hnot : ∀ other, ¬ SetTo assignments key other := by
      intro other hother
      rw [← hset other, hkey] at hother
      cases hother
    simp [hnot]
  | some given =>
    have hgiven : SetTo assignments key given := (hset given).1 hkey
    have hiff : given = value ↔ SetTo assignments key value := by
      rw [← hset value, hkey]
      simp
    rw [Option.some_or, Option.some.injEq, hiff]
    constructor
    · exact Or.inl
    · rintro (hvalue | ⟨hnot, -⟩)
      · exact hvalue
      · exact absurd hgiven (hnot given)

/-! ## Keys and their segments -/

/-- The segments of a key without empty ones are its parts. -/
theorem segments_eq_splitOn {key : Text} (h : ∀ segment ∈ Text.splitOn '.' key, segment ≠ []) :
    segments key = Text.splitOn '.' key := by
  unfold segments
  rw [List.filter_eq_self]
  intro segment hsegment
  simpa using h segment hsegment

/-! ## The object of one variable -/

section Nest

variable {value : Text}

/-- The segments of a variable lead to its value. -/
theorem leads_nest (value : Text) (rest : List Text) :
    Data.Leads (some ((nest value rest).getD (.string value))) rest (.string value) := by
  induction rest with
  | nil => exact .here _
  | cons segment rest ih =>
    refine .member ?_
    simpa [Keyed.get?] using ih

/-- The layer of one variable is ordered. -/
theorem ordered_nest {rest : List Text} {layer : Json} (h : nest value rest = some layer) :
    layer.Ordered := by
  induction rest generalizing layer with
  | nil => cases h
  | cons segment rest ih =>
    obtain rfl := Option.some.inj h
    apply Json.ordered_singleton
    cases hnest : nest value rest with
    | none => exact .string value
    | some inner => exact ih hnest

/-- The layer of one variable is an object. -/
theorem isObject_nest {rest : List Text} {layer : Json} (h : nest value rest = some layer) :
    layer.IsObject := by
  cases rest with
  | nil => cases h
  | cons segment rest =>
    obtain rfl := Option.some.inj h
    exact Json.isObject_object _

/-- A variable leaves open all segments but those that begin or go on like its own. -/
theorem leavesOpen_nest {own rest : List Text} {layer : Json} (h : nest value own = some layer)
    (hown : ¬ own <+: rest) (hrest : ¬ rest <+: own) : Data.LeavesOpen (some layer) rest := by
  induction own generalizing rest layer with
  | nil => cases h
  | cons segment own ih =>
    obtain rfl := Option.some.inj h
    cases rest with
    | nil => exact absurd List.nil_prefix hrest
    | cons key rest =>
      refine .member ?_
      by_cases hkey : key = segment
      · subst hkey
        rw [List.prefix_cons_inj] at hown hrest
        cases hnest : nest value own with
        | none =>
          -- Only no segments at all make no object.
          cases own with
          | nil => exact absurd List.nil_prefix hown
          | cons _ _ => cases hnest
        | some inner =>
          have hinner := ih hnest hown hrest
          simpa [Keyed.get?, hnest] using hinner
      · simpa [Keyed.get?, hkey] using Data.LeavesOpen.absent rest

end Nest

/-! ## The layer of all variables -/

/-- The entries that are put in order are the same. -/
theorem mem_inOrder_iff {v : Variables} {entry : Text × Text} : entry ∈ v.inOrder ↔ entry ∈ v :=
  List.mem_mergeSort

/-- Variables that are in order stay as they are. -/
theorem inOrder_of_sorted {v : Variables} (h : Keyed.Sorted v) : v.inOrder = v :=
  Keyed.mergeSort_of_sorted h

/-- Variables of different keys are sorted once they are put in order. -/
theorem sorted_inOrder {v : Variables} (h : (v.map Prod.fst).Nodup) : Keyed.Sorted v.inOrder :=
  Keyed.sorted_mergeSort h

/-- Variables that are in order are merged as they stand. -/
theorem toJson_of_sorted {v : Variables} (h : Keyed.Sorted v) : v.toJson = Data.merge v.layers := by
  rw [toJson, inOrder_of_sorted h]

/-- The layers of variables are ordered. -/
theorem ordered_of_mem_layers {v : Variables} {layer : Json} (h : layer ∈ v.layers) :
    layer.Ordered := by
  obtain ⟨⟨key, value⟩, -, hnest⟩ := List.mem_filterMap.1 h
  exact ordered_nest hnest

/-- What variables come to is ordered. -/
theorem ordered_toJson (v : Variables) : v.toJson.Ordered :=
  Data.ordered_merge fun _ hlayer => ordered_of_mem_layers hlayer

/-- The object of a key stands between those of the keys in front of it and those of the others. -/
theorem layers_split (front back : Variables) {key value : Text} {layer : Json}
    (h : nest value (segments key) = some layer) :
    layers (front ++ (key, value) :: back) = layers front ++ layer :: layers back := by
  unfold layers
  rw [List.filterMap_append]
  congr 1
  exact List.filterMap_cons_some h

/-- A key that no other key extends leads to its value. -/
theorem leads_toJson {v : Variables} (hsorted : Keyed.Sorted v) (hplain : v.Plain)
    {key value : Text} (hget : Keyed.get? key v = some value)
    (hmaximal : ∀ entry ∈ v, ¬ Text.Extends '.' key entry.1) :
    Data.Leads (some v.toJson) (segments key) (.string value) := by
  obtain ⟨front, back, rfl⟩ := List.append_of_mem (Keyed.mem_of_get?_eq_some hget)
  have hbehind : ∀ entry ∈ back, key < entry.1 := by
    have htail := (List.pairwise_append.1 hsorted).2.1
    exact (List.pairwise_cons.1 htail).1
  have hsegments : ∀ entry ∈ front ++ (key, value) :: back,
      segments entry.1 = Text.splitOn '.' entry.1 :=
    fun entry hentry => segments_eq_splitOn (hplain entry hentry)
  have hkey : segments key = Text.splitOn '.' key := hsegments (key, value) (by simp)
  obtain ⟨layer, hlayer⟩ : ∃ layer, nest value (segments key) = some layer := by
    obtain ⟨segment, rest, hcons⟩ := List.exists_cons_of_ne_nil (Text.splitOn_ne_nil '.' key)
    rw [hkey, hcons]
    exact ⟨_, rfl⟩
  have hordered : ∀ l ∈ layer :: layers back, l.Ordered := by
    intro l hl
    rcases List.mem_cons.1 hl with rfl | hl
    · exact ordered_nest hlayer
    · exact ordered_of_mem_layers hl
  have hleads := leads_nest value (segments key)
  rw [hlayer] at hleads
  rw [toJson_of_sorted hsorted, layers_split front back hlayer]
  apply Data.leads_merge _ hordered (isObject_nest hlayer)
    (Json.not_isObject_string value) hleads
  -- A later key is neither a beginning of this one nor an extension.
  intro later hlater _
  obtain ⟨⟨other, given⟩, hother, hnest⟩ := List.mem_filterMap.1 hlater
  have hlt : key < other := hbehind _ hother
  have hmem : (other, given) ∈ front ++ (key, value) :: back := by simp [hother]
  have hotherSegments : segments other = Text.splitOn '.' other := hsegments _ hmem
  apply leavesOpen_nest hnest
  · rw [hotherSegments, hkey]
    intro hpre
    rcases Text.eq_or_extends_of_parts hpre with rfl | hextends
    · exact List.lt_irrefl other hlt
    · exact List.lt_irrefl key (List.lt_trans hlt hextends.lt)
  · rw [hotherSegments, hkey]
    intro hpre
    rcases Text.eq_or_extends_of_parts hpre with rfl | hextends
    · exact List.lt_irrefl key hlt
    · exact hmaximal _ hmem hextends

end Infill.Variables
