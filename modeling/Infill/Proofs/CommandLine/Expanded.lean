import Infill.Proofs.CommandLine.Variables
import Infill.Proofs.Data.Leaves

/-!
# What is in the layer of some variables

The object that some variables amount to holds, at the address that the segments of a key are, the value of the
key if no other key goes on behind these segments, and an object if one does.  It has no leaves but these values
and nothing in it is empty (`Expands`), and by that it is known (`Expands.unique`): it does not matter in which
order the variables are kept.

The objects of the single variables are laid over each other in the order of the keys, in which a key comes behind
those that it extends, however many others come between.  What one of them changes is told by how its segments
compare with an address (`leads_overlay_nest_cases`); so one more variable keeps what has been said
(`Expands.concat`).
-/

set_option autoImplicit false

namespace Infill.Variables

open Data (Leads LeafAt)

/-- An object holds the values of the longest of some keys, and besides only the objects that lead there. -/
structure Expands (v : List (Text × Text)) (j : Json) : Prop where
  /-- A key leads to its value if no other key extends it. -/
  holds : ∀ entry ∈ v, Leads (some j) (Text.splitOn '.' entry.1) (.string entry.2) ↔
    ∀ other ∈ v, ¬ Text.Extends '.' entry.1 other.1
  /-- The first segments of a key lead to an object. -/
  passes : ∀ entry ∈ v, ∀ front more, Text.splitOn '.' entry.1 = front ++ more → more ≠ [] →
    ∃ members, Leads (some j) front (.object members)
  /-- There are no leaves but the values of the keys. -/
  leaves : ∀ path leaf, LeafAt (some j) path leaf →
    ∃ entry ∈ v, Text.splitOn '.' entry.1 = path ∧ .string entry.2 = leaf
  /-- No object is empty but the whole, if there are no keys. -/
  filled : ∀ path, Leads (some j) path .empty → path = []

/-! ## One variable over others -/

section Nest

variable {own path : List Text} {value : Text} {layer w : Json}

/-- What the object of a variable leaves alone are the addresses that neither lead to its value nor go on
from there. -/
theorem leads_overlay_nest_iff (h : nest value own = some layer) (hown : ¬ own <+: path) (hpath : ¬ path <+: own)
    (old : Option Json) : Leads (some (Data.overlay old layer)) path w ↔ Leads old path w := by
  induction own generalizing path layer old with
  | nil => cases h
  | cons segment own ih =>
    have hlayer : ∀ l ∈ some layer, l.IsObject ∧ l.Ordered := by
      simpa using ⟨isObject_nest h, ordered_nest h⟩
    cases path with
    | nil => exact absurd List.nil_prefix hpath
    | cons key path =>
      have hmember := Data.member?_overlay? old hlayer key
      rw [Data.overlay?_some] at hmember
      rw [Data.leads_cons_iff, Data.leads_cons_iff, hmember]
      obtain rfl := Option.some.inj h
      by_cases hkey : key = segment
      · subst hkey
        rw [List.prefix_cons_inj] at hown hpath
        cases hnest : nest value own with
        | none =>
          -- Only no segments at all make no object.
          cases own with
          | nil => exact absurd List.nil_prefix hown
          | cons _ _ => cases hnest
        | some inner => simpa [Keyed.get?] using ih hnest hown hpath (Data.member? key old)
      · simp [Keyed.get?, hkey]

/-- The segments of a variable lead to its value, whatever was there before. -/
theorem leads_overlay_nest (h : nest value own = some layer) (old : Option Json) :
    Leads (some (Data.overlay old layer)) own (.string value) := by
  have hleads := leads_nest value own
  rw [h] at hleads
  exact hleads.overlay? old (by simpa using ordered_nest h) (Json.not_isObject_string value)

/-- The first of these segments lead to an object, in which the value is. -/
theorem exists_object_overlay_nest (h : nest value own = some layer) (hpath : path <+: own) (hown : ¬ own <+: path)
    (old : Option Json) : ∃ members, members ≠ [] ∧ Leads (some (Data.overlay old layer)) path (.object members) := by
  have hvalue := leads_overlay_nest h old
  obtain ⟨more, rfl⟩ := hpath
  apply hvalue.exists_object
  rintro rfl
  exact hown (by simp)

/-- With the object of a variable over others, an address leads to its value, or to an object that the value is
in, or has nothing to do with it and leads where it did. -/
theorem leads_overlay_nest_cases (h : nest value own = some layer) {old : Option Json}
    (hleads : Leads (some (Data.overlay old layer)) path w) :
    path = own ∧ w = .string value ∨
      (path <+: own ∧ ¬ own <+: path ∧ ∃ members, members ≠ [] ∧ w = .object members) ∨
      ¬ own <+: path ∧ ¬ path <+: own ∧ Leads old path w := by
  have hvalue := leads_overlay_nest h old
  by_cases hown : own <+: path
  · left
    obtain ⟨more, rfl⟩ := hown
    by_cases hmore : more = []
    · subst hmore
      rw [List.append_nil] at hleads ⊢
      exact ⟨rfl, hleads.unique hvalue⟩
    · exact absurd hleads (hvalue.not_leads_append (Json.not_isObject_string value) hmore)
  · right
    by_cases hpath : path <+: own
    · left
      obtain ⟨members, hmembers, hobject⟩ := exists_object_overlay_nest h hpath hown old
      exact ⟨hpath, hown, members, hmembers, hleads.unique hobject⟩
    · right
      exact ⟨hown, hpath, (leads_overlay_nest_iff h hown hpath old).1 hleads⟩

end Nest

/-! ## All variables -/

namespace Expands

variable {v v' : List (Text × Text)} {j j' : Json}

/-- One more variable, whose key is no other one and is extended by none, goes over the others. -/
theorem concat {key value : Text} {layer : Json} (hj : Expands v j)
    (hlayer : nest value (Text.splitOn '.' key) = some layer)
    (hlast : ∀ entry ∈ v, ¬ Text.splitOn '.' key <+: Text.splitOn '.' entry.1) :
    Expands (v ++ [(key, value)]) (Data.overlay (some j) layer) := by
  have hvalue := leads_overlay_nest hlayer (some j)
  constructor
  case holds =>
    intro entry hentry
    rcases List.mem_append.1 hentry with hentry | hentry
    · have hown := hlast entry hentry
      by_cases hpre : Text.splitOn '.' entry.1 <+: Text.splitOn '.' key
      · -- The last key extends this one, and an object stands in the place of the value.
        obtain ⟨members, -, hobject⟩ := exists_object_overlay_nest hlayer hpre hown (some j)
        constructor
        · intro hstring
          cases hstring.unique hobject
        · intro hall
          rcases Text.eq_or_extends_of_parts hpre with heq | hextends
          · exact absurd (heq ▸ List.prefix_refl _) hown
          · exact absurd hextends (hall (key, value) (by simp))
      · rw [leads_overlay_nest_iff hlayer hown hpre, hj.holds entry hentry]
        have hnot : ¬ Text.Extends '.' entry.1 key := fun hextends => hpre (Text.extends_iff.1 hextends).1
        rw [List.forall_mem_append, List.forall_mem_singleton]
        exact (and_iff_left hnot).symm
    · obtain rfl := List.mem_singleton.1 hentry
      refine iff_of_true hvalue ?_
      intro other hother hextends
      rcases List.mem_append.1 hother with hother | hother
      · exact hlast other hother (Text.extends_iff.1 hextends).1
      · obtain rfl := List.mem_singleton.1 hother
        exact hextends.ne rfl
  case passes =>
    intro entry hentry front more hsplit hmore
    rcases List.mem_append.1 hentry with hentry | hentry
    · have hown : ¬ Text.splitOn '.' key <+: front :=
        fun hpre => hlast entry hentry (hpre.trans ⟨more, hsplit.symm⟩)
      by_cases hfront : front <+: Text.splitOn '.' key
      · obtain ⟨members, -, hobject⟩ := exists_object_overlay_nest hlayer hfront hown (some j)
        exact ⟨members, hobject⟩
      · obtain ⟨members, hobject⟩ := hj.passes entry hentry front more hsplit hmore
        exact ⟨members, (leads_overlay_nest_iff hlayer hown hfront (some j)).2 hobject⟩
    · obtain rfl := List.mem_singleton.1 hentry
      obtain ⟨members, -, hobject⟩ := (hsplit ▸ hvalue).exists_object hmore
      exact ⟨members, hobject⟩
  case leaves =>
    rintro path leaf ⟨hleads, hleaf⟩
    rcases leads_overlay_nest_cases hlayer hleads with ⟨rfl, rfl⟩ | ⟨-, -, members, -, rfl⟩ | ⟨-, -, hold⟩
    · exact ⟨(key, value), by simp, rfl, rfl⟩
    · exact absurd (Json.isObject_object members) hleaf
    · obtain ⟨entry, hentry, hpath⟩ := hj.leaves path leaf ⟨hold, hleaf⟩
      exact ⟨entry, List.mem_append_left _ hentry, hpath⟩
  case filled =>
    intro path hleads
    rcases leads_overlay_nest_cases hlayer hleads with ⟨-, h⟩ | ⟨-, -, members, hmembers, h⟩ | ⟨-, -, hold⟩
    · cases h
    · exact absurd (Json.object.inj h).symm hmembers
    · exact hj.filled path hold

/-- Without variables there is only the whole. -/
theorem nil : Expands [] .empty := by
  have hnowhere : ∀ path w, Leads (some .empty) path w → path = [] ∧ w = .empty := by
    intro path w h
    cases h with
    | here => exact ⟨rfl, rfl⟩
    | member h => cases h
  constructor
  case holds => simp
  case passes => simp
  case leaves =>
    rintro path leaf ⟨hleads, hleaf⟩
    obtain ⟨-, rfl⟩ := hnowhere path leaf hleads
    exact absurd (Json.isObject_object []) hleaf
  case filled => exact fun path hleads => (hnowhere path _ hleads).1

/-- It does not matter in which order variables are kept. -/
theorem congr (hj : Expands v j) (h : ∀ entry, entry ∈ v ↔ entry ∈ v') : Expands v' j := by
  constructor
  case holds =>
    intro entry hentry
    rw [hj.holds entry ((h entry).2 hentry)]
    simp only [h]
  case passes => exact fun entry hentry => hj.passes entry ((h entry).2 hentry)
  case leaves =>
    intro path leaf hleaf
    obtain ⟨entry, hentry, hpath⟩ := hj.leaves path leaf hleaf
    exact ⟨entry, (h entry).1 hentry, hpath⟩
  case filled => exact hj.filled

/-- The leaves are the values of the keys that no other key extends. -/
theorem leafAt_iff (hj : Expands v j) {path : List Text} {leaf : Json} :
    LeafAt (some j) path leaf ↔ ∃ entry ∈ v, (∀ other ∈ v, ¬ Text.Extends '.' entry.1 other.1) ∧
      Text.splitOn '.' entry.1 = path ∧ .string entry.2 = leaf := by
  constructor
  · intro hleaf
    obtain ⟨entry, hentry, rfl, rfl⟩ := hj.leaves path leaf hleaf
    exact ⟨entry, hentry, (hj.holds entry hentry).1 hleaf.1, rfl, rfl⟩
  · rintro ⟨entry, hentry, hlongest, rfl, rfl⟩
    exact ⟨(hj.holds entry hentry).2 hlongest, Json.not_isObject_string entry.2⟩

/-- Only one object holds some variables and nothing else. -/
theorem unique (hj : Expands v j) (hj' : Expands v j') (hobject : j.IsObject) (hordered : j.Ordered)
    (hordered' : j'.Ordered) : j = j' := by
  apply Data.SameLeaves.eq_of_isObject _ hobject hordered hordered' hj.filled hj'.filled
  intro path leaf
  rw [hj.leafAt_iff, hj'.leafAt_iff]

/-- A key that another one extends leads to an object, and there the rest of the longer key leads to its value,
unless a third one extends that. -/
theorem extended (hj : Expands v j) {entry other : Text × Text} (hother : other ∈ v)
    {more : List Text} (hsplit : Text.splitOn '.' other.1 = Text.splitOn '.' entry.1 ++ more) (hmore : more ≠ []) :
    ∃ members, Leads (some j) (Text.splitOn '.' entry.1) (.object members) ∧
      (Leads (some (.object members)) more (.string other.2) ↔ ∀ third ∈ v, ¬ Text.Extends '.' other.1 third.1) := by
  obtain ⟨members, hobject⟩ := hj.passes other hother _ more hsplit hmore
  refine ⟨members, hobject, ?_⟩
  rw [← hj.holds other hother, hsplit, Data.leads_append_iff]
  constructor
  · exact fun hvalue => ⟨_, hobject, hvalue⟩
  · rintro ⟨w, hw, hvalue⟩
    exact hw.unique hobject ▸ hvalue

end Expands

/-- Variables that stand in order are merged to an object that holds them and nothing else. -/
theorem expands_merge_layers {v : Variables} (hsorted : Keyed.Sorted v) (hplain : v.Plain) :
    Expands v (Data.merge v.layers) := by
  induction v using List.reverseRecOn with
  | nil => exact Expands.nil
  | append_singleton front last ih =>
    obtain ⟨key, value⟩ := last
    have hkey : segments key = Text.splitOn '.' key := segments_eq_splitOn (hplain (key, value) (by simp))
    obtain ⟨layer, hlayer⟩ : ∃ layer, nest value (Text.splitOn '.' key) = some layer := by
      obtain ⟨segment, rest, hcons⟩ := List.exists_cons_of_ne_nil (Text.splitOn_ne_nil '.' key)
      rw [hcons]
      exact ⟨_, rfl⟩
    have hlayers : layers (front ++ [(key, value)]) = layers front ++ [layer] :=
      layers_split front [] (hkey ▸ hlayer)
    rw [hlayers, Data.merge_concat _ (isObject_nest hlayer)]
    have hfront := List.pairwise_append.1 hsorted
    apply (ih hfront.1 fun entry hentry => hplain entry (List.mem_append_left _ hentry)).concat hlayer
    -- Keys in front of the last one do not extend it.
    intro entry hentry hpre
    have hlt : entry.1 < key := hfront.2.2 entry hentry (key, value) (by simp)
    rcases Text.eq_or_extends_of_parts hpre with heq | hextends
    · exact List.lt_irrefl key (heq ▸ hlt)
    · exact List.lt_irrefl key (List.lt_trans hextends.lt hlt)

/-- However variables are stored, the object that they amount to holds them and nothing else: they are put in order
first. -/
theorem expands_toJson {v : Variables} (hkeys : (v.map Prod.fst).Nodup) (hplain : v.Plain) : Expands v v.toJson := by
  have hsorted : Expands v.inOrder v.toJson :=
    expands_merge_layers (sorted_inOrder hkeys) fun entry hentry => hplain entry (mem_inOrder_iff.1 hentry)
  exact hsorted.congr fun _ => mem_inOrder_iff

/-- Variables are expanded to their longest keys.  However variables of different keys are stored, if no key has an
empty segment, they amount to one object, whatever the order in which they are stored.  A key leads to its value
if and only if no other one extends it, its first segments lead to objects, and there are no other leaves and no
empty objects; this determines the object.  A key that another one extends leads to an object, in which the longer
key goes on, however many others stand between the two. -/
theorem expands_to_longest_keys {stored : List (Text × Text)} (hkeys : (stored.map Prod.fst).Nodup)
    (hplain : Plain stored) :
    let j := toJson (Keyed.ofList stored)
    j.IsObject ∧ j.Ordered ∧ Expands stored j ∧
      (∀ other : Json, other.IsObject → other.Ordered → Expands stored other → other = j) ∧
      (∀ stored' : List (Text × Text), stored'.Perm stored → toJson (Keyed.ofList stored') = j ∧ toJson stored' = j) ∧
      ∀ entry ∈ stored, ∀ longer ∈ stored, ∀ more,
        Text.splitOn '.' longer.1 = Text.splitOn '.' entry.1 ++ more → more ≠ [] →
          ∃ members, Leads (some j) (Text.splitOn '.' entry.1) (.object members) ∧
            (Leads (some (.object members)) more (.string longer.2) ↔
              ∀ third ∈ stored, ¬ Text.Extends '.' longer.1 third.1) := by
  intro j
  have hexpands : ∀ v : Variables, (v.map Prod.fst).Nodup → (∀ entry, entry ∈ v ↔ entry ∈ stored) →
      Expands stored v.toJson := fun v hv hmem =>
    (expands_toJson hv fun entry hentry => hplain entry ((hmem entry).1 hentry)).congr hmem
  have hlisted : ∀ stored' : List (Text × Text), stored'.Perm stored →
      Expands stored (toJson (Keyed.ofList stored')) := by
    intro stored' hperm
    have hkeys' : (stored'.map Prod.fst).Nodup := (hperm.map Prod.fst).nodup_iff.2 hkeys
    exact hexpands _ (Keyed.nodup_keys_of_sorted (Keyed.sorted_ofList stored'))
      fun entry => (Keyed.mem_ofList_iff hkeys').trans hperm.mem_iff
  have hobject : ∀ v : Variables, v.toJson.IsObject := fun v => Json.isObject_object _
  have hj : Expands stored j := hlisted stored (.refl stored)
  have hordered : j.Ordered := ordered_toJson (Keyed.ofList stored)
  refine ⟨hobject _, hordered, hj, ?_, ?_, ?_⟩
  · intro other hother hotherOrdered hotherExpands
    exact hotherExpands.unique hj hother hotherOrdered hordered
  · intro stored' hperm
    constructor
    · exact (hlisted stored' hperm).unique hj (hobject _) (ordered_toJson _) hordered
    · exact (hexpands stored' ((hperm.map Prod.fst).nodup_iff.2 hkeys) fun _ => hperm.mem_iff).unique hj (hobject _)
        (ordered_toJson _) hordered
  · intro entry _ longer hlonger more hsplit hmore
    exact hj.extended hlonger hsplit hmore

/-- Between `a` and `a.b` stands `a-`, and `a.b.c` goes on behind `a.b`; they are stored in another order. -/
theorem expands_to_longest_keys_around_another :
    let a : Text := ['a']
    let between : Text := ['a', '-']
    let ab : Text := ['a', '.', 'b']
    let abc : Text := ['a', '.', 'b', '.', 'c']
    let stored : List (Text × Text) := [(abc, ['1']), (a, ['2']), (ab, ['3']), (between, ['4'])]
    let j : Json := .object [(a, .object [(['b'], .object [(['c'], .string ['1'])])]), (between, .string ['4'])]
    Expands stored j ∧ toJson (Keyed.ofList stored.reverse) = j ∧
      ¬ Leads (some j) [a] (.string ['2']) := by
  intro a between ab abc stored j
  have hkeys : (stored.map Prod.fst).Nodup := by decide
  have hplain : Plain stored := by
    unfold Plain
    decide
  have hsorted : Keyed.ofList stored = [(a, ['2']), (between, ['4']), (ab, ['3']), (abc, ['1'])] := rfl
  have hj : toJson (Keyed.ofList stored) = j := by
    rw [toJson_of_sorted (Keyed.sorted_ofList stored), hsorted]
    rfl
  obtain ⟨-, -, hexpands, -, hperm, hlonger⟩ := expands_to_longest_keys hkeys hplain
  rw [hj] at hexpands hperm hlonger
  refine ⟨hexpands, (hperm _ stored.reverse_perm).1, ?_⟩
  intro hstring
  obtain ⟨members, hobject, -⟩ := hlonger (a, ['2']) (by decide) (ab, ['3']) (by decide) [['b']] (by decide)
    (by decide)
  cases hstring.unique hobject

end Infill.Variables
