import Infill.Data.Lookup
import Infill.Proofs.Data.Overlay

/-!
# Which layer a path sees

A dotted path is walked through the merge of some layers.  Two rules say what it finds there.  What the
path resolves to in the last layer, if that is no object, it resolves to in the merge
(`walk?_overlay`).  And what it leads to in any layer through nothing but objects it resolves to in the
merge, if every later layer leaves the path open, that is, stops at an object without the next key
(`leads_merge`).

Conversely a first layer counts for nothing along a path that some later layer does not leave open
(`resolve_merge_of_blocked`): from there on the merge with it and the merge without it are the same
wherever the path goes (`AgreeAlong`).
-/

set_option autoImplicit false

namespace Infill.Data

/-- The keys of a dotted path: its segments, but for the empty ones. -/
def keys (path : Text) : List Text := (Text.splitOn '.' path).filter (!·.isEmpty)

/-- Some keys lead from a value through nested objects to `v`. -/
inductive Leads : Option Json → List Text → Json → Prop where
  | here (v : Json) : Leads (some v) [] v
  | member {members : Keyed Json} {key : Text} {rest : List Text} {v : Json}
      (h : Leads (Keyed.get? key members) rest v) : Leads (some (.object members)) (key :: rest) v

/-- Some keys lead from a value through nested objects to one that lacks the next key. -/
inductive LeavesOpen : Option Json → List Text → Prop where
  | absent (rest : List Text) : LeavesOpen none rest
  | member {members : Keyed Json} {key : Text} {rest : List Text}
      (h : LeavesOpen (Keyed.get? key members) rest) :
      LeavesOpen (some (.object members)) (key :: rest)

/-- Every layer that is an object leaves some keys open. -/
def LeftOpen (layers : List Json) (rest : List Text) : Prop :=
  ∀ layer ∈ layers, layer.IsObject → LeavesOpen (some layer) rest

/-- Two values are objects as far as some keys lead, up to where they are the same. -/
inductive AgreeAlong : List Text → Option Json → Option Json → Prop where
  | same (rest : List Text) (x : Option Json) : AgreeAlong rest x x
  | member {key : Text} {rest : List Text} {members members' : Keyed Json}
      (h : AgreeAlong rest (Keyed.get? key members) (Keyed.get? key members')) :
      AgreeAlong (key :: rest) (some (.object members)) (some (.object members'))

/-! ## Keys that lead somewhere -/

/-- No keys lead to where the walk is. -/
theorem leads_nil_iff {start : Option Json} {v : Json} : Leads start [] v ↔ start = some v := by
  constructor
  · rintro ⟨⟩
    rfl
  · rintro rfl
    exact .here v

/-- The first key leads to a member, and the others lead on from there. -/
theorem leads_cons_iff {start : Option Json} {key : Text} {rest : List Text} {v : Json} :
    Leads start (key :: rest) v ↔ Leads (member? key start) rest v := by
  constructor
  · intro h
    cases h with
    | member h => exact h
  · intro h
    match start with
    | some (.object members) => exact .member h
    | none | some .null | some (.bool _) | some (.number _) | some (.string _) | some (.array _) => cases h

/-- Keys lead to one value only. -/
theorem Leads.unique {start : Option Json} {path : List Text} {v w : Json} (hv : Leads start path v)
    (hw : Leads start path w) : v = w := by
  induction hv with
  | here v =>
    cases hw
    rfl
  | member _ ih => exact ih (leads_cons_iff.1 hw)

/-! ## Walks -/

/-- A walk from a falsy node stays there. -/
theorem walk?_of_isFalsy {w : Json} (h : w.isFalsy = true) (segments : List Text) :
    walk? w segments = some w := by
  cases segments with
  | nil => rfl
  | cons segment segments => rw [walk?, if_pos h]

/-- A walk passes over an empty segment. -/
theorem walk?_nil_cons (v : Json) (rest : List Text) : walk? v ([] :: rest) = walk? v rest := by
  cases hv : v.isFalsy with
  | true => rw [walk?_of_isFalsy hv, walk?_of_isFalsy hv]
  | false => simp [walk?, hv]

/-- A walk goes from a node that is not falsy to what stands under the next segment. -/
theorem walk?_cons_of_not_isFalsy {v : Json} {segment : Text} (h : v.isFalsy = false) (hsegment : segment ≠ [])
    (rest : List Text) : walk? v (segment :: rest) = (child? v segment).bind (walk? · rest) := by
  simp [walk?, h, hsegment]

/-- A walk passes over empty segments, wherever they are. -/
theorem walk?_filter (x : Json) (segments : List Text) :
    walk? x (segments.filter (!·.isEmpty)) = walk? x segments := by
  induction segments generalizing x with
  | nil => rfl
  | cons segment segments ih =>
    by_cases hsegment : segment = []
    · rw [hsegment, List.filter_cons_of_neg (by simp), ih, walk?_nil_cons]
    · rw [List.filter_cons_of_pos (by simpa using hsegment), walk?.eq_2, walk?.eq_2]
      simp only [ih]

/-- A walk from an object takes the value under the next key. -/
theorem walk?_object_cons (members : Keyed Json) {key : Text} (h : key ≠ []) (rest : List Text) :
    walk? (.object members) (key :: rest) = (Keyed.get? key members).bind (walk? · rest) :=
  walk?_cons_of_not_isFalsy rfl h rest

/-- No key of a path is empty. -/
theorem ne_nil_of_mem_keys {path key : Text} (h : key ∈ keys path) : key ≠ [] := by
  have hkey := (List.mem_filter.1 h).2
  simpa using hkey

/-- Below a root that is not falsy a path is resolved by the walk along its keys. -/
theorem resolve_of_not_isFalsy {value : Json} (hvalue : value.isFalsy = false) {path : Text} (h : path ≠ []) :
    resolve value path = walk? value (keys path) := by
  rw [keys, walk?_filter]
  simp [resolve, hvalue, h]

/-- In an object a path is resolved by the walk along its keys. -/
theorem resolve_object (members : Keyed Json) {path : Text} (h : path ≠ []) :
    resolve (.object members) path = walk? (.object members) (keys path) :=
  resolve_of_not_isFalsy rfl h

/-- A walk goes where its keys lead. -/
theorem Leads.walk? {start : Option Json} {rest : List Text} {v : Json} (h : Leads start rest v)
    (hne : ∀ key ∈ rest, key ≠ []) : start.bind (Data.walk? · rest) = some v := by
  induction h with
  | here v => rfl
  | @member members key rest v _ ih =>
    have hrest := ih fun k hk => hne k (List.mem_cons_of_mem key hk)
    rw [Option.bind_some, walk?_object_cons members (hne key List.mem_cons_self), hrest]

/-- Walks along which two values agree end alike. -/
theorem AgreeAlong.walk? {start start' : Option Json} {rest : List Text}
    (h : AgreeAlong rest start start') (hne : ∀ key ∈ rest, key ≠ []) :
    start.bind (Data.walk? · rest) = start'.bind (Data.walk? · rest) := by
  induction h with
  | same => rfl
  | @member key rest members members' _ ih =>
    have hrest := ih fun k hk => hne k (List.mem_cons_of_mem key hk)
    have hkey := hne key List.mem_cons_self
    rw [Option.bind_some, Option.bind_some, walk?_object_cons members hkey,
      walk?_object_cons members' hkey, hrest]

/-! ## One layer over another -/

/-- What a walk finds in a later value, if it is no object, it finds whatever was there before. -/
theorem walk?_overlay (old : Option Json) {new v : Json} (hnew : new.Ordered) (hv : ¬ v.IsObject)
    {rest : List Text} (hne : ∀ key ∈ rest, key ≠ []) (h : walk? new rest = some v) :
    walk? (overlay old new) rest = some v := by
  induction rest generalizing old new with
  | nil =>
    obtain rfl : new = v := by simpa [walk?] using h
    rw [overlay_of_not_isObject old hv, h]
  | cons key rest ih =>
    by_cases hobject : new.IsObject
    · obtain ⟨incoming, rfl⟩ := hobject
      obtain ⟨members, hoverlay, hmembers⟩ := exists_overlay_object old hnew.sorted
      have hkey := hne key List.mem_cons_self
      rw [walk?_object_cons incoming hkey] at h
      obtain ⟨child, hchild, hwalk⟩ := Option.bind_eq_some_iff.1 h
      rw [hoverlay, walk?_object_cons members hkey, hmembers, hchild, overlay?_some,
        Option.bind_some]
      exact ih _ (hnew.get? hchild) (fun k hk => hne k (List.mem_cons_of_mem key hk)) hwalk
    · rw [overlay_of_not_isObject old hobject, h]

/-- Where a later value leads, if not to an object, it leads whatever was there before. -/
theorem Leads.overlay? (old : Option Json) {new : Option Json} {rest : List Text} {v : Json}
    (h : Leads new rest v) (hnew : ∀ value ∈ new, value.Ordered) (hv : ¬ v.IsObject) :
    Leads (Data.overlay? old new) rest v := by
  induction h generalizing old with
  | here v =>
    rw [overlay?_some, overlay_of_not_isObject old hv]
    exact .here v
  | @member incoming key rest v _ ih =>
    have hincoming := hnew _ rfl
    obtain ⟨members, hoverlay, hmembers⟩ := exists_overlay_object old hincoming.sorted
    rw [overlay?_some, hoverlay]
    refine .member ?_
    rw [hmembers]
    exact ih _ (fun value hvalue => hincoming.get? hvalue) hv

/-- What the later value leaves open leads where it did before. -/
theorem LeavesOpen.leads {old new : Option Json} {rest : List Text} {v : Json}
    (hopen : LeavesOpen new rest) (h : Leads old rest v) (hnew : ∀ value ∈ new, value.Ordered) :
    Leads (Data.overlay? old new) rest v := by
  induction hopen generalizing old with
  | absent => exact h
  | @member incoming key rest _ ih =>
    have hincoming := hnew _ rfl
    cases h with
    | @member existing _ _ _ h =>
      obtain ⟨members, hoverlay, hmembers⟩ :=
        exists_overlay_object (some (.object existing)) hincoming.sorted
      rw [overlay?_some, hoverlay]
      refine .member ?_
      rw [hmembers]
      exact ih h fun value hvalue => hincoming.get? hvalue

/-- What both values leave open stays open. -/
theorem LeavesOpen.overlay? {old new : Option Json} {rest : List Text}
    (hopen : LeavesOpen new rest) (h : LeavesOpen old rest) (hnew : ∀ value ∈ new, value.Ordered) :
    LeavesOpen (Data.overlay? old new) rest := by
  induction hopen generalizing old with
  | absent => exact h
  | @member incoming key rest hchild ih =>
    have hincoming := hnew _ rfl
    obtain ⟨members, hoverlay, hmembers⟩ := exists_overlay_object old hincoming.sorted
    rw [overlay?_some, hoverlay]
    refine .member ?_
    rw [hmembers]
    refine ih ?_ fun value hvalue => hincoming.get? hvalue
    cases h with
    | absent => exact .absent rest
    | member h => exact h

/-- Values that agree still do with the same value over them. -/
theorem AgreeAlong.overlay? {old old' : Option Json} {rest : List Text}
    (h : AgreeAlong rest old old') {new : Option Json} (hnew : ∀ value ∈ new, value.Ordered) :
    AgreeAlong rest (Data.overlay? old new) (Data.overlay? old' new) := by
  induction h generalizing new with
  | same rest x => exact .same rest _
  | @member key rest existing existing' h ih =>
    cases new with
    | none => exact .member h
    | some new =>
      by_cases hobject : new.IsObject
      · obtain ⟨incoming, rfl⟩ := hobject
        have hincoming := hnew _ rfl
        obtain ⟨members, hoverlay, hmembers⟩ :=
          exists_overlay_object (some (.object existing)) hincoming.sorted
        obtain ⟨members', hoverlay', hmembers'⟩ :=
          exists_overlay_object (some (.object existing')) hincoming.sorted
        rw [overlay?_some, overlay?_some, hoverlay, hoverlay']
        refine .member ?_
        rw [hmembers, hmembers']
        exact ih fun value hvalue => hincoming.get? hvalue
      · rw [overlay?_some, overlay?_some, overlay_of_not_isObject _ hobject,
          overlay_of_not_isObject _ hobject]
        exact .same _ _

/-- A later value that does not leave some keys open hides where the earlier one led: what was there
and nothing at all come to the same. -/
theorem Leads.agreeAlong {old old' : Option Json} {rest : List Text} {v new : Json}
    (h : Leads old rest v) (hv : ¬ v.IsObject) (h' : LeavesOpen old' rest) (hnew : new.Ordered)
    (hblocked : ¬ LeavesOpen (some new) rest) :
    AgreeAlong rest (some (overlay old new)) (some (overlay old' new)) := by
  induction h generalizing old' new with
  | here v =>
    -- Nothing can be left open behind the last key but the value itself.
    cases h' with
    | absent =>
      have hsame : overlay (some v) new = overlay none new := by
        by_cases hobject : new.IsObject
        · obtain ⟨incoming, rfl⟩ := hobject
          cases v with
          | object members => exact absurd (Json.isObject_object members) hv
          | _ => simp [overlay]
        · rw [overlay_of_not_isObject _ hobject, overlay_of_not_isObject _ hobject]
      rw [hsame]
      exact .same _ _
  | @member existing key rest v h ih =>
    by_cases hobject : new.IsObject
    · obtain ⟨incoming, rfl⟩ := hobject
      obtain ⟨members, hoverlay, hmembers⟩ :=
        exists_overlay_object (some (.object existing)) hnew.sorted
      obtain ⟨members', hoverlay', hmembers'⟩ := exists_overlay_object old' hnew.sorted
      rw [hoverlay, hoverlay']
      refine .member ?_
      rw [hmembers, hmembers']
      cases hchild : Keyed.get? key incoming with
      | none => exact absurd (.member (hchild ▸ .absent rest)) hblocked
      | some child =>
        refine ih hv ?_ (hnew.get? hchild) (fun hopen => hblocked (.member (hchild ▸ hopen)))
        cases h' with
        | absent => exact .absent rest
        | member h' => exact h'
    · rw [overlay_of_not_isObject _ hobject, overlay_of_not_isObject _ hobject]
      exact .same _ _

/-! ## One layer among others -/

/-- Layers leave a path open if the first one does and the others do. -/
theorem leftOpen_cons_iff {layer : Json} {layers : List Json} {rest : List Text} :
    LeftOpen (layer :: layers) rest ↔
      (layer.IsObject → LeavesOpen (some layer) rest) ∧ LeftOpen layers rest := by
  simp [LeftOpen]

/-- What the last layer, if it is an object, resolves a path to, if that is no object, the merge
resolves it to. -/
theorem resolve_merge_last (earlier : List Json) {last v : Json} {path : Text} (hpath : path ≠ [])
    (hordered : last.Ordered) (hlast : last.IsObject) (hv : ¬ v.IsObject)
    (h : resolve last path = some v) : resolve (merge (earlier ++ [last])) path = some v := by
  have hmerge := merge_concat earlier hlast
  obtain ⟨members, rfl⟩ := hlast
  rw [resolve_object members hpath] at h
  rw [merge, resolve_object _ hpath, ← merge, hmerge]
  exact walk?_overlay _ hordered hv (fun key hkey => ne_nil_of_mem_keys hkey) h

/-- Where a layer leads, if not to an object, the merge leads, if every later layer that is an object
leaves it open. -/
theorem leads_merge (earlier : List Json) {later : List Json} {layer v : Json} {rest : List Text}
    (hordered : ∀ l ∈ layer :: later, l.Ordered) (hlayer : layer.IsObject) (hv : ¬ v.IsObject)
    (h : Leads (some layer) rest v) (hopen : LeftOpen later rest) :
    Leads (some (merge (earlier ++ layer :: later))) rest v := by
  have hfirst : Leads (some (merge (earlier ++ [layer]))) rest v := by
    rw [merge_concat earlier hlayer]
    exact h.overlay? _ (by simpa using hordered layer List.mem_cons_self) hv
  rw [← List.singleton_append, ← List.append_assoc, merge_append]
  refine foldl_overlayLayer_induction (P := fun x => Leads (some x) rest v)
    (fun old l hl hobject hold => ?_) hfirst
  exact (hopen l hl hobject).leads hold (by simpa using hordered l (List.mem_cons_of_mem _ hl))

/-- Where a path leads in a layer, if not to an object, the merge resolves it to, if every later layer
that is an object leaves it open. -/
theorem resolve_merge_of_leads (earlier : List Json) {later : List Json} {layer v : Json} {path : Text}
    (hpath : path ≠ []) (hordered : ∀ l ∈ layer :: later, l.Ordered) (hlayer : layer.IsObject)
    (hv : ¬ v.IsObject) (h : Leads (some layer) (keys path) v) (hopen : LeftOpen later (keys path)) :
    resolve (merge (earlier ++ layer :: later)) path = some v := by
  have hleads := leads_merge earlier hordered hlayer hv h hopen
  have hwalk := hleads.walk? fun key hkey => ne_nil_of_mem_keys hkey
  rw [merge, resolve_object _ hpath]
  exact hwalk

/-- What agrees along some keys still does after the same layers. -/
theorem agreeAlong_foldl_overlayLayer {layers : List Json} {rest : List Text}
    {target target' : Keyed Json} (hordered : ∀ l ∈ layers, l.Ordered)
    (h : AgreeAlong rest (some (.object target)) (some (.object target'))) :
    AgreeAlong rest (some (.object (layers.foldl overlayLayer target)))
      (some (.object (layers.foldl overlayLayer target'))) := by
  induction layers generalizing target target' with
  | nil => exact h
  | cons layer layers ih =>
    refine ih (fun l hl => hordered l (List.mem_cons_of_mem layer hl)) ?_
    by_cases hlayer : layer.IsObject
    · rw [object_overlayLayer target hlayer, object_overlayLayer target' hlayer]
      have hlayerOrdered : ∀ l ∈ some layer, Json.Ordered l := by
        simpa using hordered layer List.mem_cons_self
      exact h.overlay? hlayerOrdered
    · rwa [overlayLayer_of_not_isObject target hlayer, overlayLayer_of_not_isObject target' hlayer]

/-- After layers of which one does not leave some keys open, it makes no difference whether the keys
led somewhere before or were open themselves. -/
theorem Leads.agreeAlong_foldl_overlayLayer {layers : List Json} {rest : List Text} {v : Json}
    {target target' : Keyed Json} (hordered : ∀ l ∈ layers, l.Ordered) (hv : ¬ v.IsObject)
    (h : Leads (some (.object target)) rest v) (h' : LeavesOpen (some (.object target')) rest)
    (hblocked : ¬ LeftOpen layers rest) :
    AgreeAlong rest (some (.object (layers.foldl overlayLayer target)))
      (some (.object (layers.foldl overlayLayer target'))) := by
  induction layers generalizing target target' with
  | nil => exact absurd (by simp [LeftOpen]) hblocked
  | cons layer layers ih =>
    have hlayers : ∀ l ∈ layers, l.Ordered := fun l hl => hordered l (List.mem_cons_of_mem layer hl)
    have hlayerOrdered : ∀ l ∈ some layer, Json.Ordered l := by
      simpa using hordered layer List.mem_cons_self
    by_cases hlayer : layer.IsObject
    · by_cases hopen : LeavesOpen (some layer) rest
      · -- The layer changes nothing about the keys, so that a later one has to block them.
        refine ih hlayers ?_ ?_ ?_
        · rw [object_overlayLayer target hlayer]
          exact hopen.leads h hlayerOrdered
        · rw [object_overlayLayer target' hlayer]
          exact hopen.overlay? h' hlayerOrdered
        · exact fun hrest => hblocked (leftOpen_cons_iff.2 ⟨fun _ => hopen, hrest⟩)
      · rw [List.foldl_cons, List.foldl_cons]
        refine Data.agreeAlong_foldl_overlayLayer hlayers ?_
        rw [object_overlayLayer target hlayer, object_overlayLayer target' hlayer]
        exact h.agreeAlong hv h' (hordered layer List.mem_cons_self) hopen
    · rw [List.foldl_cons, List.foldl_cons, overlayLayer_of_not_isObject target hlayer,
        overlayLayer_of_not_isObject target' hlayer]
      refine ih hlayers h h' fun hrest => hblocked (leftOpen_cons_iff.2 ⟨?_, hrest⟩)
      exact fun hobject => absurd hobject hlayer

/-- A first layer counts for nothing along a path that leads in it to no object, if some later layer
does not leave the path open. -/
theorem resolve_merge_of_blocked {first v : Json} {later : List Json} {path : Text}
    (hpath : path ≠ []) (hordered : ∀ l ∈ first :: later, l.Ordered) (hfirst : first.IsObject)
    (hv : ¬ v.IsObject) (h : Leads (some first) (keys path) v)
    (hblocked : ¬ LeftOpen later (keys path)) :
    resolve (merge (first :: later)) path = resolve (merge later) path := by
  have hleads : Leads (some (merge [first])) (keys path) v := by
    have hordered₁ : ∀ l ∈ first :: ([] : List Json), l.Ordered := by
      simpa using hordered first List.mem_cons_self
    exact leads_merge [] hordered₁ hfirst hv h (by simp [LeftOpen])
  have hopen : LeavesOpen (some (.object [])) (keys path) := by
    cases hkeys : keys path with
    | nil =>
      rw [hkeys] at h
      cases h with
      | here => exact absurd hfirst hv
    | cons key rest => exact .member (.absent rest)
  have hagree := hleads.agreeAlong_foldl_overlayLayer
    (fun l hl => hordered l (List.mem_cons_of_mem first hl)) hv hopen hblocked
  have hwalk := hagree.walk? fun key hkey => ne_nil_of_mem_keys hkey
  rw [← List.singleton_append, merge_append, merge, resolve_object _ hpath, resolve_object _ hpath]
  exact hwalk

end Infill.Data
