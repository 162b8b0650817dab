import Infill.Json.Basic

/-!
# Layers

Data comes in layers, of which later ones win.  Two objects under the same key are merged member by
member; in every other case the later value stands alone.  Layers that are not objects have no
members to give and are passed over.
-/

set_option autoImplicit false

namespace Infill.Data

mutual

/-- The value that stands under a key where `old` may stand and `new` comes later. -/
def overlay (old : Option Json) (new : Json) : Json :=
  match new with
  | .object incoming =>
    match old with
    | some (.object existing) => .object (overlayMembers existing incoming)
    | _ => .object incoming
  | other => other

/-- Lays the members of a later object over those of an earlier one. -/
def overlayMembers (target : Keyed Json) : List (Text × Json) → Keyed Json
  | [] => target
  | (key, value) :: incoming =>
    overlayMembers (Keyed.insert key (overlay (Keyed.get? key target) value) target) incoming

end

/-- Lays one layer over the members merged so far. -/
def overlayLayer (target : Keyed Json) (layer : Json) : Keyed Json :=
  match layer with
  | .object members => overlayMembers target members
  | _ => target

/-- The object that a list of layers amounts to, the last layer winning. -/
def merge (layers : List Json) : Json := .object (layers.foldl overlayLayer [])

end Infill.Data
