import Infill.Text.Basic

/-!
# Paths

A path is kept as it was written, which is how messages show it, and compared by its components:
`a//b`, `a/./b` and `a/b/` have the same ones, while a leading `.` and every `..` count.
-/

set_option autoImplicit false

namespace Infill

/-- A path is a text with slashes between its parts. -/
abbrev Path := Text

namespace Path

/-- What a part of a path means. -/
inductive Component where
  | root
  /-- A leading `.`. -/
  | current
  /-- `..`, wherever it stands. -/
  | parent
  | name (n : Text)
  deriving DecidableEq, Repr

namespace Component

/-- The kinds of components in their order: names come last. -/
def rank : Component → Nat
  | root => 0
  | current => 1
  | parent => 2
  | name _ => 3

/-- The order of components: by kind, and names by their characters. -/
def le : Component → Component → Bool
  | name a, name b => Text.le a b
  | a, b => decide (a.rank ≤ b.rank)

end Component

/-- Whether a path starts at the root. -/
def isAbsolute (p : Path) : Bool := p.head? == some '/'

/-- The component that a part between slashes stands for, behind the front of the path. -/
def component? (part : Text) : Option Component :=
  if part = [] ∨ part = ['.'] then none
  else if part = ['.', '.'] then some .parent
  else some (.name part)

/-- What the parts of a path mean, without those that mean nothing. -/
def components (p : Path) : List Component :=
  let parts := Text.splitOn '/' p
  let first : List Component :=
    if isAbsolute p then [.root] else if parts.head? = some ['.'] then [.current] else []
  first ++ parts.filterMap component?

/-- `p` with `q` below it; an absolute `q` stands alone. -/
def join (p q : Path) : Path :=
  if isAbsolute q then q
  else if p = [] ∨ p.getLast? = some '/' then p ++ q
  else p ++ '/' :: q

/-- The name that a path ends in. -/
def fileName? (p : Path) : Option Text :=
  match (components p).getLast? with
  | some (.name n) => some n
  | _ => none

/-- What stands behind the last point of the file name, if anything stands before that point. -/
def extension? (p : Path) : Option Text :=
  (fileName? p).bind fun n =>
    match Text.cutAtLast? '.' n with
    | some (stem, extension) => if stem = [] then none else some extension
    | none => none

/-- The order of paths: component by component. -/
def leComponents : List Component → List Component → Bool
  | [], _ => true
  | _ :: _, [] => false
  | a :: as, b :: bs => if a = b then leComponents as bs else a.le b

/-- Whether `p` comes before `q` or has the same components. -/
def le (p q : Path) : Bool := leComponents (components p) (components q)

end Path
end Infill
