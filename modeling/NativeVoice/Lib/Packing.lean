import Mathlib.Data.List.Basic

/-!
# Units packed into groups

A sequence of units (lists of bytes, say) is sent in groups of elements. An element is a whole unit
or a piece of one; only the first element of a group may continue a unit of the group before it, and
only the last one may be continued in the next group.

* `Group us es y vs`: where the units `us` remain to be sent, a group of the elements `es` leaves
  `vs`; `y` tells whether the last element is continued.
* `Groups z us gs y vs` is a sequence of such groups, each with its two flags.
* `join_of_groups`: joining what is continued gives the units back.
-/

namespace Lib.Packing

variable {α : Type*}

inductive Group : List (List α) → List (List α) → Bool → List (List α) → Prop
  | whole (u : List α) (us : List (List α)) : Group (u :: us) [u] false us
  | part {e t : List α} (us : List (List α)) (he : e ≠ []) (ht : t ≠ []) :
    Group ((e ++ t) :: us) [e] true (t :: us)
  | cons (u : List α) {us es vs : List (List α)} {y : Bool} (h : Group us es y vs) :
    Group (u :: us) (u :: es) y vs

/-- The elements of a group, whether the first one continues a unit of the group before, and whether
the last one is continued in the next group. -/
structure Elements (α : Type*) where
  continues : Bool
  elements : List (List α)
  continued : Bool

inductive Groups : Bool → List (List α) → List (Elements α) → Bool → List (List α) → Prop
  | nil (z : Bool) (us : List (List α)) : Groups z us [] z us
  | cons {z y y' : Bool} {us es vs ws : List (List α)} {gs : List (Elements α)}
    (h : Group us es y vs) (hs : Groups y vs gs y' ws) : Groups z us (⟨z, es, y⟩ :: gs) y' ws

theorem Group.ne_nil {us es vs : List (List α)} {y : Bool} (h : Group us es y vs) : es ≠ [] := by
  cases h <;> simp

/-- More elements behind those that end with a whole unit. -/
theorem Group.append {us es vs es' ws : List (List α)} {y : Bool} (h : Group us es false vs)
    (h' : Group vs es' y ws) : Group us (es ++ es') y ws := by
  generalize hy : false = y' at h
  induction h with
  | whole u us => exact .cons u h'
  | part => cases hy
  | cons u h ih => exact .cons u (ih h' hy)

/-- What remains after a piece: the rest `t` of its unit, if there is one, and the units `us`. -/
def leave (t : List α) (us : List (List α)) : List (List α) := if t.isEmpty then us else t :: us

/-- A group of whole units and a last element, which leaves `t` of its unit. -/
theorem Group.of_pieces (whole : List (List α)) {e : List α} (he : e ≠ []) (t : List α)
    (us : List (List α)) :
    Group (whole ++ (e ++ t) :: us) (whole ++ [e]) (!t.isEmpty) (leave t us) := by
  induction whole with
  | nil =>
    cases t with
    | nil =>
      rw [List.append_nil]
      exact .whole e us
    | cons x t => exact .part us he (by simp)
  | cons u whole ih => exact .cons u ih

theorem Groups.append {z y y' : Bool} {us vs ws : List (List α)} {gs gs' : List (Elements α)}
    (h : Groups z us gs y vs) (h' : Groups y vs gs' y' ws) : Groups z us (gs ++ gs') y' ws := by
  induction h with
  | nil => exact h'
  | cons hg _ ih => exact .cons hg (ih h')

theorem Groups.single {z y : Bool} {us es vs : List (List α)} (h : Group us es y vs) :
    Groups z us [⟨z, es, y⟩] y vs := .cons h (.nil y vs)

/-- Put `e` in front of the first unit. -/
def glue (e : List α) : List (List α) → List (List α)
  | [] => [e]
  | u :: us => (e ++ u) :: us

theorem glue_nil {us : List (List α)} (h : us ≠ []) : glue [] us = us := by
  cases us with
  | nil => exact absurd rfl h
  | cons u us => rfl

/-- Join the last element of a group with the first one of the next group where it is continued. -/
def join : List (Elements α) → List (List α)
  | [] => []
  | g :: gs =>
    if g.continued then
      match g.elements.getLast? with
      | some e => g.elements.dropLast ++ glue e (join gs)
      | none => join gs
    else g.elements ++ join gs

theorem Group.join_units {us es vs : List (List α)} {y : Bool} (h : Group us es y vs) :
    us = if y then
      match es.getLast? with
      | some e => es.dropLast ++ glue e vs
      | none => vs
    else es ++ vs := by
  induction h with
  | whole u us => rfl
  | part us he ht => rfl
  | @cons u us es vs y h ih =>
    obtain ⟨e, es, rfl⟩ := List.exists_cons_of_ne_nil h.ne_nil
    cases y with
    | false => simpa using ih
    | true =>
      rw [ih]
      simp [List.getLast?_cons]

/-- **Joining gives the units back.** -/
theorem join_of_groups {z : Bool} {us : List (List α)} {gs : List (Elements α)}
    (h : Groups z us gs false []) : join gs = us := by
  generalize hy : false = y at h
  generalize hws : ([] : List (List α)) = ws at h
  induction h with
  | nil => exact hws
  | cons hg _ ih =>
    rw [join, ih hy hws]
    exact hg.join_units.symm

/-- The flags of neighbouring groups agree. -/
theorem Groups.flags {z y : Bool} {us vs : List (List α)} {gs : List (Elements α)}
    (h : Groups z us gs y vs) : gs.map Elements.continues ++ [y] =
      z :: gs.map Elements.continued := by
  induction h with
  | nil => rfl
  | cons hg _ ih => rw [List.map_cons, List.cons_append, ih, List.map_cons]

end Lib.Packing
