import Mathlib.Logic.Relation

/-!
# Depth-first pre-order

The order in which a depth-first search finds the vertices of a graph, as a relation
between the vertices seen before, an agenda of vertices to go through and the vertices
found on the way. A graph is given by a relation between a vertex and the list of its
targets.

## Main definitions

* `DepthFirst`: the pre-order of the vertices found
* `DepthFirst.Edge`: the edges of the graph

## Main results

* `DepthFirst.unique`: there is at most one such order
* `DepthFirst.nodup`, `DepthFirst.fresh`: no vertex is found twice
* `DepthFirst.mem_iff`: what is found is what can be reached from the agenda
-/

namespace ElmBindgen

/-- Going through an agenda depth-first, without the vertices seen before, finds
vertices in the order in which they are entered. -/
inductive DepthFirst {α : Type} (targets : α → List α → Prop) : List α → List α → List α → Prop
  | done (seen) : DepthFirst targets seen [] []
  | skip {seen x rest found} (old : x ∈ seen) (onward : DepthFirst targets seen rest found) :
      DepthFirst targets seen (x :: rest) found
  | enter {seen x next below rest found} (new : x ∉ seen) (edges : targets x next)
      (inner : DepthFirst targets (seen ++ [x]) next below)
      (onward : DepthFirst targets (seen ++ x :: below) rest found) :
      DepthFirst targets seen (x :: rest) (x :: below ++ found)

namespace DepthFirst

variable {α : Type} {targets : α → List α → Prop} {seen agenda found : List α}

/-- One vertex is a target of another. -/
def Edge (targets : α → List α → Prop) (x y : α) : Prop := ∃ next, targets x next ∧ y ∈ next

/-! ## Uniqueness -/

/-- If every vertex has one list of targets, there is only one pre-order. -/
theorem unique (functional : Relator.RightUnique targets) {other : List α}
    (search : DepthFirst targets seen agenda found)
    (search' : DepthFirst targets seen agenda other) : found = other := by
  induction search generalizing other with
  | done seen =>
    cases search'
    rfl
  | skip old _ ih =>
    cases search' with
    | skip _ onward => exact ih onward
    | enter new _ _ _ => exact absurd old new
  | enter new edges _ _ below rest =>
    cases search' with
    | skip old _ => exact absurd old new
    | enter _ edges' inner onward =>
      obtain rfl := functional edges edges'
      obtain rfl := below inner
      obtain rfl := rest onward
      rfl

/-! ## What is found -/

/-- Nothing that was seen before is found. -/
theorem fresh (search : DepthFirst targets seen agenda found) {x : α} (here : x ∈ found) :
    x ∉ seen := by
  induction search with
  | done seen => cases here
  | skip _ _ ih => exact ih here
  | enter new _ _ _ below rest =>
    intro old
    rcases List.mem_append.mp here with inside | later
    · rcases List.mem_cons.mp inside with rfl | inside
      · exact new old
      · exact below inside (List.mem_append_left _ old)
    · exact rest later (List.mem_append_left _ old)

/-- Nothing is found twice. -/
theorem nodup (search : DepthFirst targets seen agenda found) : found.Nodup := by
  induction search with
  | done seen => exact List.nodup_nil
  | skip _ _ ih => exact ih
  | @enter seen x next below rest found new _ inner onward first second =>
    -- While the search is below a vertex, the vertex has been seen.
    have notBelow : x ∉ below := fun inside => inner.fresh inside (by simp)
    refine List.nodup_append.mpr ⟨List.nodup_cons.mpr ⟨notBelow, first⟩, second, ?_⟩
    rintro y inside _ later rfl
    exact onward.fresh later (List.mem_append_right _ inside)

/-- The whole agenda has been seen at the end. -/
theorem agenda_subset (search : DepthFirst targets seen agenda found) {x : α}
    (here : x ∈ agenda) : x ∈ seen ++ found := by
  induction search with
  | done seen => cases here
  | skip old _ ih =>
    rcases List.mem_cons.mp here with rfl | here
    · exact List.mem_append_left _ old
    · exact ih here
  | enter _ _ _ _ _ rest =>
    rcases List.mem_cons.mp here with rfl | here
    · simp
    · simpa using rest here

/-- The targets of what is found have been seen at the end. -/
theorem targets_subset (search : DepthFirst targets seen agenda found)
    (functional : Relator.RightUnique targets)
    {x y : α} (here : x ∈ found) (edge : Edge targets x y) : y ∈ seen ++ found := by
  induction search with
  | done seen => cases here
  | skip _ _ ih => exact ih here
  | @enter seen start next below rest found _ edges inner _ within later =>
    rw [← List.append_assoc]
    rcases List.mem_append.mp here with inside | after
    · have reached : y ∈ seen ++ [start] ++ below := by
        rcases List.mem_cons.mp inside with rfl | inside
        · -- The agenda below a vertex consists of its targets.
          obtain ⟨_, edges', target⟩ := edge
          obtain rfl := functional edges edges'
          exact inner.agenda_subset target
        · exact within inside
      exact List.mem_append_left _ (by simpa using reached)
    · exact later after

/-- What is found can be reached from the agenda. -/
theorem reachable (search : DepthFirst targets seen agenda found) {x : α} (here : x ∈ found) :
    ∃ root ∈ agenda, Relation.ReflTransGen (Edge targets) root x := by
  induction search with
  | done seen => cases here
  | skip _ _ ih =>
    obtain ⟨root, listed, path⟩ := ih here
    exact ⟨root, List.mem_cons_of_mem _ listed, path⟩
  | @enter seen start next below rest found _ edges _ _ inner onward =>
    rcases List.mem_append.mp here with inside | later
    · refine ⟨start, List.mem_cons_self, ?_⟩
      rcases List.mem_cons.mp inside with rfl | inside
      · exact .refl
      · obtain ⟨target, listed, path⟩ := inner inside
        exact .head ⟨next, edges, listed⟩ path
    · obtain ⟨root, listed, path⟩ := onward later
      exact ⟨root, List.mem_cons_of_mem _ listed, path⟩

/-- If the targets of all that was seen before were seen as well, whatever can be reached
from the agenda has been seen at the end. -/
theorem mem_of_reachable (search : DepthFirst targets seen agenda found)
    (functional : Relator.RightUnique targets)
    (closed : ∀ {x y}, x ∈ seen → Edge targets x y → y ∈ seen) {root x : α}
    (listed : root ∈ agenda) (path : Relation.ReflTransGen (Edge targets) root x) :
    x ∈ seen ++ found := by
  induction path with
  | refl => exact search.agenda_subset listed
  | tail _ edge before =>
    rcases List.mem_append.mp before with old | here
    · exact List.mem_append_left _ (closed old edge)
    · exact search.targets_subset functional here edge

/-- A search that starts with nothing seen finds exactly what can be reached. -/
theorem mem_iff (search : DepthFirst targets [] agenda found)
    (functional : Relator.RightUnique targets) {x : α} :
    x ∈ found ↔ ∃ root ∈ agenda, Relation.ReflTransGen (Edge targets) root x := by
  constructor
  · exact search.reachable
  · rintro ⟨root, listed, path⟩
    exact search.mem_of_reachable functional (fun old => nomatch old) listed path

end DepthFirst

end ElmBindgen
