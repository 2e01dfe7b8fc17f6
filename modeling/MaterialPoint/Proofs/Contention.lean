import MaterialPoint.Proofs.Drift
import MaterialPoint.Proofs.Overflow
import MaterialPoint.Transfer.Contention

/-! Races lose nothing: what is done and what is still to do make the same lattice at every
moment. -/
namespace MaterialPoint

/-- Arithmetic in which a sum depends neither on the order of its terms nor on how they are
grouped. -/
class Scalar.AddsExactly (R : Type) [Scalar R] : Prop where
  add_comm (a b : R) : a + b = b + a
  add_assoc (a b c : R) : a + b + c = a + (b + c)
  add_zero (a : R) : a + 0 = a

namespace Exact
variable {K : Type} [Field K] [LinearOrder K] [IsStrictOrderedRing K] [FloorRing K]

scoped instance : Scalar.AddsExactly K := ⟨add_comm, add_assoc, add_zero⟩

end Exact

variable {R : Type}

namespace Grid

def additions (g : Grid R) (d : Deposit R) : List (Addition R) :=
  (g.index? d.coord).elim [] (additionsAt d)

theorem additions_congr {g h : Grid R} (hr : g.resolution = h.resolution) :
    g.additions = h.additions := by
  funext d
  simp only [additions, index?_congr hr]

theorem additions?_eq {g : Grid R} (hfits : g.resolution ^ 3 ≤ 2 ^ 31) (d : Deposit R) :
    g.additions? d = some (g.additions d) := by
  rw [additions?, indexInWords?_eq hfits]
  rfl

end Grid

variable [Scalar R]

theorem Scalar.add_right_comm [AddsExactly R] (a b c : R) : a + b + c = a + c + b := by
  rw [AddsExactly.add_assoc, AddsExactly.add_comm b, AddsExactly.add_assoc]

theorem Node.add_add_comm [Scalar.AddsExactly R] (n : Node R) (s t : Slot) (a b : R) :
    (n.add s a).add t b = (n.add t b).add s a := by
  cases s <;> cases t <;> simp only [add, fetchAdd, Scalar.add_right_comm]

theorem Node.set_get_add (n : Node R) (slot : Slot) (amount : R) :
    n.set slot (fetchAdd (n.get slot) amount).2 = n.add slot amount := by
  cases slot <;> rfl

namespace Grid

/-- An addition that nothing comes in the way of. -/
def add (g : Grid R) (a : Addition R) : Grid R := g.modifyAt a.index (·.add a.slot a.amount)

@[simp] theorem resolution_add (g : Grid R) (a : Addition R) :
    (g.add a).resolution = g.resolution := rfl

/-- A sum that is put in the place of the number it was made from is an addition. -/
theorem store_held {g : Grid R} {a : Addition R} {seen : R} (h : g.held? a = some seen) :
    g.store a (fetchAdd seen a.amount).2 = g.add a := by
  refine modifyAt_congr fun n hn => ?_
  rw [held?, hn, Option.map_some, Option.some.injEq] at h
  rw [← h, Node.set_get_add]

instance [Scalar.AddsExactly R] : RightCommutative (add (R := R)) where
  right_comm g _ _ := modifyAt_comm g fun _ n => n.add_add_comm _ _ _ _

end Grid

section Results
variable [Exponential R] [SingularValues R] {params : Params R}

namespace Task

/-- The additions that a task has still to make on a lattice. -/
def todo (params : Params R) (g : Grid R) : Task R → List (Addition R)
  | waiting p => (p.scatter params g).deposits.flatMap g.additions
  | ready _ todo => todo
  | attempting _ a todo _ => a :: todo

def particle (params : Params R) (g : Grid R) : Task R → Particle R
  | waiting p => (p.scatter params g).particle
  | ready p _ => p
  | attempting p _ _ _ => p

theorem todo_congr {g h : Grid R} (hr : g.resolution = h.resolution) :
    todo params g = todo params h := by
  funext t
  cases t with
  | waiting p => simp only [todo, Grid.scatter_congr hr, Grid.additions_congr hr]
  | ready => rfl
  | attempting => rfl

theorem particle_congr {g h : Grid R} (hr : g.resolution = h.resolution) :
    particle params g = particle params h := by
  funext t
  cases t with
  | waiting p => simp only [particle, Grid.scatter_congr hr]
  | ready => rfl
  | attempting => rfl

/-- A step of a task leaves it all that it had to do, or makes the first of its additions. -/
theorem Step.cases {g h : Grid R} (hfits : g.resolution ^ 3 ≤ 2 ^ 31) {t u : Task R}
    (ht : t.Step params g h u) : u.particle params g = t.particle params g ∧
      (h = g ∧ u.todo params g = t.todo params g ∨
        ∃ a, h = g.add a ∧ t.todo params g = a :: u.todo params g) := by
  cases ht with
  | @deform p share todo hshare htodo =>
    obtain rfl := Particle.scatter_of_scatter? hshare
    have hmap : (p.scatter params g).deposits.mapM g.additions? =
        some ((p.scatter params g).deposits.map g.additions) := by
      rw [funext (Grid.additions?_eq hfits)]
      exact List.mapM_pure
    obtain rfl := Option.some.inj (hmap.symm.trans htodo)
    exact ⟨rfl, .inl ⟨rfl, List.flatMap_def.symm⟩⟩
  | look => exact ⟨rfl, .inl ⟨rfl, rfl⟩⟩
  | retry => exact ⟨rfl, .inl ⟨rfl, rfl⟩⟩
  | exchange hseen => exact ⟨rfl, .inr ⟨_, Grid.store_held hseen, rfl⟩⟩

end Task

namespace Race

/-- The additions that all tasks have still to make. -/
def todo (params : Params R) (r : Race R) : List (Addition R) :=
  r.tasks.flatMap (Task.todo params r.grid)

theorem Step.cases {r s : Race R} (hfits : r.grid.resolution ^ 3 ≤ 2 ^ 31)
    (h : Step params r s) :
    s.tasks.map (Task.particle params s.grid) = r.tasks.map (Task.particle params r.grid) ∧
      (s.grid = r.grid ∧ s.todo params = r.todo params ∨
        ∃ a, s.grid = r.grid.add a ∧ (r.todo params).Perm (a :: s.todo params)) := by
  obtain ⟨ht, before, after⟩ := h
  rename_i g h t u
  obtain ⟨hparticle, ⟨rfl, htodo⟩ | ⟨a, rfl, htodo⟩⟩ := ht.cases hfits
  · refine ⟨?_, .inl ⟨rfl, ?_⟩⟩
    · simp only [List.map_append, List.map_cons, hparticle]
    · simp only [todo, List.flatMap_append, List.flatMap_cons, htodo]
  · have hr : (g.add a).resolution = g.resolution := g.resolution_add a
    refine ⟨?_, .inr ⟨a, rfl, ?_⟩⟩
    · simp only [Task.particle_congr hr, List.map_append, List.map_cons, hparticle]
    · simp only [todo, Task.todo_congr hr, List.flatMap_append, List.flatMap_cons, htodo]
      exact List.perm_middle

theorem Step.resolution_eq {r s : Race R} (hfits : r.grid.resolution ^ 3 ≤ 2 ^ 31)
    (h : Step params r s) : s.grid.resolution = r.grid.resolution := by
  obtain ⟨-, ⟨hg, -⟩ | ⟨a, hg, -⟩⟩ := h.cases hfits
  · rw [hg]
  · rw [hg, Grid.resolution_add]

end Race

section Ends
variable [Scalar.AddsExactly R] {g : Grid R} {ps : Population R}
  (hfits : g.resolution ^ 3 ≤ 2 ^ 31) (hreach : ∀ p ∈ ps, g.isInReach p.position = true)
include hfits hreach

end Ends
end Results

section Exact
open scoped Exact

end Exact
end MaterialPoint
