import MaterialPoint.Proofs.Indexing

/-! Meshes cut from polygons. A cut adds diagonals in both directions and no other edges. -/
namespace MaterialPoint

section Circuits
variable {α β : Type}

/-- The directed edges around a polygon, from each corner to the next. -/
def circuit (corners : List α) : List (α × α) := corners.zip (corners.rotate 1)

theorem circuit_triangle (a b c : α) : circuit [a, b, c] = [(a, b), (b, c), (c, a)] := rfl

/-- Turned around, the directed edges are the same, each of them as often. -/
def IsBalanced (edges : List (α × α)) : Prop := (edges.map Prod.swap).Perm edges

theorem isBalanced_append_iff {edges more : List (α × α)} (h : IsBalanced more) :
    IsBalanced (edges ++ more) ↔ IsBalanced edges := by
  have hmore : (edges.map Prod.swap ++ more.map Prod.swap).Perm (edges.map Prod.swap ++ more) :=
    List.Perm.append_left _ h
  unfold IsBalanced
  rw [List.map_append]
  constructor
  · intro hall
    exact (List.perm_append_right_iff more).mp (hmore.symm.trans hall)
  · intro hedges
    exact hmore.trans (hedges.append_right more)

theorem isBalanced_congr {edges others : List (α × α)} (h : edges.Perm others) :
    IsBalanced edges ↔ IsBalanced others := by
  have hswap := h.map Prod.swap
  exact ⟨fun he => hswap.symm.trans (he.trans h), fun ho => hswap.trans (ho.trans h.symm)⟩

theorem isBalanced_pair (a c : α) : IsBalanced [(a, c), (c, a)] := List.Perm.swap ..

theorem isBalanced_flatMap {ι : Type} {f : ι → List (α × α)} {l : List ι}
    (h : ∀ i ∈ l, IsBalanced (f i)) : IsBalanced (l.flatMap f) := by
  induction l with
  | nil => exact List.Perm.nil
  | cons i l ih =>
    have hl := ih fun j hj => h j (List.mem_cons_of_mem i hj)
    rw [List.flatMap_cons, isBalanced_append_iff hl]
    exact h i List.mem_cons_self

theorem IsBalanced.swap_mem {edges : List (α × α)} (h : IsBalanced edges) {e : α × α}
    (he : e ∈ edges) : e.swap ∈ edges :=
  h.subset (List.mem_map_of_mem he)

def undirected (place : α → β) (edges : List (α × α)) : List (Sym2 β) :=
  edges.map fun e => s(place e.1, place e.2)

theorem even_count_undirected_pair [DecidableEq β] (place : α → β) (a c : α) (e : Sym2 β) :
    Even ((undirected place [(a, c), (c, a)]).count e) := by
  have hpair : undirected place [(a, c), (c, a)] = List.replicate 2 s(place a, place c) := by
    simp [undirected, Sym2.eq_swap]
  rw [hpair, List.count_replicate]
  split_ifs
  · exact even_two
  · exact Even.zero

theorem even_count_undirected_flatMap [DecidableEq β] {ι : Type} {f : ι → List (α × α)}
    {place : α → β} {e : Sym2 β} {l : List ι}
    (h : ∀ i ∈ l, Even ((undirected place (f i)).count e)) :
    Even ((undirected place (l.flatMap f)).count e) := by
  induction l with
  | nil => exact Even.zero
  | cons i l ih =>
    have hl := ih fun j hj => h j (List.mem_cons_of_mem i hj)
    rw [List.flatMap_cons, undirected, List.map_append, List.count_append]
    exact (h i List.mem_cons_self).add hl

end Circuits

namespace Mesh

/-- Three or four corners, all of them vertices. -/
def IsSound (vertices : ℕ) (polygon : List ℕ) : Prop :=
  (polygon.length = 3 ∨ polygon.length = 4) ∧ ∀ i ∈ polygon, i < vertices

/-- A triangle stays as it is. A quad is cut from its first corner to its third. -/
inductive IsCut : List ℕ → List Face → Prop
  | triangle (a b c : ℕ) : IsCut [a, b, c] [⟨a, b, c⟩]
  | quad (a b c d : ℕ) : IsCut [a, b, c, d] [⟨a, b, c⟩, ⟨a, c, d⟩]

/-- The edge along which a quad is cut, in both directions. -/
def diagonal : List ℕ → List (ℕ × ℕ)
  | [a, _, c, _] => [(a, c), (c, a)]
  | _ => []

theorem cut?_of_isCut {polygon : List ℕ} {cut : List Face} (h : IsCut polygon cut) :
    cut? polygon = some cut := by
  cases h with
  | triangle a b c => rfl
  | quad a b c d => rfl

theorem exists_isCut {polygon : List ℕ} (h : polygon.length = 3 ∨ polygon.length = 4) :
    ∃ cut, IsCut polygon cut := by
  rcases h with h | h
  · obtain ⟨a, b, c, rfl⟩ := List.length_eq_three.mp h
    exact ⟨_, .triangle a b c⟩
  · match polygon, h with
    | [a, b, c, d], _ => exact ⟨_, .quad a b c d⟩

theorem cut?_eq_none {polygon : List ℕ} (h : polygon.length ≠ 3 ∧ polygon.length ≠ 4) :
    cut? polygon = none := by
  unfold cut?
  split
  · exact absurd rfl h.1
  · exact absurd rfl h.2
  · rfl

theorem perm_circuit_of_isCut {polygon : List ℕ} {cut : List Face} (h : IsCut polygon cut) :
    (cut.flatMap (circuit ·.corners)).Perm (circuit polygon ++ diagonal polygon) := by
  cases h with
  | triangle a b c => exact List.Perm.refl _
  | quad a b c d =>
    -- The diagonal leads back in the first triangle and away in the second.
    change [(a, b), (b, c), (c, a), (a, c), (c, d), (d, a)].Perm
      [(a, b), (b, c), (c, d), (d, a), (a, c), (c, a)]
    refine .cons _ (.cons _ ?_)
    have hback : ([(c, a), (a, c)] ++ [(c, d), (d, a)]).Perm
        ([(c, d), (d, a)] ++ [(c, a), (a, c)]) := List.perm_append_comm
    exact hback.trans (.append_left _ (.swap ..))

/-- The directed edges of triangles, from number to number. -/
def circuits (faces : List Face) : List (ℕ × ℕ) := faces.flatMap (circuit ·.corners)

theorem perm_circuits {polygons : List (List ℕ)} {parts : List (List Face)}
    (h : List.Forall₂ IsCut polygons parts) :
    (circuits parts.flatten).Perm (polygons.flatMap circuit ++ polygons.flatMap diagonal) := by
  refine List.Perm.trans ?_ (List.flatMap_append_perm polygons circuit diagonal).symm
  induction h with
  | nil => exact List.Perm.nil
  | cons hcut _ ih =>
    rw [circuits, List.flatten_cons, List.flatMap_append, List.flatMap_cons]
    exact (perm_circuit_of_isCut hcut).append ih

theorem diagonal_cases (polygon : List ℕ) :
    diagonal polygon = [] ∨ ∃ a c, diagonal polygon = [(a, c), (c, a)] := by
  unfold diagonal
  split
  · exact .inr ⟨_, _, rfl⟩
  · exact .inl rfl

theorem isBalanced_diagonals (polygons : List (List ℕ)) :
    IsBalanced (polygons.flatMap diagonal) := by
  refine isBalanced_flatMap fun polygon _ => ?_
  rcases diagonal_cases polygon with h | ⟨a, c, h⟩
  · rw [h]
    exact List.Perm.nil
  · rw [h]
    exact isBalanced_pair a c

theorem even_count_diagonals {β : Type} [DecidableEq β] (place : ℕ → β)
    (polygons : List (List ℕ)) (e : Sym2 β) :
    Even ((undirected place (polygons.flatMap diagonal)).count e) := by
  refine even_count_undirected_flatMap fun polygon _ => ?_
  rcases diagonal_cases polygon with h | ⟨a, c, h⟩
  · rw [h]
    exact Even.zero
  · rw [h]
    exact even_count_undirected_pair place a c e

section Cut
variable {polygons : List (List ℕ)} {faces : List Face}
  (h : (circuits faces).Perm (polygons.flatMap circuit ++ polygons.flatMap diagonal))
include h

theorem isBalanced_circuits_iff :
    IsBalanced (circuits faces) ↔ IsBalanced (polygons.flatMap circuit) := by
  rw [isBalanced_congr h, isBalanced_append_iff (isBalanced_diagonals polygons)]

theorem swap_mem_circuits (hrim : ∀ e ∈ polygons.flatMap circuit, e.swap ∈ polygons.flatMap circuit)
    {e : ℕ × ℕ} (he : e ∈ circuits faces) : e.swap ∈ circuits faces := by
  rw [h.mem_iff, List.mem_append] at he ⊢
  rcases he with he | he
  · exact .inl (hrim e he)
  · exact .inr ((isBalanced_diagonals polygons).swap_mem he)

/-- A cut changes no edge from one that is shared by an even number of faces to one that is not. -/
theorem even_count_circuits_iff {β : Type} [DecidableEq β] (place : ℕ → β) (e : Sym2 β) :
    Even ((undirected place (circuits faces)).count e) ↔
      Even ((undirected place (polygons.flatMap circuit)).count e) := by
  have hcount := (h.map fun a => s(place a.1, place a.2)).count_eq e
  rw [List.map_append, List.count_append] at hcount
  rw [undirected, hcount, Nat.even_add]
  exact iff_true_right (even_count_diagonals place polygons e)

end Cut

theorem length_flatten_of_isCut {polygons : List (List ℕ)} {parts : List (List Face)}
    (h : List.Forall₂ IsCut polygons parts) :
    parts.flatten.length =
      polygons.countP (·.length = 3) + 2 * polygons.countP (·.length = 4) := by
  induction h with
  | nil => rfl
  | cons hcut _ ih =>
    rw [List.flatten_cons, List.length_append, ih, List.countP_cons, List.countP_cons]
    cases hcut with
    | triangle a b c =>
      have h3 : decide ([a, b, c].length = 3) = true := rfl
      have h4 : ¬decide ([a, b, c].length = 4) = true := by simp
      rw [if_pos h3, if_neg h4]
      simp only [List.length_cons, List.length_nil]
      omega
    | quad a b c d =>
      have h3 : ¬decide ([a, b, c, d].length = 3) = true := by simp
      have h4 : decide ([a, b, c, d].length = 4) = true := rfl
      rw [if_neg h3, if_pos h4]
      simp only [List.length_cons, List.length_nil]
      omega

section Import
variable {R : Type}

/-- The first of a polygon's numbers that no vertex has, or else its number of corners. -/
def IsOffence (vertices face : ℕ) (polygon : List ℕ) (fault : Fault R) : Prop :=
  (∃ before i after, polygon = before ++ i :: after ∧ (∀ j ∈ before, j < vertices) ∧
    vertices ≤ i ∧ fault = .meshIndex i vertices) ∨
  (∀ i ∈ polygon, i < vertices) ∧ (polygon.length ≠ 3 ∧ polygon.length ≠ 4) ∧
    fault = .unsupportedFace face polygon.length

theorem exists_isOffence {vertices : ℕ} {polygon : List ℕ} (h : ¬IsSound vertices polygon)
    (face : ℕ) : ∃ fault : Fault R, IsOffence vertices face polygon fault := by
  cases hcheck : checkIndices (R := R) vertices polygon with
  | error fault => exact ⟨fault, .inl (checkIndices_eq_error_iff.mp hcheck)⟩
  | ok =>
    have hall := checkIndices_eq_ok_iff.mp hcheck
    have hlength : polygon.length ≠ 3 ∧ polygon.length ≠ 4 := by
      constructor
      · exact fun h3 => h ⟨.inl h3, hall⟩
      · exact fun h4 => h ⟨.inr h4, hall⟩
    exact ⟨_, .inr ⟨hall, hlength, rfl⟩⟩

theorem cutAll_cons_of_isCut {vertices : ℕ} {polygon : List ℕ} {cut : List Face}
    (hall : ∀ i ∈ polygon, i < vertices) (hcut : IsCut polygon cut) (face : ℕ)
    (polygons : List (List ℕ)) : cutAll (R := R) vertices face (polygon :: polygons) =
      (cutAll vertices (face + 1) polygons).map (cut ++ ·) := by
  rw [cutAll, checkIndices_eq_ok_iff.mpr hall, cut?_of_isCut hcut]
  cases cutAll (R := R) vertices (face + 1) polygons <;> rfl

theorem cutAll_cons_of_isOffence {vertices face : ℕ} {polygon : List ℕ} {fault : Fault R}
    (h : IsOffence vertices face polygon fault) (polygons : List (List ℕ)) :
    cutAll vertices face (polygon :: polygons) = .error fault := by
  rw [cutAll]
  rcases h with hindex | ⟨hall, hlength, rfl⟩
  · rw [checkIndices_eq_error_iff.mpr hindex]
    rfl
  · rw [checkIndices_eq_ok_iff.mpr hall, cut?_eq_none hlength]
    rfl

theorem exists_cutAll_eq_ok {vertices : ℕ} {polygons : List (List ℕ)}
    (h : ∀ p ∈ polygons, IsSound vertices p) (face : ℕ) :
    ∃ parts, List.Forall₂ IsCut polygons parts ∧
      cutAll (R := R) vertices face polygons = .ok parts.flatten := by
  induction polygons generalizing face with
  | nil => exact ⟨[], .nil, rfl⟩
  | cons polygon polygons ih =>
    obtain ⟨⟨hlength, hall⟩, hrest⟩ := List.forall_mem_cons.mp h
    obtain ⟨cut, hcut⟩ := exists_isCut hlength
    obtain ⟨parts, hparts, hok⟩ := ih hrest (face + 1)
    refine ⟨cut :: parts, .cons hcut hparts, ?_⟩
    rw [cutAll_cons_of_isCut hall hcut, hok]
    rfl

theorem cutAll_eq_error {vertices : ℕ} {before : List (List ℕ)} {polygon : List ℕ}
    (h : ∀ p ∈ before, IsSound vertices p) {face : ℕ} {fault : Fault R}
    (hfault : IsOffence vertices (face + before.length) polygon fault) (after : List (List ℕ)) :
    cutAll vertices face (before ++ polygon :: after) = .error fault := by
  induction before generalizing face with
  | nil => exact cutAll_cons_of_isOffence hfault after
  | cons first before ih =>
    obtain ⟨⟨hlength, hall⟩, hrest⟩ := List.forall_mem_cons.mp h
    obtain ⟨cut, hcut⟩ := exists_isCut hlength
    have hface : face + 1 + before.length = face + (first :: before).length := by
      rw [List.length_cons]
      omega
    rw [List.cons_append, cutAll_cons_of_isCut hall hcut, ih hrest (hface ▸ hfault)]
    rfl

theorem isSound_or_exists_isOffence (vertices face : ℕ) (polygons : List (List ℕ)) :
    (∀ p ∈ polygons, IsSound vertices p) ∨ ∃ before polygon after,
      polygons = before ++ polygon :: after ∧ (∀ p ∈ before, IsSound vertices p) ∧
        ∃ fault : Fault R, IsOffence vertices (face + before.length) polygon fault := by
  induction polygons generalizing face with
  | nil => exact .inl (by simp)
  | cons first polygons ih =>
    by_cases hfirst : IsSound vertices first
    · rcases ih (face + 1) with hall | ⟨before, polygon, after, rfl, hbefore, fault, hfault⟩
      · exact .inl (List.forall_mem_cons.mpr ⟨hfirst, hall⟩)
      · refine .inr ⟨first :: before, polygon, after, rfl,
          List.forall_mem_cons.mpr ⟨hfirst, hbefore⟩, fault, ?_⟩
        rw [List.length_cons, Nat.add_comm before.length, ← Nat.add_assoc]
        exact hfault
    · exact .inr ⟨[], first, polygons, rfl, by simp, exists_isOffence hfirst face⟩

variable (vertices : Array (Vec3 R)) (normals : Option (Array (Vec3 R)))

theorem exists_ofPolygons_eq_ok {polygons : List (List ℕ)}
    (h : ∀ p ∈ polygons, IsSound vertices.size p) :
    ∃ parts, List.Forall₂ IsCut polygons parts ∧ ofPolygons vertices normals polygons =
      .ok ⟨vertices, normals.filter (·.size == vertices.size), parts.flatten⟩ := by
  obtain ⟨parts, hparts, hok⟩ := exists_cutAll_eq_ok (R := R) h 0
  refine ⟨parts, hparts, ?_⟩
  rw [ofPolygons, hok]
  rfl

theorem ofPolygons_eq_error {before : List (List ℕ)} {polygon : List ℕ}
    (h : ∀ p ∈ before, IsSound vertices.size p) {fault : Fault R}
    (hfault : IsOffence vertices.size before.length polygon fault) (after : List (List ℕ)) :
    ofPolygons vertices normals (before ++ polygon :: after) = .error fault := by
  have hface : 0 + before.length = before.length := Nat.zero_add _
  rw [ofPolygons, cutAll_eq_error h (hface.symm ▸ hfault) after]
  rfl

theorem ofPolygons_eq_error_iff (polygons : List (List ℕ)) {fault : Fault R} :
    ofPolygons vertices normals polygons = .error fault ↔ ∃ before polygon after,
      polygons = before ++ polygon :: after ∧ (∀ p ∈ before, IsSound vertices.size p) ∧
        IsOffence vertices.size before.length polygon fault := by
  constructor
  · intro h
    rcases isSound_or_exists_isOffence (R := R) vertices.size 0 polygons with
      hall | ⟨before, polygon, after, rfl, hbefore, first, hfirst⟩
    · obtain ⟨parts, -, hok⟩ := exists_ofPolygons_eq_ok vertices normals hall
      rw [hok] at h
      cases h
    · rw [Nat.zero_add] at hfirst
      rw [ofPolygons_eq_error vertices normals hbefore hfirst after] at h
      cases h
      exact ⟨before, polygon, after, rfl, hbefore, hfirst⟩
  · rintro ⟨before, polygon, after, rfl, hbefore, hfault⟩
    exact ofPolygons_eq_error vertices normals hbefore hfault after

theorem exists_ofPolygons_iff (polygons : List (List ℕ)) :
    (∃ m, ofPolygons vertices normals polygons = .ok m) ↔
      ∀ p ∈ polygons, IsSound vertices.size p := by
  constructor
  · rintro ⟨m, hm⟩
    rcases isSound_or_exists_isOffence (R := R) vertices.size 0 polygons with
      hall | ⟨before, polygon, after, rfl, hbefore, fault, hfault⟩
    · exact hall
    · rw [Nat.zero_add] at hfault
      rw [ofPolygons_eq_error vertices normals hbefore hfault after] at hm
      cases hm
  · intro hall
    obtain ⟨parts, -, hok⟩ := exists_ofPolygons_eq_ok vertices normals hall
    exact ⟨_, hok⟩

theorem exists_parts_of_ofPolygons {polygons : List (List ℕ)} {m : Mesh R}
    (h : ofPolygons vertices normals polygons = .ok m) :
    ∃ parts, List.Forall₂ IsCut polygons parts ∧
      m = ⟨vertices, normals.filter (·.size == vertices.size), parts.flatten⟩ := by
  have hall := (exists_ofPolygons_iff vertices normals polygons).mp ⟨m, h⟩
  obtain ⟨parts, hparts, hok⟩ := exists_ofPolygons_eq_ok vertices normals hall
  exact ⟨parts, hparts, Except.ok.inj (h.symm.trans hok)⟩

theorem undirected_circuits {faces : List Face}
    (h : ∀ f ∈ faces, ∀ i ∈ f.corners, i < vertices.size) :
    undirected (vertices[·]?) (circuits faces) =
      ((faces.filterMap (triangle? vertices)).flatMap Triangle.sides).map (Sym2.map some) := by
  induction faces with
  | nil => rfl
  | cons f faces ih =>
    obtain ⟨hf, hrest⟩ := List.forall_mem_cons.mp h
    have ha : f.a < vertices.size := hf f.a (by simp [Face.corners])
    have hb : f.b < vertices.size := hf f.b (by simp [Face.corners])
    have hc : f.c < vertices.size := hf f.c (by simp [Face.corners])
    have ht : triangle? vertices f = some ⟨vertices[f.a], vertices[f.b], vertices[f.c]⟩ := by
      simp [triangle?, ha, hb, hc]
    rw [List.filterMap_cons_some ht, List.flatMap_cons, List.map_append, ← ih hrest, circuits,
      List.flatMap_cons, undirected, List.map_append]
    simp [Face.corners, circuit_triangle, Triangle.sides, ha, hb, hc, undirected, circuits]

theorem isWatertight_iff_undirected [DecidableEq R] {m : Mesh R} (h : m.WellIndexed) :
    IsWatertight m.triangles ↔ ∀ e : Sym2 (Option (Vec3 R)), ¬e.IsDiag →
      Even ((undirected (m.vertices[·]?) (circuits m.faces)).count e) := by
  have hinj : Function.Injective (Sym2.map (some : Vec3 R → Option (Vec3 R))) :=
    Sym2.map.injective (Option.some_injective _)
  have hdiag (e : Sym2 (Vec3 R)) : (e.map some).IsDiag ↔ e.IsDiag := by
    induction e with
    | _ a b => simp
  rw [undirected_circuits m.vertices h]
  constructor
  · intro hw e he
    by_cases hmem : e ∈ (m.triangles.flatMap Triangle.sides).map (Sym2.map some)
    · obtain ⟨e, -, rfl⟩ := List.mem_map.mp hmem
      rw [hdiag] at he
      have hcount := List.count_map_of_injective (m.triangles.flatMap Triangle.sides) _ hinj e
      exact hcount ▸ hw e he
    · exact List.count_eq_zero_of_not_mem hmem ▸ Even.zero
  · intro hall e he
    have hcount := List.count_map_of_injective (m.triangles.flatMap Triangle.sides) _ hinj e
    exact hcount ▸ hall (e.map some) ((hdiag e).not.mpr he)

/-- Sound polygons become a mesh as closed as they are, and otherwise the first fault is
reported. -/
theorem ofPolygons_keeps_surface [DecidableEq R] (polygons : List (List ℕ)) :
    ((∃ m, ofPolygons vertices normals polygons = .ok m) ↔
      ∀ p ∈ polygons, IsSound vertices.size p) ∧
    (∀ fault, ofPolygons vertices normals polygons = .error fault ↔ ∃ before polygon after,
      polygons = before ++ polygon :: after ∧ (∀ p ∈ before, IsSound vertices.size p) ∧
        IsOffence vertices.size before.length polygon fault) ∧
    ∀ m, ofPolygons vertices normals polygons = .ok m →
      m.vertices = vertices ∧ m.normals = normals.filter (·.size == vertices.size) ∧
      m.faces.length = polygons.countP (·.length = 3) + 2 * polygons.countP (·.length = 4) ∧
      (∃ parts, List.Forall₂ IsCut polygons parts ∧ m.faces = parts.flatten) ∧
      (circuits m.faces).Perm (polygons.flatMap circuit ++ polygons.flatMap diagonal) ∧
      (IsBalanced (circuits m.faces) ↔ IsBalanced (polygons.flatMap circuit)) ∧
      ((∀ e ∈ polygons.flatMap circuit, e.swap ∈ polygons.flatMap circuit) →
        ∀ e ∈ circuits m.faces, e.swap ∈ circuits m.faces) ∧
      (∀ e : Sym2 ℕ, Even ((undirected id (circuits m.faces)).count e) ↔
        Even ((undirected id (polygons.flatMap circuit)).count e)) ∧
      (IsWatertight m.triangles ↔ ∀ e : Sym2 (Option (Vec3 R)), ¬e.IsDiag →
        Even ((undirected (vertices[·]?) (polygons.flatMap circuit)).count e)) := by
  refine ⟨exists_ofPolygons_iff vertices normals polygons,
    fun _ => ofPolygons_eq_error_iff vertices normals polygons, fun m hm => ?_⟩
  have hwell := wellIndexed_of_ofPolygons hm
  obtain ⟨parts, hparts, rfl⟩ := exists_parts_of_ofPolygons vertices normals hm
  have hperm := perm_circuits hparts
  refine ⟨rfl, rfl, length_flatten_of_isCut hparts, ⟨parts, hparts, rfl⟩, hperm,
    isBalanced_circuits_iff hperm, fun hrim e => swap_mem_circuits hperm hrim,
    even_count_circuits_iff hperm id, ?_⟩
  rw [isWatertight_iff_undirected hwell]
  exact forall_congr' fun e => imp_congr_right fun _ => even_count_circuits_iff hperm _ e

end Import

open scoped Exact

/-- A pyramid over a quad, and what a face too many does to it. -/
theorem ofPolygons_pyramid :
    let vertices : Array (Vec3 ℚ) :=
      #[⟨0, 0, 0⟩, ⟨1, 0, 0⟩, ⟨1, 1, 0⟩, ⟨0, 1, 0⟩, ⟨1 / 2, 1 / 2, 1⟩]
    let polygons := [[0, 3, 2, 1], [0, 1, 4], [1, 2, 4], [2, 3, 4], [3, 0, 4]]
    (∃ m, ofPolygons vertices none polygons = .ok m ∧ m.faces.length = 6 ∧
      IsBalanced (circuits m.faces)) ∧
    ofPolygons vertices none ([0, 1, 2] :: [0, 1, 2, 9, 4] :: polygons) =
      .error (.meshIndex 9 5) ∧
    ofPolygons vertices none ([0, 1, 2] :: [0, 1, 2, 3, 4] :: polygons) =
      .error (.unsupportedFace 1 5) := by
  intro vertices polygons
  have hfirst : ∀ p ∈ [[0, 1, 2]], IsSound vertices.size p := by
    simp [IsSound, vertices]
  refine ⟨?_, ?_, ?_⟩
  · obtain ⟨hok, -, hmesh⟩ := ofPolygons_keeps_surface vertices none polygons
    obtain ⟨m, hm⟩ := hok.mpr (by simp [IsSound, vertices, polygons])
    obtain ⟨-, -, hlength, -, -, hbalanced, -⟩ := hmesh m hm
    refine ⟨m, hm, hlength, hbalanced.mpr ?_⟩
    unfold IsBalanced
    decide
  · refine ((ofPolygons_keeps_surface vertices none _).2.1 _).mpr
      ⟨[[0, 1, 2]], _, polygons, rfl, hfirst, .inl ⟨[0, 1, 2], 9, [4], rfl, ?_, ?_, rfl⟩⟩
    · simp [vertices]
    · simp [vertices]
  · refine ((ofPolygons_keeps_surface vertices none _).2.1 _).mpr
      ⟨[[0, 1, 2]], _, polygons, rfl, hfirst, .inr ⟨?_, ?_, rfl⟩⟩
    · simp [vertices]
    · simp

end Mesh
end MaterialPoint
