import MaterialPoint.Mesh.Basic

/-! Meshes moved and scaled into place. -/
namespace MaterialPoint
variable {R : Type} [Scalar R]

namespace Mesh

/-- The mesh scaled from the origin, then moved. -/
def transform (m : Mesh R) (scale : R) (offset : Vec3 R) : Mesh R :=
  { m with vertices := m.vertices.map fun v => scale • v + offset }

/-- The mesh scaled to a longest extent of `size`, with the low corner of its bounds at `origin`. -/
def fit (m : Mesh R) (origin : Vec3 R) (size : R) : Mesh R :=
  match m.bounds? with
  | none => m
  | some b =>
    let extent := (b.hi - b.lo).greatestComponent
    if extent ≤ 0 then m.transform 1 (origin - b.lo)
    else
      let scale := size / extent
      m.transform scale (origin - scale • b.lo)

end Mesh
end MaterialPoint
