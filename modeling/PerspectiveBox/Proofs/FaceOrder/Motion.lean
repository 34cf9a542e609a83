import PerspectiveBox.Proofs.FaceOrder.Similar
import PerspectiveBox.Proofs.Plane.Motion

namespace PerspectiveBox

namespace Motion

variable (g : Motion)

def column (p : HPoint2 Rat) : HPoint2 Rat :=
  ⟨g.cos * p.x + -g.sin * p.y + g.dx * p.w, g.sin * p.x + g.cos * p.y + g.dy * p.w, p.w⟩

def projection (m : Projection Rat) : Projection Rat := m.mapColumns g.column

theorem applyAffine_exact (m : Projection Rat) :
    m.exact.applyAffine g.affine = (g.projection m).exact := rfl

-- Where the corners of a box are on screen, and where they are on the moved page.
structure Moves (c : Corners Exact) (m : Projection Rat) (q : AxisSet → Point Rat) : Prop where
  before : ∀ id, c.screen m.exact id = (q id).exact
  after : ∀ id, c.screen (g.projection m).exact id = (g.move (q id)).exact

theorem moves_iff {c : Corners Exact} {m : Projection Rat} {q : AxisSet → Point Rat} :
    g.Moves c m q ↔ g.similarity.Moves c m q :=
  ⟨fun h => ⟨h.before, h.after⟩, fun h => ⟨h.before, h.after⟩⟩

-- No determinant changes, so none crosses the threshold.
theorem Moves.vanishingCase_eq {g : Motion} {c : Corners Exact} {m : Projection Rat}
    {q : AxisSet → Point Rat} (h : g.Moves c m q) (strategy : OrderStrategy) :
    c.vanishingCase (g.projection m).exact strategy = c.vanishingCase m.exact strategy := by
  refine (g.moves_iff.1 h).vanishingCase_eq strategy fun d _ => ?_
  have hfactor : Exact.rational g.similarity.factor * d = d := Exact.one_mul d
  rw [hfactor]

-- A page with all corners of a box on it.
theorem exists_moves {c : Corners Exact} {m : Projection Exact}
    (hfinite : ∀ id, (c.screen m id).isFinite = true) :
    ∃ n q, m = Projection.exact n ∧ g.Moves c n q := by
  simpa only [moves_iff] using g.similarity.exists_moves hfinite

-- A rigid motion of the page changes neither the configuration nor the order.
theorem faceOrder_moved {c : Corners Exact} {m : Projection Exact}
    (hfinite : ∀ id, (c.screen m id).isFinite = true) (strategy : OrderStrategy) :
    c.vanishingCase (m.applyAffine g.affine) strategy = c.vanishingCase m strategy ∧
    c.faceOrder (m.applyAffine g.affine) strategy = c.faceOrder m strategy := by
  obtain ⟨n, q, rfl, hmoves⟩ := g.exists_moves hfinite
  have hcase := hmoves.vanishingCase_eq strategy
  rw [applyAffine_exact]
  refine ⟨hcase, ?_⟩
  rw [Corners.faceOrder, hcase, ← Corners.faceOrder]

end Motion

def slant : Motion := ⟨3 / 5, 4 / 5, 70, -20, by norm_num⟩

def tower : Corners Rat := ⟨⟨4, 4, 0, 1⟩, ⟨1, 2, 3, 1⟩⟩

def towerView : Projection Rat := ⟨⟨400, 0, 1⟩, ⟨-400, 0, 1⟩, ⟨0, 500, 1⟩, ⟨0, 100, 20⟩⟩

theorem faceOrder_moved_tower :
    (∀ id, (tower.exact.screen towerView.exact id).isFinite = true) ∧
    tower.exact.vanishingCase (towerView.exact.applyAffine slant.affine) .vanishingTriangle =
      tower.exact.vanishingCase towerView.exact .vanishingTriangle ∧
    tower.exact.faceOrder (towerView.exact.applyAffine slant.affine) .vanishingTriangle =
      tower.exact.faceOrder towerView.exact .vanishingTriangle := by
  have hfinite (id : AxisSet) : (tower.exact.screen towerView.exact id).isFinite = true := by
    obtain ⟨_ | _, _ | _, _ | _⟩ := id <;> decide +kernel
  exact ⟨hfinite, slant.faceOrder_moved hfinite .vanishingTriangle⟩

end PerspectiveBox
