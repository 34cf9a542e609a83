import PerspectiveBox.Proofs.FaceOrder.Similar

namespace PerspectiveBox

def Similarity.zoom {s : Rat} (h : 0 < s) : Similarity :=
  ⟨s, 0, 0, 0, s * s, by ring, mul_pos h h⟩

theorem Similarity.exact_map_zoom {s : Rat} (h : 0 < s) :
    (zoom h).map.exact = .scale (.rational s) (.rational s) := rfl

-- A zoom multiplies the determinants by the square of its scale and leaves the threshold where it
-- is. As long as this takes none of them across the threshold, the order stays.
theorem faceOrder_zoomed {c : Corners Exact} {m : Projection Exact}
    (hfinite : ∀ id, (c.screen m id).isFinite = true) {s : Rat} (hs : 0 < s)
    (strategy : OrderStrategy) :
    c.determinants (m.applyAffine (.scale (.rational s) (.rational s))) strategy =
      (c.determinants m strategy).map (.rational (s * s) * ·) ∧
    ((∀ d ∈ c.determinants m strategy,
        m.countsAsZero strategy (.rational (s * s) * d) = m.countsAsZero strategy d) →
      c.vanishingCase (m.applyAffine (.scale (.rational s) (.rational s))) strategy =
        c.vanishingCase m strategy ∧
      c.faceOrder (m.applyAffine (.scale (.rational s) (.rational s))) strategy =
        c.faceOrder m strategy) := by
  rw [← Similarity.exact_map_zoom hs]
  exact (Similarity.zoom hs).faceOrder_similar hfinite strategy

def parcel : Corners Rat := ⟨⟨51200, 51200, 0, 1⟩, ⟨0, 0, 51200, 1⟩⟩

def parcelView : Projection Rat :=
  ⟨⟨1 / 512, 0, 0⟩, ⟨0, 1 / 512, 0⟩, ⟨1 / 512, 1 / 512, 0⟩, ⟨100, 100, 1⟩⟩

theorem isFinite_screen_parcel (id : AxisSet) :
    (parcel.exact.screen parcelView.exact id).isFinite = true := by
  obtain ⟨_ | _, _ | _, _ | _⟩ := id <;> decide +kernel

-- Made smaller to two thirds it is stacked as before.
theorem faceOrder_zoomed_parcel :
    (∀ id, (parcel.exact.screen parcelView.exact id).isFinite = true) ∧ (0 : Rat) < 2 / 3 ∧
    (∀ d ∈ parcel.exact.determinants parcelView.exact .sectorHeuristics,
      parcelView.exact.countsAsZero .sectorHeuristics (.rational (2 / 3 * (2 / 3)) * d) =
        parcelView.exact.countsAsZero .sectorHeuristics d) ∧
    parcel.exact.faceOrder
        (parcelView.exact.applyAffine (.scale (.rational (2 / 3)) (.rational (2 / 3))))
        .sectorHeuristics =
      parcel.exact.faceOrder parcelView.exact .sectorHeuristics := by
  have hs : (0 : Rat) < 2 / 3 := by norm_num
  have hkept : ∀ d ∈ parcel.exact.determinants parcelView.exact .sectorHeuristics,
      parcelView.exact.countsAsZero .sectorHeuristics (.rational (2 / 3 * (2 / 3)) * d) =
        parcelView.exact.countsAsZero .sectorHeuristics d := by
    decide +kernel
  obtain ⟨-, hzoom⟩ := faceOrder_zoomed isFinite_screen_parcel hs .sectorHeuristics
  exact ⟨isFinite_screen_parcel, hs, hkept, (hzoom hkept).2⟩

-- At an eighth no direction lies between the other two any more, and the order changes.
theorem faceOrder_ne_zoomed_parcel :
    (∀ id, (parcel.exact.screen parcelView.exact id).isFinite = true) ∧ (0 : Rat) < 1 / 8 ∧
    parcel.exact.faceOrder parcelView.exact .sectorHeuristics = [5, 3, 4, 1, 0, 2] ∧
    parcel.exact.faceOrder
        (parcelView.exact.applyAffine (.scale (.rational (1 / 8)) (.rational (1 / 8))))
        .sectorHeuristics ≠
      parcel.exact.faceOrder parcelView.exact .sectorHeuristics := by
  refine ⟨isFinite_screen_parcel, by norm_num, ?_, ?_⟩ <;> decide +kernel

end PerspectiveBox
