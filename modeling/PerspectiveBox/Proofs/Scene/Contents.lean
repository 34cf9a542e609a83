import PerspectiveBox.Proofs.Scene.Loading

namespace PerspectiveBox

variable {K : Type} [Scalar K] [Numeric K]

namespace Scene

theorem ofDocument_error_iff (d : Document) (settings : Settings K) (e : SceneError) :
    ofDocument d settings = .error e ↔ settings.validate = .error e := by
  cases hv : settings.validate with
  | error e' => simp only [ofDocument, withSettings, hv, bind, Except.bind, Except.error.injEq]
  | ok u =>
    obtain ⟨t, ht, -⟩ := ofDocument_eq hv d
    rw [ht]
    constructor
    · intro h
      cases h
    · intro h
      cases h

end Scene

end PerspectiveBox
