import PerspectiveBox.Proofs.Scene.Contents
import PerspectiveBox.Proofs.Scene.Overwriting
import PerspectiveBox.Proofs.Settings.Bounds
import PerspectiveBox.Proofs.Settings.RoundTrip

namespace PerspectiveBox

variable {K : Type} [Scalar K]

namespace Scene

def InRange (s : Scene K) : Prop := s.settings.validate = .ok ()

theorem Change.inRange {s t : Scene K} (h : Change s t) (hs : s.InRange) : t.InRange := by
  cases h with
  | settings h => exact h
  | @link key b link =>
    rw [InRange, settings_linked]
    exact hs
  | _ => exact hs

theorem Changes.inRange {s t : Scene K} (h : Changes s t) (hs : s.InRange) : t.InRange := by
  induction h with
  | refl => exact hs
  | tail _ hstep ih => exact hstep.inRange ih

theorem settings_writeBoxes (s : Scene K) (ws : List (BoxKey × Box.Write K)) :
    (s.writeBoxes ws).settings = s.settings := by
  rw [writeBoxes_eq]

theorem inRange_of_withSettings {settings : Settings K} {s : Scene K}
    (h : withSettings settings = .ok s) : s.InRange := by
  cases hv : settings.validate with
  | error e =>
    simp only [withSettings, hv, bind, Except.bind] at h
    cases h
  | ok =>
    rw [eq_of_withSettings h]
    exact hv

variable [Numeric K]

theorem inRange_of_ofDocument {d : Document} {settings : Settings K} {s : Scene K}
    (h : ofDocument d settings = .ok s) : s.InRange := by
  cases hv : settings.validate with
  | error e =>
    rw [(ofDocument_error_iff d settings e).2 hv] at h
    cases h
  | ok => exact Changes.inRange (changes_ofDocument h) hv

theorem InRange.run {s : Scene K} (hs : s.InRange) {α : Type} (c : Command K α) :
    (s.after c.run).InRange := by
  by_cases hc : s.TakesNewId c
  · exact Changes.inRange (changes_command hc) hs
  · cases c with
    | insertPerspective p => exact hs
    | _ => exact absurd trivial hc

-- The scenes that there are when boxes are written to in place as well.
inductive Operated : Scene K → Prop where
  | empty : Operated .empty
  | withSettings {settings : Settings K} {s : Scene K} (h : Scene.withSettings settings = .ok s) :
      Operated s
  | ofDocument {d : Document} {settings : Settings K} {s : Scene K}
      (h : Scene.ofDocument d settings = .ok s) : Operated s
  | run {s : Scene K} {α : Type} (h : Operated s) (c : Command K α) : Operated (s.after c.run)
  | writeBoxes {s : Scene K} (h : Operated s) (ws : List (BoxKey × Box.Write K)) :
      Operated (s.writeBoxes ws)

theorem inRange_empty : (empty : Scene Float).InRange := by
  have hfault : (Settings.default : Settings Float).fault? = none := by decide +kernel
  show (Settings.default : Settings Float).validate = .ok ()
  rw [Settings.validate, hfault]

theorem Operated.inRange {s : Scene Float} (h : s.Operated) : s.InRange := by
  induction h with
  | empty => exact inRange_empty
  | withSettings h => exact inRange_of_withSettings h
  | ofDocument h => exact inRange_of_ofDocument h
  | run _ c ih => exact ih.run c
  | writeBoxes _ ws ih =>
    rw [InRange, settings_writeBoxes]
    exact ih

end Scene

namespace Settings

-- Settings survive their text if they are in range, and others get in neither from a text nor by
-- anything that is done to a scene.
theorem ofToml_toToml_and_validate_of_operated (settings : Settings Float) :
    (settings.validate = .ok () ↔ settings.InBounds) ∧
    (settings.validate = .ok () → ofToml settings.toToml = .ok settings) ∧
    (∀ e, settings.validate = .error e →
      (ofToml settings.toToml : Except SceneError (Settings Float)) = .error e ∧
        ∃ fault, e = .settings fault ∧ settings.HasFault fault) ∧
    ∀ s : Scene Float, s.Operated → s.settings.validate = .ok () := by
  have hread := ofToml_toToml settings
  refine ⟨?_, fun hvalid => ?_, fun e herror => ?_, fun s hs => hs.inRange⟩
  · rw [validate_eq_ok_iff, fault?_eq_none_iff]
  · rw [hread, (validate_eq_ok_iff settings).1 hvalid]
  · obtain ⟨fault, hfault, rfl⟩ := (validate_eq_error_iff settings e).1 herror
    exact ⟨by rw [hread, hfault], fault, rfl, (fault?_eq_some_iff settings fault).1 hfault⟩

-- A threshold of zero with a sign, and the smallest and the largest number.
def extreme : Settings Float :=
  ⟨-0.0, 5e-324, 1.7976931348623157e308, 1e22, .vanishingTriangle⟩

theorem ofToml_toToml_extreme : extreme.validate = .ok () ∧ extreme.InBounds ∧
    ofToml extreme.toToml = .ok extreme ∧
    (Scene.empty : Scene Float).settings.validate = .ok () := by
  have hfault : extreme.fault? = none := by decide +kernel
  have hvalid : extreme.validate = .ok () := (validate_eq_ok_iff extreme).2 hfault
  obtain ⟨hbounds, hread, -, hscenes⟩ := ofToml_toToml_and_validate_of_operated extreme
  exact ⟨hvalid, hbounds.1 hvalid, hread hvalid, hscenes _ .empty⟩

end Settings

end PerspectiveBox
