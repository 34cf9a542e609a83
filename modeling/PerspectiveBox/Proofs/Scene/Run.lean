import Mathlib.Data.Option.Basic
import PerspectiveBox.Scene.Command

namespace PerspectiveBox.Scene

variable {K α β : Type}

def after (s : Scene K) (m : SceneM K α) : Scene K :=
  match m.run s with
  | .ok _ t => t
  | .error _ t => t

theorem after_of_run_ok {s t : Scene K} {m : SceneM K α} {a : α} (h : m.run s = .ok a t) :
    s.after m = t := by
  simp only [after, h]

theorem after_of_run_error {s t : Scene K} {m : SceneM K α} {e : SceneError}
    (h : m.run s = .error e t) : s.after m = t := by
  simp only [after, h]

theorem bind_eq_ok_iff {s t : Scene K} {m : SceneM K α} {f : α → SceneM K β} {b : β} :
    (m >>= f).run s = .ok b t ↔ ∃ a u, m.run s = .ok a u ∧ (f a).run u = .ok b t := by
  rw [EStateM.run_bind]
  cases h : m.run s with
  | ok a u =>
    constructor
    · exact fun hf => ⟨a, u, rfl, hf⟩
    · rintro ⟨_, _, he, hf⟩
      cases he
      exact hf
  | error e u =>
    constructor
    · nofun
    · rintro ⟨_, _, he, -⟩
      cases he

theorem after_bind (s : Scene K) (m : SceneM K α) (f : α → SceneM K β) :
    s.after (m >>= f) = match m.run s with
      | .ok a t => t.after (f a)
      | .error _ t => t := by
  simp only [after, EStateM.run_bind]
  cases m.run s <;> rfl

-- What an operation answers with does not matter.
theorem after_bind_pure (s : Scene K) (m : SceneM K α) (f : α → β) :
    s.after (m >>= fun a => pure (f a)) = s.after m := by
  rw [after_bind, after]
  cases m.run s <;> rfl

theorem after_get_bind (s : Scene K) (f : Scene K → SceneM K β) :
    s.after (get >>= f) = s.after (f s) := rfl

theorem after_modify_bind (s : Scene K) (g : Scene K → Scene K) (f : PUnit → SceneM K β) :
    s.after ((modify g : SceneM K PUnit) >>= f) = (g s).after (f ⟨⟩) := rfl

theorem after_modifyGet_bind (s : Scene K) (g : Scene K → α × Scene K) (f : α → SceneM K β) :
    s.after ((modifyGet g : SceneM K α) >>= f) = (g s).2.after (f (g s).1) := rfl

theorem after_ite (s : Scene K) (p : Prop) [Decidable p] (m n : SceneM K α) :
    s.after (if p then m else n) = if p then s.after m else s.after n := by
  split <;> rfl

theorem setSettings_run [Scalar K] (settings : Settings K) (s : Scene K) :
    (setSettings settings).run s = match settings.validate with
      | .ok _ => .ok ⟨⟩ { s with settings := settings }
      | .error e => .error e s := by
  cases h : settings.validate <;> simp only [setSettings, h] <;> rfl

theorem after_perspective_bind (s : Scene K) (key : PerspectiveKey)
    (f : Perspective K → SceneM K β) :
    s.after (perspective key >>= f) = match s.perspectives.get? key with
      | some p => s.after (f p)
      | none => s := by
  rw [after_bind, perspective_run]
  cases s.perspectives.get? key <;> rfl

theorem after_box_bind (s : Scene K) (key : BoxKey) (f : Box K → SceneM K β) :
    s.after (box key >>= f) = match s.boxes.get? key with
      | some b => s.after (f b)
      | none => s := by
  rw [after_bind, box_run]
  cases s.boxes.get? key <;> rfl

theorem get?_of_findPerspective {s : Scene K} {id : String} {key : PerspectiveKey}
    (h : s.findPerspective id = some key) :
    ∃ p, s.perspectives.get? key = some p ∧ p.id = id := by
  rw [findPerspective] at h
  obtain ⟨p, hp, hid⟩ := SlotTable.get?_of_find? h
  exact ⟨p, hp, beq_iff_eq.1 hid⟩

theorem findPerspective_eq_none_iff (s : Scene K) (id : String) :
    s.findPerspective id = none ↔ ∀ p ∈ s.perspectives.values, p.id ≠ id := by
  rw [findPerspective, SlotTable.find?, Option.map_eq_none_iff, List.find?_eq_none,
    SlotTable.values, List.forall_mem_map]
  refine forall₂_congr fun e he => ?_
  rw [beq_iff_eq]

-- The perspective of a box is one of the scene.
theorem perspectiveOf?_eq_some_iff {s : Scene K} {b : BoxKey} {p : PerspectiveKey} :
    s.perspectiveOf? b = some p ↔
      ∃ x q, s.boxes.get? b = some x ∧ x.link.target = some p ∧ s.perspectives.get? p = some q := by
  constructor
  · intro h
    simp only [perspectiveOf?, Option.bind_eq_bind, Option.bind_eq_some_iff] at h
    obtain ⟨x, hx, q, hq, h⟩ := h
    obtain ⟨u, hu, h⟩ := h
    cases h
    obtain ⟨r, hr⟩ := (SlotTable.contains_iff _ _).1 ((Option.guard_eq_some' u).1 hu)
    exact ⟨x, r, hx, hq, hr⟩
  · rintro ⟨x, q, hx, hp, hq⟩
    have hc : s.perspectives.contains p = true := (SlotTable.contains_iff _ _).2 ⟨q, hq⟩
    have hguard := (Option.guard_eq_some' ()).2 hc
    simp only [perspectiveOf?, hx, hp, hguard, Option.bind_eq_bind, Option.bind_some]
    rfl

theorem perspectiveOf_run (key : BoxKey) (s : Scene K) :
    (perspectiveOf key).run s = match s.boxes.get? key, s.perspectiveOf? key with
      | some _, some p => .ok p s
      | some _, none => .error .noPerspective s
      | none, _ => .error (.unknownBox key) s := by
  simp only [perspectiveOf, EStateM.run_bind, box_run]
  cases s.boxes.get? key with
  | none => rfl
  | some x =>
    simp only [EStateM.run_get]
    cases s.perspectiveOf? key <;> rfl

theorem mapOf_run_of_some {s : Scene K} {key : BoxKey} {m : Projection K}
    (h : s.mapOf? key = some m) : (mapOf key).run s = .ok m s := by
  simp only [mapOf?, Option.map_eq_some_iff, Option.bind_eq_some_iff] at h
  obtain ⟨q, ⟨p, hp, hq⟩, rfl⟩ := h
  obtain ⟨x, -, hx, -, -⟩ := perspectiveOf?_eq_some_iff.1 hp
  simp only [mapOf, EStateM.run_bind, perspectiveOf_run, hx, hp, perspective_run, hq,
    EStateM.run_pure]

-- A box without a projection is one without a perspective.
theorem mapOf_run_of_box {s : Scene K} {key : BoxKey} {b : Box K}
    (hb : s.boxes.get? key = some b) (hm : s.mapOf? key = none) :
    (mapOf key).run s = .error .noPerspective s := by
  have hp : s.perspectiveOf? key = none := by
    cases hp : s.perspectiveOf? key with
    | none => rfl
    | some p =>
      obtain ⟨-, q, -, -, hq⟩ := perspectiveOf?_eq_some_iff.1 hp
      rw [mapOf?, hp, Option.bind_some, hq] at hm
      cases hm
  rw [mapOf, EStateM.run_bind, perspectiveOf_run, hb, hp]

theorem mapOf_run_of_none {s : Scene K} {key : BoxKey} (h : s.mapOf? key = none) :
    ∃ e, (mapOf key).run s = .error e s := by
  cases hb : s.boxes.get? key with
  | none => exact ⟨.unknownBox key, by rw [mapOf, EStateM.run_bind, perspectiveOf_run, hb]⟩
  | some b => exact ⟨_, mapOf_run_of_box hb h⟩

theorem box_of_mapOf? {s : Scene K} {key : BoxKey} {m : Projection K}
    (hm : s.mapOf? key = some m) : ∃ b, s.boxes.get? key = some b := by
  cases hb : s.boxes.get? key with
  | some b => exact ⟨b, rfl⟩
  | none =>
    rw [mapOf?, perspectiveOf?, hb] at hm
    cases hm

-- The projection that a box with this link is subject to.
def mapFor (s : Scene K) (link : Link) : Option (Projection K) :=
  (link.target.bind s.perspectives.get?).map Perspective.map

theorem mapOf?_eq {s : Scene K} {key : BoxKey} {b : Box K} (hb : s.boxes.get? key = some b) :
    s.mapOf? key = s.mapFor b.link := by
  cases hp : s.perspectiveOf? key with
  | some p =>
    obtain ⟨x, q, hx, ht, -⟩ := perspectiveOf?_eq_some_iff.1 hp
    rw [hb, Option.some.injEq] at hx
    rw [mapOf?, mapFor, hp, hx, ht]
  | none =>
    have hnone : b.link.target.bind s.perspectives.get? = none := by
      refine Option.bind_eq_none_iff.2 fun p ht => ?_
      cases hq : s.perspectives.get? p with
      | none => rfl
      | some q =>
        rw [perspectiveOf?_eq_some_iff.2 ⟨b, q, hb, ht, hq⟩] at hp
        cases hp
    rw [mapOf?, mapFor, hp, hnone]
    rfl

theorem after_mapOf_bind (s : Scene K) (key : BoxKey) (f : Projection K → SceneM K β) :
    s.after (mapOf key >>= f) = match s.mapOf? key with
      | some m => s.after (f m)
      | none => s := by
  rw [after_bind]
  cases h : s.mapOf? key with
  | none =>
    obtain ⟨e, he⟩ := mapOf_run_of_none h
    rw [he]
  | some m => rw [mapOf_run_of_some h]

section Lookup

variable {I : Scene K → Prop} {s : Scene K}

-- A look-up that finds nothing leaves the scene as it is.
theorem of_perspective_bind {key : PerspectiveKey} {f : Perspective K → SceneM K β} (h : I s)
    (hf : ∀ p, s.perspectives.get? key = some p → I (s.after (f p))) :
    I (s.after (perspective key >>= f)) := by
  rw [after_perspective_bind]
  cases hp : s.perspectives.get? key with
  | none => exact h
  | some p => exact hf p hp

theorem of_box_bind {key : BoxKey} {f : Box K → SceneM K β} (h : I s)
    (hf : ∀ b, s.boxes.get? key = some b → I (s.after (f b))) : I (s.after (box key >>= f)) := by
  rw [after_box_bind]
  cases hb : s.boxes.get? key with
  | none => exact h
  | some b => exact hf b hb

theorem of_mapOf_bind {key : BoxKey} {f : Projection K → SceneM K β} (h : I s)
    (hf : ∀ m, s.mapOf? key = some m → I (s.after (f m))) : I (s.after (mapOf key >>= f)) := by
  rw [after_mapOf_bind]
  cases hm : s.mapOf? key with
  | none => exact h
  | some m => exact hf m hm

end Lookup

theorem updateBox_run [Scalar K] {s : Scene K} {key : BoxKey} {m : Projection K}
    (hm : s.mapOf? key = some m) : (updateBox key).run s =
      .ok ⟨⟩ (s.modifyBox key fun b => b.update m s.settings.strategy) := by
  rw [updateBox, EStateM.run_bind, mapOf_run_of_some hm]
  rfl

-- A drag does what the motion does, and updates the box.
theorem drag_run [Scalar K]
    (motion : Box K → Projection K → Except SceneError (Box K × DragSession K)) {s : Scene K}
    {key : BoxKey} {b : Box K} {m : Projection K} (hb : s.boxes.get? key = some b)
    (hm : s.mapOf? key = some m) : (drag key motion).run s = match motion b m with
      | .ok (moved, session) =>
        .ok session (s.modifyBox key fun _ => moved.update m s.settings.strategy)
      | .error e => .error e s := by
  rw [drag, EStateM.run_bind, mapOf_run_of_some hm]
  simp only
  rw [EStateM.run_bind, box_run, hb]
  simp only
  cases motion b m <;> rfl

theorem drag_run_of_none [Scalar K]
    (motion : Box K → Projection K → Except SceneError (Box K × DragSession K)) {s : Scene K}
    {key : BoxKey} (hm : s.mapOf? key = none) : ∃ e, (drag key motion).run s = .error e s := by
  obtain ⟨e, he⟩ := mapOf_run_of_none hm
  exact ⟨e, by rw [drag, EStateM.run_bind, he]⟩

-- A drag that is refused leaves the scene as it is.
theorem of_drag [Scalar K] {I : Scene K → Prop}
    {motion : Box K → Projection K → Except SceneError (Box K × DragSession K)} {s : Scene K}
    {key : BoxKey} (h : I s) (hf : ∀ {b m moved session}, s.boxes.get? key = some b →
      s.mapOf? key = some m → motion b m = .ok (moved, session) →
      I (s.modifyBox key fun _ => moved.update m s.settings.strategy)) :
    I (s.after (drag key motion)) := by
  cases hm : s.mapOf? key with
  | none =>
    obtain ⟨e, he⟩ := drag_run_of_none motion hm
    rw [after_of_run_error he]
    exact h
  | some m =>
    obtain ⟨b, hb⟩ := box_of_mapOf? hm
    have hrun := drag_run motion hb hm
    cases hr : motion b m with
    | error e =>
      rw [hr] at hrun
      rw [after_of_run_error hrun]
      exact h
    | ok r =>
      rw [hr] at hrun
      rw [after_of_run_ok hrun]
      exact hf hb hm hr

-- A box that is linked by a reference stays as it is, is detached, or is redrawn in the perspective
-- that the reference leads to.
theorem of_setHref [Scalar K] {I : Scene K → Prop} {s : Scene K} {key : BoxKey}
    {href : Option String} (h : I s) (hdetach : I (s.after (detach key)))
    (hlink : ∀ {text id}, Reference.read text = .ok id →
      I (s.after (setLink key ⟨text, s.findPerspective id⟩ >>= fun _ =>
        modify fun s => s.redrawBox key))) :
    I (s.after (setHref key href)) := by
  have hdetached : I (s.after (detach key >>= fun _ => pure ())) := by
    rw [after_bind_pure]
    exact hdetach
  unfold setHref
  refine of_box_bind h fun b _ => ?_
  cases href with
  | none => exact hdetached
  | some text =>
    simp only [after_ite]
    split
    · exact h
    · cases hread : Reference.read text with
      | error e =>
        simp only [Option.map_some, hread]
        exact hdetached
      | ok id =>
        simp only [Option.map_some, hread, after_get_bind]
        exact hlink hread

theorem modifyBox_congr {s : Scene K} {key : BoxKey} {b : Box K} (h : s.boxes.get? key = some b)
    {f g : Box K → Box K} (hfg : f b = g b) : s.modifyBox key f = s.modifyBox key g := by
  rw [modifyBox, modifyBox, SlotTable.modify_congr h hfg]

theorem modifyBox_eq_self {s : Scene K} {key : BoxKey} {f : Box K → Box K}
    (h : ∀ b, s.boxes.get? key = some b → f b = b) : s.modifyBox key f = s := by
  rw [modifyBox, SlotTable.modify_eq_self h]

theorem modifyBox_modifyBox (s : Scene K) (key : BoxKey) (f g : Box K → Box K) :
    (s.modifyBox key f).modifyBox key g = s.modifyBox key fun b => g (f b) := by
  simp only [modifyBox, SlotTable.modify_modify]

theorem modifyPerspective_congr {s : Scene K} {key : PerspectiveKey} {p : Perspective K}
    (h : s.perspectives.get? key = some p) {f g : Perspective K → Perspective K}
    (hfg : f p = g p) : s.modifyPerspective key f = s.modifyPerspective key g := by
  rw [modifyPerspective, modifyPerspective, SlotTable.modify_congr h hfg]

theorem modifyPerspective_eq_self {s : Scene K} {key : PerspectiveKey}
    {f : Perspective K → Perspective K}
    (h : ∀ p, s.perspectives.get? key = some p → f p = p) : s.modifyPerspective key f = s := by
  rw [modifyPerspective, SlotTable.modify_eq_self h]

theorem get?_modifyPerspective {s : Scene K} {key : PerspectiveKey} {q : Perspective K}
    (hq : s.perspectives.get? key = some q) (f : Perspective K → Perspective K) :
    (s.modifyPerspective key f).perspectives.get? key = some (f q) := by
  rw [modifyPerspective, SlotTable.get?_modify, if_pos rfl, hq]
  rfl

theorem get?_modifyBox {s : Scene K} {key : BoxKey} {b : Box K}
    (hb : s.boxes.get? key = some b) (f : Box K → Box K) :
    (s.modifyBox key f).boxes.get? key = some (f b) := by
  rw [modifyBox, SlotTable.get?_modify, if_pos rfl, hb]
  rfl

-- Whatever comes of the operation, it leaves a scene with the property behind.
def Keeps (I : Scene K → Prop) (m : SceneM K α) : Prop := ∀ s, I s → I (s.after m)

namespace Keeps

variable {I : Scene K → Prop}

theorem pure (a : α) : Keeps I (Pure.pure a : SceneM K α) := fun _ h => h

theorem bind {m : SceneM K α} {f : α → SceneM K β} (hm : Keeps I m) (hf : ∀ a, Keeps I (f a)) :
    Keeps I (m >>= f) := by
  intro s hs
  have hafter := hm s hs
  rw [after_bind]
  cases h : m.run s with
  | ok a t =>
    rw [after_of_run_ok h] at hafter
    exact hf a t hafter
  | error e t =>
    rw [after_of_run_error h] at hafter
    exact hafter

theorem forM {f : α → SceneM K PUnit} {l : List α} (hf : ∀ a ∈ l, Keeps I (f a)) :
    Keeps I (l.forM f) := by
  induction l with
  | nil => exact .pure _
  | cons a l ih =>
    obtain ⟨ha, hl⟩ := List.forall_mem_cons.1 hf
    exact ha.bind fun _ => ih hl

theorem mapM {f : α → SceneM K β} (hf : ∀ a, Keeps I (f a)) (l : List α) :
    Keeps I (l.mapM f) := by
  induction l with
  | nil => exact .pure _
  | cons a l ih =>
    rw [List.mapM_cons]
    exact (hf a).bind fun _ => ih.bind fun _ => .pure _

-- An operation that only looks something up keeps everything.
theorem of_after_eq {m : SceneM K α} (h : ∀ s : Scene K, s.after m = s) : Keeps I m := by
  intro s hs
  rw [h]
  exact hs

end Keeps

end PerspectiveBox.Scene
