import PerspectiveBox.Proofs.Scene.NumberSearch
import PerspectiveBox.Proofs.Scene.Reachable

namespace PerspectiveBox

variable {K : Type}

inductive Owner where
  | perspective (key : PerspectiveKey)
  | box (key : BoxKey)
  deriving DecidableEq

-- What the ids generated for it start with.
def Owner.stem : Owner → String
  | perspective _ => "perspective"
  | box _ => "box3d"

theorem Owner.number_eq {o₀ o : Owner} {m n : Nat}
    (h : o₀.stem ++ toString m = o.stem ++ toString n) : m = n := by
  have hstems (m n : Nat) : "perspective" ++ toString m ≠ "box3d" ++ toString n := fun heq => by
    have hhead := congrArg (fun id => id.toList.head?) heq
    simp [String.toList_append] at hhead
  cases o₀ <;> cases o
  · exact (Scene.numbered_inj _).1 h
  · exact absurd h (hstems m n)
  · exact absurd h.symm (hstems n m)
  · exact (Scene.numbered_inj _).1 h

namespace Scene

def idOf? (s : Scene K) : Owner → Option String
  | .perspective key => (s.perspectives.get? key).map Perspective.id
  | .box key => (s.boxes.get? key).map Box.id

theorem mem_ids_iff (s : Scene K) (id : String) : id ∈ s.ids ↔ ∃ o, s.idOf? o = some id := by
  simp only [ids, List.mem_append, List.mem_map, SlotTable.mem_values_iff]
  constructor
  · rintro (⟨p, ⟨key, hp⟩, rfl⟩ | ⟨b, ⟨key, hb⟩, rfl⟩)
    · exact ⟨.perspective key, congrArg (Option.map Perspective.id) hp⟩
    · exact ⟨.box key, congrArg (Option.map Box.id) hb⟩
  · rintro ⟨key | key, h⟩
    · obtain ⟨p, hp, rfl⟩ := Option.map_eq_some_iff.1 h
      exact .inl ⟨p, ⟨key, hp⟩, rfl⟩
    · obtain ⟨b, hb, rfl⟩ := Option.map_eq_some_iff.1 h
      exact .inr ⟨b, ⟨key, hb⟩, rfl⟩

-- In the later scene there is something new of this id.
def NewIn (s t : Scene K) (o : Owner) (id : String) : Prop :=
  s.idOf? o = none ∧ t.idOf? o = some id

-- Something is put in under generated ids, and nothing that was there is taken out or renamed.
structure Minted (s t : Scene K) : Prop where
  kept : ∀ {o id}, s.idOf? o = some id → t.idOf? o = some id
  counted : s.lastNumber ≤ t.lastNumber
  numbered : ∀ {o id}, NewIn s t o id →
    ∃ n, id = o.stem ++ toString n ∧ s.lastNumber < n ∧ n ≤ t.lastNumber
  unique : ∀ {o id}, NewIn s t o id → ∀ other, t.idOf? other = some id → other = o

theorem Minted.none_of_none {s t : Scene K} (h : Minted s t) {o : Owner}
    (ht : t.idOf? o = none) : s.idOf? o = none := by
  cases hs : s.idOf? o with
  | none => rfl
  | some id =>
    rw [h.kept hs] at ht
    cases ht

theorem Minted.free {s t : Scene K} (h : Minted s t) {o : Owner} {id : String}
    (hnew : NewIn s t o id) : id ∉ s.ids := by
  intro hmem
  obtain ⟨other, hother⟩ := (s.mem_ids_iff id).1 hmem
  have hsame := h.unique hnew other (h.kept hother)
  rw [hsame, hnew.1] at hother
  cases hother

theorem Minted.trans {s t u : Scene K} (hst : Minted s t) (htu : Minted t u) : Minted s u where
  kept h := htu.kept (hst.kept h)
  counted := hst.counted.trans htu.counted
  numbered {o id} h := by
    cases ht : t.idOf? o with
    | none =>
      obtain ⟨n, hid, hlast, hle⟩ := htu.numbered ⟨ht, h.2⟩
      exact ⟨n, hid, hst.counted.trans_lt hlast, hle⟩
    | some old =>
      have hsame := htu.kept ht
      rw [h.2, Option.some.injEq] at hsame
      obtain ⟨n, hid, hlast, hle⟩ := hst.numbered ⟨h.1, ht⟩
      exact ⟨n, hsame.trans hid, hlast, hle.trans htu.counted⟩
  unique {o id} h other hother := by
    cases ht : t.idOf? o with
    | none => exact htu.unique ⟨ht, h.2⟩ other hother
    | some old =>
      have hsame := htu.kept ht
      rw [h.2, Option.some.injEq] at hsame
      cases hother' : t.idOf? other with
      | none => exact (htu.unique ⟨hother', hother⟩ o h.2).symm
      | some id' =>
        have hsame' := htu.kept hother'
        rw [hother, Option.some.injEq] at hsame'
        exact hst.unique ⟨h.1, ht⟩ other (by rw [hother', ← hsame', hsame])

-- What is generated later has a higher number. This holds of different kinds of things as well,
-- since they have one counter.
theorem Minted.not_newIn {s₀ t₀ s t : Scene K} (h₀ : Minted s₀ t₀)
    (hlater : t₀.lastNumber ≤ s.lastNumber) (h : Minted s t) {o₀ o : Owner} {id : String}
    (hnew₀ : NewIn s₀ t₀ o₀ id) : ¬ NewIn s t o id := by
  intro hnew
  obtain ⟨m, hm, -, hle⟩ := h₀.numbered hnew₀
  obtain ⟨n, hn, hlt, -⟩ := h.numbered hnew
  have heq := Owner.number_eq (hm.symm.trans hn)
  omega

-- Nothing is put in, taken out or renamed.
structure SameIds (s t : Scene K) : Prop where
  idOf? : ∀ o, t.idOf? o = s.idOf? o
  lastNumber : t.lastNumber = s.lastNumber

theorem SameIds.refl (s : Scene K) : SameIds s s := ⟨fun _ => rfl, rfl⟩

theorem SameIds.trans {s t u : Scene K} (hst : SameIds s t) (htu : SameIds t u) : SameIds s u :=
  ⟨fun o => (htu.idOf? o).trans (hst.idOf? o), htu.lastNumber.trans hst.lastNumber⟩

theorem SameIds.minted {s t : Scene K} (h : SameIds s t) : Minted s t where
  kept {o id} hid := (h.idOf? o).trans hid
  counted := h.lastNumber.ge
  numbered {o id} hnew := by
    rw [NewIn, h.idOf?] at hnew
    cases hnew.1.symm.trans hnew.2
  unique {o id} hnew := by
    rw [NewIn, h.idOf?] at hnew
    cases hnew.1.symm.trans hnew.2

theorem sameIds_modifyPerspective (s : Scene K) (key : PerspectiveKey)
    {f : Perspective K → Perspective K} (hf : ∀ p, (f p).id = p.id) :
    SameIds s (s.modifyPerspective key f) := by
  refine ⟨fun o => ?_, rfl⟩
  cases o with
  | box k => rfl
  | perspective k => exact s.perspectives.map_get?_modify key k hf

theorem sameIds_modifyBox (s : Scene K) (key : BoxKey) {f : Box K → Box K}
    (hf : ∀ b, (f b).id = b.id) : SameIds s (s.modifyBox key f) := by
  refine ⟨fun o => ?_, rfl⟩
  cases o with
  | perspective k => rfl
  | box k => exact s.boxes.map_get?_modify key k hf

theorem sameIds_modifyBoxes (s : Scene K) (keys : List BoxKey) {f : Box K → Box K}
    (hf : ∀ b, (f b).id = b.id) : SameIds s (s.modifyBoxes keys f) := by
  induction keys generalizing s with
  | nil => exact .refl s
  | cons key keys ih => exact (sameIds_modifyBox s key hf).trans (ih (s.modifyBox key f))

theorem sameIds_modifyTarget (s : Scene K) (target : Option PerspectiveKey)
    {f : Perspective K → Perspective K} (hf : ∀ p, (f p).id = p.id) :
    SameIds s (s.modifyTarget target f) := by
  cases target with
  | none => exact .refl s
  | some p => exact sameIds_modifyPerspective s p hf

theorem sameIds_linked (s : Scene K) (key : BoxKey) (old : Option PerspectiveKey) (link : Link) :
    SameIds s (s.linked key old link) := by
  refine (sameIds_modifyBox s key (f := fun b => { b with link := link }) fun _ => rfl).trans ?_
  rw [linked, relist]
  split
  · exact (sameIds_modifyTarget _ old (f := fun p => p.removeBox key) fun _ => rfl).trans
      (sameIds_modifyTarget _ link.target fun p => p.addBox_id key)
  · exact .refl _

variable [Scalar K]

theorem sameIds_redrawBox (s : Scene K) (key : BoxKey) : SameIds s (s.redrawBox key) := by
  rw [redrawBox]
  cases s.mapOf? key with
  | none => exact .refl s
  | some m => exact sameIds_modifyBox s key fun b => (b.edited_link (.redraw m)).1

theorem sameIds_attach (s : Scene K) (key : BoxKey) (p : PerspectiveKey) :
    SameIds s (s.after (attach key p)) := by
  rw [attach]
  refine of_perspective_bind (I := SameIds s) (.refl s) fun q _ => ?_
  rw [after_bind]
  cases hb : s.boxes.get? key with
  | none =>
    rw [setLink_run_of_none hb]
    exact .refl s
  | some b =>
    rw [setLink_run_of_some hb]
    exact (sameIds_linked s key _ _).trans (sameIds_redrawBox _ key)

theorem sameIds_move (s : Scene K) (key : BoxKey) (p : PerspectiveKey) :
    SameIds s (s.after (move key p)) := by
  rw [move]
  refine of_box_bind (I := SameIds s) (.refl s) fun _ _ => ?_
  rw [after_bind_pure]
  exact sameIds_attach s key p

theorem sameIds_refreshBoxes (s : Scene K) (p : PerspectiveKey) :
    SameIds s (s.after (refreshBoxes p)) := by
  rw [refreshBoxes, changeBoxes]
  exact of_perspective_bind (I := SameIds s) (.refl s) fun q _ =>
    sameIds_modifyBoxes s q.boxes fun b =>
      ((b.saveCorners).edited_link (.update q.map s.settings.strategy)).1

section Insert

variable {s t : Scene K} {o : Owner}

omit [Scalar K] in
-- What is put in under the next generated id.
theorem minted_of_insert (hnew : s.idOf? o = none)
    (hids : ∀ other, t.idOf? other =
      if other = o then some (s.freshId o.stem).1 else s.idOf? other)
    (hlast : t.lastNumber = (s.freshId o.stem).2.lastNumber) : Minted s t := by
  have hnumber := s.lastNumber_freshId o.stem
  rw [← hlast] at hnumber
  have hother {other : Owner} (hother : t.idOf? other = some (s.freshId o.stem).1) :
      other = o := by
    by_contra hne
    rw [hids, if_neg hne] at hother
    exact s.freshId_notMem o.stem ((s.mem_ids_iff _).2 ⟨other, hother⟩)
  have howner {other : Owner} {id : String} (h : NewIn s t other id) :
      other = o ∧ id = (s.freshId o.stem).1 := by
    obtain ⟨hbefore, hafter⟩ := h
    rw [hids] at hafter
    split at hafter
    · next heq => exact ⟨heq, (Option.some.inj hafter).symm⟩
    · cases hbefore.symm.trans hafter
  refine ⟨fun {other id} hid => ?_, hnumber.1.le, fun {other id} h => ?_,
    fun {other id} h another ha => ?_⟩
  · rw [hids, if_neg, hid]
    rintro rfl
    rw [hid] at hnew
    cases hnew
  · obtain ⟨rfl, rfl⟩ := howner h
    exact ⟨t.lastNumber, by rw [hlast]; rfl, hnumber.1, le_rfl⟩
  · obtain ⟨rfl, rfl⟩ := howner h
    exact hother ha

omit [Scalar K] in
theorem idOf?_insertPerspective (s : Scene K) (p : Perspective K) (o : Owner) :
    (s.insertPerspective p).2.idOf? o =
      if o = .perspective (s.insertPerspective p).1 then some p.id else s.idOf? o := by
  cases o with
  | box key => rfl
  | perspective key =>
    simp only [idOf?, Owner.perspective.injEq, insertPerspective, SlotTable.get?_insert]
    split <;> rfl

omit [Scalar K] in
theorem idOf?_insertBox (s : Scene K) (b : Box K) (o : Owner) :
    (s.insertBox b).2.idOf? o =
      if o = .box (s.insertBox b).1 then some b.id else s.idOf? o := by
  cases o with
  | perspective key => rfl
  | box key =>
    simp only [idOf?, Owner.box.injEq, insertBox, SlotTable.get?_insert]
    split <;> rfl

omit [Scalar K] in
theorem newIn_insertPerspective (s : Scene K) (p : Perspective K) :
    NewIn s (s.insertPerspective p).2 (.perspective (s.insertPerspective p).1) p.id := by
  refine ⟨?_, by rw [idOf?_insertPerspective, if_pos rfl]⟩
  exact Option.map_eq_none_iff.2 (SlotTable.get?_insert_key s.perspectives _)

omit [Scalar K] in
theorem newIn_insertBox (s : Scene K) (b : Box K) :
    NewIn s (s.insertBox b).2 (.box (s.insertBox b).1) b.id := by
  refine ⟨?_, by rw [idOf?_insertBox, if_pos rfl]⟩
  exact Option.map_eq_none_iff.2 (SlotTable.get?_insert_key s.boxes _)

omit [Scalar K] in
theorem minted_insertPerspective (s : Scene K) {p : Perspective K}
    (hp : p.id = (s.freshId "perspective").1) :
    Minted s ((s.freshId "perspective").2.insertPerspective p).2 := by
  have hnew : s.idOf? (.perspective ((s.freshId "perspective").2.insertPerspective p).1) = none :=
    (newIn_insertPerspective (s.freshId "perspective").2 p).1
  refine minted_of_insert hnew (fun other => ?_) rfl
  rw [idOf?_insertPerspective, hp]
  rfl

omit [Scalar K] in
theorem minted_insertBox (s : Scene K) {b : Box K} (hb : b.id = (s.freshId "box3d").1) :
    Minted s ((s.freshId "box3d").2.insertBox b).2 := by
  have hnew : s.idOf? (.box ((s.freshId "box3d").2.insertBox b).1) = none :=
    (newIn_insertBox (s.freshId "box3d").2 b).1
  refine minted_of_insert hnew (fun other => ?_) rfl
  rw [idOf?_insertBox, hb]
  rfl

end Insert

section Operations

omit [Scalar K] in
-- A look-up that finds something leaves the scene as it is.
theorem eq_of_perspective_run {s t : Scene K} {key : PerspectiveKey} {p : Perspective K}
    (h : (perspective key).run s = .ok p t) : t = s := by
  rw [perspective_run] at h
  cases hp : s.perspectives.get? key with
  | none =>
    rw [hp] at h
    cases h
  | some q =>
    rw [hp] at h
    cases h
    rfl

variable {α : Type} {s₀ : Scene K}

omit [Scalar K] in
theorem SameIds.keeps {m : SceneM K α} (h : ∀ s, SameIds s (s.after m)) : Keeps (Minted s₀) m :=
  fun s hs => hs.trans (h s).minted

omit [Scalar K] in
theorem minted_addPerspective (s : Scene K) (map : Projection K) :
    Minted s (s.addPerspective map).2 := minted_insertPerspective s rfl

theorem minted_addDefaultPerspective (s : Scene K) : Minted s s.addDefaultPerspective.2 :=
  minted_insertPerspective s rfl

omit [Scalar K] in
theorem minted_duplicatePerspective (p : PerspectiveKey) :
    Keeps (Minted s₀) (duplicatePerspective p : SceneM K PerspectiveKey) := by
  intro s hs
  rw [duplicatePerspective]
  exact of_perspective_bind hs fun q _ => hs.trans (minted_addPerspective s q.map)

theorem minted_currentOrDefault (s : Scene K) : Minted s s.currentOrDefault.2 := by
  rw [currentOrDefault]
  cases s.current.filter s.perspectives.contains with
  | some key => exact (SameIds.refl s).minted
  | none =>
    have hcurrent : SameIds s.addDefaultPerspective.2
        { s.addDefaultPerspective.2 with current := some s.addDefaultPerspective.1 } :=
      ⟨fun o => by cases o <;> rfl, rfl⟩
    exact (minted_addDefaultPerspective s).trans hcurrent.minted

theorem minted_isolate (p : PerspectiveKey) (selection : List BoxKey) :
    Keeps (Minted s₀) (isolate p selection : SceneM K PerspectiveKey) := by
  refine (Keeps.of_after_eq fun s => after_hasAllBoxes s p selection).bind fun all s hs => ?_
  rw [after_ite]
  split
  · exact hs
  · refine (minted_duplicatePerspective p).bind (fun fork => ?_) s hs
    refine (Keeps.of_after_eq fun t => after_selectedBoxes t p selection).bind fun keys => ?_
    exact (Keeps.forM fun key _ => SameIds.keeps fun t => sameIds_move t key fork).bind
      fun _ => .pure _

theorem minted_transformSelection (selection : List BoxKey) (f : Affine K) :
    Keeps (Minted s₀) (transformSelection selection f) := by
  intro s
  refine Keeps.mapM (fun p => (minted_isolate p selection).bind fun target t ht => ?_)
    (s.selectedPerspectives selection) s
  simp only [after_modify_bind, after_bind_pure]
  have hmap := sameIds_modifyPerspective t target (f := fun p => p.applyAffine f) fun _ => rfl
  exact ht.trans (hmap.trans (sameIds_refreshBoxes _ target)).minted

theorem minted_addTo (p : PerspectiveKey) {make : String → Box K}
    (hmake : ∀ id, (make id).id = id) : Keeps (Minted s₀) (addTo p make) := by
  intro s hs
  rw [addTo, after_modifyGet_bind, after_modifyGet_bind, after_bind_pure]
  have hput := hs.trans (minted_insertBox s (hmake (s.freshId "box3d").1))
  exact SameIds.keeps (fun t => sameIds_attach t _ p) _ hput

theorem addTo_run (p : PerspectiveKey) (make : String → Box K) (s : Scene K) :
    (addTo p make).run s =
      (attach ((s.freshId "box3d").2.insertBox (make (s.freshId "box3d").1)).1 p >>= fun _ =>
        pure ((s.freshId "box3d").2.insertBox (make (s.freshId "box3d").1)).1).run
          ((s.freshId "box3d").2.insertBox (make (s.freshId "box3d").1)).2 := rfl

-- The box that is put in is a new one.
theorem newIn_addTo {p : PerspectiveKey} {make : String → Box K} {s t : Scene K} {key : BoxKey}
    (h : (addTo p make).run s = .ok key t) : ∃ id, NewIn s t (.box key) id := by
  rw [addTo_run] at h
  have hnew := newIn_insertBox (s.freshId "box3d").2 (make (s.freshId "box3d").1)
  generalize ((s.freshId "box3d").2.insertBox (make (s.freshId "box3d").1)) = put at h hnew
  obtain ⟨change, u, hattach, h⟩ := bind_eq_ok_iff.1 h
  cases h
  have hsame := sameIds_attach put.2 put.1 p
  rw [after_of_run_ok hattach] at hsame
  exact ⟨_, hnew.1, (hsame.idOf? _).trans hnew.2⟩

omit [Scalar K] in
theorem newIn_addPerspective (s : Scene K) (map : Projection K) :
    ∃ id, NewIn s (s.addPerspective map).2 (.perspective (s.addPerspective map).1) id :=
  ⟨_, newIn_insertPerspective (s.freshId "perspective").2 ⟨_, map, []⟩⟩

end Operations

end Scene

-- The commands that put something in under ids of their own making, with what an answer names of
-- it. The copies of perspectives that moving a selection makes are not named in the answer.
def Command.made? {α : Type} : Command K α → Option (α → List Owner)
  | .addPerspective _ => some fun key => [.perspective key]
  | .addDefaultPerspective => some fun key => [.perspective key]
  | .duplicatePerspective _ => some fun key => [.perspective key]
  | .transformSelection _ _ => some fun _ => []
  | .addBox _ _ => some fun key => [.box key]
  | .addCreatedBox _ => some fun key => [.box key]
  | _ => none

namespace Scene

variable [Scalar K] [Numeric K] {α : Type} {s : Scene K} {c : Command K α}
  {made : α → List Owner}

theorem minted_command (hc : c.made? = some made) : Minted s (s.after c.run) := by
  have hs : Minted s s := (SameIds.refl s).minted
  cases c with
  | addPerspective map => exact minted_addPerspective s map
  | addDefaultPerspective => exact minted_addDefaultPerspective s
  | duplicatePerspective p => exact minted_duplicatePerspective p s hs
  | transformSelection selection f => exact minted_transformSelection selection f s hs
  | addBox corners p =>
    show Minted s (s.after (addBox corners p))
    rw [addBox]
    exact of_perspective_bind hs fun _ _ => minted_addTo p (fun _ => rfl) s hs
  | addCreatedBox creation =>
    show Minted s (s.after (addCreatedBox creation))
    rw [addCreatedBox, after_modifyGet_bind]
    exact minted_addTo _ (fun _ => rfl) _ (minted_currentOrDefault s)
  | _ => cases hc

theorem newIn_command (hc : c.made? = some made) {a : α} {t : Scene K}
    (h : c.run.run s = .ok a t) : ∀ o ∈ made a, ∃ id, NewIn s t o id := by
  cases c with
  | transformSelection selection f =>
    cases hc
    nofun
  | addPerspective map =>
    cases hc
    obtain ⟨rfl, rfl⟩ : (s.addPerspective map).1 = a ∧ (s.addPerspective map).2 = t :=
      EStateM.Result.ok.inj h
    exact List.forall_mem_singleton.2 (newIn_addPerspective s map)
  | addDefaultPerspective =>
    cases hc
    obtain ⟨rfl, rfl⟩ : s.addDefaultPerspective.1 = a ∧ s.addDefaultPerspective.2 = t :=
      EStateM.Result.ok.inj h
    exact List.forall_mem_singleton.2 ⟨_, newIn_insertPerspective (s.freshId "perspective").2 _⟩
  | duplicatePerspective p =>
    cases hc
    obtain ⟨q, u, hq, hrun⟩ := bind_eq_ok_iff.1 h
    obtain rfl := eq_of_perspective_run hq
    obtain ⟨rfl, rfl⟩ : (u.addPerspective q.map).1 = a ∧ (u.addPerspective q.map).2 = t :=
      EStateM.Result.ok.inj hrun
    exact List.forall_mem_singleton.2 (newIn_addPerspective u q.map)
  | addBox corners p =>
    cases hc
    obtain ⟨q, u, hq, hrun⟩ := bind_eq_ok_iff.1 h
    obtain rfl := eq_of_perspective_run hq
    exact List.forall_mem_singleton.2 (newIn_addTo hrun)
  | addCreatedBox creation =>
    cases hc
    obtain ⟨id, hbefore, hafter⟩ := newIn_addTo (s := s.currentOrDefault.2) h
    have hnone := (minted_currentOrDefault s).none_of_none hbefore
    exact List.forall_mem_singleton.2 ⟨id, hnone, hafter⟩
  | _ => cases hc

-- What any later commands make of a scene.
abbrev Later : Scene K → Scene K → Prop :=
  Relation.ReflTransGen fun s t => ∃ (α : Type) (c : Command K α), t = s.after c.run

omit [Numeric K] in
theorem Change.lastNumber_le {s t : Scene K} (h : Change s t) : s.lastNumber ≤ t.lastNumber := by
  cases h with
  | freshId stem => exact (s.lastNumber_freshId stem).1.le
  | @link key b link => exact (sameIds_linked s key b.link.target link).lastNumber.ge
  | _ => exact le_rfl

omit [Numeric K] in
theorem Changes.lastNumber_le {s t : Scene K} (h : Changes s t) :
    s.lastNumber ≤ t.lastNumber := by
  induction h with
  | refl => exact le_rfl
  | tail _ hstep ih => exact ih.trans hstep.lastNumber_le

theorem Later.lastNumber_le {s t : Scene K} (h : Later s t) : s.lastNumber ≤ t.lastNumber := by
  induction h with
  | refl => exact le_rfl
  | @tail u v _ hstep ih =>
    obtain ⟨α, c, rfl⟩ := hstep
    refine ih.trans ?_
    by_cases hc : u.TakesNewId c
    · exact Changes.lastNumber_le (changes_command hc)
    · cases c with
      | insertPerspective p => exact le_rfl
      | _ => exact absurd trivial hc

-- The search for a number ends before the counter runs out of them, with an id that nothing has.
-- What commands put in under generated ids shares them with nothing that was there, with nothing
-- that is there then, and with nothing that such a command put in earlier.
theorem searchTurns_found_and_minted (s : Scene K) :
    (∀ stem, s.lastNumber + s.perspectives.size + s.boxes.size + 1 < UInt32.size →
      (∃ turns ≤ s.perspectives.size + s.boxes.size + 1,
        (s.searchTurn stem)^[turns] (.tried (.ofNat s.lastNumber)) =
          .found (.ofNat (s.freshId stem).2.lastNumber)) ∧
      (s.freshId stem).2.lastNumber < UInt32.size ∧
      (s.freshId stem).1 = stem ++ toString (s.freshId stem).2.lastNumber ∧
      ∀ o, s.idOf? o ≠ some (s.freshId stem).1) ∧
    (∀ {α : Type} (c : Command K α) {made : α → List Owner}, c.made? = some made →
      Minted s (s.after c.run) ∧
      (∀ o id, NewIn s (s.after c.run) o id → id ∉ s.ids) ∧
      ∀ a t, c.run.run s = .ok a t → ∀ o ∈ made a, ∃ id, NewIn s t o id) ∧
    ∀ {s₀ : Scene K} {α β : Type} (c₀ : Command K α) (c : Command K β)
      {made₀ : α → List Owner} {made : β → List Owner}, c₀.made? = some made₀ →
      c.made? = some made → Later (s₀.after c₀.run) s →
      ∀ o₀ o id, NewIn s₀ (s₀.after c₀.run) o₀ id → ¬ NewIn s (s.after c.run) o id := by
  refine ⟨fun stem hfits => ?_, fun c _ hc => ?_, fun c₀ c _ _ hc₀ hc hlater _ _ _ hnew => ?_⟩
  · have hlength := s.length_ids
    have hlast := s.lastNumber_freshId stem
    obtain ⟨turns, hturns, hfound⟩ := exists_searchTurns (s := s) stem (by omega)
    refine ⟨⟨turns, by omega, hfound⟩, by omega, rfl, fun o ho => ?_⟩
    exact s.freshId_notMem stem ((s.mem_ids_iff _).2 ⟨o, ho⟩)
  · have hminted := minted_command (s := s) hc
    exact ⟨hminted, fun _ _ => hminted.free, fun _ _ => newIn_command hc⟩
  · exact (minted_command hc₀).not_newIn hlater.lastNumber_le (minted_command hc) hnew

def namesakes : Document where
  elements := [
    .perspective ⟨"perspective1", "0 : 1 : 0", "1 : 0 : 0", "1 : 1", "0 : 0"⟩,
    .box ⟨"perspective2", "#perspective1", none, none, []⟩,
    .box ⟨"perspective4", "#perspective1", none, none, []⟩]

def crowded : Scene Float := (ofDocument namesakes .default).toOption.getD .empty

-- The generated perspective3 is taken out again.
def thinned : Scene Float :=
  (crowded.after Command.addDefaultPerspective.run).after (Command.removePerspective ⟨2, 1⟩).run

theorem later_thinned : Later (crowded.after Command.addDefaultPerspective.run) thinned :=
  .single ⟨_, .removePerspective ⟨2, 1⟩, rfl⟩

theorem searchTurns_found_and_minted_thinned :
    thinned.lastNumber + thinned.perspectives.size + thinned.boxes.size + 1 < UInt32.size ∧
    Later (crowded.after Command.addDefaultPerspective.run) thinned ∧
    (∃ turns ≤ 4, (thinned.searchTurn "perspective")^[turns] (.tried 3) = .found 5) ∧
    Minted thinned (thinned.after Command.addDefaultPerspective.run) ∧
    NewIn thinned (thinned.after Command.addDefaultPerspective.run) (.perspective ⟨2, 3⟩)
      "perspective5" ∧
    "perspective5" ∉ thinned.ids ∧
    NewIn crowded (crowded.after Command.addDefaultPerspective.run) (.perspective ⟨2, 1⟩)
      "perspective3" ∧
    ¬ NewIn thinned (thinned.after Command.addDefaultPerspective.run) (.perspective ⟨2, 3⟩)
      "perspective3" := by
  have hlast : thinned.lastNumber = 3 := by decide +kernel
  have hsizes : thinned.perspectives.size = 1 ∧ thinned.boxes.size = 2 := by decide +kernel
  have hnumber : (thinned.freshId "perspective").2.lastNumber = 5 := by decide +kernel
  have hnew : NewIn thinned (thinned.after Command.addDefaultPerspective.run)
      (.perspective ⟨2, 3⟩) "perspective5" := by
    constructor <;> decide +kernel
  have hnew₀ : NewIn crowded (crowded.after Command.addDefaultPerspective.run)
      (.perspective ⟨2, 1⟩) "perspective3" := by
    constructor <;> decide +kernel
  have hfits : thinned.lastNumber + thinned.perspectives.size + thinned.boxes.size + 1 <
      UInt32.size := by
    rw [hlast, hsizes.1, hsizes.2]
    decide
  obtain ⟨hsearch, hcommands, hruns⟩ := searchTurns_found_and_minted thinned
  obtain ⟨⟨turns, hturns, hfound⟩, -⟩ := hsearch "perspective" hfits
  obtain ⟨hminted, hfree, -⟩ := hcommands .addDefaultPerspective rfl
  rw [hsizes.1, hsizes.2] at hturns
  rw [hlast, hnumber] at hfound
  exact ⟨hfits, later_thinned, ⟨turns, hturns, hfound⟩, hminted, hnew, hfree _ _ hnew, hnew₀,
    hruns .addDefaultPerspective .addDefaultPerspective rfl rfl later_thinned _ _ _ hnew₀⟩

end Scene

end PerspectiveBox
