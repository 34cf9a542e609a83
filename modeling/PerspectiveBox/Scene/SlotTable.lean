import PerspectiveBox.Scene.Key

namespace PerspectiveBox

-- A vacant slot knows the version of its next key, and when it was vacated.
inductive Slot (α : Type) where
  | occupied (version : Nat) (value : α)
  | vacant (version : Nat) (time : Nat)

-- The content of a slot, for a key of the right version.
def Slot.value? {α : Type} (s : Slot α) (version : Nat) : Option α :=
  match s with
  | occupied v a => if v = version then some a else none
  | vacant _ _ => none

structure SlotTable (kind : Kind) (α : Type) where
  slots : List (Slot α)
  -- How many slots have been vacated so far.
  clock : Nat

namespace SlotTable

variable {kind : Kind} {α : Type}

def empty : SlotTable kind α := ⟨[], 0⟩

private def lookup (slots : List (Slot α)) (k : Key kind) : Option α :=
  match k.slot with
  | 0 => none
  | index + 1 => slots[index]?.bind fun s => s.value? k.version

def get? (t : SlotTable kind α) (k : Key kind) : Option α := lookup t.slots k

def contains (t : SlotTable kind α) (k : Key kind) : Bool := (t.get? k).isSome

private def occupant? : Slot α × Nat → Option (Key kind × α)
  | (.occupied version a, index) => some (⟨index + 1, version⟩, a)
  | _ => none

def entries (t : SlotTable kind α) : List (Key kind × α) := t.slots.zipIdx.filterMap occupant?

def keys (t : SlotTable kind α) : List (Key kind) := t.entries.map Prod.fst

def values (t : SlotTable kind α) : List α := t.entries.map Prod.snd

def size (t : SlotTable kind α) : Nat := t.entries.length

-- The key of the first thing that has a property.
def find? (t : SlotTable kind α) (p : α → Bool) : Option (Key kind) :=
  (t.entries.find? fun e => p e.2).map Prod.fst

-- A vacant slot by index, with the version of its next key and the time it was vacated.
private structure Vacancy where
  index : Nat
  version : Nat
  time : Nat

private def vacancy? : Slot α × Nat → Option Vacancy
  | (.vacant version time, index) => some ⟨index, version, time⟩
  | _ => none

private def later (best : Option Vacancy) (v : Vacancy) : Option Vacancy :=
  match best with
  | some b => if b.time < v.time then some v else some b
  | none => some v

private def latest? (vacancies : List Vacancy) : Option Vacancy := vacancies.foldl later none

def insert (t : SlotTable kind α) (a : α) : Key kind × SlotTable kind α :=
  match latest? (t.slots.zipIdx.filterMap vacancy?) with
  | some v => (⟨v.index + 1, v.version⟩,
      { t with slots := t.slots.set v.index (.occupied v.version a) })
  | none => (⟨t.slots.length + 1, 1⟩, { t with slots := t.slots ++ [.occupied 1 a] })

-- Changes the thing of a key, if there is one.
def modify (t : SlotTable kind α) (k : Key kind) (f : α → α) : SlotTable kind α :=
  match t.get? k with
  | some a => { t with slots := t.slots.set (k.slot - 1) (.occupied k.version (f a)) }
  | none => t

-- Changes the things of several keys one after the other.
def modifyAll (t : SlotTable kind α) (keys : List (Key kind)) (f : α → α) : SlotTable kind α :=
  keys.foldl (fun t k => t.modify k f) t

-- Takes a thing out. Versions of keys are odd, so the next one is two higher.
def erase (t : SlotTable kind α) (k : Key kind) : SlotTable kind α :=
  match t.get? k with
  | some _ =>
    { slots := t.slots.set (k.slot - 1) (.vacant (k.version + 2) t.clock), clock := t.clock + 1 }
  | none => t

-- Takes out everything that is not to be kept, in the order of the slots.
def retain (t : SlotTable kind α) (keep : Key kind → α → Bool) : SlotTable kind α :=
  (t.entries.filter fun e => !keep e.1 e.2).foldl (fun t e => t.erase e.1) t

private theorem lookup_set (slots : List (Slot α)) {i : Nat} (s : Slot α) (hi : i < slots.length)
    (k : Key kind) :
    lookup (slots.set i s) k =
      if k.slot = i + 1 then s.value? k.version else lookup slots k := by
  obtain ⟨slot, version⟩ := k
  cases slot with
  | zero => simp [lookup]
  | succ j =>
    by_cases hij : i = j
    · subst hij
      simp [lookup, hi]
    · have hji : ¬ j = i := fun h => hij h.symm
      simp [lookup, List.getElem?_set_ne hij, hji]

private theorem lookup_append (slots : List (Slot α)) (s : Slot α) (k : Key kind) :
    lookup (slots ++ [s]) k =
      if k.slot = slots.length + 1 then s.value? k.version else lookup slots k := by
  obtain ⟨slot, version⟩ := k
  cases slot with
  | zero => simp [lookup]
  | succ j =>
    by_cases hj : j = slots.length
    · subst hj
      simp [lookup]
    · by_cases hlt : j < slots.length
      · simp [lookup, hj, List.getElem?_append_left hlt]
      · have hout : slots.length + 1 ≤ j := by omega
        have hle : slots.length ≤ j := by omega
        have happ : (slots ++ [s]).length ≤ j := by simpa using hout
        simp [lookup, hj, List.getElem?_eq_none happ, List.getElem?_eq_none hle]

theorem get?_empty (k : Key kind) : (empty : SlotTable kind α).get? k = none := by
  obtain ⟨slot, version⟩ := k
  cases slot <;> rfl

-- The slot of a key that is in use.
private theorem slot_of_get? {t : SlotTable kind α} {k : Key kind} {a : α}
    (h : t.get? k = some a) : k.slot = (k.slot - 1) + 1 ∧ k.slot - 1 < t.slots.length ∧
      t.slots[k.slot - 1]? = some (.occupied k.version a) := by
  obtain ⟨slot, version⟩ := k
  cases slot with
  | zero => cases h
  | succ i =>
    obtain ⟨s, hs, hv⟩ := Option.bind_eq_some_iff.1 h
    refine ⟨rfl, (List.getElem?_eq_some_iff.1 hs).1, ?_⟩
    cases s with
    | vacant w time => cases hv
    | occupied w b =>
      simp only [Slot.value?] at hv
      split at hv
      · next hw =>
        cases hv
        simp only [← hw]
        exact hs
      · cases hv

private theorem mem_of_latest? {l : List Vacancy} {v : Vacancy} (h : latest? l = some v) :
    v ∈ l := by
  suffices ∀ (l : List Vacancy) (b : Option Vacancy), l.foldl later b = some v →
      v ∈ l ∨ b = some v by
    simpa using this l none h
  intro l
  induction l with
  | nil => intro b h; exact .inr h
  | cons u l ih =>
    intro b h
    cases ih _ h with
    | inl hm => exact .inl (List.mem_cons_of_mem _ hm)
    | inr hb =>
      cases b with
      | none => cases hb; exact .inl List.mem_cons_self
      | some c =>
        simp only [later] at hb
        split at hb
        · cases hb; exact .inl List.mem_cons_self
        · exact .inr hb

-- The slot to be filled is vacant.
private theorem vacant_of_latest? {slots : List (Slot α)} {v : Vacancy}
    (h : latest? (slots.zipIdx.filterMap vacancy?) = some v) :
    slots[v.index]? = some (.vacant v.version v.time) := by
  obtain ⟨⟨s, i⟩, hs, hv⟩ := List.mem_filterMap.1 (mem_of_latest? h)
  have hi := List.mem_zipIdx_iff_getElem?.1 hs
  cases s with
  | occupied w a => cases hv
  | vacant w time => cases hv; exact hi

-- A new key is not the key of anything.
theorem get?_insert_key (t : SlotTable kind α) (a : α) : t.get? (t.insert a).1 = none := by
  unfold insert
  split
  · next v h => simp [get?, lookup, vacant_of_latest? h, Slot.value?]
  · simp [get?, lookup]

theorem get?_insert (t : SlotTable kind α) (a : α) (k : Key kind) :
    (t.insert a).2.get? k = if k = (t.insert a).1 then some a else t.get? k := by
  have hnew := get?_insert_key t a
  unfold insert at hnew ⊢
  obtain ⟨slot, version⟩ := k
  split
  · next v h =>
    have hv := vacant_of_latest? h
    have hl : v.index < t.slots.length := (List.getElem?_eq_some_iff.1 hv).1
    simp only [get?, lookup_set _ _ hl, Slot.value?, Key.mk.injEq]
    by_cases hs : slot = v.index + 1
    · by_cases hw : version = v.version
      · simp [hs, hw]
      · have hw' : ¬ v.version = version := fun h => hw h.symm
        simp [hs, hw, hw', lookup, hv, Slot.value?]
    · simp [hs]
  · simp only [get?, lookup_append, Slot.value?, Key.mk.injEq]
    by_cases hs : slot = t.slots.length + 1
    · by_cases hw : version = 1
      · simp [hs, hw]
      · have hw' : ¬ 1 = version := fun h => hw h.symm
        simp [hs, hw, hw', lookup]
    · simp [hs]

-- Filling the slot of a key anew is seen at that key alone, as long as no other version is given
-- a content.
private theorem lookup_set_key {t : SlotTable kind α} {k : Key kind} {a : α}
    (h : t.get? k = some a) (s : Slot α) (hs : ∀ v, v ≠ k.version → s.value? v = none)
    (l : Key kind) :
    lookup (t.slots.set (k.slot - 1) s) l = if l = k then s.value? k.version else t.get? l := by
  obtain ⟨hslot, hl, hk⟩ := slot_of_get? h
  rw [lookup_set _ _ hl, ← hslot]
  by_cases hlk : l = k
  · simp [hlk]
  · rw [if_neg hlk]
    split
    · next he =>
      have hv : l.version ≠ k.version := by
        intro hv
        obtain ⟨slot, version⟩ := l
        exact hlk (by simp only at he hv; rw [he, hv])
      rw [hs _ hv, get?, lookup, he, hslot]
      have hv' : k.version ≠ l.version := hv.symm
      simp [hk, Slot.value?, hv']
    · rfl

theorem get?_modify (t : SlotTable kind α) (k l : Key kind) (f : α → α) :
    (t.modify k f).get? l = if l = k then (t.get? k).map f else t.get? l := by
  unfold modify
  split
  · next a h =>
    have hs (v : Nat) (hv : v ≠ k.version) :
        (Slot.occupied k.version (f a)).value? v = none := if_neg hv.symm
    rw [get?, lookup_set_key h _ hs, h]
    simp [Slot.value?]
  · next h =>
    split
    · next hlk => simp [hlk, h]
    · rfl

-- A change that keeps a part of every thing keeps that part under every key.
theorem map_get?_modify {β : Type} (t : SlotTable kind α) (k l : Key kind) {f : α → α}
    {part : α → β} (h : ∀ a, part (f a) = part a) :
    ((t.modify k f).get? l).map part = (t.get? l).map part := by
  rw [get?_modify]
  split
  · next hlk =>
    rw [hlk, Option.map_map]
    exact congrArg (fun g => (t.get? k).map g) (funext h)
  · rfl

theorem get?_erase (t : SlotTable kind α) (k l : Key kind) :
    (t.erase k).get? l = if l = k then none else t.get? l := by
  unfold erase
  split
  · next a h => rw [get?, lookup_set_key h _ fun _ _ => rfl, Slot.value?]
  · next h =>
    split
    · next hlk => simp [hlk, h]
    · rfl

theorem mem_entries_iff (t : SlotTable kind α) (k : Key kind) (a : α) :
    (k, a) ∈ t.entries ↔ t.get? k = some a := by
  simp only [entries, List.mem_filterMap]
  constructor
  · rintro ⟨⟨s, i⟩, hs, he⟩
    have hi := List.mem_zipIdx_iff_getElem?.1 hs
    cases s with
    | vacant w time => cases he
    | occupied w b =>
      cases he
      simp only at hi
      simp [get?, lookup, hi, Slot.value?]
  · intro h
    obtain ⟨hs, hl, hk⟩ := slot_of_get? h
    refine ⟨(.occupied k.version a, k.slot - 1), List.mem_zipIdx_iff_getElem?.2 hk, ?_⟩
    simp [occupant?, ← hs]

theorem get?_of_find? {t : SlotTable kind α} {p : α → Bool} {k : Key kind}
    (h : t.find? p = some k) : ∃ a, t.get? k = some a ∧ p a = true := by
  obtain ⟨e, he, rfl⟩ := Option.map_eq_some_iff.1 h
  have hp : p e.2 = true := List.find?_some (p := fun e : Key kind × α => p e.2) he
  exact ⟨e.2, (mem_entries_iff t e.1 e.2).1 (List.mem_of_find?_eq_some he), hp⟩

theorem contains_iff (t : SlotTable kind α) (k : Key kind) :
    t.contains k = true ↔ ∃ a, t.get? k = some a :=
  Option.isSome_iff_exists

private theorem get?_foldl_erase (l : List (Key kind × α)) (t : SlotTable kind α)
    (k : Key kind) :
    (l.foldl (fun t e => t.erase e.1) t).get? k =
      if k ∈ l.map Prod.fst then none else t.get? k := by
  induction l generalizing t with
  | nil => simp
  | cons e l ih =>
    rw [List.foldl_cons, ih, get?_erase]
    rw [List.map_cons]
    by_cases hk : k = e.1
    · simp [hk]
    · simp only [hk, if_false, List.mem_cons, false_or]

theorem get?_retain (t : SlotTable kind α) (keep : Key kind → α → Bool) (k : Key kind) :
    (t.retain keep).get? k = (t.get? k).filter (keep k) := by
  rw [retain, get?_foldl_erase]
  have hmem : k ∈ (t.entries.filter fun e => !keep e.1 e.2).map Prod.fst ↔
      ∃ a, t.get? k = some a ∧ keep k a = false := by
    simp [mem_entries_iff]
  cases h : t.get? k with
  | none => simp
  | some a => by_cases hk : keep k a = true <;> simp [hmem, h, hk, Option.filter]

-- Of a list of different keys, each has its thing changed once.
theorem get?_modifyAll (t : SlotTable kind α) {keys : List (Key kind)} (h : keys.Nodup)
    (f : α → α) (k : Key kind) :
    (t.modifyAll keys f).get? k = if k ∈ keys then (t.get? k).map f else t.get? k := by
  unfold modifyAll
  induction keys generalizing t with
  | nil => simp
  | cons l keys ih =>
    obtain ⟨hl, hkeys⟩ := List.nodup_cons.1 h
    rw [List.foldl_cons, ih _ hkeys, get?_modify]
    by_cases hk : k = l
    · subst hk
      simp [hl]
    · simp [hk]

theorem modify_modify (t : SlotTable kind α) (k : Key kind) (f g : α → α) :
    (t.modify k f).modify k g = t.modify k fun a => g (f a) := by
  have hf := get?_modify t k k f
  rw [if_pos rfl] at hf
  cases h : t.get? k with
  | none =>
    rw [h] at hf
    simp [modify, h]
  | some a =>
    rw [h] at hf
    simp only [modify] at hf ⊢
    simp only [h] at hf ⊢
    simp only [hf, Option.map_some, List.set_set]

-- Only what a change makes of the thing itself counts.
theorem modify_congr {t : SlotTable kind α} {k : Key kind} {a : α} (h : t.get? k = some a)
    {f g : α → α} (hfg : f a = g a) : t.modify k f = t.modify k g := by
  simp only [modify, h, hfg]

theorem modify_eq_self {t : SlotTable kind α} {k : Key kind} {f : α → α}
    (h : ∀ a, t.get? k = some a → f a = a) : t.modify k f = t := by
  cases hk : t.get? k with
  | none => simp only [modify, hk]
  | some a =>
    obtain ⟨-, hl, hs⟩ := slot_of_get? hk
    have hget := (List.getElem?_eq_some_iff.1 hs).2
    simp only [modify, hk, h a hk, ← hget, List.set_getElem_self]

theorem modifyAll_eq_self (t : SlotTable kind α) (keys : List (Key kind)) {f : α → α}
    (h : ∀ a, f a = a) : t.modifyAll keys f = t := by
  induction keys with
  | nil => rfl
  | cons k keys ih =>
    have hk : t.modify k f = t := modify_eq_self fun a _ => h a
    rw [modifyAll, List.foldl_cons, hk]
    exact ih

private abbrev occupants (slots : List (Slot α)) (n : Nat) : List (Key kind × α) :=
  (slots.zipIdx n).filterMap occupant?

private theorem lt_slot_of_mem {slots : List (Slot α)} {n : Nat} {e : Key kind × α}
    (h : e ∈ occupants slots n) : n < e.1.slot := by
  obtain ⟨⟨s, i⟩, hs, he⟩ := List.mem_filterMap.1 h
  have hi := List.le_snd_of_mem_zipIdx hs
  cases s with
  | vacant => cases he
  | occupied => cases he; exact Nat.lt_succ_of_le hi

-- The slots of the entries are in ascending order.
theorem pairwise_keys (t : SlotTable kind α) :
    t.keys.Pairwise fun k l => k.slot < l.slot := by
  suffices ∀ (slots : List (Slot α)) (n : Nat),
      (occupants slots n : List (Key kind × α)).Pairwise fun d e => d.1.slot < e.1.slot by
    exact List.pairwise_map.2 (this t.slots 0)
  intro slots
  induction slots with
  | nil => intro n; exact .nil
  | cons s slots ih =>
    intro n
    cases s with
    | vacant =>
      simpa only [occupants, List.zipIdx_cons, List.filterMap_cons, occupant?] using ih (n + 1)
    | occupied version a =>
      simp only [occupants, List.zipIdx_cons, List.filterMap_cons, occupant?]
      exact .cons (fun e he => lt_slot_of_mem he) (ih (n + 1))

theorem nodup_keys (t : SlotTable kind α) : t.keys.Nodup :=
  t.pairwise_keys.imp fun h hkl => by rw [hkl] at h; exact Nat.lt_irrefl _ h

theorem mem_keys_iff (t : SlotTable kind α) (k : Key kind) :
    k ∈ t.keys ↔ ∃ a, t.get? k = some a := by
  simp [keys, mem_entries_iff]

theorem mem_values_iff (t : SlotTable kind α) (a : α) :
    a ∈ t.values ↔ ∃ k, t.get? k = some a := by
  simp [values, mem_entries_iff]

private theorem occupants_set {slots : List (Slot α)} {i version : Nat} {a : α} (b : α)
    (h : slots[i]? = some (.occupied version a)) (n : Nat) :
    occupants (slots.set i (.occupied version b)) n =
      (occupants slots n : List (Key kind × α)).map fun e =>
        if e.1 = ⟨n + i + 1, version⟩ then (e.1, b) else e := by
  induction slots generalizing i n with
  | nil => simp at h
  | cons s slots ih =>
    cases i with
    | zero =>
      -- The slots that follow are numbered higher, so their keys are other keys.
      have hrest : (occupants slots (n + 1) : List (Key kind × α)).map
          (fun e => if e.1 = ⟨n + 0 + 1, version⟩ then (e.1, b) else e) =
            occupants slots (n + 1) := by
        refine (List.map_congr_left fun e he => ?_).trans (List.map_id _)
        have hlt := lt_slot_of_mem he
        rw [if_neg]
        · rfl
        · intro hk
          rw [hk] at hlt
          exact Nat.lt_irrefl _ hlt
      simp only [List.getElem?_cons_zero, Option.some.injEq] at h
      subst h
      simp only [occupants] at hrest
      simp only [occupants, List.set_cons_zero, List.zipIdx_cons, List.filterMap_cons, occupant?,
        List.map_cons, hrest, Nat.add_zero, if_true]
    | succ i =>
      have ih := ih (i := i) (by simpa using h) (n + 1)
      have hi : n + 1 + i + 1 = n + (i + 1) + 1 := by omega
      rw [hi] at ih
      cases s with
      | vacant =>
        simpa only [occupants, List.set_cons_succ, List.zipIdx_cons, List.filterMap_cons,
          occupant?] using ih
      | occupied w c =>
        simp only [occupants] at ih
        simp only [occupants, List.set_cons_succ, List.zipIdx_cons, List.filterMap_cons,
          occupant?, List.map_cons, ih]
        rw [if_neg]
        simp only [Key.mk.injEq, not_and]
        omega

theorem entries_modify (t : SlotTable kind α) (k : Key kind) (f : α → α) :
    (t.modify k f).entries = t.entries.map fun e => if e.1 = k then (e.1, f e.2) else e := by
  cases h : t.get? k with
  | none =>
    rw [modify, h]
    refine ((List.map_congr_left fun e he => ?_).trans (List.map_id _)).symm
    rw [if_neg]
    · rfl
    · intro hk
      rw [← Prod.eta e, mem_entries_iff, hk, h] at he
      cases he
  | some a =>
    obtain ⟨hs, hl, hk⟩ := slot_of_get? h
    have hset : occupants _ 0 = (occupants _ 0 : List (Key kind × α)).map _ :=
      occupants_set (f a) hk 0
    rw [Nat.zero_add, ← hs] at hset
    simp only [modify, h]
    refine hset.trans (List.map_congr_left fun e he => ?_)
    by_cases hek : e.1 = k
    · have ha : e.2 = a := by
        have hget := (mem_entries_iff t e.1 e.2).1 he
        rw [hek, h] at hget
        exact (Option.some.inj hget).symm
      rw [if_pos hek, if_pos hek, ha]
    · rw [if_neg hek, if_neg hek]

theorem values_modifyAll_keys (t : SlotTable kind α) (f : α → α) :
    (t.modifyAll t.keys f).values = t.values.map f := by
  suffices ∀ (keys : List (Key kind)) (t : SlotTable kind α), keys.Nodup →
      (t.modifyAll keys f).entries =
        t.entries.map fun e => if e.1 ∈ keys then (e.1, f e.2) else e by
    rw [values, this _ _ t.nodup_keys, values, List.map_map, List.map_map]
    refine List.map_congr_left fun e he => ?_
    have hk : e.1 ∈ t.keys := List.mem_map_of_mem he
    simp only [Function.comp, if_pos hk]
  intro keys
  induction keys with
  | nil => intro t _; simp [modifyAll]
  | cons k keys ih =>
    intro t h
    obtain ⟨hk, hkeys⟩ := List.nodup_cons.1 h
    have ih := ih (t.modify k f) hkeys
    simp only [modifyAll] at ih
    rw [modifyAll, List.foldl_cons, ih, entries_modify, List.map_map]
    refine List.map_congr_left fun e _ => ?_
    simp only [Function.comp]
    by_cases hek : e.1 = k
    · simp [hek, hk]
    · simp [hek]

-- What there is to a slot apart from its content.
private def blank : Slot α → Slot Unit
  | .occupied version _ => .occupied version ()
  | .vacant version time => .vacant version time

-- The same slots are in use, under the same versions, and the others will be filled alike.
def SameSlots (t u : SlotTable kind α) : Prop :=
  t.clock = u.clock ∧ t.slots.map blank = u.slots.map blank

theorem SameSlots.refl (t : SlotTable kind α) : t.SameSlots t := ⟨rfl, rfl⟩

theorem SameSlots.trans {t u v : SlotTable kind α} (h : t.SameSlots u) (h' : u.SameSlots v) :
    t.SameSlots v :=
  ⟨h.1.trans h'.1, h.2.trans h'.2⟩

theorem sameSlots_modify (t : SlotTable kind α) (k : Key kind) (f : α → α) :
    (t.modify k f).SameSlots t := by
  cases h : t.get? k with
  | none =>
    simp only [modify, h]
    exact .refl t
  | some a =>
    obtain ⟨-, hl, hs⟩ := slot_of_get? h
    have hget := (List.getElem?_eq_some_iff.1 hs).2
    have hsame : blank (.occupied k.version (f a)) = blank t.slots[k.slot - 1] := by
      rw [hget]
      rfl
    simp only [modify, h]
    refine ⟨rfl, ?_⟩
    rw [List.map_set, hsame, ← List.map_set, List.set_getElem_self]

theorem sameSlots_modifyAll (t : SlotTable kind α) (keys : List (Key kind)) (f : α → α) :
    (t.modifyAll keys f).SameSlots t := by
  induction keys generalizing t with
  | nil => exact .refl t
  | cons k keys ih => exact (ih (t.modify k f)).trans (sameSlots_modify t k f)

private theorem isSome_lookup_blank (slots : List (Slot α)) (k : Key kind) :
    (lookup (slots.map blank) k).isSome = (lookup slots k).isSome := by
  obtain ⟨slot, version⟩ := k
  cases slot with
  | zero => rfl
  | succ i =>
    simp only [lookup, List.getElem?_map]
    cases slots[i]? with
    | none => rfl
    | some s =>
      cases s with
      | vacant w time => rfl
      | occupied w a =>
        simp only [Option.map_some, Option.bind_some, blank, Slot.value?]
        split <;> rfl

-- They have things under the same keys.
theorem SameSlots.contains {t u : SlotTable kind α} (h : t.SameSlots u) (k : Key kind) :
    t.contains k = u.contains k := by
  rw [SlotTable.contains, SlotTable.contains, get?, get?, ← isSome_lookup_blank, h.2,
    isSome_lookup_blank]

-- Of tables of the same slots only the contents can differ.
theorem SameSlots.eq {t u : SlotTable kind α} (h : t.SameSlots u)
    (hget : ∀ k, t.get? k = u.get? k) : t = u := by
  obtain ⟨slots, clock⟩ := t
  obtain ⟨slots', clock'⟩ := u
  obtain ⟨rfl, hblank⟩ := h
  refine congrArg (SlotTable.mk · clock) (List.ext_getElem? fun i => ?_)
  have hi : (slots.map blank)[i]? = (slots'.map blank)[i]? := congrArg (·[i]?) hblank
  rw [List.getElem?_map, List.getElem?_map] at hi
  have hget (version : Nat) : (slots[i]?.bind fun s => s.value? version) =
      slots'[i]?.bind fun s => s.value? version := hget ⟨i + 1, version⟩
  cases hs : slots[i]? with
  | none =>
    rw [hs] at hi
    exact (Option.map_eq_none_iff.1 hi.symm).symm
  | some s =>
    rw [hs] at hi hget
    obtain ⟨s', hs', he⟩ := Option.map_eq_some_iff.1 hi.symm
    rw [hs'] at hget ⊢
    cases s with
    | vacant version time =>
      cases s' with
      | vacant version' time' =>
        cases he
        rfl
      | occupied version' b => cases he
    | occupied version a =>
      cases s' with
      | vacant version' time' => cases he
      | occupied version' b =>
        cases he
        have hab := hget version
        simp only [Option.bind_some, Slot.value?, if_true, Option.some.injEq] at hab
        rw [hab]

-- Nothing was taken out, so what is put in comes last.
def Gapless (t : SlotTable kind α) : Prop := ∀ s ∈ t.slots, ∃ version a, s = .occupied version a

theorem Gapless.empty : (empty : SlotTable kind α).Gapless := nofun

theorem Gapless.modify {t : SlotTable kind α} (h : t.Gapless) (k : Key kind) (f : α → α) :
    (t.modify k f).Gapless := by
  unfold SlotTable.modify
  split
  · intro s hs
    rcases List.mem_or_eq_of_mem_set hs with hs | hs
    · exact h s hs
    · exact ⟨_, _, hs⟩
  · exact h

private theorem Gapless.insert_eq {t : SlotTable kind α} (h : t.Gapless) (a : α) :
    t.insert a = (⟨t.slots.length + 1, 1⟩, { t with slots := t.slots ++ [.occupied 1 a] }) := by
  have hnone : t.slots.zipIdx.filterMap vacancy? = [] := by
    refine List.filterMap_eq_nil_iff.2 fun e he => ?_
    obtain ⟨version, b, hb⟩ := h e.1 (List.fst_mem_of_mem_zipIdx he)
    rw [← Prod.eta e, hb]
    rfl
  rw [insert, hnone]
  rfl

theorem Gapless.insert {t : SlotTable kind α} (h : t.Gapless) (a : α) :
    (t.insert a).2.Gapless := by
  rw [h.insert_eq]
  intro s hs
  rcases List.mem_append.1 hs with hs | hs
  · exact h s hs
  · exact ⟨_, _, List.mem_singleton.1 hs⟩

theorem Gapless.entries_insert {t : SlotTable kind α} (h : t.Gapless) (a : α) :
    (t.insert a).2.entries = t.entries ++ [((t.insert a).1, a)] := by
  rw [h.insert_eq, entries, List.zipIdx_append, List.filterMap_append, entries]
  simp [occupant?]

theorem Gapless.values_insert {t : SlotTable kind α} (h : t.Gapless) (a : α) :
    (t.insert a).2.values = t.values ++ [a] := by
  rw [values, h.entries_insert, List.map_append]
  rfl

-- What was just put in is changed, and nothing before it.
theorem Gapless.values_insert_modify {t : SlotTable kind α} (h : t.Gapless) (a : α) (f : α → α) :
    ((t.insert a).2.modify (t.insert a).1 f).values = t.values ++ [f a] := by
  have hold : ∀ e ∈ t.entries, (if e.1 = (t.insert a).1 then (e.1, f e.2) else e) = e := by
    intro e he
    refine if_neg fun hk => ?_
    rw [← Prod.eta e, mem_entries_iff, hk, get?_insert_key] at he
    cases he
  rw [values, entries_modify, h.entries_insert, List.map_append, List.map_congr_left hold,
    List.map_id', List.map_append, values]
  simp

end SlotTable

end PerspectiveBox
