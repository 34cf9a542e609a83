import Mathlib.Data.UInt
import Mathlib.Logic.Function.Iterate
import PerspectiveBox.Proofs.Scene.FreshId

namespace PerspectiveBox

variable {K : Type}

-- Where a search is: the numbers up to the last one have been tried, a free one has been found, or
-- there are no more numbers.
inductive NumberSearch where
  | tried (last : UInt32)
  | found (number : UInt32)
  | exhausted
  deriving DecidableEq

namespace Scene

def isTaken (s : Scene K) (id : String) : Bool :=
  (s.perspectives.values.any fun p => p.id == id) || s.boxes.values.any fun b => b.id == id

-- One turn of the search counts up and tries the id with that number.
def searchTurn (s : Scene K) (stem : String) : NumberSearch → NumberSearch
  | .tried last =>
    if last.toNat + 1 = UInt32.size then .exhausted
    else if s.isTaken (stem ++ toString (last + 1)) then .tried (last + 1)
    else .found (last + 1)
  | search => search

theorem isTaken_iff (s : Scene K) (id : String) : s.isTaken id = true ↔ id ∈ s.ids := by
  simp only [isTaken, ids, Bool.or_eq_true, List.any_eq_true, beq_iff_eq, List.mem_append,
    List.mem_map]

theorem length_ids (s : Scene K) : s.ids.length = s.perspectives.size + s.boxes.size := by
  simp only [ids, List.length_append, List.length_map, SlotTable.values, SlotTable.size]

-- The number taken is the first one that makes a free id.
theorem freeNumber_first (taken : List String) (stem : String) (last tests : Nat) :
    ∃ k ≤ tests, freeNumber taken stem last tests = last + 1 + k ∧
      ∀ i < k, stem ++ toString (last + 1 + i) ∈ taken := by
  induction tests generalizing last with
  | zero => exact ⟨0, le_rfl, rfl, nofun⟩
  | succ tests ih =>
    rw [freeNumber]
    split
    · next hfirst =>
      obtain ⟨k, hk, hnumber, htaken⟩ := ih (last + 1)
      refine ⟨k + 1, Nat.succ_le_succ hk, by omega, fun i hi => ?_⟩
      cases i with
      | zero => exact List.contains_iff_mem.1 hfirst
      | succ i =>
        have hnext : last + 1 + (i + 1) = last + 1 + 1 + i := by omega
        rw [hnext]
        exact htaken i (Nat.lt_of_succ_lt_succ hi)
    · exact ⟨0, Nat.zero_le _, rfl, nofun⟩

variable {s : Scene K} {stem : String}

theorem searchTurn_tried {last : Nat} (hfits : last + 1 < UInt32.size) :
    s.searchTurn stem (.tried (.ofNat last)) =
      if stem ++ toString (last + 1) ∈ s.ids then .tried (.ofNat (last + 1))
      else .found (.ofNat (last + 1)) := by
  have hlast : (UInt32.ofNat last).toNat = last := UInt32.toNat_ofNat_of_lt' (by omega)
  have hnext : UInt32.ofNat last + 1 = .ofNat (last + 1) := (UInt32.ofNat_add last 1).symm
  have htext : toString (UInt32.ofNat (last + 1)) = toString (last + 1) :=
    congrArg toString (UInt32.toNat_ofNat_of_lt' hfits)
  simp only [searchTurn, hlast, if_neg hfits.ne, hnext, htext, isTaken_iff]

-- As long as all ids are taken, the search goes on.
theorem searchTurns_of_taken {last k : Nat} (hfits : last + k < UInt32.size)
    (htaken : ∀ i < k, stem ++ toString (last + 1 + i) ∈ s.ids) :
    (s.searchTurn stem)^[k] (.tried (.ofNat last)) = .tried (.ofNat (last + k)) := by
  induction k with
  | zero => rfl
  | succ k ih =>
    have hnext : last + k + 1 < UInt32.size := hfits
    have hk := htaken k (Nat.lt_succ_self k)
    rw [Nat.add_right_comm] at hk
    rw [Function.iterate_succ_apply', ih (by omega) fun i hi => htaken i (by omega),
      searchTurn_tried hnext, if_pos hk, Nat.add_assoc]

-- Of one number more than there are ids, one makes a free id, so the search ends by then. It has
-- not run out of numbers if it had as many left.
theorem exists_searchTurns (stem : String)
    (hfits : s.lastNumber + s.ids.length + 1 < UInt32.size) :
    ∃ turns ≤ s.ids.length + 1, (s.searchTurn stem)^[turns] (.tried (.ofNat s.lastNumber)) =
      .found (.ofNat (s.freshId stem).2.lastNumber) := by
  obtain ⟨k, hk, hnumber, htaken⟩ := freeNumber_first s.ids stem s.lastNumber s.ids.length
  have hfree := freeNumber_free s.ids stem s.lastNumber
  rw [hnumber, Nat.add_right_comm] at hfree
  refine ⟨k + 1, Nat.succ_le_succ hk, ?_⟩
  rw [Function.iterate_succ_apply', searchTurns_of_taken (by omega) htaken,
    searchTurn_tried (by omega), if_neg hfree, freshId, hnumber, Nat.add_right_comm]

theorem lastNumber_freshId (s : Scene K) (stem : String) :
    s.lastNumber < (s.freshId stem).2.lastNumber ∧
      (s.freshId stem).2.lastNumber ≤ s.lastNumber + s.ids.length + 1 := by
  obtain ⟨k, hk, hnumber, -⟩ := freeNumber_first s.ids stem s.lastNumber s.ids.length
  have hlast : (s.freshId stem).2.lastNumber = s.lastNumber + 1 + k := hnumber
  omega

end Scene

end PerspectiveBox
