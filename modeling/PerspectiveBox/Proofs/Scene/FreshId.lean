import Mathlib.Data.List.Nodup
import Mathlib.Data.List.Perm.Subperm
import PerspectiveBox.Proofs.Scene.Run

namespace PerspectiveBox

variable {K : Type}

namespace Scene

theorem numbered_inj (stem : String) {m n : Nat} :
    stem ++ toString m = stem ++ toString n ↔ m = n := by
  refine ⟨fun h => ?_, fun h => h ▸ rfl⟩
  have hdigits := congrArg String.toList ((String.append_right_inj stem).1 h)
  have hvalue := congrArg (fun digits => Nat.ofDigitChars 10 digits 0) hdigits
  simpa [Nat.toString_eq_ofList_toDigits] using hvalue

-- The number found last is only taken if all numbers tested before it are.
theorem taken_of_freeNumber {taken : List String} {stem : String} {last tests : Nat}
    (h : stem ++ toString (freeNumber taken stem last tests) ∈ taken) :
    ∀ i ≤ tests, stem ++ toString (last + 1 + i) ∈ taken := by
  induction tests generalizing last with
  | zero =>
    intro i hi
    rw [Nat.le_zero.1 hi]
    exact h
  | succ tests ih =>
    rw [freeNumber] at h
    split at h
    · next hfirst =>
      intro i hi
      cases i with
      | zero => exact List.contains_iff_mem.1 hfirst
      | succ i =>
        have hnext : last + 1 + (i + 1) = last + 1 + 1 + i := by omega
        rw [hnext]
        exact ih h i (Nat.le_of_succ_le_succ hi)
    · next hfirst => exact absurd (List.contains_iff_mem.2 h) hfirst

theorem freeNumber_free (taken : List String) (stem : String) (last : Nat) :
    stem ++ toString (freeNumber taken stem last taken.length) ∉ taken := by
  intro h
  have hall := taken_of_freeNumber h
  have hnodup : ((List.range (taken.length + 1)).map fun i =>
      stem ++ toString (last + 1 + i)).Nodup :=
    .map (fun _ _ hij => Nat.add_left_cancel ((numbered_inj stem).1 hij)) List.nodup_range
  have hsubset : (List.range (taken.length + 1)).map (fun i =>
      stem ++ toString (last + 1 + i)) ⊆ taken := by
    intro id hid
    obtain ⟨i, hi, rfl⟩ := List.mem_map.1 hid
    exact hall i (Nat.le_of_lt_succ (List.mem_range.1 hi))
  have hlength := (List.subperm_of_subset hnodup hsubset).length_le
  rw [List.length_map, List.length_range] at hlength
  exact Nat.not_succ_le_self _ hlength

theorem freshId_notMem (s : Scene K) (stem : String) : (s.freshId stem).1 ∉ s.ids :=
  freeNumber_free s.ids stem s.lastNumber

-- No perspective has a generated id yet.
theorem findPerspective_freshId (s : Scene K) (stem : String) :
    (s.freshId stem).2.findPerspective (s.freshId stem).1 = none := by
  refine (findPerspective_eq_none_iff _ _).2 fun p hp hid => s.freshId_notMem stem ?_
  rw [ids, ← hid]
  exact List.mem_append_left _ (List.mem_map_of_mem hp)

end Scene

end PerspectiveBox
