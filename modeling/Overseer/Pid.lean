import Std.Data.TreeSet

/-! Process ids and sets of them. There are `2 ^ 32` ids, so a search that marks each id
it meets comes to an end. -/

namespace Overseer

abbrev Pid := UInt32

abbrev PidSet := Std.TreeSet Pid compare

private theorem length_le_of_nodup (n : Nat) (l : List Nat) (hd : l.Nodup)
    (hl : ∀ x ∈ l, x < n) : l.length ≤ n := by
  induction n generalizing l with
  | zero =>
    cases l with
    | nil => exact Nat.le_refl _
    | cons a r => exact absurd (hl a (by simp)) (by omega)
  | succ n ih =>
    by_cases hm : n ∈ l
    · have := ih (l.erase n) (hd.erase n) (fun x hx => by
        have := (List.Nodup.mem_erase_iff hd).mp hx
        have := hl x this.2
        omega)
      rw [List.length_erase_of_mem hm] at this
      omega
    · have := ih l hd (fun x hx => by
        have := hl x hx
        have : x ≠ n := fun h => hm (h ▸ hx)
        omega)
      omega

namespace PidSet

def single (p : Pid) : PidSet := Std.TreeSet.empty.insert p

theorem nodup_toList (s : PidSet) : (s.toList).Nodup := by
  have h := Std.TreeSet.distinct_toList (t := s)
  refine h.imp ?_
  intro a b hab hEq
  exact hab (by simp [hEq])

theorem size_lt_of_not_mem (s : PidSet) (p : Pid) (h : p ∉ s) : s.size < UInt32.size := by
  have hn : ((p :: s.toList).map UInt32.toNat).Nodup := by
    have hs : (p :: s.toList).Nodup :=
      List.nodup_cons.mpr ⟨fun hp => h (Std.TreeSet.mem_toList.mp hp), nodup_toList s⟩
    exact List.Pairwise.map _ (fun _ _ hab he => hab (UInt32.toNat_inj.mp he)) hs
  have := length_le_of_nodup UInt32.size _ hn (by
    intro x hx
    obtain ⟨q, _, rfl⟩ := List.mem_map.mp hx
    exact q.toNat_lt_size)
  simp only [List.length_map, List.length_cons, Std.TreeSet.length_toList] at this
  omega

/-- How many ids are not in the set. -/
def unmarked (s : PidSet) : Nat := UInt32.size - s.size

theorem unmarked_insert_lt (s : PidSet) (p : Pid) (h : p ∉ s) :
    unmarked (s.insert p) < unmarked s := by
  have := size_lt_of_not_mem s p h
  have hs : (s.insert p).size = s.size + 1 := by
    rw [Std.TreeSet.size_insert]; simp [h]
  unfold unmarked
  omega

end PidSet

end Overseer
