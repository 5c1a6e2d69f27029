/-
# Theory.KeyedValues -- pairs of keys and values, and the map they are inserted into

A map into which pairs are inserted one after the other has, at every key, the last value
with that key (`lookup_insertAll`).  That loses nothing exactly if no key comes twice
(`nodup_keys_iff`).
-/
import Mathlib

namespace FrankaRos.Theory

set_option autoImplicit false

variable {κ β : Type} [DecidableEq κ]

def insertAll (pairs : List (κ × β)) (map : AList fun _ : κ => β) : AList fun _ : κ => β :=
  pairs.foldl (fun map pair => map.insert pair.1 pair.2) map

/-- The values with a key, in the order of the pairs. -/
def valuesAt (k : κ) (pairs : List (κ × β)) : List β :=
  (pairs.filter fun pair => decide (pair.1 = k)).map Prod.snd

theorem valuesAt_cons_self (pair : κ × β) (pairs : List (κ × β)) :
    valuesAt pair.1 (pair :: pairs) = pair.2 :: valuesAt pair.1 pairs := by simp [valuesAt]

theorem valuesAt_cons_other {k : κ} {pair : κ × β} (other : pair.1 ≠ k) (pairs : List (κ × β)) :
    valuesAt k (pair :: pairs) = valuesAt k pairs := by simp [valuesAt, other]

theorem valuesAt_append (k : κ) (pairs others : List (κ × β)) :
    valuesAt k (pairs ++ others) = valuesAt k pairs ++ valuesAt k others := by
  unfold valuesAt
  rw [List.filter_append, List.map_append]

theorem mem_valuesAt {k : κ} {v : β} {pairs : List (κ × β)} :
    v ∈ valuesAt k pairs ↔ (k, v) ∈ pairs := by simp [valuesAt]

/-- Pairs that are found under no key are none. -/
theorem eq_nil_of_valuesAt {pairs : List (κ × β)} (absent : ∀ k, valuesAt k pairs = []) :
    pairs = [] := by
  refine List.eq_nil_iff_forall_not_mem.2 fun pair member => ?_
  have found : pair.2 ∈ valuesAt pair.1 pairs := mem_valuesAt.2 member
  rw [absent] at found
  exact List.not_mem_nil found

theorem lookup_insertAll (k : κ) (pairs : List (κ × β)) (map : AList fun _ : κ => β) :
    (insertAll pairs map).lookup k = (valuesAt k pairs).getLast?.or (map.lookup k) := by
  induction pairs generalizing map with
  | nil => rfl
  | cons pair pairs ih =>
      rw [insertAll, List.foldl_cons, ← insertAll, ih]
      by_cases same : pair.1 = k
      · obtain rfl := same
        rw [AList.lookup_insert, valuesAt_cons_self, List.getLast?_cons]
        cases (valuesAt pair.1 pairs).getLast? with
        | none => rfl
        | some v => rfl
      · rw [AList.lookup_insert_ne (Ne.symm same), valuesAt_cons_other same]

theorem insertAll_empty_iff (pairs : List (κ × β)) :
    insertAll pairs ∅ = ∅ ↔ pairs = [] := by
  constructor
  · intro empty
    refine eq_nil_of_valuesAt fun k => ?_
    have looked := lookup_insertAll k pairs ∅
    rw [empty, AList.lookup_empty, Option.or_none] at looked
    exact List.getLast?_eq_none_iff.1 looked.symm
  · rintro rfl
    rfl

/-- The keys differ exactly if none has two values. -/
theorem nodup_keys_iff {pairs : List (κ × β)} :
    (pairs.map Prod.fst).Nodup ↔ ∀ k, (valuesAt k pairs).length ≤ 1 := by
  induction pairs with
  | nil => simp [valuesAt]
  | cons pair pairs ih =>
      rw [List.map_cons, List.nodup_cons, ih]
      constructor
      · rintro ⟨fresh, once⟩ k
        by_cases same : pair.1 = k
        · obtain rfl := same
          have none : valuesAt pair.1 pairs = [] := by
            refine List.eq_nil_iff_forall_not_mem.2 fun v found => ?_
            exact fresh (List.mem_map.2 ⟨_, mem_valuesAt.1 found, rfl⟩)
          rw [valuesAt_cons_self, none]
          exact le_rfl
        · rw [valuesAt_cons_other same]
          exact once k
      · intro once
        have alone := once pair.1
        rw [valuesAt_cons_self, List.length_cons] at alone
        have none : valuesAt pair.1 pairs = [] :=
          List.eq_nil_of_length_eq_zero (by omega)
        refine ⟨fun listed => ?_, fun k => ?_⟩
        · obtain ⟨other, member, same⟩ := List.mem_map.1 listed
          have found : other.2 ∈ valuesAt pair.1 pairs := mem_valuesAt.2 (same ▸ member)
          rw [none] at found
          exact List.not_mem_nil found
        · by_cases same : pair.1 = k
          · rw [← same, none]
            exact Nat.zero_le _
          · have counted := once k
            rwa [valuesAt_cons_other same] at counted

/-! ## Weights -/

theorem eq_nil_of_weight {weight : β → Nat} {items : List β}
    (positive : ∀ item ∈ items, 0 < weight item) (total : (items.map weight).sum = 0) :
    items = [] := by
  refine List.eq_nil_iff_forall_not_mem.2 fun item member => ?_
  have none := List.sum_eq_zero_iff_forall_eq_nat.1 total _ (List.mem_map_of_mem member)
  have some := positive item member
  omega

/-- Items that together weigh as much as the last of the first of them are that one. -/
theorem eq_last_of_weight {weight : β → Nat} {items others : List β} {last : β}
    (positive : ∀ item ∈ items ++ others, 0 < weight item) (ends : items.getLast? = some last)
    (total : ((items ++ others).map weight).sum = weight last) :
    items = [last] ∧ others = [] := by
  obtain ⟨front, rfl⟩ := List.getLast?_eq_some_iff.1 ends
  rw [List.map_append, List.map_append, List.sum_append, List.sum_append, List.map_singleton,
    List.sum_singleton] at total
  have before : front = [] := by
    refine eq_nil_of_weight (fun item member => positive item ?_) (by omega)
    exact List.mem_append_left _ (List.mem_append_left _ member)
  have behind : others = [] := by
    refine eq_nil_of_weight (fun item member => positive item ?_) (by omega)
    exact List.mem_append_right _ member
  rw [before]
  exact ⟨rfl, behind⟩

end FrankaRos.Theory
