import Mathlib.Data.Finset.Max
import Panadapter.Proofs.Decimal.Ranks
import Panadapter.Spectrum.Processor

/-!
# Peaks

The peak of values is found in one pass: a value takes the lead unless the leader is at least as large. A NaN is not
comparable, so it takes the lead from every leader, and loses it to every value that comes next.

* What the pass keeps: nothing behind the leader is larger, and the values before it are smaller as far back as the last
  NaN (`Leads.step`, `peak?_leads`).
* Numbers have a first largest one (`exists_firstLargest`).
* The peak is that one exactly if every NaN stands before it (`peak_first_largest_iff`).
-/

namespace Panadapter

open Decimal (rank single_le_iff_rank single_lt_iff_rank single_beq_iff_rank)

/-- The first place of a largest number among values. -/
structure FirstLargest (values : Array Float32) (k : Nat) (v : Float32) : Prop where
  at_k : values[k]? = some v
  number : v.isNaN = false
  largest : ∀ x ∈ values, x.isNaN = false → x ≤ v
  first : ∀ (j : Nat) (x : Float32), values[j]? = some x → (x == v) = true → k ≤ j

/-- Whether there is no NaN from one place to another. -/
def NumbersFrom (values : Array Float32) (first last : Nat) : Prop :=
  ∀ (i : Nat) (x : Float32), first ≤ i → i ≤ last → values[i]? = some x → x.isNaN = false

/-- A leader among the first `n` values: none behind it is larger, and those before it are smaller as far back as the
last NaN. -/
structure Leads (values : Array Float32) (n k : Nat) (v : Float32) : Prop where
  lt : k < n
  at_k : values[k]? = some v
  behind : ∀ (j : Nat) (x : Float32), k < j → j < n → values[j]? = some x → x ≤ v
  before : ∀ (j : Nat) (x : Float32), j < k → NumbersFrom values j k → values[j]? = some x → x < v

/-- The leader among the first `n` values, if there is one: only the first of all values finds no leader. -/
def LeadsAmong (values : Array Float32) (n : Nat) : Option (Nat × Float32) → Prop
  | none => n = 0
  | some (k, v) => Leads values n k v

namespace Leads

variable {values : Array Float32} {n k : Nat} {v w : Float32}

/-- A value that is not larger leaves the leader in place. -/
theorem keep (l : Leads values n k v) (next : values[n]? = some w) (le : w ≤ v) : Leads values (n + 1) k v where
  lt := Nat.lt_succ_of_lt l.lt
  at_k := l.at_k
  behind := by
    intro j x behind inside at_j
    rcases Nat.lt_or_eq_of_le (Nat.le_of_lt_succ inside) with earlier | rfl
    · exact l.behind j x behind earlier at_j
    · obtain rfl : w = x := Option.some.inj (next.symm.trans at_j)
      exact le
  before := l.before

/-- Any other value takes the lead. -/
theorem replace (l : Leads values n k v) (next : values[n]? = some w) (above : ¬w ≤ v) : Leads values (n + 1) n w where
  lt := Nat.lt_succ_self n
  at_k := next
  behind := fun j x behind inside _ => by omega
  before := by
    intro j x inside numbers at_j
    have number : w.isNaN = false := numbers n w (Nat.le_of_lt inside) (Nat.le_refl n) next
    have lt_of_number : v.isNaN = false → rank v.toModel.unpack < rank w.toModel.unpack := fun leader =>
      not_le.1 fun le => above (single_le_iff_rank.2 ⟨number, leader, le⟩)
    rw [single_lt_iff_rank]
    refine ⟨numbers j x (Nat.le_refl j) (Nat.le_of_lt inside) at_j, number, ?_⟩
    -- The value is behind the leader, or before it, or the leader itself.
    rcases Nat.lt_trichotomy j k with before | rfl | behind
    · have numbers_k : NumbersFrom values j k :=
        fun i y from_j to_k => numbers i y from_j (Nat.le_trans to_k (Nat.le_of_lt l.lt))
      obtain ⟨-, leader, lt⟩ := single_lt_iff_rank.1 (l.before j x before numbers_k at_j)
      exact lt.trans (lt_of_number leader)
    · obtain rfl : v = x := Option.some.inj (l.at_k.symm.trans at_j)
      exact lt_of_number (numbers j v (Nat.le_refl j) (Nat.le_of_lt inside) at_j)
    · obtain ⟨-, leader, le⟩ := single_le_iff_rank.1 (l.behind j x behind inside at_j)
      exact le.trans_lt (lt_of_number leader)

/-- A leader among all values with every NaN before a first largest number is that number. -/
theorem eq_firstLargest (l : Leads values values.size k v) {m : Nat} (f : FirstLargest values m w)
    (early : ∀ (j : Nat) (x : Float32), values[j]? = some x → x.isNaN = true → j < m) : k = m ∧ v = w := by
  obtain ⟨m_lt, -⟩ := Array.getElem?_eq_some_iff.1 f.at_k
  have v_mem : v ∈ values := Array.mem_of_getElem? l.at_k
  rcases Nat.lt_trichotomy k m with before | rfl | behind
  · obtain ⟨number, leader, le⟩ := single_le_iff_rank.1 (l.behind m w before m_lt f.at_k)
    obtain ⟨-, -, ge⟩ := single_le_iff_rank.1 (f.largest v v_mem leader)
    have first := f.first k v l.at_k (single_beq_iff_rank.2 ⟨leader, number, le_antisymm ge le⟩)
    omega
  · exact ⟨rfl, Option.some.inj (l.at_k.symm.trans f.at_k)⟩
  · have numbers : NumbersFrom values m k := by
      intro i x from_m _ at_i
      refine Bool.eq_false_iff.2 fun nan => ?_
      have := early i x at_i nan
      omega
    obtain ⟨-, leader, lt⟩ := single_lt_iff_rank.1 (l.before m w behind numbers f.at_k)
    obtain ⟨-, -, ge⟩ := single_le_iff_rank.1 (f.largest v v_mem leader)
    exact absurd lt (not_lt.2 ge)

/-- A leader among all values that is a first largest number has every NaN before it. -/
theorem lt_of_firstLargest (l : Leads values values.size k v) (f : FirstLargest values k v) {j : Nat} {x : Float32}
    (at_j : values[j]? = some x) (nan : x.isNaN = true) : j < k := by
  obtain ⟨inside, -⟩ := Array.getElem?_eq_some_iff.1 at_j
  rcases Nat.lt_trichotomy j k with before | rfl | behind
  · exact before
  · obtain rfl : v = x := Option.some.inj (f.at_k.symm.trans at_j)
    exact Bool.noConfusion (nan.symm.trans f.number)
  · obtain ⟨number, -, -⟩ := single_le_iff_rank.1 (l.behind j x behind inside at_j)
    exact Bool.noConfusion (nan.symm.trans number)

end Leads

/-- The pass over all values keeps a leader. -/
theorem peak?_leads (values : Array Float32) : LeadsAmong values values.size (peak? values) := by
  have size : values.zipIdx.size = values.size := Array.size_zipIdx
  rw [← size]
  unfold peak?
  refine Array.foldl_induction (LeadsAmong values) ?_ fun i best l => ?_
  · rfl
  · have inside : i.val < values.size := size ▸ i.isLt
    have next : values[i.val]? = some values[i.val] := Array.getElem?_eq_getElem inside
    have here : values.zipIdx[i] = (values[i.val], i.val) := by
      rw [Fin.getElem_fin, Array.getElem_zipIdx, Nat.zero_add]
    rw [here]
    cases best with
    | none =>
      have first : i.val = 0 := l
      exact ⟨Nat.lt_succ_self _, next, fun j x behind inside _ => by omega, fun j x before _ _ => by omega⟩
    | some best =>
      dsimp only
      split
      · rename_i le
        exact Leads.keep l next le
      · rename_i above
        exact Leads.replace l next above

/-- There is a peak unless there are no values. -/
theorem peak?_eq_none_iff (values : Array Float32) : peak? values = none ↔ values = #[] := by
  have pass := peak?_leads values
  cases peak : peak? values with
  | none =>
    rw [peak] at pass
    exact iff_of_true rfl (Array.eq_empty_of_size_eq_zero pass)
  | some best =>
    rw [peak] at pass
    refine iff_of_false (Option.some_ne_none best) ?_
    rintro rfl
    exact Nat.not_lt_zero _ (Leads.lt pass)

/-- Where there are numbers, one of them is a first largest one. -/
theorem exists_firstLargest {values : Array Float32} :
    (∃ x ∈ values, x.isNaN = false) ↔ ∃ k v, FirstLargest values k v := by
  constructor
  · rintro ⟨x, mem, number⟩
    have some_number : (values.toList.toFinset.filter fun y => y.isNaN = false).Nonempty :=
      ⟨x, Finset.mem_filter.2 ⟨List.mem_toFinset.2 (Array.mem_toList_iff.2 mem), number⟩⟩
    obtain ⟨top, top_mem, top_max⟩ :=
      Finset.exists_max_image _ (fun y : Float32 => rank y.toModel.unpack) some_number
    simp only [Finset.mem_filter, List.mem_toFinset, Array.mem_toList_iff] at top_mem top_max
    -- The first place of an equal value holds a largest number too.
    have somewhere : ∃ (k : Nat) (v : Float32), values[k]? = some v ∧ (v == top) = true := by
      obtain ⟨k, inside, at_k⟩ := Array.getElem_of_mem top_mem.1
      exact ⟨k, top, by rw [Array.getElem?_eq_getElem inside, at_k],
        single_beq_iff_rank.2 ⟨top_mem.2, top_mem.2, rfl⟩⟩
    classical
    obtain ⟨v, at_k, equal⟩ := Nat.find_spec somewhere
    obtain ⟨v_number, -, same⟩ := single_beq_iff_rank.1 equal
    refine ⟨Nat.find somewhere, v, at_k, v_number, ?_, ?_⟩
    · intro y y_mem y_number
      exact single_le_iff_rank.2 ⟨y_number, v_number, same ▸ top_max y ⟨y_mem, y_number⟩⟩
    · intro j y at_j y_eq
      obtain ⟨y_number, -, y_same⟩ := single_beq_iff_rank.1 y_eq
      exact Nat.find_le ⟨y, at_j, single_beq_iff_rank.2 ⟨y_number, top_mem.2, y_same.trans same⟩⟩
  · rintro ⟨k, v, f⟩
    exact ⟨v, Array.mem_of_getElem? f.at_k, f.number⟩

/-- **Peaks.** There is a peak unless there are no values, and a first largest number if there are numbers. The peak is
that number exactly if every NaN stands before it. -/
theorem peak_first_largest_iff (values : Array Float32) :
    (peak? values = none ↔ values = #[])
    ∧ ((∃ x ∈ values, x.isNaN = false) ↔ ∃ k v, FirstLargest values k v)
    ∧ ((∃ k v, peak? values = some (k, v) ∧ FirstLargest values k v)
      ↔ ∃ k v, FirstLargest values k v
        ∧ ∀ (j : Nat) (x : Float32), values[j]? = some x → x.isNaN = true → j < k) := by
  have pass := peak?_leads values
  refine ⟨peak?_eq_none_iff values, exists_firstLargest, ?_, ?_⟩
  · rintro ⟨k, v, peak, largest⟩
    rw [peak] at pass
    exact ⟨k, v, largest, fun j x at_j nan => Leads.lt_of_firstLargest pass largest at_j nan⟩
  · rintro ⟨k, v, largest, early⟩
    cases peak : peak? values with
    | none =>
      rw [(peak?_eq_none_iff values).1 peak] at largest
      exact absurd largest.at_k (by simp)
    | some best =>
      rw [peak] at pass
      obtain ⟨place, value⟩ := Leads.eq_firstLargest pass largest early
      exact ⟨k, v, by rw [← place, ← value], largest⟩

/-- A value behind a NaN takes the lead, whatever stands before the NaN. -/
theorem peak?_behind_nan : peak? #[5, 0 / 0, 3] = some (2, 3) := by
  decide +kernel

/-- So the peak of values with numbers among them need not be the largest one. -/
theorem not_forall_peak_first_largest : ¬∀ values : Array Float32, (∃ x ∈ values, x.isNaN = false) →
    ∃ k v, peak? values = some (k, v) ∧ FirstLargest values k v := by
  intro all
  obtain ⟨k, v, peak, f⟩ := all #[5, 0 / 0, 3] ⟨5, by simp, by decide +kernel⟩
  rw [peak?_behind_nan] at peak
  cases peak
  exact absurd (f.largest 5 (by simp) (by decide +kernel)) (by decide +kernel)

end Panadapter
