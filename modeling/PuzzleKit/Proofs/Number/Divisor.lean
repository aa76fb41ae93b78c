import Mathlib.Algebra.GCDMonoid.Multiset
import Mathlib.Algebra.GCDMonoid.Nat
import Mathlib.Logic.Relation
import PuzzleKit.Number.Divisor

/-!
# Divisors and multiples of whole lists

The greatest common divisor is found by Euclid's rounds, each of which keeps the common divisors of
its two numbers. A least common multiple is given exactly if it has 64 bits: it is computed by one
product, and no smaller number is lost on the way. For positive numbers that carries over to whole
lists, since a multiple that was lost only gets larger; then the order of a list does not matter.
-/

set_option autoImplicit false

namespace PuzzleKit.Divisor

/-! ## Euclid's rounds -/

/-- The second number and the remainder take the place of both numbers. -/
inductive Round : UInt64 × UInt64 → UInt64 × UInt64 → Prop where
  | divide {x y : UInt64} : y ≠ 0 → Round (x, y) (y, x % y)

theorem Round.lt {before after : UInt64 × UInt64} (round : Round before after) :
    after.2.toNat < before.2.toNat := by
  cases round with
  | @divide x y nonzero =>
      have positive : 0 < y.toNat :=
        Nat.pos_of_ne_zero fun zero => nonzero (UInt64.toNat_inj.mp zero)
      exact (UInt64.toNat_mod x y).trans_lt (Nat.mod_lt _ positive)

theorem Round.gcd_eq {before after : UInt64 × UInt64} (round : Round before after) :
    after.1.toNat.gcd after.2.toNat = before.1.toNat.gcd before.2.toNat := by
  cases round with
  | @divide x y _ => rw [UInt64.toNat_mod, Nat.gcd_comm, ← Nat.gcd_rec, Nat.gcd_comm]

theorem wellFounded_round : WellFounded fun after before => Round before after :=
  Subrelation.wf Round.lt (measure fun pair : UInt64 × UInt64 => pair.2.toNat).wf

theorem gcd_eq_of_rounds {before after : UInt64 × UInt64}
    (rounds : Relation.ReflTransGen Round before after) :
    after.1.toNat.gcd after.2.toNat = before.1.toNat.gcd before.2.toNat := by
  induction rounds with
  | refl => rfl
  | tail _ round ih => exact round.gcd_eq.trans ih

theorem rounds_reach_gcd (x y : UInt64) : Relation.ReflTransGen Round (x, y) (gcd x y, 0) := by
  induction x, y using gcd.induct with
  | case1 x =>
      rw [gcd, if_pos rfl]
  | case2 x y nonzero ih =>
      rw [gcd, if_neg nonzero]
      exact .head (.divide nonzero) ih

theorem toNat_gcd (x y : UInt64) : (gcd x y).toNat = x.toNat.gcd y.toNat := by
  rw [← gcd_eq_of_rounds (rounds_reach_gcd x y)]
  exact (Nat.gcd_zero_right _).symm

/-! ## Results of 64 bits -/

/-- The result is the number if that has 64 bits; otherwise there is none. -/
def Exact (result : Option UInt64) (number : Nat) : Prop :=
  ∀ word, result = some word ↔ word.toNat = number

theorem Exact.unique {left right : Option UInt64} {number : Nat} (onLeft : Exact left number)
    (onRight : Exact right number) : left = right :=
  Option.ext fun word => (onLeft word).trans (onRight word).symm

theorem Exact.eq_none_iff {result : Option UInt64} {number : Nat} (exact : Exact result number) :
    result = none ↔ 2 ^ 64 ≤ number := by
  rw [Option.eq_none_iff_forall_ne_some]
  constructor
  · intro missing
    by_contra small
    have fits := UInt64.toNat_ofNat_of_lt' (Nat.lt_of_not_le small)
    exact missing _ ((exact _).mpr fits)
  · intro large word found
    have fits := word.toNat_lt
    rw [(exact word).mp found] at fits
    exact Nat.not_lt_of_le large fits

theorem product?_exact (x y : UInt64) : Exact (product? x y) (x.toNat * y.toNat) := by
  intro word
  rw [product?]
  split
  · next fits =>
      have toNatEq : (x * y).toNat = x.toNat * y.toNat := by
        rw [UInt64.toNat_mul, Nat.mod_eq_of_lt fits]
      rw [Option.some_inj, ← UInt64.toNat_inj, toNatEq, eq_comm]
  · next large =>
      have fits := word.toNat_lt
      constructor
      · intro found
        cases found
      · intro wordEq
        exact absurd (wordEq ▸ fits) large

theorem lcm_exact (x y : UInt64) : Exact (lcm x y) (x.toNat.lcm y.toNat) := by
  have divisorEq := toNat_gcd x y
  rw [lcm]
  split
  · next zero =>
      rw [zero] at divisorEq
      have leftZero : x.toNat = 0 := Nat.eq_zero_of_gcd_eq_zero_left divisorEq.symm
      intro word
      rw [leftZero, Nat.lcm_zero_left, Option.some_inj, ← UInt64.toNat_inj, eq_comm]
      rfl
  · have quotientEq : (x / gcd x y).toNat * y.toNat = x.toNat.lcm y.toNat := by
      rw [UInt64.toNat_div, divisorEq, Nat.lcm_eq_mul_div,
        Nat.div_mul_right_comm (Nat.gcd_dvd_left _ _)]
    exact quotientEq ▸ product?_exact (x / gcd x y) y

/-- Euclid's rounds come to an end, and the first number is then the greatest common divisor of the
two numbers they started from. The least common multiple is given exactly if it has 64 bits. -/
theorem gcd_lcm_exact (x y : UInt64) :
    (WellFounded fun after before => Round before after) ∧
    Relation.ReflTransGen Round (x, y) (gcd x y, 0) ∧
    (∀ divisor, divisor ∣ (gcd x y).toNat ↔ divisor ∣ x.toNat ∧ divisor ∣ y.toNat) ∧
    gcd 0 0 = 0 ∧
    (∀ multiple, lcm x y = some multiple ↔ multiple.toNat = x.toNat.lcm y.toNat) ∧
    (lcm x y = none ↔ 2 ^ 64 ≤ x.toNat.lcm y.toNat) ∧
    lcm x 0 = some 0 ∧ lcm 0 y = some 0 := by
  refine ⟨wellFounded_round, rounds_reach_gcd x y, ?_, ?_, lcm_exact x y,
    (lcm_exact x y).eq_none_iff, ?_, ?_⟩
  · intro divisor
    rw [toNat_gcd, Nat.dvd_gcd_iff]
  · rw [← UInt64.toNat_inj, toNat_gcd]
    rfl
  · exact (lcm_exact x 0 0).mpr (Nat.lcm_zero_right _).symm
  · exact (lcm_exact 0 y 0).mpr (Nat.lcm_zero_left _).symm

namespace Summary

/-! ## Whole lists -/

/-- What is known of some numbers after they were taken into account in any order. -/
structure Summarizes (summary : Summary) (numbers : Multiset Nat) : Prop where
  divisor_eq : summary.divisor.toNat = numbers.gcd
  multiple_exact : Exact summary.multiple numbers.lcm

theorem Summarizes.unique {left right : Summary} {numbers : Multiset Nat}
    (onLeft : Summarizes left numbers) (onRight : Summarizes right numbers) : left = right := by
  obtain ⟨leftDivisor, leftMultiple⟩ := left
  obtain ⟨rightDivisor, rightMultiple⟩ := right
  obtain rfl : leftDivisor = rightDivisor :=
    UInt64.toNat_inj.mp (onLeft.divisor_eq.trans onRight.divisor_eq.symm)
  obtain rfl : leftMultiple = rightMultiple := onLeft.multiple_exact.unique onRight.multiple_exact
  rfl

theorem empty_summarizes : Summarizes empty 0 where
  divisor_eq := rfl
  multiple_exact := by
    intro word
    rw [Multiset.lcm_zero, empty, Option.some_inj, ← UInt64.toNat_inj, eq_comm]
    rfl

/-- A multiple that is lost has more than 64 bits, and one more positive number cannot make it
smaller. -/
theorem bind_lcm_exact {multiple : Option UInt64} {total : Nat} {number : UInt64}
    (exact : Exact multiple total) (positive : 0 < number) :
    Exact (multiple.bind fun multiple => lcm multiple number) (total.lcm number.toNat) := by
  intro word
  rw [Option.bind_eq_some_iff]
  constructor
  · rintro ⟨previous, found, next⟩
    rw [← (exact previous).mp found]
    exact (lcm_exact previous number word).mp next
  · intro wordEq
    have le : total ≤ word.toNat := by
      rw [wordEq]
      exact Nat.le_lcm_left total (UInt64.lt_iff_toNat_lt.mp positive)
    have totalEq := UInt64.toNat_ofNat_of_lt' (Nat.lt_of_le_of_lt le word.toNat_lt)
    refine ⟨UInt64.ofNat total, (exact _).mpr totalEq, ?_⟩
    rw [lcm_exact, totalEq, wordEq]

theorem Summarizes.insert {summary : Summary} {numbers : Multiset Nat} {number : UInt64}
    (summarizes : Summarizes summary numbers) (positive : 0 < number) :
    Summarizes (summary.insert number) (number.toNat ::ₘ numbers) where
  divisor_eq := by
    rw [Summary.insert, toNat_gcd, summarizes.divisor_eq, Multiset.gcd_cons, Nat.gcd_comm]
    rfl
  multiple_exact := by
    rw [Multiset.lcm_cons, lcm_comm]
    exact bind_lcm_exact summarizes.multiple_exact positive

theorem Summarizes.foldl_insert {summary : Summary} {numbers : Multiset Nat} {more : List UInt64}
    (summarizes : Summarizes summary numbers) (positive : ∀ number ∈ more, 0 < number) :
    Summarizes (more.foldl Summary.insert summary) (more.map UInt64.toNat + numbers) := by
  induction more generalizing summary numbers with
  | nil =>
      rw [List.map_nil, Multiset.coe_nil, Multiset.zero_add]
      exact summarizes
  | cons number more ih =>
      obtain ⟨first, others⟩ := List.forall_mem_cons.mp positive
      have inserted := ih (summarizes.insert first) others
      rwa [Multiset.add_cons, ← Multiset.cons_add, Multiset.cons_coe, ← List.map_cons] at inserted

theorem ofList_summarizes {numbers : List UInt64} (positive : ∀ number ∈ numbers, 0 < number) :
    Summarizes (ofList numbers) (numbers.map UInt64.toNat) := by
  have folded := empty_summarizes.foldl_insert positive
  rwa [Multiset.add_zero] at folded

/-- For positive numbers the order does not matter: the divisor is the greatest common divisor of
them all, and the multiple is their least common multiple, given exactly if it has 64 bits. With a
zero it would matter, since the multiple is then zero unless it was lost before. -/
theorem ofList_ignores_order {numbers others : List UInt64}
    (positive : ∀ number ∈ numbers, 0 < number) (rearranged : numbers.Perm others) :
    ofList numbers = ofList others ∧
    (ofList numbers).divisor.toNat = (numbers.map UInt64.toNat : Multiset Nat).gcd ∧
    (∀ multiple, (ofList numbers).multiple = some multiple ↔
      multiple.toNat = (numbers.map UInt64.toNat : Multiset Nat).lcm) ∧
    ((ofList numbers).multiple = none ↔
      2 ^ 64 ≤ (numbers.map UInt64.toNat : Multiset Nat).lcm) := by
  have summarizes := ofList_summarizes positive
  have same : (numbers.map UInt64.toNat : Multiset Nat) = others.map UInt64.toNat :=
    Multiset.coe_eq_coe.mpr (rearranged.map _)
  have othersSummarize : Summarizes (ofList others) (numbers.map UInt64.toNat) := by
    rw [same]
    exact ofList_summarizes fun number member => positive number (rearranged.mem_iff.mpr member)
  exact ⟨summarizes.unique othersSummarize, summarizes.divisor_eq, summarizes.multiple_exact,
    summarizes.multiple_exact.eq_none_iff⟩

/-- Behind the larger power of two the smaller one adds nothing, before it it does. -/
theorem ofList_ignores_order_powers :
    (∀ number ∈ [4294967296, 3, 8589934592], (0 : UInt64) < number) ∧
    [4294967296, 3, 8589934592].Perm [8589934592, 4294967296, (3 : UInt64)] ∧
    ofList [4294967296, 3, 8589934592] = ofList [8589934592, 4294967296, 3] ∧
    (ofList [4294967296, 3, 8589934592]).multiple = some 25769803776 := by
  have positive : ∀ number ∈ [4294967296, 3, 8589934592], (0 : UInt64) < number := by simp
  have rearranged : [4294967296, 3, 8589934592].Perm [8589934592, 4294967296, (3 : UInt64)] := by
    decide
  have facts := ofList_ignores_order positive rearranged
  exact ⟨positive, rearranged, facts.1, (facts.2.2.1 25769803776).mpr (by decide)⟩

end Summary

end PuzzleKit.Divisor
