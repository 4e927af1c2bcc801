import Mathlib.Algebra.Order.Field.Basic
import Mathlib.Tactic.Linarith
import Mathlib.Tactic.Ring

/-!
The ideal token bucket: it fills continuously up to its capacity, every call takes one token, and it
never forgets its level. Times and levels are numbers of one ordered field.
-/

structure TokenBucket (K : Type) where
  capacity : K
  refill : K

namespace TokenBucket

structure Pool (K : Type) where
  level : K
  time : K

variable {K : Type}

-- How many calls of the window get their token.
def admitted (window : K → Bool) (times : List K) (decisions : List Bool) : Nat :=
  (times.zip decisions).countP fun (time, allowed) => window time && allowed

theorem admitted_cons (window : K → Bool) (now : K) (times : List K) (allowed : Bool)
    (decisions : List Bool)
    : admitted window (now :: times) (allowed :: decisions)
        = admitted window times decisions + if window now && allowed then 1 else 0 := by
  rw [admitted, List.zip_cons_cons, List.countP_cons]
  rfl

theorem admitted_eq_zero {window : K → Bool} {times : List K} {decisions : List Bool}
    (h : ∀ time ∈ times, window time = false) : admitted window times decisions = 0 := by
  rw [admitted, List.countP_eq_zero]
  rintro ⟨time, allowed⟩ hmem
  simp [h time (List.of_mem_zip hmem).1]

theorem admitted_mono {window window' : K → Bool} {times : List K} {decisions : List Bool}
    (h : ∀ time ∈ times, window time = true → window' time = true)
    : admitted window times decisions ≤ admitted window' times decisions := by
  apply List.countP_mono_left
  rintro ⟨time, allowed⟩ hmem hcounted
  rw [Bool.and_eq_true] at hcounted ⊢
  exact ⟨h time (List.of_mem_zip hmem).1 hcounted.1, hcounted.2⟩

variable [Field K] [LinearOrder K] (bucket : TokenBucket K)

def levelAt (pool : Pool K) (now : K) : K :=
  min bucket.capacity (pool.level + bucket.refill * (now - pool.time))

def call (pool : Pool K) (now : K) : Bool × Pool K :=
  let level := bucket.levelAt pool now
  if level < 1 then (false, { level, time := now }) else (true, { level := level - 1, time := now })

def run (pool : Pool K) : List K → List Bool × Pool K
  | [] => ([], pool)
  | now :: times =>
    let (allowed, pool) := bucket.call pool now
    let (rest, last) := run pool times
    (allowed :: rest, last)

def full (time : K) : Pool K where
  level := bucket.capacity
  time := time

structure Holds (pool : Pool K) : Prop where
  nonneg : 0 ≤ pool.level
  le : pool.level ≤ bucket.capacity

variable {bucket} {pool : Pool K} {now later : K}

theorem call_of_empty (h : bucket.levelAt pool now < 1)
    : bucket.call pool now = (false, { level := bucket.levelAt pool now, time := now }) := by
  rw [call, if_pos h]

theorem call_of_enough (h : ¬bucket.levelAt pool now < 1)
    : bucket.call pool now = (true, { level := bucket.levelAt pool now - 1, time := now }) := by
  rw [call, if_neg h]

theorem levelAt_le_capacity : bucket.levelAt pool now ≤ bucket.capacity := min_le_left _ _

section

variable [IsStrictOrderedRing K] (hrefill : 0 ≤ bucket.refill)

include hrefill

-- Two refills in a row are one.
theorem levelAt_levelAt (hle : now ≤ later)
    : bucket.levelAt { level := bucket.levelAt pool now, time := now } later
        = bucket.levelAt pool later := by
  have hgain : 0 ≤ bucket.refill * (later - now) := mul_nonneg hrefill (sub_nonneg.mpr hle)
  have hsplit : pool.level + bucket.refill * (now - pool.time) + bucket.refill * (later - now)
      = pool.level + bucket.refill * (later - pool.time) := by ring
  have hfull : bucket.capacity ≤ bucket.capacity + bucket.refill * (later - now) :=
    le_add_of_nonneg_right hgain
  simp only [levelAt]
  rw [← min_add_add_right, hsplit, ← min_assoc, min_eq_left hfull]

theorem levelAt_nonneg (hpool : bucket.Holds pool) (hle : pool.time ≤ now)
    : 0 ≤ bucket.levelAt pool now := by
  have hgain : 0 ≤ bucket.refill * (now - pool.time) := mul_nonneg hrefill (sub_nonneg.mpr hle)
  exact le_min (hpool.nonneg.trans hpool.le) (add_nonneg hpool.nonneg hgain)

-- A call at once after a refill sees what the refill left.
theorem call_levelAt
    : bucket.call { level := bucket.levelAt pool now, time := now } now = bucket.call pool now := by
  rw [call, levelAt_levelAt hrefill le_rfl]
  rfl

theorem holds_call (hpool : bucket.Holds pool) (hle : pool.time ≤ now)
    : bucket.Holds (bucket.call pool now).2 := by
  have hnonneg := levelAt_nonneg hrefill hpool hle
  have hcapacity : bucket.levelAt pool now ≤ bucket.capacity := levelAt_le_capacity
  by_cases h : bucket.levelAt pool now < 1
  . rw [call_of_empty h]
    exact ⟨hnonneg, hcapacity⟩
  . rw [call_of_enough h]
    exact ⟨sub_nonneg.mpr (not_lt.mp h), (sub_le_self _ zero_le_one).trans hcapacity⟩

end

@[simp]
theorem time_call : (bucket.call pool now).2.time = now := by
  unfold call
  dsimp only
  split <;> rfl

theorem run_cons (times : List K)
    : bucket.run pool (now :: times)
        = ((bucket.call pool now).1 :: (bucket.run (bucket.call pool now).2 times).1,
          (bucket.run (bucket.call pool now).2 times).2) :=
  rfl

section

variable [IsStrictOrderedRing K] (hrefill : 0 ≤ bucket.refill)

include hrefill

-- Until `last`, the calls get what the pool holds and what flows in.
theorem admitted_le_level {times : List K} {last : K} (hpool : bucket.Holds pool)
    (hsorted : (pool.time :: times).Pairwise (· ≤ ·)) (hlast : pool.time ≤ last)
    : (admitted (fun time => decide (time ≤ last)) times (bucket.run pool times).1 : K)
        ≤ pool.level + bucket.refill * (last - pool.time) := by
  induction times generalizing pool with
  | nil =>
    have hgain : 0 ≤ bucket.refill * (last - pool.time) :=
      mul_nonneg hrefill (sub_nonneg.mpr hlast)
    have hnone : admitted (fun time => decide (time ≤ last)) [] (bucket.run pool []).1 = 0 := rfl
    rw [hnone, Nat.cast_zero]
    exact add_nonneg hpool.nonneg hgain
  | cons now times ih =>
    rw [List.pairwise_cons] at hsorted
    have hnow : pool.time ≤ now := hsorted.1 now List.mem_cons_self
    by_cases hwithin : now ≤ last
    case neg =>
      have hgain : 0 ≤ bucket.refill * (last - pool.time) :=
        mul_nonneg hrefill (sub_nonneg.mpr hlast)
      have hnone : admitted (fun time => decide (time ≤ last)) (now :: times)
          (bucket.run pool (now :: times)).1 = 0 := by
        apply admitted_eq_zero
        intro time hmem
        rw [decide_eq_false_iff_not]
        intro hle
        rcases List.mem_cons.mp hmem with rfl | htail
        . exact hwithin hle
        . exact hwithin (((List.pairwise_cons.mp hsorted.2).1 time htail).trans hle)
      rw [hnone, Nat.cast_zero]
      exact add_nonneg hpool.nonneg hgain
    have hrest := ih (holds_call hrefill hpool hnow) (by simpa using hsorted.2) (by simpa using hwithin)
    have hlevel : bucket.levelAt pool now ≤ pool.level + bucket.refill * (now - pool.time) :=
      min_le_right _ _
    have hsplit : bucket.refill * (now - pool.time) + bucket.refill * (last - now)
        = bucket.refill * (last - pool.time) := by ring
    rw [run_cons, admitted_cons, Nat.cast_add]
    by_cases h : bucket.levelAt pool now < 1
    . rw [call_of_empty h] at hrest ⊢
      simp only [Bool.and_false, Bool.false_eq_true, if_false, Nat.cast_zero] at hrest ⊢
      linarith
    . rw [call_of_enough h] at hrest ⊢
      simp only [hwithin, decide_true, Bool.and_true, if_true, Nat.cast_one] at hrest ⊢
      linarith

theorem admitted_le_window {times : List K} {start width : K} (hwidth : 0 ≤ width)
    (hpool : bucket.Holds pool) (hsorted : (pool.time :: times).Pairwise (· ≤ ·))
    : (admitted (fun time => decide (start ≤ time) && decide (time ≤ start + width)) times
          (bucket.run pool times).1 : K)
        ≤ bucket.capacity + bucket.refill * width := by
  induction times generalizing pool with
  | nil =>
    have hnone : admitted (fun time => decide (start ≤ time) && decide (time ≤ start + width)) []
        (bucket.run pool []).1 = 0 := rfl
    rw [hnone, Nat.cast_zero]
    exact add_nonneg (hpool.nonneg.trans hpool.le) (mul_nonneg hrefill hwidth)
  | cons now times ih =>
    rw [List.pairwise_cons] at hsorted
    have hnow : pool.time ≤ now := hsorted.1 now List.mem_cons_self
    by_cases hbefore : start ≤ now
    case neg =>
      have hrest := ih (holds_call hrefill hpool hnow) (by simpa using hsorted.2)
      rw [run_cons, admitted_cons, decide_eq_false hbefore]
      simpa using hrest
    have hafter : ∀ time ∈ now :: times, now ≤ time := by
      intro time hmem
      rcases List.mem_cons.mp hmem with rfl | htail
      . exact le_rfl
      . exact (List.pairwise_cons.mp hsorted.2).1 time htail
    by_cases hwithin : now ≤ start + width
    case neg =>
      rw [admitted_eq_zero, Nat.cast_zero]
      . exact add_nonneg (hpool.nonneg.trans hpool.le) (mul_nonneg hrefill hwidth)
      . intro time hmem
        have hlate : ¬time ≤ start + width := fun hle => hwithin ((hafter time hmem).trans hle)
        rw [decide_eq_false hlate, Bool.and_false]
    -- The window sees the pool as the first call of the window finds it.
    have hfilled : bucket.Holds { level := bucket.levelAt pool now, time := now } :=
      ⟨levelAt_nonneg hrefill hpool hnow, levelAt_le_capacity⟩
    have hbound := admitted_le_level hrefill hfilled
      (List.pairwise_cons.mpr ⟨hafter, hsorted.2⟩) hwithin
    have hwindow : admitted (fun time => decide (start ≤ time) && decide (time ≤ start + width))
          (now :: times) (bucket.run pool (now :: times)).1
        ≤ admitted (fun time => decide (time ≤ start + width)) (now :: times)
          (bucket.run pool (now :: times)).1 :=
      admitted_mono fun _ _ hin => (Bool.and_eq_true _ _ ▸ hin).2
    rw [run_cons, call_levelAt hrefill, ← run_cons] at hbound
    have hcapacity : bucket.levelAt pool now ≤ bucket.capacity := levelAt_le_capacity
    have hgain : bucket.refill * (start + width - now) ≤ bucket.refill * width :=
      mul_le_mul_of_nonneg_left (by linarith) hrefill
    have hcast : (admitted (fun time => decide (start ≤ time) && decide (time ≤ start + width))
          (now :: times) (bucket.run pool (now :: times)).1 : K)
        ≤ (admitted (fun time => decide (time ≤ start + width)) (now :: times)
          (bucket.run pool (now :: times)).1 : K) :=
      Nat.cast_le.mpr hwindow
    linarith

end

end TokenBucket
