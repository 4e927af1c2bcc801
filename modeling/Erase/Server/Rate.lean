import Erase.Library.TokenBucket
import Erase.Server.Handlers

namespace Server

-- The calls of the rate script at these times, one after the other.
def rateRun (perSecond : ℚ) (bucket : Option Bucket) : List Nat → List Bool × Option Bucket
  | [] => ([], bucket)
  | now :: times =>
    let (allowed, bucket) := rate perSecond now bucket
    let (rest, last) := rateRun perSecond bucket times
    (allowed :: rest, last)

-- The tokens that a call finds.
def available (perSecond : ℚ) (bucket : Option Bucket) (now : Nat) : ℚ :=
  let old := bucket.filter fun bucket => now < bucket.expireAt
  min (perSecond * 2) ((old.map Bucket.tokens).getD (perSecond * 2)
    + max 0 ((now : ℚ) - (old.map Bucket.updated).getD now) * perSecond / 1000)

def idealBucket (perSecond : ℚ) : TokenBucket ℚ where
  capacity := perSecond * 2
  refill := perSecond / 1000

section

variable {perSecond : ℚ} {bucket : Option Bucket} {pool : TokenBucket.Pool ℚ} {now : Nat}

theorem rate_eq : rate perSecond now bucket
    = if available perSecond bucket now < 1 then (false, bucket)
      else (true, some {
        tokens := available perSecond bucket now - 1, updated := now, expireAt := now + 4000 }) :=
  rfl

theorem available_le : available perSecond bucket now ≤ perSecond * 2 := min_le_left _ _

theorem available_none : available perSecond none now = perSecond * 2 := by
  simp [available]

theorem available_of_live {stored : Bucket} (hlive : now < stored.expireAt)
    (hupdated : stored.updated ≤ now)
    : available perSecond (some stored) now
        = min (perSecond * 2) (stored.tokens + ((now : ℚ) - stored.updated) * perSecond / 1000) := by
  have helapsed : (0 : ℚ) ≤ (now : ℚ) - stored.updated := sub_nonneg.mpr (Nat.cast_le.mpr hupdated)
  simp [available, Option.filter, hlive, max_eq_right helapsed]

theorem available_of_lost {stored : Bucket} (hlost : stored.expireAt ≤ now)
    : available perSecond (some stored) now = perSecond * 2 := by
  simp [available, Option.filter, Nat.not_lt.mpr hlost]

-- The stored hash tells every later call what the ideal bucket holds then.
def Refines (perSecond : ℚ) (bucket : Option Bucket) (pool : TokenBucket.Pool ℚ) : Prop :=
  ∀ now : Nat, pool.time ≤ now
    → available perSecond bucket now = (idealBucket perSecond).levelAt pool now

theorem refines_full (hrate : 0 ≤ perSecond)
    : Refines perSecond none ((idealBucket perSecond).full 0) := by
  intro now htime
  have hgain : 0 ≤ perSecond / 1000 * (now - 0) :=
    mul_nonneg (by linarith) (sub_nonneg.mpr htime)
  rw [available_none, TokenBucket.levelAt]
  exact (min_eq_left (le_add_of_nonneg_right hgain)).symm

theorem Refines.rate (h : Refines perSecond bucket pool) (hrate : 0 ≤ perSecond)
    (hle : pool.time ≤ now)
    : (rate perSecond now bucket).1 = ((idealBucket perSecond).call pool now).1
        ∧ Refines perSecond (Server.rate perSecond now bucket).2
            ((idealBucket perSecond).call pool now).2 := by
  have hrefill : 0 ≤ (idealBucket perSecond).refill := by
    simp only [idealBucket]
    linarith
  rw [rate_eq]
  by_cases hempty : available perSecond bucket now < 1
  . rw [if_pos hempty]
    rw [h now hle] at hempty
    rw [TokenBucket.call_of_empty hempty]
    refine ⟨rfl, fun later hlater => ?_⟩
    have hnow : (now : ℚ) ≤ later := hlater
    rw [TokenBucket.levelAt_levelAt hrefill hnow]
    exact h later (hle.trans hnow)
  . rw [if_neg hempty]
    have hlevel := h now hle
    rw [hlevel] at hempty
    rw [TokenBucket.call_of_enough hempty, hlevel]
    refine ⟨rfl, fun later hlater => ?_⟩
    have hnow : (now : ℚ) ≤ later := hlater
    by_cases hlost : now + 4000 ≤ later
    . -- Half of the four seconds fill the bucket.
      have helapsed : (4000 : ℚ) ≤ later - now := by
        have hcast : ((now + 4000 : Nat) : ℚ) ≤ later := Nat.cast_le.mpr hlost
        push_cast at hcast
        linarith
      have hgain : perSecond * 4 ≤ perSecond / 1000 * (later - now) := by
        have hmul := mul_le_mul_of_nonneg_left helapsed (show 0 ≤ perSecond / 1000 by linarith)
        linarith
      have hone : 1 ≤ (idealBucket perSecond).levelAt pool now := not_lt.mp hempty
      have hfull : perSecond * 2 ≤ (idealBucket perSecond).levelAt pool now - 1
          + perSecond / 1000 * (later - now) := by
        linarith
      rw [available_of_lost hlost, TokenBucket.levelAt]
      exact (min_eq_left hfull).symm
    . rw [available_of_live (Nat.lt_of_not_le hlost) (Nat.cast_le.mp hnow), TokenBucket.levelAt]
      have hsame : ((later : ℚ) - now) * perSecond / 1000 = perSecond / 1000 * (later - now) := by
        ring
      rw [hsame]
      rfl

end

section

variable {perSecond : ℚ} {bucket last : Option Bucket} {times : List Nat} {decisions : List Bool}

theorem rateRun_cons {now : Nat}
    : rateRun perSecond bucket (now :: times)
        = ((rate perSecond now bucket).1 :: (rateRun perSecond (rate perSecond now bucket).2 times).1,
          (rateRun perSecond (rate perSecond now bucket).2 times).2) :=
  rfl

theorem rateRun_eq_ideal (hrate : 0 ≤ perSecond) {pool : TokenBucket.Pool ℚ}
    (h : Refines perSecond bucket pool) (hstart : ∀ time ∈ times, pool.time ≤ (time : ℚ))
    (hsorted : times.Pairwise (· ≤ ·))
    : (rateRun perSecond bucket times).1
        = ((idealBucket perSecond).run pool (times.map Nat.cast)).1 := by
  induction times generalizing bucket pool with
  | nil => rfl
  | cons now times ih =>
    rw [List.pairwise_cons] at hsorted
    rcases h.rate hrate (hstart now List.mem_cons_self) with ⟨hsame, hnext⟩
    have hrest := ih hnext (by
      intro time hmem
      rw [TokenBucket.time_call]
      exact Nat.cast_le.mpr (hsorted.1 time hmem)) hsorted.2
    rw [rateRun_cons, List.map_cons, TokenBucket.run_cons, hsame, hrest]

-- What an admission leaves in the hash.
theorem stored_of_rate {now : Nat} {stored : Bucket}
    (h : (rate perSecond now bucket).2 = some stored)
    : bucket = some stored
        ∨ (rate perSecond now bucket).1 = true ∧ stored.updated = now
          ∧ stored.expireAt = now + 4000 ∧ 0 ≤ stored.tokens
          ∧ stored.tokens ≤ perSecond * 2 - 1 := by
  rw [rate_eq] at h ⊢
  by_cases hempty : available perSecond bucket now < 1
  . rw [if_pos hempty] at h
    exact .inl h
  . rw [if_neg hempty] at h ⊢
    have hle : available perSecond bucket now ≤ perSecond * 2 := available_le
    have hone := not_lt.mp hempty
    cases h
    exact .inr ⟨rfl, rfl, rfl, by linarith, by linarith⟩

theorem stored_of_rateRun {stored : Bucket} (h : (rateRun perSecond bucket times).2 = some stored)
    : bucket = some stored
        ∨ (stored.updated, true) ∈ times.zip (rateRun perSecond bucket times).1
          ∧ stored.expireAt = stored.updated + 4000 ∧ 0 ≤ stored.tokens
          ∧ stored.tokens ≤ perSecond * 2 - 1 := by
  induction times generalizing bucket with
  | nil => exact .inl h
  | cons now times ih =>
    rw [rateRun_cons] at h ⊢
    rw [List.zip_cons_cons]
    rcases ih h with hstored | ⟨hmem, hrest⟩
    . rcases stored_of_rate hstored with hbucket | ⟨hallowed, hupdated, hexpire, hbounds⟩
      . exact .inl hbucket
      . rw [hallowed, hupdated]
        exact .inr ⟨List.mem_cons_self, hexpire, hbounds⟩
    . exact .inr ⟨List.mem_cons_of_mem _ hmem, hrest⟩

theorem rate_allowed (hrate : 1 / 2 ≤ perSecond) {now : Nat}
    (h : ∀ stored, bucket = some stored → stored.updated + 2000 ≤ now ∧ 0 ≤ stored.tokens)
    : (rate perSecond now bucket).1 = true := by
  have hfull : available perSecond bucket now = perSecond * 2 := by
    cases bucket with
    | none => exact available_none
    | some stored =>
      rcases h stored rfl with ⟨hrested, htokens⟩
      by_cases hlost : stored.expireAt ≤ now
      . exact available_of_lost hlost
      . have helapsed : (2000 : ℚ) ≤ now - stored.updated := by
          have hcast : ((stored.updated + 2000 : Nat) : ℚ) ≤ now := Nat.cast_le.mpr hrested
          push_cast at hcast
          linarith
        have hgain := mul_le_mul_of_nonneg_right helapsed (show 0 ≤ perSecond by linarith)
        rw [available_of_live (Nat.lt_of_not_le hlost) (by omega)]
        exact min_eq_left (by linarith)
  rw [rate_eq, hfull, if_neg (by linarith)]

end

theorem rate_refines_ideal {perSecond : ℚ} (hrate : 1 / 2 ≤ perSecond) {times : List Nat}
    (hsorted : times.Pairwise (· ≤ ·))
    : (rateRun perSecond none times).1
          = ((idealBucket perSecond).run ((idealBucket perSecond).full 0) (times.map Nat.cast)).1
        ∧ (∀ start width : ℚ, 0 ≤ width
          → (TokenBucket.admitted (fun time => decide (start ≤ time) && decide (time ≤ start + width))
              (times.map Nat.cast) (rateRun perSecond none times).1 : ℚ)
            ≤ 2 * perSecond + perSecond * width / 1000)
        ∧ (∀ stored, (rateRun perSecond none times).2 = some stored
          → 0 ≤ stored.tokens ∧ stored.tokens ≤ 2 * perSecond - 1)
        ∧ ∀ now, (∀ time, (time, true) ∈ times.zip (rateRun perSecond none times).1
            → time + 2000 ≤ now)
          → (rate perSecond now (rateRun perSecond none times).2).1 = true := by
  have hpos : 0 ≤ perSecond := by linarith
  have hideal := rateRun_eq_ideal hpos (refines_full hpos)
    (fun time _ => Nat.cast_nonneg time) hsorted
  refine ⟨hideal, fun start width hwidth => ?_, fun stored hstored => ?_, fun now hrested => ?_⟩
  . have hrefill : 0 ≤ (idealBucket perSecond).refill := by
      simp only [idealBucket]
      linarith
    have hfull : (idealBucket perSecond).Holds ((idealBucket perSecond).full 0) := by
      refine ⟨?_, le_rfl⟩
      simp only [TokenBucket.full, idealBucket]
      linarith
    have htimes : (0 :: times.map (Nat.cast : Nat → ℚ)).Pairwise (· ≤ ·) := by
      rw [List.pairwise_cons, List.forall_mem_map, List.pairwise_map]
      exact ⟨fun time _ => Nat.cast_nonneg time, hsorted.imp fun hle => Nat.cast_le.mpr hle⟩
    have hbound : (TokenBucket.admitted
          (fun time => decide (start ≤ time) && decide (time ≤ start + width)) (times.map Nat.cast)
          ((idealBucket perSecond).run ((idealBucket perSecond).full 0) (times.map Nat.cast)).1 : ℚ)
        ≤ perSecond * 2 + perSecond / 1000 * width :=
      TokenBucket.admitted_le_window hrefill hwidth hfull htimes
    rw [hideal]
    linarith
  . rcases stored_of_rateRun hstored with hnone | ⟨-, -, hnonneg, hle⟩
    . cases hnone
    . exact ⟨hnonneg, by linarith⟩
  . apply rate_allowed hrate
    intro stored hstored
    rcases stored_of_rateRun hstored with hnone | ⟨hmem, -, hnonneg, -⟩
    . cases hnone
    . exact ⟨hrested _ hmem, hnonneg⟩

theorem rate_refines_ideal_halves
    : (rateRun (1 / 2) none [0, 0, 1500, 3999, 4000]).1
        = ((idealBucket (1 / 2)).run ((idealBucket (1 / 2)).full 0)
            (([0, 0, 1500, 3999, 4000] : List Nat).map Nat.cast)).1 :=
  (rate_refines_ideal le_rfl (by decide)).1

end Server
