import Erase.Library.Except
import Erase.Library.Bytes

namespace Server

inductive ApiError where
  | unavailable
  | invalidRequest
  | tooLarge
  | requestTimeout
  | proofInvalid
  | proofReused
  | idConflict
  | capacity
  | rateLimited
  | forbidden
  | notFound
  deriving DecidableEq, Repr

inductive Failure where
  | api (error : ApiError)
  | panic
  deriving DecidableEq, Repr

def fail (error : ApiError) : Except Failure α := .error (.api error)

-- `usize` has 64 bits. An overflow counts as a panic in every build profile.
def usizeAdd (left right : Nat) : Except Failure Nat :=
  if left + right < 2 ^ 64 then .ok (left + right) else .error .panic

def usizeSub (left right : Nat) : Except Failure Nat :=
  if right ≤ left then .ok (left - right) else .error .panic

def slice (bytes : Bytes) (start stop : Nat) : Except Failure Bytes :=
  if start ≤ stop ∧ stop ≤ bytes.length then
    .ok ((bytes.drop start).take (stop - start))
  else
    .error .panic

theorem usizeAdd_eq_ok_iff {left right sum : Nat}
    : usizeAdd left right = .ok sum ↔ left + right < 2 ^ 64 ∧ sum = left + right := by
  unfold usizeAdd
  split
  . next h => simp only [Except.ok.injEq, h, true_and, eq_comm]
  . next h => simp only [reduceCtorEq, h, false_and]

theorem usizeSub_eq_ok_iff {left right difference : Nat}
    : usizeSub left right = .ok difference ↔ right ≤ left ∧ difference = left - right := by
  unfold usizeSub
  split
  . next h => simp [h, eq_comm]
  . next h => simp [h]

theorem slice_eq_ok_iff {bytes part : Bytes} {start stop : Nat}
    : slice bytes start stop = .ok part
        ↔ (start ≤ stop ∧ stop ≤ bytes.length) ∧ part = (bytes.drop start).take (stop - start) := by
  unfold slice
  split
  . next h => simp [h, eq_comm]
  . next h => simp [h]

end Server
