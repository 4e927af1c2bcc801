import Erase.Shared.Index

namespace Shared

structure Challenge where
  challenge : JsString
  bits : JsNumber
  expiresAt : JsNumber

-- What one look at the signal and the clock finds.
structure Moment where
  aborted : Bool
  now : Nat

-- The looks around the pause that precedes a nonce.
structure Pauses where
  before : Nat → Moment
  after : Nat → Moment

-- The nonces that a search has hashed, and how it ended.
structure Search where
  visited : List Nat
  result : Except JsError JsString

def maxNonce : Nat := 9007199254740991

def isChallengeUnit (unit : UInt16) : Bool := isBase64Url unit || unit = 46

-- The challenges that `/^[A-Za-z0-9._-]{1,512}$/` matches, of a difficulty in range.
def isInvalidChallenge (challenge : Challenge) : Bool :=
  !(1 ≤ challenge.challenge.length && challenge.challenge.length ≤ 512)
  || !challenge.challenge.all isChallengeUnit
  || !challenge.bits.safeInteger?.any (fun bits => 0 ≤ bits && bits ≤ 24)
  || challenge.expiresAt.safeInteger?.isNone

def milliseconds (seconds : JsNumber) : JsNumber :=
  match seconds with
  | .infinite negative => .infinite negative
  | .finite value =>
    match Binary64.round (value * 1000) with
    | some value => .finite value
    | none => .infinite (value < 0)

def checkMoment (expiresAt : JsNumber) (moment : Moment) : Except JsError Unit := do
  if moment.aborted then .error (.protocolError "cancelled" "Operation cancelled.")
  if !(milliseconds expiresAt).greaterThan moment.now then
    .error (.protocolError "proof_expired" "The upload challenge expired. Try again.")

def checkPause (expiresAt : JsNumber) (pauses : Pauses) (nonce : Nat) : Except JsError Unit := do
  if nonce % 2048 = 0 then
    checkMoment expiresAt (pauses.before nonce)
    checkMoment expiresAt (pauses.after nonce)

-- A byte past the end is `undefined`, which a shift reads as zero.
def isGood (zeroBytes remainder : Nat) (digest : Bytes) : Bool :=
  (List.range zeroBytes).all (fun i => digest[i]? = some 0)
  && (remainder = 0
    || (digest[zeroBytes]?.elim 0 UInt8.toUInt32) >>> UInt32.ofNat (8 - remainder) = 0)

def spell (nonce : Nat) : JsString := Ascii.units (Decimal.codes nonce)

section

variable (crypto : Crypto)

-- The loop from `nonce` on, with `count` nonces left. All of them are exact as numbers.
def search (proof : JsString) (zeroBytes remainder : Nat) (expiresAt : JsNumber) (pauses : Pauses)
    : (count nonce : Nat) → Search
  | 0, _ => ⟨[], .error (.protocolError "proof_exhausted" "Unable to solve this upload challenge.")⟩
  | count + 1, nonce =>
    match checkPause expiresAt pauses nonce with
    | .error error => ⟨[], .error error⟩
    | .ok () =>
      if isGood zeroBytes remainder (crypto.sha256 (encoderEncode (proof ++ spell nonce))) then
        ⟨[nonce], .ok (spell nonce)⟩
      else
        let rest := search proof zeroBytes remainder expiresAt pauses count (nonce + 1)
        ⟨nonce :: rest.visited, rest.result⟩

def solveProof (packet : Bytes) (challenge : Challenge) (pauses : Pauses) : Search :=
  match parsePacket packet with
  | .error error => ⟨[], .error error⟩
  | .ok _ =>
    if isInvalidChallenge challenge then
      ⟨[], .error (.protocolError "invalid_challenge" "Invalid proof challenge.")⟩
    else
      let proof := challenge.challenge ++ JsString.ofString "." ++ hash crypto packet
        ++ JsString.ofString "."
      let bits := (challenge.bits.safeInteger?.getD 0).toNat
      search crypto proof (bits / 8) (bits % 8) challenge.expiresAt pauses (maxNonce + 1) 0

end

section

variable {crypto : Crypto} {proof : JsString} {zeroBytes remainder count nonce : Nat}
variable {expiresAt : JsNumber} {pauses : Pauses}

theorem search_of_good (hpause : checkPause expiresAt pauses nonce = .ok ())
    (hgood : isGood zeroBytes remainder (crypto.sha256 (encoderEncode (proof ++ spell nonce))) = true)
    : (search crypto proof zeroBytes remainder expiresAt pauses (count + 1) nonce).result
        = .ok (spell nonce) := by
  unfold search
  rw [hpause, hgood]
  rfl

theorem search_of_bad (hpause : checkPause expiresAt pauses nonce = .ok ())
    (hbad : isGood zeroBytes remainder (crypto.sha256 (encoderEncode (proof ++ spell nonce))) = false)
    : (search crypto proof zeroBytes remainder expiresAt pauses (count + 1) nonce).result
        = (search crypto proof zeroBytes remainder expiresAt pauses count (nonce + 1)).result := by
  rw [search, hpause, hbad]
  rfl

theorem mem_visited_search {visited : Nat}
    (h : visited ∈ (search crypto proof zeroBytes remainder expiresAt pauses count nonce).visited)
    : visited < nonce + count := by
  induction count generalizing nonce with
  | zero => cases h
  | succ count ih =>
    unfold search at h
    split at h
    . cases h
    . split at h
      . obtain rfl : visited = nonce := List.mem_singleton.mp h
        omega
      . rcases List.mem_cons.mp h with rfl | h
        . omega
        . have hlt := ih h
          omega

-- The search ends on the first nonce that the digest test accepts.
theorem search_eq_ok {text : JsString}
    (h : (search crypto proof zeroBytes remainder expiresAt pauses count nonce).result = .ok text)
    : ∃ found, nonce ≤ found ∧ found < nonce + count ∧ text = spell found
      ∧ isGood zeroBytes remainder (crypto.sha256 (encoderEncode (proof ++ spell found))) = true
      ∧ ∀ smaller, nonce ≤ smaller → smaller < found
        → isGood zeroBytes remainder (crypto.sha256 (encoderEncode (proof ++ spell smaller)))
          = false := by
  induction count generalizing nonce with
  | zero => cases h
  | succ count ih =>
    unfold search at h
    split at h
    . cases h
    . split at h
      . next hgood =>
        cases h
        exact ⟨nonce, Nat.le_refl _, by omega, rfl, hgood, fun smaller hle hlt => by omega⟩
      . next hbad =>
        rcases ih h with ⟨found, hle, hlt, htext, hgood, hsmaller⟩
        refine ⟨found, by omega, by omega, htext, hgood, fun smaller hnonce hfound => ?_⟩
        by_cases hfirst : smaller = nonce
        . rw [hfirst]
          exact Bool.not_eq_true _ ▸ hbad
        . exact hsmaller smaller (by omega) hfound

theorem solveProof_of_valid {packet : Bytes} {challenge : Challenge} {parsed : ParsedPacket}
    (hparsed : parsePacket packet = .ok parsed) (hvalid : isInvalidChallenge challenge = false)
    : solveProof crypto packet challenge pauses
        = search crypto (challenge.challenge ++ JsString.ofString "." ++ hash crypto packet
            ++ JsString.ofString ".") ((challenge.bits.safeInteger?.getD 0).toNat / 8)
          ((challenge.bits.safeInteger?.getD 0).toNat % 8) challenge.expiresAt pauses (maxNonce + 1) 0 := by
  unfold solveProof
  rw [hparsed, hvalid]
  rfl

theorem solveProof_eq_ok {packet : Bytes} {challenge : Challenge} {text : JsString}
    (h : (solveProof crypto packet challenge pauses).result = .ok text)
    : isInvalidChallenge challenge = false
      ∧ (search crypto (challenge.challenge ++ JsString.ofString "." ++ hash crypto packet
            ++ JsString.ofString ".") ((challenge.bits.safeInteger?.getD 0).toNat / 8)
          ((challenge.bits.safeInteger?.getD 0).toNat % 8) challenge.expiresAt pauses (maxNonce + 1) 0).result
        = .ok text := by
  unfold solveProof at h
  split at h
  . cases h
  . split at h
    . cases h
    . next hvalid => exact ⟨Bool.not_eq_true _ ▸ hvalid, h⟩

theorem mem_visited_solveProof {packet : Bytes} {challenge : Challenge} {visited : Nat}
    (h : visited ∈ (solveProof crypto packet challenge pauses).visited) : visited ≤ maxNonce := by
  unfold solveProof at h
  split at h
  . cases h
  . split at h
    . cases h
    . have hlt := mem_visited_search h
      omega

end

end Shared
