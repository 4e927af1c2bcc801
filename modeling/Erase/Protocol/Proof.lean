import Erase.Protocol.Packet
import Erase.Server.Work
import Erase.Shared.Proof

/-!
The proof that a client solves is the one that the server verifies.
-/

open Shared

namespace Protocol

theorem spell_eq (n : Nat) : spell n = JsString.ofString (toString n) := by
  rw [← Server.string_codes]
  exact (Ascii.ofString_string (Decimal.isAscii_codes n)).symm

theorem hash_eq (crypto : Crypto) (bytes : Bytes)
    : hash crypto bytes = JsString.ofString (Server.digest crypto.sha256 bytes) :=
  (Ascii.ofString_string (Hex.isAscii_encode _)).symm

theorem encoderEncode_ofString (text : String)
    : encoderEncode (JsString.ofString text) = Server.asBytes text := by
  unfold encoderEncode JsString.ofString
  rw [JsString.scalars_ofChars]
  rfl

theorem ofString_append (left right : String)
    : JsString.ofString (left ++ right) = JsString.ofString left ++ JsString.ofString right := by
  unfold JsString.ofString
  rw [String.toList_append, JsString.ofChars_append]

theorem encoderEncode_proof (crypto : Crypto) (challenge : String) (packet : Bytes) (nonce : Nat)
    : encoderEncode (JsString.ofString challenge ++ JsString.ofString "." ++ hash crypto packet
          ++ JsString.ofString "." ++ spell nonce)
        = Server.workBytes crypto.sha256 challenge (toString nonce) packet := by
  rw [spell_eq, hash_eq, ← ofString_append, ← ofString_append, ← ofString_append, ← ofString_append,
    encoderEncode_ofString]
  rfl

theorem shiftRight_eq_zero_iff (byte : UInt8) {remainder : Nat} (hremainder : remainder ≤ 8)
    : byte.toUInt32 >>> UInt32.ofNat (8 - remainder) = 0 ↔ byte.toNat / 2 ^ (8 - remainder) = 0 := by
  rw [← UInt32.toNat_inj, UInt32.toNat_shiftRight, UInt8.toNat_toUInt32,
    Nat.shiftRight_eq_div_pow]
  have hsmall : (UInt32.ofNat (8 - remainder)).toNat % 32 = 8 - remainder := by
    rw [UInt32.toNat_ofNat']
    omega
  rw [hsmall]
  rfl

theorem isGood_eq {digest : Bytes} (hlength : digest.length = 32) {bits : Nat} (hbits : bits ≤ 24)
    : isGood (bits / 8) (bits % 8) digest = decide (digest.toNatBE < 2 ^ (256 - bits)) := by
  have hiff := @Bytes.toNatBE_lt_two_pow_iff digest bits (by omega)
  rw [hlength] at hiff
  have hfull : bits / 8 < digest.length := by omega
  rw [List.getElem?_eq_getElem hfull, Option.getD_some,
    ← shiftRight_eq_zero_iff _ (Nat.le_of_lt (Nat.mod_lt bits (by decide)))] at hiff
  rw [Bool.eq_iff_iff, decide_eq_true_eq, hiff]
  unfold isGood
  rw [List.getElem?_eq_getElem hfull, Bool.and_eq_true, Bool.or_eq_true, decide_eq_true_eq, List.all_eq_true]
  apply and_congr
  . simp
  . exact or_congr Iff.rfl decide_eq_true_iff

-- The pair of tests, as one function of the solver's nonce and the server's.
theorem verifyWork_toString {crypto : Crypto} (hcrypto : crypto.Lawful) {challenge : String}
    (hchallenge : Server.validId challenge = true) (packet : Bytes) {bits : Nat}
    (hbits : 1 ≤ bits ∧ bits ≤ 24) {nonce : Nat} (hnonce : nonce ≤ maxNonce)
    : Server.verifyWork crypto.sha256 challenge (toString nonce) packet bits
        = .ok (isGood (bits / 8) (bits % 8) (crypto.sha256 (encoderEncode
            (JsString.ofString challenge ++ JsString.ofString "." ++ hash crypto packet
              ++ JsString.ofString "." ++ spell nonce)))) := by
  rw [Server.verifyWork_eq packet hchallenge (Server.validNonce_toString hnonce) hbits,
    Server.hasWork_eq (hcrypto.length_sha256 _) hbits.2, isGood_eq (hcrypto.length_sha256 _) hbits.2,
    encoderEncode_proof]

theorem solveProof_verifyWork {crypto : Crypto} (hcrypto : crypto.Lawful) {packet : Bytes}
    {challenge : String} (hchallenge : Server.validId challenge = true) {bits : Nat}
    (hbits : 1 ≤ bits ∧ bits ≤ 24) {expiresAt : JsNumber} {pauses : Pauses} {text : JsString}
    (h : (solveProof crypto packet ⟨JsString.ofString challenge, .ofNat bits, expiresAt⟩ pauses).result
      = .ok text)
    : ∃ nonce : Nat, text = JsString.ofString (toString nonce)
        ∧ Server.verifyWork crypto.sha256 challenge (toString nonce) packet bits = .ok true
        ∧ ∀ smaller < nonce,
          Server.verifyWork crypto.sha256 challenge (toString smaller) packet bits = .ok false := by
  have hvalue : ((JsNumber.ofNat bits).safeInteger?.getD 0).toNat = bits := by
    rw [JsNumber.safeInteger?_ofNat (by omega)]
    rfl
  have hsearch := (solveProof_eq_ok h).2
  dsimp only at hsearch
  rw [hvalue] at hsearch
  rcases search_eq_ok hsearch with ⟨nonce, -, hlt, htext, hgood, hsmaller⟩
  refine ⟨nonce, by rw [htext, spell_eq], ?_, fun smaller hless => ?_⟩
  . rw [verifyWork_toString hcrypto hchallenge packet hbits (by omega), hgood]
  . rw [verifyWork_toString hcrypto hchallenge packet hbits (by omega),
      hsmaller smaller (Nat.zero_le _) hless]

theorem solver_agrees {crypto : Crypto} (hcrypto : crypto.Lawful)
    : (∀ (digest : ByteString 32) (bits : Nat), 1 ≤ bits → bits ≤ 24
        → Server.hasWork digest.1 bits = .ok (decide (digest.1.toNatBE < 2 ^ (256 - bits)))
          ∧ isGood (bits / 8) (bits % 8) digest.1 = decide (digest.1.toNatBE < 2 ^ (256 - bits)))
      ∧ (∀ (challenge nonce : String) (packet : Bytes) (bits : Nat),
        Server.validId challenge = true → Server.validNonce nonce = true → 1 ≤ bits → bits ≤ 24
          → Server.verifyWork crypto.sha256 challenge nonce packet bits
            = Server.hasWork (crypto.sha256 (Server.workBytes crypto.sha256 challenge nonce packet)) bits)
      ∧ (∀ nonce, Server.validNonce nonce = true ↔ ∃ n, n ≤ 9007199254740991 ∧ nonce = toString n)
      ∧ (∀ (packet : Bytes) (challenge : String) (bits : Nat) (expiresAt : JsNumber) (pauses : Pauses)
          (text : JsString),
        Server.validId challenge = true → 1 ≤ bits → bits ≤ 24
          → (solveProof crypto packet ⟨JsString.ofString challenge, .ofNat bits, expiresAt⟩ pauses).result
            = .ok text
          → ∃ nonce : Nat, text = JsString.ofString (toString nonce)
            ∧ Server.verifyWork crypto.sha256 challenge (toString nonce) packet bits = .ok true
            ∧ ∀ smaller < nonce,
              Server.verifyWork crypto.sha256 challenge (toString smaller) packet bits = .ok false)
      ∧ (∀ (packet : Bytes) (challenge : Challenge) (pauses : Pauses),
        ∀ nonce ∈ (solveProof crypto packet challenge pauses).visited,
          spell nonce = JsString.ofString (toString nonce)
            ∧ Server.validNonce (toString nonce) = true)
      ∧ ∀ (challenge challenge' nonce nonce' : String) (packet packet' : Bytes),
        Server.validNonce nonce = true → Server.validNonce nonce' = true
          → Server.workBytes crypto.sha256 challenge nonce packet
            = Server.workBytes crypto.sha256 challenge' nonce' packet'
          → challenge = challenge'
            ∧ Server.digest crypto.sha256 packet = Server.digest crypto.sha256 packet'
            ∧ nonce = nonce' := by
  refine ⟨?_, ?_, ?_, ?_, ?_, ?_⟩
  . intro digest bits _ hbits
    exact ⟨Server.hasWork_eq digest.2 hbits, isGood_eq digest.2 hbits⟩
  . intro challenge nonce packet bits hchallenge hnonce hpositive hbits
    exact Server.verifyWork_eq packet hchallenge hnonce ⟨hpositive, hbits⟩
  . exact fun nonce => Server.validNonce_iff
  . intro packet challenge bits expiresAt pauses text hchallenge hpositive hbits h
    exact solveProof_verifyWork hcrypto hchallenge ⟨hpositive, hbits⟩ h
  . intro packet challenge pauses nonce hvisited
    exact ⟨spell_eq nonce, Server.validNonce_toString (mem_visited_solveProof hvisited)⟩
  . intro challenge challenge' nonce nonce' packet packet' hnonce hnonce' h
    exact Server.workBytes_injective hnonce hnonce' h

theorem exampleTtl : 60 ≤ 60 ∧ 60 ≤ 604800 := by decide

def exampleHeader : HeaderValue where
  id := .replicate 32 0
  ttl := ⟨60, exampleTtl⟩
  views := ⟨1, by decide⟩
  peek := ⟨List.replicate 64 48, by decide⟩
  read := ⟨List.replicate 64 48, by decide⟩
  revoke := ⟨List.replicate 64 48, by decide⟩
  salt := none
  nonce := .replicate 24 0

def examplePacket : Bytes :=
  magic ++ Bytes.ofNatBE 4 exampleHeader.bytes.length ++ exampleHeader.bytes ++ List.replicate 4112 0

def exampleHash : String := "301e3757b7b3f31fde9f85bc54bcd3fc066d1accac523689a8dffda6ae6f4c51"

def exampleChallenge : String := "MAAAAAAAAAAAAAAAAAAAAAAAAAAAAAAAAAAAAAAAAAA"

-- SHA-256 on the packet, and on the texts of the first two nonces.
def exampleSha256 (bytes : Bytes) : Bytes :=
  if bytes = Server.asBytes (exampleChallenge ++ "." ++ exampleHash ++ "." ++ "0") then
    [0xa8, 0x62, 0x26, 0x61, 0xf3, 0xe8, 0x2c, 0xf7, 0x86, 0x2a, 0x2d, 0xd0, 0x65, 0x85, 0x3f, 0xf5,
     0x35, 0xd2, 0xb3, 0x3c, 0x3a, 0x2d, 0x14, 0x73, 0xe2, 0xd1, 0xeb, 0xdb, 0xfb, 0x89, 0xdf, 0xba]
  else if bytes = Server.asBytes (exampleChallenge ++ "." ++ exampleHash ++ "." ++ "1") then
    [0x09, 0x49, 0xac, 0xaa, 0xcf, 0x8c, 0xf5, 0xf9, 0xb6, 0xe0, 0x81, 0x4f, 0xe6, 0xde, 0x7d, 0x2d,
     0x37, 0x34, 0x9e, 0x01, 0x02, 0xe6, 0x91, 0xb1, 0x79, 0x86, 0xe4, 0x6e, 0xf4, 0x2f, 0x51, 0x7a]
  else
    [0x30, 0x1e, 0x37, 0x57, 0xb7, 0xb3, 0xf3, 0x1f, 0xde, 0x9f, 0x85, 0xbc, 0x54, 0xbc, 0xd3, 0xfc,
     0x06, 0x6d, 0x1a, 0xcc, 0xac, 0x52, 0x36, 0x89, 0xa8, 0xdf, 0xfd, 0xa6, 0xae, 0x6f, 0x4c, 0x51]

def exampleCrypto : Crypto := { Crypto.plain with sha256 := exampleSha256 }

theorem exampleCrypto_lawful : exampleCrypto.Lawful := {
  Crypto.plain_lawful with
  length_sha256 := fun bytes => by
    change (exampleSha256 bytes).length = 32
    unfold exampleSha256
    split
    . rfl
    . split
      . rfl
      . rfl }

theorem parsePacket_examplePacket : ∃ parsed, parsePacket examplePacket = .ok parsed := by
  have hbounds := exampleHeader.length_bytes_bounds
  refine ⟨_, sharedParsePacket_eq_ok_iff.mpr ⟨exampleHeader, List.replicate 4112 0, ?_, rfl⟩⟩
  exact {
    layout := rfl
    header_pos := hbounds.1
    header_le := hbounds.2
    length_le := by
      unfold examplePacket magic
      simp only [List.length_append, Bytes.length_ofNatBE, List.length_replicate, List.length_cons,
        List.length_nil]
      omega
    blocks := ⟨1, Nat.le_refl _, List.length_replicate⟩ }

theorem digest_examplePacket : Server.digest exampleCrypto.sha256 examplePacket = exampleHash := by
  have hhead : examplePacket.head? = some 69 := rfl
  have hother : ∀ nonce, Server.asBytes (exampleChallenge ++ "." ++ exampleHash ++ "." ++ nonce)
      ≠ examplePacket := by
    intro nonce h
    rw [Server.asBytes_append, Server.asBytes_append, Server.asBytes_append, Server.asBytes_append] at h
    rw [← h] at hhead
    cases hhead
  unfold Server.digest
  change Ascii.string (Hex.encode (exampleSha256 examplePacket)) = _
  unfold exampleSha256
  rw [if_neg (hother "0").symm, if_neg (hother "1").symm]
  decide +kernel

theorem checkPause_example (nonce : Nat)
    : checkPause (.ofNat 1) ⟨fun _ => ⟨false, 0⟩, fun _ => ⟨false, 0⟩⟩ nonce = .ok () := by
  have hmilliseconds : milliseconds (.ofNat 1) = .ofNat 1000 := by
    have hround := Binary64.round_natCast (show 1000 < 2 ^ 53 by decide)
    unfold milliseconds JsNumber.ofNat
    norm_num at hround ⊢
    rw [hround]
  have hmoment : checkMoment (.ofNat 1) ⟨false, 0⟩ = .ok () := by
    unfold checkMoment
    rw [hmilliseconds]
    rfl
  unfold checkPause
  rw [hmoment]
  split
  . rfl
  . rfl

theorem isGood_example (nonce : Nat)
    : isGood 0 4 (exampleCrypto.sha256 (encoderEncode (JsString.ofString exampleChallenge
          ++ JsString.ofString "." ++ hash exampleCrypto examplePacket ++ JsString.ofString "."
          ++ spell nonce)))
        = isGood 0 4 (exampleSha256 (Server.asBytes (exampleChallenge ++ "." ++ exampleHash ++ "."
          ++ toString nonce))) := by
  rw [encoderEncode_proof]
  unfold Server.workBytes
  rw [digest_examplePacket]
  rfl

theorem solveProof_examplePacket
    : (solveProof exampleCrypto examplePacket ⟨JsString.ofString exampleChallenge, .ofNat 4, .ofNat 1⟩
        ⟨fun _ => ⟨false, 0⟩, fun _ => ⟨false, 0⟩⟩).result = .ok (JsString.ofString "1") := by
  rcases parsePacket_examplePacket with ⟨parsed, hparsed⟩
  have hvalid : isInvalidChallenge ⟨JsString.ofString exampleChallenge, .ofNat 4, .ofNat 1⟩ = false := by
    decide +kernel
  have hbits : ((JsNumber.ofNat 4).safeInteger?.getD 0).toNat = 4 := by decide +kernel
  have hbad := (isGood_example 0).trans (by decide +kernel : _ = false)
  have hgood := (isGood_example 1).trans (by decide +kernel : _ = true)
  rw [solveProof_of_valid hparsed hvalid, hbits]
  exact (search_of_bad (checkPause_example 0) hbad).trans (search_of_good (checkPause_example 1) hgood)

theorem solver_agrees_examplePacket
    : ∃ nonce : Nat, JsString.ofString "1" = JsString.ofString (toString nonce)
        ∧ Server.verifyWork exampleSha256 exampleChallenge (toString nonce) examplePacket 4 = .ok true
        ∧ ∀ smaller < nonce,
          Server.verifyWork exampleSha256 exampleChallenge (toString smaller) examplePacket 4
            = .ok false :=
  (solver_agrees exampleCrypto_lawful).2.2.2.1 examplePacket exampleChallenge 4 _ _ _
    (by decide +kernel) (by decide) (by decide) solveProof_examplePacket

end Protocol
