import Erase.Library.Bytes

structure Crypto where
  sha256 : Bytes → Bytes
  hkdf : (material salt info : Bytes) → (length : Nat) → Bytes
  pwhash : (length : Nat) → (password salt : Bytes) → Bytes
  encrypt : (message additional nonce key : Bytes) → Bytes
  decrypt : (ciphertext additional nonce key : Bytes) → Option Bytes

namespace Crypto

structure Lawful (crypto : Crypto) : Prop where
  length_sha256 : ∀ bytes, (crypto.sha256 bytes).length = 32
  length_hkdf : ∀ material salt info, (crypto.hkdf material salt info 32).length = 32
  length_pwhash : ∀ password salt, (crypto.pwhash 32 password salt).length = 32
  length_encrypt : ∀ message additional nonce key,
    (crypto.encrypt message additional nonce key).length = message.length + 16
  decrypt_encrypt : ∀ message additional nonce key,
    crypto.decrypt (crypto.encrypt message additional nonce key) additional nonce key = some message

def fit (length : Nat) (bytes : Bytes) : Bytes := (bytes ++ List.replicate length 0).take length

theorem length_fit (length : Nat) (bytes : Bytes) : (fit length bytes).length = length := by
  unfold fit
  rw [List.length_take, List.length_append, List.length_replicate]
  omega

-- Lawful functions without any secrecy.
def plain : Crypto where
  sha256 bytes := fit 32 bytes
  hkdf material salt info length := fit length (info ++ salt ++ material)
  pwhash length password salt := fit length (password ++ salt)
  encrypt message _ _ key := message ++ fit 16 key
  decrypt ciphertext _ _ key :=
    let message := ciphertext.take (ciphertext.length - 16)
    if ciphertext = message ++ fit 16 key then some message else none

theorem plain_lawful : plain.Lawful where
  length_sha256 _ := length_fit _ _
  length_hkdf _ _ _ := length_fit _ _
  length_pwhash _ _ := length_fit _ _
  length_encrypt message _ _ key := by
    unfold plain
    rw [List.length_append, length_fit]
  decrypt_encrypt message _ _ key := by
    have htake : (message ++ fit 16 key).take ((message ++ fit 16 key).length - 16) = message := by
      rw [List.length_append, length_fit, Nat.add_sub_cancel, List.take_left']
      rfl
    unfold plain
    dsimp only
    rw [htake, if_pos rfl]

end Crypto
