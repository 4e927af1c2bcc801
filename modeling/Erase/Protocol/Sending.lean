import Mathlib.Data.Set.Basic
import Erase.Protocol.Opening

/-!
The notes that `create` returns, what it encrypts for them and how it derives the keys.
-/

open Shared

namespace Protocol

variable {crypto : Crypto} {unicode : Unicode}

theorem toBase64Url_injective : Function.Injective toBase64Url := by
  intro left right h
  rw [toBase64Url_eq_units, toBase64Url_eq_units] at h
  exact HeaderValue.base64_units_injective h

theorem validatePolicy_bounds {ttl views : JsNumber} {seconds count : Nat}
    (h : validatePolicy ttl views = .ok (seconds, count))
    : (60 ≤ seconds ∧ seconds ≤ 604800) ∧ (1 ≤ count ∧ count ≤ 100) := by
  unfold validatePolicy invalidPolicy at h
  split at h
  . split at h
    . cases h
    . next hbounds =>
      cases h
      omega
  . cases h

theorem fits_of_contentKeys {secret passphrase : JsString} {header : Shared.Header} {keys : ContentKeys}
    (h : contentKeys crypto secret header passphrase = .ok keys)
    : JsString.WellFormed passphrase ∧ (encoderEncode passphrase).length ≤ 1024 := by
  have hlimit : maxPassphraseBytes = 1024 := rfl
  unfold contentKeys invalidPassphrase at h
  simp only [Except.guard_eq_ok, Except.bind_eq_ok] at h
  rcases h with ⟨-, _, -, passwordBytes, hpassword, hlength, -⟩
  rcases encodeText_eq_ok_iff.mp hpassword with ⟨hwellFormed, rfl⟩
  exact ⟨hwellFormed, by omega⟩

-- What a call of `create` that returns has checked, and what it returns.
theorem create_inv (hcrypto : crypto.Lawful) (hunicode : unicode.Lawful) {random : Randomness}
    {input : ContentInput} {options : CreateOptions} {note : CreatedNote}
    (h : create crypto unicode random input options = .ok note)
    : ∃ (ttl : {n : Nat // 60 ≤ n ∧ n ≤ 604800}) (views : {n : Nat // 1 ≤ n ∧ n ≤ 100}) (clear : Bytes),
      let passphrase := options.passphrase.getD []
      let value := valueOf hcrypto random ttl views passphrase
      let ciphertext := crypto.encrypt clear value.bytes random.nonce (keysOf crypto random passphrase).key
      pack unicode random.padding input = .ok clear
        ∧ JsString.WellFormed passphrase
        ∧ (encoderEncode passphrase).length ≤ 1024
        ∧ note = {
          packet := magic ++ Bytes.ofNatBE 4 value.bytes.length ++ value.bytes ++ ciphertext
          id := toBase64Url random.id
          secret := toBase64Url random.master
          revokeToken := toBase64Url random.revoke
          header := value.toShared } := by
  have hcreated := h
  unfold create at h
  simp only [invalidPassphrase, Except.guard_eq_ok, Except.bind_eq_ok] at h
  rcases h with ⟨⟨ttl, views⟩, hpolicy, -, clear, hpack, _, -, keys, hkeys, -⟩
  rcases validatePolicy_bounds hpolicy with ⟨httl, hviews⟩
  rcases fits_of_contentKeys hkeys with ⟨hwellFormed, hlength⟩
  have hcanonical := create_eq_ok hcrypto hpack (clear_blocks hunicode hpack).1 ⟨ttl, httl⟩ ⟨views, hviews⟩
    hwellFormed hlength
  have hpolicy' : validatePolicy (JsNumber.ofNat ttl) (JsNumber.ofNat views)
      = validatePolicy options.ttl options.views := by
    rw [hpolicy]
    exact (valueOf hcrypto random ⟨ttl, httl⟩ ⟨views, hviews⟩ []).validatePolicy_ofNat
  have hsame : create crypto unicode random input
        ⟨JsNumber.ofNat ttl, JsNumber.ofNat views, options.passphrase⟩
      = create crypto unicode random input options := by
    unfold create
    rw [hpolicy']
  rw [hsame, hcreated] at hcanonical
  exact ⟨⟨ttl, httl⟩, ⟨views, hviews⟩, clear, hpack, hwellFormed, hlength, Except.ok.inj hcanonical⟩

-- A call of `create` that returned.
structure Sending (crypto : Crypto) (unicode : Unicode) where
  random : Randomness
  input : ContentInput
  options : CreateOptions
  note : CreatedNote
  created : create crypto unicode random input options = .ok note

-- One use of the authenticated encryption.
structure Sealing where
  key : Bytes
  nonce : Bytes
  additional : Bytes
  ciphertext : Bytes
  deriving DecidableEq

-- The input of one use of HKDF.
structure Derivation where
  material : Bytes
  salt : Bytes
  info : Bytes
  deriving DecidableEq

def Derivation.output (crypto : Crypto) (derivation : Derivation) : Bytes :=
  crypto.hkdf derivation.material derivation.salt derivation.info 32

-- How a recipient derives the content key from a header.
def HeaderValue.keyDerivation (crypto : Crypto) (value : HeaderValue) (master : Bytes)
    (passphrase : JsString) : Derivation where
  material := master ++ value.passwordKey crypto passphrase
  salt := value.contentSalt
  info := value.contentInfo "erase.to/v1/aead:"

def HeaderValue.readDerivation (crypto : Crypto) (value : HeaderValue) (master : Bytes)
    (passphrase : JsString) : Derivation where
  material := master ++ value.passwordKey crypto passphrase
  salt := value.contentSalt
  info := value.contentInfo "erase.to/v1/read:"

namespace Sending

variable (sending : Sending crypto unicode)

def passphrase : JsString := sending.options.passphrase.getD []

def clear : Bytes :=
  match pack unicode sending.random.padding sending.input with
  | .ok clear => clear
  | .error _ => []

def headerBytes : Bytes := serializeHeader sending.note.header

def keyDerivation : Derivation where
  material := materialOf crypto sending.random sending.passphrase
  salt := encoderEncode (JsString.ofString "erase.to/v1/content:" ++ sending.note.id)
  info := encoderEncode (JsString.ofString "erase.to/v1/aead:" ++ sending.note.header.kdf.toJs)

-- What a recipient derives the read token from, with any passphrase.
def readDerivation (passphrase : JsString) : Derivation where
  material := sending.random.master ++ if sending.passphrase ≠ [] then
      crypto.pwhash 32 (encoderEncode passphrase) sending.random.salt
    else
      List.replicate 32 0
  salt := encoderEncode (JsString.ofString "erase.to/v1/content:" ++ sending.note.id)
  info := encoderEncode (JsString.ofString "erase.to/v1/read:" ++ sending.note.header.kdf.toJs)

def sealing : Sealing where
  key := sending.keyDerivation.output crypto
  nonce := sending.random.nonce
  additional := sending.headerBytes
  ciphertext := crypto.encrypt sending.clear sending.headerBytes sending.random.nonce
    (sending.keyDerivation.output crypto)

end Sending

section

variable {sending : Sending crypto unicode}

theorem passwordKey_valueOf (hcrypto : crypto.Lawful) (random : Randomness)
    (ttl : {n : Nat // 60 ≤ n ∧ n ≤ 604800}) (views : {n : Nat // 1 ≤ n ∧ n ≤ 100})
    (passphrase other : JsString)
    : (valueOf hcrypto random ttl views passphrase).passwordKey crypto other
        = if passphrase ≠ [] then
            crypto.pwhash 32 (encoderEncode other) random.salt
          else
            List.replicate 32 0 := by
  unfold HeaderValue.passwordKey valueOf
  by_cases hpassphrase : passphrase = []
  . simp [hpassphrase]
  . simp [hpassphrase]

-- The header of the note as a value, with what it fixes.
structure Sending.HasValue (hcrypto : crypto.Lawful) (sending : Sending crypto unicode)
    (value : HeaderValue) : Prop where
  packed : pack unicode sending.random.padding sending.input = .ok sending.clear
  header : sending.note.header = value.toShared
  headerBytes : sending.headerBytes = value.bytes
  id : sending.note.id = toBase64Url value.id
  secret : sending.note.secret = toBase64Url sending.random.master
  nonce : value.nonce = sending.random.nonce
  read : value.read = digestOf hcrypto ((sending.readDerivation sending.passphrase).output crypto)
  readDerivation : ∀ passphrase, sending.readDerivation passphrase
    = value.readDerivation crypto sending.random.master passphrase
  keyDerivation : sending.keyDerivation
    = value.keyDerivation crypto sending.random.master sending.passphrase
  fits : Fits value sending.passphrase
  framed : IsFramed sending.note.packet value.bytes sending.sealing.ciphertext

theorem kdf_valueOf (hcrypto : crypto.Lawful) (random : Randomness)
    (ttl : {n : Nat // 60 ≤ n ∧ n ≤ 604800}) (views : {n : Nat // 1 ≤ n ∧ n ≤ 100})
    (passphrase : JsString)
    : (valueOf hcrypto random ttl views passphrase).toShared.kdf
        = if passphrase ≠ [] then .argon2id else .none := by
  rw [toShared_valueOf]

theorem Sending.exists_value (hcrypto : crypto.Lawful) (hunicode : unicode.Lawful)
    (sending : Sending crypto unicode) : ∃ value, sending.HasValue hcrypto value := by
  rcases create_inv hcrypto hunicode sending.created
    with ⟨ttl, views, clear, hpack, hwellFormed, hlength, hnote⟩
  let value := valueOf hcrypto sending.random ttl views sending.passphrase
  have hclear : sending.clear = clear := by
    unfold Sending.clear
    rw [hpack]
  have hheader : sending.note.header = value.toShared := by rw [hnote]; rfl
  have hbytes : sending.headerBytes = value.bytes := by
    unfold Sending.headerBytes
    rw [hheader, value.serializeHeader_toShared]
  have hderivation : sending.keyDerivation
      = value.keyDerivation crypto sending.random.master sending.passphrase := by
    unfold Sending.keyDerivation HeaderValue.keyDerivation materialOf
    rw [passwordKey_valueOf, hheader, hnote]
    rfl
  have hreadDerivation : ∀ passphrase, sending.readDerivation passphrase
      = value.readDerivation crypto sending.random.master passphrase := by
    intro passphrase
    unfold Sending.readDerivation HeaderValue.readDerivation
    rw [passwordKey_valueOf, hheader, hnote]
    rfl
  have hread : (sending.readDerivation sending.passphrase).output crypto
      = (keysOf crypto sending.random sending.passphrase).read := by
    unfold Sending.readDerivation Derivation.output keysOf materialOf
    rw [hheader, kdf_valueOf, hnote]
  have hkey : sending.keyDerivation.output crypto
      = (keysOf crypto sending.random sending.passphrase).key := by
    unfold Sending.keyDerivation Derivation.output keysOf
    rw [hheader, kdf_valueOf, hnote]
  have hciphertext : sending.sealing.ciphertext = crypto.encrypt clear value.bytes sending.random.nonce
      (keysOf crypto sending.random sending.passphrase).key := by
    unfold Sending.sealing
    rw [hclear, hbytes, hkey]
  refine ⟨value, {
    packed := hclear ▸ hpack
    header := hheader
    headerBytes := hbytes
    id := by rw [hnote]; rfl
    secret := by rw [hnote]
    nonce := rfl
    read := by rw [hread]; rfl
    readDerivation := hreadDerivation
    keyDerivation := hderivation
    fits := ⟨hwellFormed, hlength, ?_⟩
    framed := ?_ }⟩
  . intro hsalt hempty
    have hnone : value.salt = none := by
      change (if sending.passphrase ≠ [] then some sending.random.salt else none) = none
      rw [hempty, if_neg (by simp)]
    rw [hnone] at hsalt
    cases hsalt
  . have hpacket : sending.note.packet = magic ++ Bytes.ofNatBE 4 value.bytes.length ++ value.bytes
        ++ sending.sealing.ciphertext := by
      rw [hciphertext, hnote]
      rfl
    rw [hpacket, hciphertext]
    exact isFramed_created hcrypto hunicode hpack value _

end

end Protocol
