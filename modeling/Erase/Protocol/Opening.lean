import Erase.Protocol.RoundTrip
import Erase.Shared.ShareLink

/-!
What a successful preparation says about its header, its secret and its passphrase.
-/

open Shared

namespace Protocol

namespace HeaderValue

-- The material that the passphrase adds to the secret.
def passwordKey (crypto : Crypto) (value : HeaderValue) (passphrase : JsString) : Bytes :=
  match value.salt with
  | none => List.replicate 32 0
  | some salt => crypto.pwhash 32 (encoderEncode passphrase) salt

def contentSalt (value : HeaderValue) : Bytes :=
  encoderEncode (JsString.ofString "erase.to/v1/content:" ++ toBase64Url value.id)

def contentInfo (value : HeaderValue) (purpose : String) : Bytes :=
  encoderEncode (JsString.ofString purpose ++ value.toShared.kdf.toJs)

def key (crypto : Crypto) (value : HeaderValue) (master : Bytes) (passphrase : JsString) : Bytes :=
  crypto.hkdf (master ++ value.passwordKey crypto passphrase) value.contentSalt
    (value.contentInfo "erase.to/v1/aead:") 32

def readToken (crypto : Crypto) (value : HeaderValue) (master : Bytes) (passphrase : JsString) : Bytes :=
  crypto.hkdf (master ++ value.passwordKey crypto passphrase) value.contentSalt
    (value.contentInfo "erase.to/v1/read:") 32

def peekToken (crypto : Crypto) (value : HeaderValue) (master : Bytes) : Bytes :=
  crypto.hkdf master (encoderEncode (JsString.ofString "erase.to/v1/peek:" ++ toBase64Url value.id))
    (encoderEncode (JsString.ofString "erase.to/v1/peek")) 32

theorem id_toShared (value : HeaderValue) : value.toShared.id = toBase64Url value.id :=
  (toBase64Url_eq_units _).symm

theorem kdf_toShared_eq (value : HeaderValue)
    : value.toShared.kdf = if value.salt.isSome then .argon2id else .none := rfl

end HeaderValue

-- The passphrase is one that the mode of the header takes.
structure Fits (value : HeaderValue) (passphrase : JsString) : Prop where
  wellFormed : JsString.WellFormed passphrase
  length : (encoderEncode passphrase).length ≤ 1024
  given : value.salt.isSome = true → passphrase ≠ []

section

variable {crypto : Crypto}

theorem decodeHeader_eq_ok_iff {text : JsString} {header : Shared.Header}
    : decodeHeader text = .ok header
        ↔ ∃ value : HeaderValue, text = toBase64Url value.bytes ∧ header = value.toShared := by
  unfold decodeHeader
  rw [Except.bind_eq_ok]
  constructor
  . rintro ⟨bytes, hbytes, hparse⟩
    rcases HeaderValue.parseHeader_eq_ok_iff.mp hparse with ⟨value, rfl, rfl⟩
    exact ⟨value, (fromBase64Url_eq_ok_iff.mp hbytes).1, rfl⟩
  . rintro ⟨value, rfl, rfl⟩
    have hbounds := value.length_bytes_bounds
    refine ⟨value.bytes, ?_, value.parseHeader_bytes⟩
    rw [fromBase64Url_eq_ok_iff]
    refine ⟨rfl, ?_, hbounds.2, by simp⟩
    apply List.ne_nil_of_length_pos
    omega

theorem passwordKey_toShared {value : HeaderValue} {passphrase : JsString} {passwordKey : Bytes}
    (hwellFormed : JsString.WellFormed passphrase)
    (h : Shared.passwordKey crypto value.toShared (encoderEncode passphrase) = .ok passwordKey)
    : (value.salt.isSome = true → passphrase ≠ []) ∧ passwordKey = value.passwordKey crypto passphrase := by
  unfold Shared.passwordKey at h
  unfold HeaderValue.passwordKey
  cases hsalt : value.salt with
  | none =>
    rw [value.kdf_toShared_eq, hsalt, if_neg (by simp)] at h
    cases h
    exact ⟨by simp, rfl⟩
  | some salt =>
    have hvalue : value.toShared.salt = toBase64Url salt := by
      unfold HeaderValue.toShared HeaderValue.saltCodes
      rw [hsalt]
      exact (toBase64Url_eq_units _).symm
    rw [value.kdf_toShared_eq, hsalt, if_pos (by simp), hvalue,
      fromBase64Url_toBase64Url (by decide) salt] at h
    simp only [Except.guard_eq_ok, Except.ok_bind] at h
    rcases h with ⟨hnonempty, h⟩
    rw [encoderEncode_eq_nil hwellFormed] at hnonempty
    cases h
    exact ⟨fun _ => hnonempty, rfl⟩

theorem contentKeys_inv (hcrypto : crypto.Lawful) {value : HeaderValue} {secret passphrase : JsString}
    {keys : ContentKeys}
    (h : contentKeys crypto secret value.toShared passphrase = .ok keys)
    : ∃ master : ByteString 32, secret = toBase64Url master ∧ Fits value passphrase
        ∧ keys = {
          key := value.key crypto master passphrase
          read := value.readToken crypto master passphrase } := by
  unfold contentKeys invalidPassphrase at h
  simp only [Except.guard_eq_ok, Except.bind_eq_ok] at h
  rcases h with ⟨-, master, hmaster, passwordBytes, hpassword, hlength, passwordKey, hkey, buffer, hbuffer,
    material, hmaterial, hkeys⟩
  rcases (fromBase64Url_exact (by decide)).mp hmaster with ⟨hsecret, hmasterLength⟩
  rcases encodeText_eq_ok_iff.mp hpassword with ⟨hwellFormed, rfl⟩
  rcases passwordKey_toShared hwellFormed hkey with ⟨hgiven, rfl⟩
  have hkeyLength : (value.passwordKey crypto passphrase).length = 32 := by
    unfold HeaderValue.passwordKey
    split
    . exact List.length_replicate
    . exact hcrypto.length_pwhash _ _
  have hpair := setPart_pair hmasterLength hkeyLength
  rw [hbuffer, Except.ok_bind, hmaterial] at hpair
  cases hpair
  cases hkeys
  have hlimit : maxPassphraseBytes = 1024 := rfl
  refine ⟨⟨master, hmasterLength⟩, hsecret, ⟨hwellFormed, by omega, hgiven⟩, ?_⟩
  rw [value.id_toShared]
  rfl

-- What a preparation that succeeds has checked, and what it returns.
theorem prepareOpen_inv (hcrypto : crypto.Lawful) {text secret id passphrase : JsString}
    {prepared : PreparedOpen} (h : prepareOpen crypto text secret id passphrase = .ok prepared)
    : ∃ (value : HeaderValue) (master : ByteString 32),
      text = toBase64Url value.bytes
      ∧ secret = toBase64Url master
      ∧ id = toBase64Url value.id
      ∧ Fits value passphrase
      ∧ sameHex (hash crypto (value.peekToken crypto master)) value.toShared.peek = true
      ∧ sameHex (hash crypto (value.readToken crypto master passphrase)) value.toShared.read = true
      ∧ prepared = {
        header := value.toShared
        headerBytes := value.bytes
        readToken := toBase64Url (value.readToken crypto master passphrase)
        key := value.key crypto master passphrase } := by
  unfold prepareOpen at h
  simp only [invalid, Except.guard_eq_ok, Except.bind_eq_ok] at h
  rcases h with ⟨bytes, hbytes, header, hheader, _, hid, hsame, peek, hpeek, hpeekHash, keys, hkeys,
    hread⟩
  rcases HeaderValue.parseHeader_eq_ok_iff.mp hheader with ⟨value, rfl, rfl⟩
  rcases contentKeys_inv hcrypto hkeys with ⟨master, hsecret, hfits, rfl⟩
  have hid : id = toBase64Url value.id := by
    rw [← value.id_toShared]
    exact (not_not.mp hsame).symm
  have hpeekValue : peek = value.peekToken crypto master := by
    unfold peekBytes validateId at hpeek
    rw [hsecret, hid, fromBase64Url_toBase64Url (by decide) value.id,
      fromBase64Url_toBase64Url (by decide) master] at hpeek
    cases hpeek
    rfl
  split at hread
  . next hwrong => split at hread <;> cases hread
  . next hmatches =>
    cases hread
    refine ⟨value, master, (fromBase64Url_eq_ok_iff.mp hbytes).1, hsecret, hid, hfits, ?_,
      not_not.mp hmatches, rfl⟩
    rw [← hpeekValue]
    exact not_not.mp hpeekHash

theorem ne_nil_of_decodeHeader {text : JsString} {header : Shared.Header}
    (h : decodeHeader text = .ok header) : text ≠ [] ∧ header.id ≠ [] := by
  rcases decodeHeader_eq_ok_iff.mp h with ⟨value, rfl, rfl⟩
  have hbounds := value.length_bytes_bounds
  have hlength := value.id.2
  rw [value.id_toShared, ne_eq, ne_eq, toBase64Url_eq_nil, toBase64Url_eq_nil]
  constructor
  . apply List.ne_nil_of_length_pos
    omega
  . apply List.ne_nil_of_length_pos
    omega

-- A header with a password mode is never prepared without a passphrase.
theorem ne_nil_of_prepareOpen {text secret id passphrase : JsString} {prepared : PreparedOpen}
    (h : prepareOpen crypto text secret id passphrase = .ok prepared) {header : Shared.Header}
    (hdecoded : decodeHeader text = .ok header) (hkdf : header.kdf = .argon2id) : passphrase ≠ [] := by
  unfold prepareOpen contentKeys at h
  simp only [invalid, invalidPassphrase, Except.guard_eq_ok, Except.bind_eq_ok] at h
  rcases h with ⟨bytes, hbytes, parsed, hparsed, _, -, -, _, -, -, keys, hkeys, -⟩
  rcases hkeys with ⟨-, _, -, passwordBytes, hpassword, -, passwordKey, hkey, -⟩
  rw [decodeHeader, hbytes, Except.ok_bind, hparsed] at hdecoded
  cases hdecoded
  rcases HeaderValue.parseHeader_eq_ok_iff.mp hparsed with ⟨value, -, rfl⟩
  rcases encodeText_eq_ok_iff.mp hpassword with ⟨hwellFormed, rfl⟩
  apply (passwordKey_toShared hwellFormed hkey).1
  rw [value.kdf_toShared_eq] at hkdf
  by_contra hnone
  rw [if_neg hnone] at hkdf
  cases hkdf

end

end Protocol
