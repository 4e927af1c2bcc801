import Erase.Protocol.Authenticity

/-!
A preparation that succeeds on the stored header of a note has found the passphrase of its sender.
-/

open Shared

namespace Protocol

theorem fromHexDigit_digitCode {digit : Nat} (h : digit < 16)
    : fromHexDigit (UInt16.ofNat (Hex.digitCode digit)) = digit := by
  unfold Hex.digitCode fromHexDigit
  rw [UInt16.toNat_ofNat_of_lt']
  . split
    . rw [if_neg (by omega)]
      omega
    . rw [if_pos (by omega)]
      omega
  . split
    . exact Nat.lt_of_lt_of_le (by omega : 48 + digit < 100) (by decide)
    . exact Nat.lt_of_lt_of_le (by omega : 87 + digit < 200) (by decide)

theorem fromHex_units_encode (bytes : Bytes) : fromHex (Ascii.units (Hex.encode bytes)) = bytes := by
  induction bytes with
  | nil => rfl
  | cons byte bytes ih =>
    have hlt := byte.toNat_lt
    have hsplit : Ascii.units (Hex.encode (byte :: bytes))
        = UInt16.ofNat (Hex.digitCode (byte.toNat / 16)) :: UInt16.ofNat (Hex.digitCode (byte.toNat % 16))
          :: Ascii.units (Hex.encode bytes) := rfl
    rw [hsplit, fromHex, ih, fromHexDigit_digitCode (by omega), fromHexDigit_digitCode (by omega)]
    have hbyte : byte.toNat / 16 * 16 + byte.toNat % 16 = byte.toNat := by omega
    rw [hbyte, UInt8.ofNat_toNat]

section

variable {crypto : Crypto} {unicode : Unicode}

theorem sha256_of_sameHex {left right : Bytes}
    (h : sameHex (Shared.hash crypto left) (Shared.hash crypto right) = true)
    : crypto.sha256 left = crypto.sha256 right := by
  unfold sameHex Shared.hash at h
  simp only [Bool.and_eq_true, decide_eq_true_eq, fromHex_units_encode] at h
  exact h.2

variable {sending : Sending crypto unicode} {value : HeaderValue}

theorem Sending.HasValue.decrypt {hcrypto : crypto.Lawful} (hunicode : unicode.Lawful)
    (h : sending.HasValue hcrypto value) {prepared : PreparedOpen}
    (hheader : prepared.headerBytes = sending.headerBytes) (hkey : prepared.key = sending.sealing.key)
    : Shared.decrypt crypto unicode sending.note.packet prepared
        = .ok (normalized unicode sending.input) := by
  have hlength : prepared.key.length = 32 := by
    rw [hkey]
    exact hcrypto.length_hkdf _ _ _
  have hopened : crypto.decrypt sending.sealing.ciphertext sending.headerBytes sending.random.nonce
      prepared.key = some sending.clear := by
    rw [hkey]
    exact hcrypto.decrypt_encrypt _ _ _ _
  unfold Shared.decrypt
  rw [h.parsePacket]
  dsimp only [Except.ok_bind]
  rw [if_neg (by simp [hlength, hheader]), h.nonce_eq]
  dsimp only
  rw [hopened]
  exact unpack_of_pack hunicode h.packed

-- Whatever a recipient enters, a preparation that succeeds on the stored header leaves the read token
-- that the server expects and the key of the packet.
theorem prepareOpen_unwasted (hcrypto : crypto.Lawful) (hunicode : unicode.Lawful)
    (sending : Sending crypto unicode) {packet : Server.Packet}
    (hpacket : Server.parsePacket sending.note.packet = .ok packet) {passphrase : JsString}
    (hhkdf : Set.InjOn (Derivation.output crypto)
      {sending.readDerivation passphrase, sending.readDerivation sending.passphrase})
    (hsha256 : Set.InjOn crypto.sha256
      {(sending.readDerivation passphrase).output crypto,
        (sending.readDerivation sending.passphrase).output crypto})
    {prepared : PreparedOpen}
    (hprepared : prepareOpen crypto (JsString.ofString (Server.encodeUrlSafe packet.headerBytes))
      sending.note.secret sending.note.id passphrase = .ok prepared)
    : HashesTo crypto prepared.readToken packet.header.read
      ∧ Shared.decrypt crypto unicode sending.note.packet prepared
        = .ok (normalized unicode sending.input) := by
  rcases sending.exists_value hcrypto hunicode with ⟨value, hvalue⟩
  rcases serverParsePacket_eq_ok_iff.mp hpacket with ⟨stored, ciphertext, hstored, rfl⟩
  have hstored : stored = value :=
    HeaderValue.bytes_injective (isFramed_unique hstored hvalue.framed).1
  subst hstored
  dsimp only at hprepared
  rw [HeaderValue.ofString_encodeUrlSafe] at hprepared
  rcases prepareOpen_inv hcrypto hprepared with ⟨opened, master, htext, hsecret, -, -, -, hread, rfl⟩
  have hopened : opened = stored :=
    (HeaderValue.bytes_injective (toBase64Url_injective htext)).symm
  have hmaster : master = sending.random.master := hvalue.master_eq hsecret
  subst hopened hmaster
  have htoken : opened.readToken crypto sending.random.master passphrase
      = (sending.readDerivation passphrase).output crypto := by
    rw [hvalue.readDerivation]
    rfl
  have hcommitment : opened.toShared.read
      = Shared.hash crypto ((sending.readDerivation sending.passphrase).output crypto) := by
    unfold HeaderValue.toShared
    rw [hvalue.read]
    rfl
  rw [htoken, hcommitment] at hread
  -- Equal digests come from equal tokens, and these from equal material.
  have htokens : (sending.readDerivation passphrase).output crypto
      = (sending.readDerivation sending.passphrase).output crypto :=
    hsha256 (by simp) (by simp) (sha256_of_sameHex hread)
  have hderivation : sending.readDerivation passphrase = sending.readDerivation sending.passphrase :=
    hhkdf (by simp) (by simp) htokens
  have hmaterial : sending.random.master.1 ++ opened.passwordKey crypto passphrase
      = sending.random.master.1 ++ opened.passwordKey crypto sending.passphrase := by
    have hmaterial := congrArg Derivation.material hderivation
    rw [hvalue.readDerivation, hvalue.readDerivation] at hmaterial
    exact hmaterial
  constructor
  . have hserver : opened.toServer.read
        = Ascii.string (digestOf hcrypto ((sending.readDerivation sending.passphrase).output crypto)).1 := by
      unfold HeaderValue.toServer
      rw [hvalue.read]
    dsimp only
    rw [htoken, htokens, hserver]
    exact hashesTo hcrypto (hcrypto.length_hkdf _ _ _)
  . apply hvalue.decrypt hunicode
    . exact hvalue.headerBytes.symm
    . have hkey : sending.sealing.key
          = (opened.keyDerivation crypto sending.random.master sending.passphrase).output crypto :=
        congrArg (Derivation.output crypto) hvalue.keyDerivation
      rw [hkey]
      unfold HeaderValue.key HeaderValue.keyDerivation Derivation.output
      rw [hmaterial]

end

end Protocol
