import Erase.Protocol.Sending

/-!
What a service can make a recipient of a note accept: the content and the header of its sender, or
nothing.
-/

open Shared

namespace Protocol

variable {crypto : Crypto} {unicode : Unicode}

-- Decryption succeeds only for what somebody has encrypted under the key.
def Authentic (sent : Set (Sending crypto unicode)) (packet : Bytes) (prepared : PreparedOpen) : Prop :=
  ∀ parsed nonce clear,
    parsePacket packet = .ok parsed
      → fromBase64Url parsed.header.nonce (some 24) 24 = .ok nonce
      → crypto.decrypt parsed.ciphertext parsed.headerBytes nonce prepared.key = some clear
      → ∃ sending ∈ sent, sending.sealing = {
        key := prepared.key
        nonce := nonce
        additional := parsed.headerBytes
        ciphertext := parsed.ciphertext }

-- The keys of all notes, with those that a recipient derives from a header.
def derivations (sent : Set (Sending crypto unicode)) (text : JsString) (master : Bytes)
    (passphrase : JsString) : Set Derivation :=
  {derivation | (∃ sending ∈ sent, derivation = sending.keyDerivation)
    ∨ ∃ value : HeaderValue, text = toBase64Url value.bytes
      ∧ derivation = value.keyDerivation crypto master passphrase}

section

variable {sending : Sending crypto unicode} {value : HeaderValue}

theorem Sending.HasValue.parsePacket {hcrypto : crypto.Lawful} (h : sending.HasValue hcrypto value)
    : parsePacket sending.note.packet
        = .ok ⟨sending.note.header, sending.headerBytes, sending.sealing.ciphertext⟩ := by
  rw [h.header, h.headerBytes]
  exact sharedParsePacket_eq_ok_iff.mpr ⟨value, _, h.framed, rfl⟩

theorem Sending.HasValue.nonce_eq {hcrypto : crypto.Lawful} (h : sending.HasValue hcrypto value)
    : fromBase64Url sending.note.header.nonce (some 24) 24 = .ok sending.random.nonce.1 := by
  rw [h.header, ← h.nonce]
  exact HeaderValue.fromBase64Url_units 24 (by decide) value.nonce

theorem Sending.HasValue.authentic {hcrypto : crypto.Lawful} (h : sending.HasValue hcrypto value)
    {prepared : PreparedOpen} (hkey : prepared.key = sending.sealing.key)
    : Authentic {sending} sending.note.packet prepared := by
  intro parsed nonce clear hparsed hnonce _
  rw [h.parsePacket] at hparsed
  cases hparsed
  rw [h.nonce_eq] at hnonce
  cases hnonce
  rw [hkey]
  exact ⟨sending, rfl, rfl⟩

theorem Sending.HasValue.master_eq {hcrypto : crypto.Lawful} (h : sending.HasValue hcrypto value)
    {master : ByteString 32} (hsecret : sending.note.secret = toBase64Url master)
    : master = sending.random.master :=
  Subtype.ext (toBase64Url_injective (hsecret.symm.trans h.secret))

theorem Sending.HasValue.injOn_derivations {hcrypto : crypto.Lawful}
    (h : sending.HasValue hcrypto value)
    : Set.InjOn (Derivation.output crypto)
        (derivations {sending} (toBase64Url value.bytes) sending.random.master sending.passphrase) := by
  have hsingle : ∀ derivation ∈ derivations {sending} (toBase64Url value.bytes) sending.random.master
      sending.passphrase, derivation = sending.keyDerivation := by
    rintro derivation (⟨other, rfl, rfl⟩ | ⟨opened, htext, rfl⟩)
    . rfl
    . rw [← HeaderValue.bytes_injective (toBase64Url_injective htext), h.keyDerivation]
  intro left hleft right hright _
  rw [hsingle left hleft, hsingle right hright]

-- The key of a note contains its secret.
theorem Sending.master_of_material {master passwordKey : Bytes} (hmaster : master.length = 32)
    (h : sending.keyDerivation.material = master ++ passwordKey)
    : sending.random.master.1 = master := by
  unfold Sending.keyDerivation materialOf at h
  exact (List.append_inj h (by rw [sending.random.master.2, hmaster])).1

theorem decrypt_inv {packet : Bytes} {prepared : PreparedOpen} {content : ContentInput}
    (h : decrypt crypto unicode packet prepared = .ok content)
    : ∃ parsed nonce clear,
      parsePacket packet = .ok parsed
      ∧ parsed.headerBytes = prepared.headerBytes
      ∧ fromBase64Url parsed.header.nonce (some 24) 24 = .ok nonce
      ∧ crypto.decrypt parsed.ciphertext parsed.headerBytes nonce prepared.key = some clear
      ∧ unpack unicode clear = .ok content := by
  unfold decrypt at h
  simp only [invalid, decryptionFailed, Except.guard_eq_ok, Except.bind_eq_ok] at h
  rcases h with ⟨parsed, hparsed, hsame, h⟩
  push Not at hsame
  split at h
  . cases h
  . next nonce hnonce =>
    split at h
    . next clear hdecrypted =>
      rw [Except.ok_bind] at h
      exact ⟨parsed, nonce, clear, hparsed, hsame.2.2, hnonce, hdecrypted, h⟩
    . cases h

end

-- Whatever header and packet a recipient is given, only the sender's content comes out, under the
-- sender's header.
theorem decrypt_authentic (hcrypto : crypto.Lawful) (hunicode : unicode.Lawful)
    {sent : Set (Sending crypto unicode)} {sending : Sending crypto unicode}
    (hfresh : ∀ other ∈ sent, other.random.master = sending.random.master → other = sending)
    {text passphrase : JsString} {packet : Bytes}
    (hhkdf : Set.InjOn (Derivation.output crypto)
      (derivations sent text sending.random.master passphrase))
    (hauthentic : ∀ prepared,
      prepareOpen crypto text sending.note.secret sending.note.id passphrase = .ok prepared
        → Authentic sent packet prepared)
    {prepared : PreparedOpen} {content : ContentInput}
    (hprepared : prepareOpen crypto text sending.note.secret sending.note.id passphrase = .ok prepared)
    (hcontent : decrypt crypto unicode packet prepared = .ok content)
    : content = normalized unicode sending.input
      ∧ ∃ parsed, parsePacket packet = .ok parsed
        ∧ parsed.headerBytes = serializeHeader sending.note.header
        ∧ parsed.header = sending.note.header := by
  rcases sending.exists_value hcrypto hunicode with ⟨value, hvalue⟩
  rcases prepareOpen_inv hcrypto hprepared with ⟨opened, master, htext, hsecret, -, -, -, -, hopened⟩
  have hmaster := hvalue.master_eq hsecret
  rcases decrypt_inv hcontent with ⟨parsed, nonce, clear, hparsed, -, hnonce, hdecrypted, hunpack⟩
  rcases hauthentic prepared hprepared parsed nonce clear hparsed hnonce hdecrypted
    with ⟨other, hother, hsealing⟩
  -- Two equal keys come from one derivation, and so from one secret.
  have hkey : other.keyDerivation.output crypto
      = (opened.keyDerivation crypto master passphrase).output crypto := by
    have hkey := congrArg Sealing.key hsealing
    rw [hopened] at hkey
    exact hkey
  have hderivation : other.keyDerivation = opened.keyDerivation crypto master passphrase := by
    apply hhkdf
    . exact .inl ⟨other, hother, rfl⟩
    . rw [← hmaster]
      exact .inr ⟨opened, htext, rfl⟩
    . exact hkey
  have hsame : other = sending := by
    apply hfresh other hother
    rw [← hmaster]
    exact Subtype.ext (Sending.master_of_material master.2 (congrArg Derivation.material hderivation))
  rw [hsame] at hsealing
  have hheader : parsed.headerBytes = sending.headerBytes := (congrArg Sealing.additional hsealing).symm
  have hclear : clear = sending.clear := by
    have hsealed : crypto.decrypt sending.sealing.ciphertext sending.sealing.additional
        sending.sealing.nonce sending.sealing.key = some clear := by
      rw [hsealing]
      exact hdecrypted
    exact Option.some.inj (hsealed.symm.trans (hcrypto.decrypt_encrypt _ _ _ _))
  rw [hclear, unpack_of_pack hunicode hvalue.packed] at hunpack
  refine ⟨(Except.ok.inj hunpack).symm, parsed, hparsed, hheader, ?_⟩
  rcases sharedParsePacket_eq_ok_iff.mp hparsed with ⟨framed, ciphertext, -, rfl⟩
  have hframed : framed = value := HeaderValue.bytes_injective (hheader.trans hvalue.headerBytes)
  rw [hvalue.header, hframed]

theorem decrypt_authentic_exampleInput
    : ∃ (sending : Sending Crypto.plain Unicode.ascii) (content : ContentInput),
      sending.input = exampleInput
        ∧ content = normalized Unicode.ascii exampleInput
        ∧ ∃ parsed, parsePacket sending.note.packet = .ok parsed
          ∧ parsed.headerBytes = serializeHeader sending.note.header
          ∧ parsed.header = sending.note.header := by
  rcases exists_exampleNote with ⟨note, packet, prepared, hcreated, -, hprepared, hcontent⟩
  let sending : Sending Crypto.plain Unicode.ascii := ⟨_, _, _, note, hcreated⟩
  rcases sending.exists_value Crypto.plain_lawful Unicode.ascii_lawful with ⟨value, hvalue⟩
  rcases prepareOpen_inv Crypto.plain_lawful hprepared
    with ⟨opened, master, htext, hsecret, -, -, -, -, hopened⟩
  have hmaster : master = sending.random.master := hvalue.master_eq hsecret
  rcases decrypt_inv hcontent with ⟨parsed, -, -, hparsed, hheader, -, -, -⟩
  have hvalueOpened : opened = value := by
    have hnote : parsePacket sending.note.packet = .ok parsed := hparsed
    rw [hvalue.parsePacket] at hnote
    cases hnote
    rw [hopened] at hheader
    exact HeaderValue.bytes_injective (hheader.symm.trans hvalue.headerBytes)
  subst hvalueOpened
  rw [htext] at hprepared
  have hauthentic : ∀ prepared',
      prepareOpen Crypto.plain (toBase64Url opened.bytes) note.secret note.id (examplePassphrase.getD [])
          = .ok prepared'
        → Authentic {sending} note.packet prepared' := by
    intro prepared' hprepared'
    rw [hprepared] at hprepared'
    cases hprepared'
    apply hvalue.authentic
    rw [hopened, hmaster]
    exact (congrArg (Derivation.output Crypto.plain) hvalue.keyDerivation).symm
  exact ⟨sending, _, rfl, decrypt_authentic Crypto.plain_lawful Unicode.ascii_lawful (by simp)
    hvalue.injOn_derivations hauthentic hprepared hcontent⟩

end Protocol
