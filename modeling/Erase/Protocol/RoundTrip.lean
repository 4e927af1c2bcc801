import Erase.Protocol.Packet
import Erase.Shared.Index
import Erase.Shared.RoundTrip

/-!
From the sender through the server to the recipient.
-/

open Shared

namespace Protocol

variable {crypto : Crypto} {unicode : Unicode}

theorem fromBase64Url_toBase64Url {length : Nat} (hlength : 0 < length) (bytes : ByteString length)
    : fromBase64Url (toBase64Url bytes) (some length) length = .ok bytes.1 := by
  rw [fromBase64Url_exact hlength]
  exact ⟨rfl, bytes.2⟩

theorem setPart_pair {front back : Bytes} (hfront : front.length = 32) (hback : back.length = 32)
    : (setPart (List.replicate 64 0) 0 front >>= fun buffer => setPart buffer 32 back)
        = .ok (front ++ back) := by
  have hfull : setParts (List.replicate 64 0) 0 [front, back] = .ok [front, back].flatten := by
    apply setParts_full
    simp [hfront, hback]
  rw [← hfront]
  simpa [setParts, Except.bind_ok] using hfull

theorem assemble_eq_ok (headerBytes ciphertext : Bytes)
    : assemble headerBytes ciphertext
        = .ok (magic ++ Bytes.ofNatBE 4 headerBytes.length ++ headerBytes ++ ciphertext) := by
  have hfull : setParts (List.replicate (8 + headerBytes.length + ciphertext.length) 0) 0
      [magic, Bytes.ofNatBE 4 headerBytes.length, headerBytes, ciphertext]
      = .ok [magic, Bytes.ofNatBE 4 headerBytes.length, headerBytes, ciphertext].flatten := by
    apply setParts_full
    simp [magic]
    omega
  simpa [setParts, assemble, setUint32, magic, Except.bind_ok] using hfull

def digestOf (hcrypto : crypto.Lawful) (bytes : Bytes) : HexDigest :=
  ⟨Hex.encode (crypto.sha256 bytes), by rw [Hex.length_encode, hcrypto.length_sha256],
    Hex.all_isDigit_encode _⟩

theorem sameHex_hash (hcrypto : crypto.Lawful) (bytes : Bytes)
    : sameHex (hash crypto bytes) (hash crypto bytes) = true := by
  have hhex : isHexHash (hash crypto bytes) = true :=
    HeaderValue.isHexHash_iff.mpr ⟨digestOf hcrypto bytes, rfl⟩
  simp [sameHex, hhex]

def peekOf (crypto : Crypto) (random : Randomness) : Bytes :=
  crypto.hkdf random.master
    (encoderEncode (JsString.ofString "erase.to/v1/peek:" ++ toBase64Url random.id))
    (encoderEncode (JsString.ofString "erase.to/v1/peek")) 32

theorem peekBytes_eq_ok (random : Randomness)
    : peekBytes crypto (toBase64Url random.master) (toBase64Url random.id)
        = .ok (peekOf crypto random) := by
  unfold peekBytes validateId
  rw [fromBase64Url_toBase64Url (by decide) random.id,
    fromBase64Url_toBase64Url (by decide) random.master]
  rfl

def materialOf (crypto : Crypto) (random : Randomness) (passphrase : JsString) : Bytes :=
  random.master ++ if passphrase ≠ [] then
    crypto.pwhash 32 (encoderEncode passphrase) random.salt
  else
    List.replicate 32 0

def keysOf (crypto : Crypto) (random : Randomness) (passphrase : JsString) : ContentKeys :=
  let kdf : Kdf := if passphrase ≠ [] then .argon2id else .none
  let material := materialOf crypto random passphrase
  let salt := encoderEncode (JsString.ofString "erase.to/v1/content:" ++ toBase64Url random.id)
  { key := crypto.hkdf material salt
      (encoderEncode (JsString.ofString "erase.to/v1/aead:" ++ kdf.toJs)) 32
    read := crypto.hkdf material salt
      (encoderEncode (JsString.ofString "erase.to/v1/read:" ++ kdf.toJs)) 32 }

-- The header `create` writes, as a value.
def valueOf (hcrypto : crypto.Lawful) (random : Randomness)
    (ttl : {n : Nat // 60 ≤ n ∧ n ≤ 604800}) (views : {n : Nat // 1 ≤ n ∧ n ≤ 100})
    (passphrase : JsString) : HeaderValue where
  id := random.id
  ttl := ttl
  views := views
  peek := digestOf hcrypto (peekOf crypto random)
  read := digestOf hcrypto (keysOf crypto random passphrase).read
  revoke := digestOf hcrypto random.revoke
  salt := if passphrase ≠ [] then some random.salt else none
  nonce := random.nonce

-- The fields of the header that the key schedule reads.
structure IsFor (random : Randomness) (passphrase : JsString) (header : Shared.Header) : Prop where
  id : header.id = toBase64Url random.id
  kdf : header.kdf = if passphrase ≠ [] then .argon2id else .none
  salt : passphrase ≠ [] → header.salt = toBase64Url random.salt

theorem passwordKey_eq_ok {random : Randomness} {passphrase : JsString} {header : Shared.Header}
    (hfor : IsFor random passphrase header) (hwellFormed : JsString.WellFormed passphrase)
    : passwordKey crypto header (encoderEncode passphrase)
        = .ok (if passphrase ≠ [] then
            crypto.pwhash 32 (encoderEncode passphrase) random.salt
          else
            List.replicate 32 0) := by
  have hkdf := hfor.kdf
  unfold passwordKey
  split at hkdf
  . next hne =>
    have hnonempty : ¬(encoderEncode passphrase).length = 0 := by
      rw [encoderEncode_eq_nil hwellFormed]
      exact hne
    rw [if_pos hkdf, if_neg hnonempty, hfor.salt hne,
      fromBase64Url_toBase64Url (by decide) random.salt, if_pos hne]
    rfl
  . next heq =>
    rw [if_neg (by rw [hkdf]; decide), if_neg heq]
    rfl

theorem contentKeys_eq_ok (hcrypto : crypto.Lawful) {random : Randomness} {passphrase : JsString}
    {header : Shared.Header} (hfor : IsFor random passphrase header)
    (hwellFormed : JsString.WellFormed passphrase)
    (hlength : (encoderEncode passphrase).length ≤ 1024)
    : contentKeys crypto (toBase64Url random.master) header passphrase
        = .ok (keysOf crypto random passphrase) := by
  have hunits := length_le_length_encoderEncode hwellFormed
  have hlimit : maxPassphraseBytes = 1024 := rfl
  have hencode : encodeText passphrase = .ok (encoderEncode passphrase) :=
    encodeText_eq_ok_iff.mpr ⟨hwellFormed, rfl⟩
  have hkey : (if passphrase ≠ [] then
      crypto.pwhash 32 (encoderEncode passphrase) random.salt
    else
      List.replicate 32 0).length = 32 := by
    split
    . apply hcrypto.length_pwhash
    . apply List.length_replicate
  unfold contentKeys
  rw [if_neg (by omega), fromBase64Url_toBase64Url (by decide) random.master, hencode]
  dsimp only [Except.ok_bind]
  rw [if_neg (by omega), passwordKey_eq_ok hfor hwellFormed]
  dsimp only [Except.ok_bind]
  rw [← bind_assoc, setPart_pair random.master.2 hkey, hfor.id, hfor.kdf]
  rfl

theorem toShared_valueOf (hcrypto : crypto.Lawful) (random : Randomness)
    (ttl : {n : Nat // 60 ≤ n ∧ n ≤ 604800}) (views : {n : Nat // 1 ≤ n ∧ n ≤ 100})
    (passphrase : JsString)
    : (valueOf hcrypto random ttl views passphrase).toShared = {
        id := toBase64Url random.id
        ttl := ttl
        views := views
        peek := hash crypto (peekOf crypto random)
        read := hash crypto (keysOf crypto random passphrase).read
        revoke := hash crypto random.revoke
        kdf := if passphrase ≠ [] then .argon2id else .none
        salt := if passphrase ≠ [] then toBase64Url random.salt else []
        nonce := toBase64Url random.nonce } := by
  simp only [toBase64Url_eq_units]
  unfold valueOf HeaderValue.toShared HeaderValue.saltCodes
  by_cases hpassphrase : passphrase = []
  . simp only [hpassphrase, ne_eq, not_true_eq_false, if_false]
    rfl
  . simp only [hpassphrase, ne_eq, not_false_eq_true, if_true]
    rfl

theorem create_eq_ok (hcrypto : crypto.Lawful) {random : Randomness} {input : ContentInput}
    {clear : Bytes} {passphrase : Option JsString}
    (hpack : pack unicode random.padding input = .ok clear)
    (hclear : clear.length ≤ maxPaddedBytes) (ttl : {n : Nat // 60 ≤ n ∧ n ≤ 604800})
    (views : {n : Nat // 1 ≤ n ∧ n ≤ 100}) (hwellFormed : JsString.WellFormed (passphrase.getD []))
    (hlength : (encoderEncode (passphrase.getD [])).length ≤ 1024)
    : let value := valueOf hcrypto random ttl views (passphrase.getD [])
      let ciphertext := crypto.encrypt clear value.bytes random.nonce
        (keysOf crypto random (passphrase.getD [])).key
      create crypto unicode random input ⟨JsNumber.ofNat ttl, JsNumber.ofNat views, passphrase⟩
        = .ok {
            packet := magic ++ Bytes.ofNatBE 4 value.bytes.length ++ value.bytes ++ ciphertext
            id := toBase64Url random.id
            secret := toBase64Url random.master
            revokeToken := toBase64Url random.revoke
            header := value.toShared } := by
  intro value ciphertext
  have hunits := length_le_length_encoderEncode hwellFormed
  have hlimits : maxPassphraseBytes = 1024 ∧ maxPaddedBytes = 67112960
      ∧ maxPacketBytes = 67141632 := ⟨rfl, rfl, rfl⟩
  have hpolicy : validatePolicy (JsNumber.ofNat ttl) (JsNumber.ofNat views)
      = .ok (ttl.1, views.1) := value.validatePolicy_ofNat
  have hvalue := toShared_valueOf hcrypto random ttl views (passphrase.getD [])
  have hserialize := value.serializeHeader_toShared
  have hbounds := value.length_bytes_bounds
  have hciphertext : ciphertext.length = clear.length + 16 := hcrypto.length_encrypt _ _ _ _
  unfold create
  rw [hpolicy]
  dsimp only [Except.ok_bind]
  rw [if_neg (by omega), hpack]
  dsimp only [Except.ok_bind]
  rw [peekBytes_eq_ok]
  dsimp only [Except.ok_bind]
  rw [contentKeys_eq_ok hcrypto ⟨rfl, rfl, fun hne => if_pos hne⟩ hwellFormed hlength]
  dsimp only [Except.ok_bind]
  rw [← hvalue, hserialize, fromBase64Url_toBase64Url (by decide) random.nonce]
  dsimp only [Except.ok_bind]
  rw [assemble_eq_ok]
  dsimp only [Except.ok_bind]
  rw [if_neg]
  . rfl
  . change ¬(magic ++ Bytes.ofNatBE 4 value.bytes.length ++ value.bytes ++ ciphertext).length
      > maxPacketBytes
    simp only [magic, List.length_append, Bytes.length_ofNatBE, List.length_cons, List.length_nil]
    omega

theorem clear_blocks (hunicode : unicode.Lawful) {random : Nat → UInt8} {input : ContentInput}
    {clear : Bytes} (hpack : pack unicode random input = .ok clear)
    : clear.length ≤ maxPaddedBytes ∧ ∃ k, 1 ≤ k ∧ clear.length = 4096 * k := by
  rcases pack_eq_ok_iff.mp hpack with ⟨hpackable, hlayOut⟩
  have hmax := (isCanonical_normalized hunicode hpackable).length_le
  have hlength : clear.length = bucket (contentEnvelope (normalized unicode input)).length :=
    (at_of_layOut hlayOut).2
  have hpos : 14 ≤ (contentEnvelope (normalized unicode input)).length := by
    rw [contentEnvelope, length_envelope, logicalLength, innerHeaderBytes]
    omega
  rw [hlength]
  refine ⟨bucket_mono hmax, _, ?_, Nat.mul_comm _ _⟩
  unfold paddingBytes
  omega

theorem isFramed_assembled {value : HeaderValue} {ciphertext : Bytes} {k : Nat} (hk : 1 ≤ k)
    (hlength : ciphertext.length = 16 + 4096 * k) (hmax : ciphertext.length ≤ 67112976)
    : IsFramed (magic ++ Bytes.ofNatBE 4 value.bytes.length ++ value.bytes ++ ciphertext)
        value.bytes ciphertext := by
  have hbounds := value.length_bytes_bounds
  refine ⟨rfl, hbounds.1, hbounds.2, ?_, k, hk, hlength⟩
  simp only [magic, List.length_append, Bytes.length_ofNatBE, List.length_cons, List.length_nil]
  omega

-- The server hashes the token, received as a string, to the digest it stores.
def HashesTo (crypto : Crypto) (token : JsString) (digest : String) : Prop :=
  ∃ text, JsString.ofString text = token ∧ Server.tokenHash crypto.sha256 text = .ok digest

theorem hashesTo (hcrypto : crypto.Lawful) {bytes : Bytes} (hlength : bytes.length = 32)
    : HashesTo crypto (toBase64Url bytes) (Ascii.string (digestOf hcrypto bytes).1) := by
  refine ⟨Ascii.string (HeaderValue.base64 bytes), ?_, ?_⟩
  . exact HeaderValue.ofString_encodeUrlSafe bytes
  . rw [Server.tokenHash, HeaderValue.base64Bytes_eq_ok_iff.mpr ⟨hlength, rfl⟩]
    rfl

theorem derivePeek_eq_ok (random : Randomness)
    : derivePeek crypto (toBase64Url random.master) (toBase64Url random.id)
        = .ok (toBase64Url (peekOf crypto random)) := by
  rw [derivePeek, peekBytes_eq_ok]
  rfl

theorem prepareOpen_eq_ok (hcrypto : crypto.Lawful) {random : Randomness} {passphrase : JsString}
    (ttl : {n : Nat // 60 ≤ n ∧ n ≤ 604800}) (views : {n : Nat // 1 ≤ n ∧ n ≤ 100})
    (hwellFormed : JsString.WellFormed passphrase)
    (hlength : (encoderEncode passphrase).length ≤ 1024)
    : let value := valueOf hcrypto random ttl views passphrase
      prepareOpen crypto (toBase64Url value.bytes) (toBase64Url random.master)
          (toBase64Url random.id) passphrase
        = .ok {
            header := value.toShared
            headerBytes := value.bytes
            readToken := toBase64Url (keysOf crypto random passphrase).read
            key := (keysOf crypto random passphrase).key } := by
  intro value
  have hbounds := value.length_bytes_bounds
  have hheader : fromBase64Url (toBase64Url value.bytes) = .ok value.bytes := by
    rw [fromBase64Url_eq_ok_iff]
    refine ⟨rfl, ?_, hbounds.2, by simp⟩
    apply List.ne_nil_of_length_pos
    omega
  have hid : validateId (toBase64Url random.id) = .ok () := by
    rw [validateId, fromBase64Url_toBase64Url (by decide) random.id]
    rfl
  have hvalue := toShared_valueOf hcrypto random ttl views passphrase
  have hfor : IsFor random passphrase value.toShared := by
    rw [hvalue]
    exact ⟨rfl, rfl, fun hne => if_pos hne⟩
  unfold prepareOpen
  rw [hheader]
  dsimp only [Except.ok_bind]
  rw [value.parseHeader_bytes]
  dsimp only [Except.ok_bind]
  rw [hid]
  dsimp only [Except.ok_bind]
  rw [if_neg (not_not.mpr hfor.id), peekBytes_eq_ok]
  dsimp only [Except.ok_bind]
  rw [contentKeys_eq_ok hcrypto hfor hwellFormed hlength]
  dsimp only [Except.ok_bind]
  have hpeek : sameHex (hash crypto (peekOf crypto random)) value.toShared.peek = true :=
    sameHex_hash hcrypto _
  have hread : sameHex (hash crypto (keysOf crypto random passphrase).read) value.toShared.read
      = true := sameHex_hash hcrypto _
  rw [if_neg (not_not.mpr hpeek), if_neg (not_not.mpr hread)]
  rfl

theorem decrypt_eq_ok (hcrypto : crypto.Lawful) (hunicode : unicode.Lawful)
    {random : Randomness} {input : ContentInput} {clear : Bytes} {passphrase : JsString}
    (hpack : pack unicode random.padding input = .ok clear)
    (ttl : {n : Nat // 60 ≤ n ∧ n ≤ 604800}) (views : {n : Nat // 1 ≤ n ∧ n ≤ 100})
    {packet readToken : Bytes}
    (hframed : let value := valueOf hcrypto random ttl views passphrase
      IsFramed packet value.bytes (crypto.encrypt clear value.bytes random.nonce
        (keysOf crypto random passphrase).key))
    : let value := valueOf hcrypto random ttl views passphrase
      decrypt crypto unicode packet {
          header := value.toShared
          headerBytes := value.bytes
          readToken := toBase64Url readToken
          key := (keysOf crypto random passphrase).key }
        = .ok (normalized unicode input) := by
  intro value
  have hparse := sharedParsePacket_eq_ok_iff.mpr ⟨value, _, hframed, rfl⟩
  have hkey : (keysOf crypto random passphrase).key.length = 32 := hcrypto.length_hkdf _ _ _
  have hnonce : fromBase64Url value.toShared.nonce (some 24) 24 = .ok random.nonce.1 :=
    HeaderValue.fromBase64Url_units 24 (by decide) random.nonce
  unfold decrypt
  rw [hparse]
  dsimp only [Except.ok_bind]
  rw [if_neg (by simp [hkey]), hnonce]
  dsimp only
  rw [hcrypto.decrypt_encrypt]
  exact unpack_of_pack hunicode hpack

theorem isFramed_created (hcrypto : crypto.Lawful) (hunicode : unicode.Lawful) {random : Randomness}
    {input : ContentInput} {clear : Bytes} (hpack : pack unicode random.padding input = .ok clear)
    (value : HeaderValue) (key : Bytes)
    : IsFramed (magic ++ Bytes.ofNatBE 4 value.bytes.length ++ value.bytes
          ++ crypto.encrypt clear value.bytes random.nonce key)
        value.bytes (crypto.encrypt clear value.bytes random.nonce key) := by
  rcases clear_blocks hunicode hpack with ⟨hclear, k, hk, hblocks⟩
  have hlength := hcrypto.length_encrypt clear value.bytes random.nonce key
  have hlimit : maxPaddedBytes = 67112960 := rfl
  exact isFramed_assembled hk (by omega) (by omega)

-- The server spells a header as the clients do.
theorem create_prepareOpen_decrypt (hcrypto : crypto.Lawful) (hunicode : unicode.Lawful)
    {random : Randomness} {input : ContentInput} {clear : Bytes}
    (hpack : pack unicode random.padding input = .ok clear) {ttl views : Nat}
    (httl : 60 ≤ ttl ∧ ttl ≤ 604800) (hviews : 1 ≤ views ∧ views ≤ 100)
    {passphrase : Option JsString} (hwellFormed : JsString.WellFormed (passphrase.getD []))
    (hlength : (encoderEncode (passphrase.getD [])).length ≤ 1024)
    : ∃ note packet peek prepared,
        create crypto unicode random input ⟨JsNumber.ofNat ttl, JsNumber.ofNat views, passphrase⟩
          = .ok note
        ∧ Server.parsePacket note.packet = .ok packet
        ∧ SameHeader note.header packet.header
        ∧ derivePeek crypto note.secret note.id = .ok peek
        ∧ prepareOpen crypto (JsString.ofString (Server.encodeUrlSafe packet.headerBytes))
            note.secret note.id (passphrase.getD []) = .ok prepared
        ∧ HashesTo crypto peek packet.header.peek
        ∧ HashesTo crypto prepared.readToken packet.header.read
        ∧ HashesTo crypto note.revokeToken packet.header.revoke
        ∧ decrypt crypto unicode note.packet prepared = .ok {
            text := input.text
            files := input.files.map fun file => {
              name := unicode.normalize file.name
              mime := if file.mime = [] then octetStream else unicode.toLowerCase file.mime
              data := file.data } } := by
  let value := valueOf hcrypto random ⟨ttl, httl⟩ ⟨views, hviews⟩ (passphrase.getD [])
  let keys := keysOf crypto random (passphrase.getD [])
  let ciphertext := crypto.encrypt clear value.bytes random.nonce keys.key
  have hclear := (clear_blocks hunicode hpack).1
  have hframed : IsFramed (magic ++ Bytes.ofNatBE 4 value.bytes.length ++ value.bytes ++ ciphertext)
      value.bytes ciphertext := isFramed_created hcrypto hunicode hpack value keys.key
  have hread : keys.read.length = 32 := hcrypto.length_hkdf _ _ _
  have hpeek : (peekOf crypto random).length = 32 := hcrypto.length_hkdf _ _ _
  refine ⟨_, ⟨_, value.bytes, value.toServer⟩, _, _,
    create_eq_ok hcrypto hpack hclear ⟨ttl, httl⟩ ⟨views, hviews⟩ hwellFormed hlength,
    serverParsePacket_eq_ok_iff.mpr ⟨value, ciphertext, hframed, rfl⟩, value.sameHeader,
    derivePeek_eq_ok random, ?_, hashesTo hcrypto hpeek, hashesTo hcrypto hread,
    hashesTo hcrypto random.revoke.2,
    decrypt_eq_ok hcrypto hunicode hpack ⟨ttl, httl⟩ ⟨views, hviews⟩ hframed⟩
  rw [HeaderValue.ofString_encodeUrlSafe]
  exact prepareOpen_eq_ok hcrypto ⟨ttl, httl⟩ ⟨views, hviews⟩ hwellFormed hlength

def exampleRandomness : Randomness where
  padding _ := 7
  master := ⟨List.replicate 32 1, rfl⟩
  revoke := ⟨List.replicate 32 2, rfl⟩
  id := ⟨List.replicate 32 3, rfl⟩
  salt := ⟨List.replicate 16 4, rfl⟩
  nonce := ⟨List.replicate 24 5, rfl⟩

def examplePassphrase : Option JsString := some (JsString.ofString "pass")

theorem create_prepareOpen_decrypt_exampleInput
    : ∃ note packet peek prepared,
        create Crypto.plain Unicode.ascii exampleRandomness exampleInput
            ⟨JsNumber.ofNat 60, JsNumber.ofNat 3, examplePassphrase⟩ = .ok note
        ∧ Server.parsePacket note.packet = .ok packet
        ∧ SameHeader note.header packet.header
        ∧ derivePeek Crypto.plain note.secret note.id = .ok peek
        ∧ prepareOpen Crypto.plain (JsString.ofString (Server.encodeUrlSafe packet.headerBytes))
            note.secret note.id (examplePassphrase.getD []) = .ok prepared
        ∧ HashesTo Crypto.plain peek packet.header.peek
        ∧ HashesTo Crypto.plain prepared.readToken packet.header.read
        ∧ HashesTo Crypto.plain note.revokeToken packet.header.revoke
        ∧ decrypt Crypto.plain Unicode.ascii note.packet prepared
            = .ok (normalized Unicode.ascii exampleInput) := by
  rcases exists_pack_exampleInput with ⟨clear, hpack⟩
  have httl : 60 ≤ 60 ∧ 60 ≤ 604800 := by decide
  have hviews : 1 ≤ 3 ∧ 3 ≤ 100 := by decide
  have hwellFormed : JsString.WellFormed (examplePassphrase.getD []) := by decide
  have hlength : (encoderEncode (examplePassphrase.getD [])).length ≤ 1024 := by decide
  have hrandom : pack Unicode.ascii exampleRandomness.padding exampleInput = .ok clear := hpack
  exact create_prepareOpen_decrypt Crypto.plain_lawful Unicode.ascii_lawful hrandom httl hviews
    hwellFormed hlength

theorem exists_exampleNote
    : ∃ note packet prepared,
        create Crypto.plain Unicode.ascii exampleRandomness exampleInput
            ⟨JsNumber.ofNat 60, JsNumber.ofNat 3, examplePassphrase⟩ = .ok note
        ∧ Server.parsePacket note.packet = .ok packet
        ∧ prepareOpen Crypto.plain (JsString.ofString (Server.encodeUrlSafe packet.headerBytes))
            note.secret note.id (examplePassphrase.getD []) = .ok prepared
        ∧ decrypt Crypto.plain Unicode.ascii note.packet prepared
            = .ok (normalized Unicode.ascii exampleInput) := by
  rcases exists_pack_exampleInput with ⟨clear, hpack⟩
  have hrandom : pack Unicode.ascii exampleRandomness.padding exampleInput = .ok clear := hpack
  have hclear := (clear_blocks Unicode.ascii_lawful hrandom).1
  have hwellFormed : JsString.WellFormed (examplePassphrase.getD []) := by decide
  have hlength : (encoderEncode (examplePassphrase.getD [])).length ≤ 1024 := by decide
  let value := valueOf Crypto.plain_lawful exampleRandomness ⟨60, by decide⟩ ⟨3, by decide⟩
    (examplePassphrase.getD [])
  let keys := keysOf Crypto.plain exampleRandomness (examplePassphrase.getD [])
  let prepared : PreparedOpen := ⟨value.toShared, value.bytes, toBase64Url keys.read, keys.key⟩
  have hframed := isFramed_created Crypto.plain_lawful Unicode.ascii_lawful hrandom value keys.key
  refine ⟨_, ⟨_, value.bytes, value.toServer⟩, prepared,
    create_eq_ok Crypto.plain_lawful hrandom hclear ⟨60, by decide⟩ ⟨3, by decide⟩ hwellFormed hlength,
    serverParsePacket_eq_ok_iff.mpr ⟨value, _, hframed, rfl⟩, ?_,
    decrypt_eq_ok Crypto.plain_lawful Unicode.ascii_lawful hrandom ⟨60, by decide⟩ ⟨3, by decide⟩ hframed⟩
  rw [HeaderValue.ofString_encodeUrlSafe]
  exact prepareOpen_eq_ok Crypto.plain_lawful ⟨60, by decide⟩ ⟨3, by decide⟩ hwellFormed hlength

end Protocol
