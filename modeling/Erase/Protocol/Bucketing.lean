import Erase.Protocol.Sending
import Erase.Server.Store
import Erase.Store.Create

/-!
What the service learns about the content of a note: the bucket of its length.
-/

open Shared

namespace Protocol

variable {crypto : Crypto} {unicode : Unicode}

-- The length that `pack` computes for the content it lays out.
def packedLength (unicode : Unicode) (input : ContentInput) : Except JsError Nat := do
  let text ← encodeText input.text
  let files ← packFiles unicode [] text.length input.files
  return logicalLength text files

-- `Math.ceil(logicalLength / PADDING_BYTES)`
def buckets (length : Nat) : Nat := (length + (paddingBytes - 1)) / paddingBytes

theorem length_of_pack {random : Nat → UInt8} {input : ContentInput} {clear : Bytes} {length : Nat}
    (hpack : pack unicode random input = .ok clear) (hlength : packedLength unicode input = .ok length)
    : clear.length = 4096 * buckets length := by
  unfold pack invalid tooLarge at hpack
  simp only [Except.guard_eq_ok, Except.bind_eq_ok] at hpack
  rcases hpack with ⟨-, text, htext, -, -, files, hfiles, hlayOut⟩
  rcases layOut_extends random text files with ⟨out, hout, -, hbucket⟩
  rw [hlayOut] at hout
  cases hout
  unfold packedLength at hlength
  rw [htext, Except.ok_bind, hfiles] at hlength
  cases hlength
  rw [hbucket, Nat.mul_comm]
  rfl

-- The end of `create`, once the header and the keys are made.
def finish (crypto : Crypto) (note : CreatedNote) (headerBytes nonce key clear : Bytes)
    : Except JsError CreatedNote := do
  let packet := magic ++ Bytes.ofNatBE 4 headerBytes.length ++ headerBytes
    ++ crypto.encrypt clear headerBytes nonce key
  if packet.length > maxPacketBytes then invalid
  return { note with packet }

-- Two calls of `create` part only where they encrypt.
theorem create_pair {random : Randomness} {left right : ContentInput} {clear clear' : Bytes}
    (hleft : pack unicode random.padding left = .ok clear)
    (hright : pack unicode random.padding right = .ok clear') (options : CreateOptions)
    : (∃ error, create crypto unicode random left options = .error error
        ∧ create crypto unicode random right options = .error error)
      ∨ ∃ note headerBytes nonce key,
        create crypto unicode random left options = finish crypto note headerBytes nonce key clear
        ∧ create crypto unicode random right options = finish crypto note headerBytes nonce key clear' := by
  unfold create
  rw [hleft, hright]
  cases validatePolicy options.ttl options.views with
  | error error => exact .inl ⟨error, rfl, rfl⟩
  | ok policy =>
  dsimp only [Except.ok_bind]
  split
  . exact .inl ⟨_, rfl, rfl⟩
  cases peekBytes crypto (toBase64Url random.master) (toBase64Url random.id) with
  | error error => exact .inl ⟨error, rfl, rfl⟩
  | ok peek =>
  dsimp only [Except.ok_bind]
  cases contentKeys crypto _ _ _ with
  | error error => exact .inl ⟨error, rfl, rfl⟩
  | ok keys =>
  dsimp only [Except.ok_bind]
  cases fromBase64Url (toBase64Url random.nonce) (some 24) 24 with
  | error error => exact .inl ⟨error, rfl, rfl⟩
  | ok nonce =>
  dsimp only [Except.ok_bind]
  rw [assemble_eq_ok, assemble_eq_ok]
  generalize serializeHeader _ = headerBytes
  exact .inr ⟨⟨[], _, _, _, _⟩, headerBytes, nonce, keys.key, rfl, rfl⟩

theorem length_packet_of_finish (hcrypto : crypto.Lawful) {note note' : CreatedNote}
    {headerBytes nonce key clear : Bytes}
    (h : finish crypto note headerBytes nonce key clear = .ok note')
    : note' = { note with packet := note'.packet }
      ∧ note'.packet.length = 8 + headerBytes.length + (clear.length + 16) := by
  unfold finish invalid at h
  simp only [Except.guard_eq_ok] at h
  rcases h with ⟨-, h⟩
  cases h
  refine ⟨rfl, ?_⟩
  simp only [magic, List.length_append, List.length_cons, List.length_nil, Bytes.length_ofNatBE,
    hcrypto.length_encrypt]

theorem finish_length (hcrypto : crypto.Lawful) (note : CreatedNote) (headerBytes nonce key : Bytes)
    {clear clear' : Bytes} (h : clear'.length = clear.length)
    : (∃ error, finish crypto note headerBytes nonce key clear = .error error
        ∧ finish crypto note headerBytes nonce key clear' = .error error)
      ∨ ∃ left right, finish crypto note headerBytes nonce key clear = .ok left
        ∧ finish crypto note headerBytes nonce key clear' = .ok right := by
  unfold finish
  have hpacket : (magic ++ Bytes.ofNatBE 4 headerBytes.length ++ headerBytes
        ++ crypto.encrypt clear' headerBytes nonce key).length
      = (magic ++ Bytes.ofNatBE 4 headerBytes.length ++ headerBytes
        ++ crypto.encrypt clear headerBytes nonce key).length := by
    rw [List.length_append, hcrypto.length_encrypt, h, ← hcrypto.length_encrypt clear headerBytes nonce key,
      ← List.length_append]
  dsimp only
  rw [hpacket]
  split
  . exact .inl ⟨_, rfl, rfl⟩
  . exact .inr ⟨_, _, rfl, rfl⟩

-- What a note shows of its content: everything of it but its ciphertext, whose length counts its buckets.
structure Shows (note : CreatedNote) (count : Nat) (ciphertext : Bytes) : Prop where
  framed : IsFramed note.packet (serializeHeader note.header) ciphertext
  ciphertext : ciphertext.length = 16 + 4096 * count

theorem exists_shows (hcrypto : crypto.Lawful) (hunicode : unicode.Lawful) {random : Randomness}
    {input : ContentInput} {clear : Bytes} {length : Nat} {options : CreateOptions} {note : CreatedNote}
    (hpack : pack unicode random.padding input = .ok clear)
    (hlength : packedLength unicode input = .ok length)
    (hcreated : create crypto unicode random input options = .ok note)
    : ∃ (value : HeaderValue) (ciphertext : Bytes), serializeHeader note.header = value.bytes
        ∧ Shows note (buckets length) ciphertext := by
  let sending : Sending crypto unicode := ⟨random, input, options, note, hcreated⟩
  rcases sending.exists_value hcrypto hunicode with ⟨value, hvalue⟩
  have hclear : clear = sending.clear := Except.ok.inj (hpack.symm.trans hvalue.packed)
  have hheader : serializeHeader note.header = value.bytes := hvalue.headerBytes
  refine ⟨value, sending.sealing.ciphertext, hheader, ?_, ?_⟩
  . rw [hheader]
    exact hvalue.framed
  . change (crypto.encrypt sending.clear _ _ _).length = _
    rw [hcrypto.length_encrypt, ← hclear, length_of_pack hpack hlength, Nat.add_comm]

-- The server takes both packets, and its cache comes to answer and to hold the same for them, except for
-- the packets themselves.
def StoresAlike (packet packet' : Bytes) : Prop :=
  ∃ upload, Server.parsePacket packet = .ok upload
    ∧ Server.parsePacket packet' = .ok { upload with bytes := packet' }
    ∧ ∀ config challenge env (ledger : Store.Ledger), ∃ reply, ∃ stored stored' : Store.Ledger,
      (Server.Lua.create (Server.createArgs config upload challenge)).run env ledger.keyspace
          = (reply, stored.keyspace)
        ∧ (Server.Lua.create (Server.createArgs config { upload with bytes := packet' } challenge)).run env
            ledger.keyspace = (reply, stored'.keyspace)
        ∧ stored.redacted (Server.asBytes upload.header.id) = stored'.redacted (Server.asBytes upload.header.id)

theorem storesAlike {packet packet' ciphertext ciphertext' : Bytes} {value : HeaderValue}
    (hframed : IsFramed packet value.bytes ciphertext)
    (hframed' : IsFramed packet' value.bytes ciphertext')
    (hlength : packet'.length = packet.length) : StoresAlike packet packet' := by
  refine ⟨⟨packet, value.bytes, value.toServer⟩, ?_, ?_, ?_⟩
  . exact serverParsePacket_eq_ok_iff.mpr ⟨value, ciphertext, hframed, rfl⟩
  . exact serverParsePacket_eq_ok_iff.mpr ⟨value, ciphertext', hframed', rfl⟩
  . intro config challenge env ledger
    exact Store.run_create_packet env ledger
      (Server.createArgs config ⟨packet, value.bytes, value.toServer⟩ challenge) hlength

theorem Shows.length_eq {note : CreatedNote} {count : Nat} {ciphertext : Bytes}
    (h : Shows note count ciphertext)
    : note.packet.length = 8 + (serializeHeader note.header).length + (16 + 4096 * count) := by
  rw [h.framed.length_eq, h.ciphertext]

theorem only_buckets_show (hcrypto : crypto.Lawful) (hunicode : unicode.Lawful) {random : Randomness}
    {left right : ContentInput} {clear clear' : Bytes} {length length' : Nat}
    (hleft : pack unicode random.padding left = .ok clear)
    (hright : pack unicode random.padding right = .ok clear')
    (hlength : packedLength unicode left = .ok length)
    (hlength' : packedLength unicode right = .ok length')
    (options : CreateOptions)
    : (buckets length = buckets length'
        → (∃ error, create crypto unicode random left options = .error error
            ∧ create crypto unicode random right options = .error error)
          ∨ ∃ note note' ciphertext ciphertext', create crypto unicode random left options = .ok note
            ∧ create crypto unicode random right options = .ok note'
            ∧ note' = { note with packet := note'.packet }
            ∧ Shows note (buckets length) ciphertext ∧ Shows note' (buckets length) ciphertext'
            ∧ note'.packet.length = note.packet.length ∧ StoresAlike note.packet note'.packet)
      ∧ ∀ note note', create crypto unicode random left options = .ok note
        → create crypto unicode random right options = .ok note'
        → note' = { note with packet := note'.packet }
          ∧ (note'.packet.length = note.packet.length ↔ buckets length = buckets length') := by
  have hsame : ∀ note note', create crypto unicode random left options = .ok note
      → create crypto unicode random right options = .ok note'
      → note' = { note with packet := note'.packet } := by
    intro note note' hnote hnote'
    rcases create_pair hleft hright options with ⟨error, herror, -⟩ | ⟨made, headerBytes, nonce, key, h, h'⟩
    . cases herror.symm.trans hnote
    . rw [(length_packet_of_finish hcrypto (h.symm.trans hnote)).1,
        (length_packet_of_finish hcrypto (h'.symm.trans hnote')).1]
  refine ⟨?_, ?_⟩
  . intro hbuckets
    have hclear : clear'.length = clear.length := by
      rw [length_of_pack hright hlength', length_of_pack hleft hlength, hbuckets]
    rcases create_pair hleft hright options with ⟨error, h, h'⟩ | ⟨made, headerBytes, nonce, key, h, h'⟩
    . exact .inl ⟨error, h, h'⟩
    . rcases finish_length hcrypto made headerBytes nonce key hclear
        with ⟨error, herror, herror'⟩ | ⟨note, note', hnote, hnote'⟩
      . exact .inl ⟨error, h.trans herror, h'.trans herror'⟩
      . have hnote := h.trans hnote
        have hnote' := h'.trans hnote'
        have hheader : note'.header = note.header := by rw [hsame note note' hnote hnote']
        rcases exists_shows hcrypto hunicode hleft hlength hnote with ⟨value, ciphertext, hvalue, hshows⟩
        rcases exists_shows hcrypto hunicode hright hlength' hnote' with ⟨value', ciphertext', -, hshows'⟩
        rw [← hbuckets] at hshows'
        have hpacket : note'.packet.length = note.packet.length := by
          rw [hshows.length_eq, hshows'.length_eq, hheader]
        have hframed := hshows.framed
        have hframed' := hshows'.framed
        rw [hvalue] at hframed
        rw [hheader, hvalue] at hframed'
        exact .inr ⟨note, note', ciphertext, ciphertext', hnote, hnote', hsame note note' hnote hnote', hshows,
          hshows', hpacket, storesAlike hframed hframed' hpacket⟩
  . intro note note' hnote hnote'
    have hheader : note'.header = note.header := by rw [hsame note note' hnote hnote']
    rcases exists_shows hcrypto hunicode hleft hlength hnote with ⟨value, ciphertext, -, hshows⟩
    rcases exists_shows hcrypto hunicode hright hlength' hnote' with ⟨value', ciphertext', -, hshows'⟩
    refine ⟨hsame note note' hnote hnote', ?_⟩
    rw [hshows.length_eq, hshows'.length_eq, hheader]
    omega

-- A message without files, in the bucket of the other example.
def exampleText : ContentInput where
  text := JsString.ofString "no files, but a longer text"
  files := []

theorem isPackable_exampleText : IsPackable Unicode.ascii exampleText where
  text_wellFormed := by decide
  text_le := by decide
  files_le := by decide
  nonempty := by decide
  accepts := trivial

theorem packedLength_eq_ok {input : ContentInput} (h : IsPackable unicode input)
    : packedLength unicode input
        = .ok (logicalLength (encoderEncode input.text) ((normalized unicode input).files.map packedFile)) := by
  have htext : encodeText input.text = .ok (encoderEncode input.text) :=
    encodeText_eq_ok_iff.mpr ⟨h.text_wellFormed, rfl⟩
  have hfiles : packFiles unicode [] (encoderEncode input.text).length input.files
      = .ok ((normalized unicode input).files.map packedFile) := by
    rw [packFiles_eq_ok_iff]
    refine ⟨h.accepts, ?_⟩
    simp [normalized]
  unfold packedLength
  rw [htext, Except.ok_bind, hfiles]
  rfl

theorem only_buckets_show_exampleText
    : ∃ note note', create Crypto.plain Unicode.ascii exampleRandomness exampleInput
          ⟨JsNumber.ofNat 60, JsNumber.ofNat 3, examplePassphrase⟩ = .ok note
        ∧ create Crypto.plain Unicode.ascii exampleRandomness exampleText
          ⟨JsNumber.ofNat 60, JsNumber.ofNat 3, examplePassphrase⟩ = .ok note'
        ∧ note' = { note with packet := note'.packet }
        ∧ StoresAlike note.packet note'.packet := by
  rcases exists_pack_exampleInput with ⟨clear, hpack⟩
  have hleft : pack Unicode.ascii exampleRandomness.padding exampleInput = .ok clear := hpack
  rcases layOut_extends exampleRandomness.padding (encoderEncode exampleText.text)
    ((normalized Unicode.ascii exampleText).files.map packedFile) with ⟨clear', hlayOut, -⟩
  have hright : pack Unicode.ascii exampleRandomness.padding exampleText = .ok clear' :=
    pack_eq_ok_iff.mpr ⟨isPackable_exampleText, hlayOut⟩
  have hcreated := create_eq_ok Crypto.plain_lawful hleft (clear_blocks Unicode.ascii_lawful hleft).1
    ⟨60, by decide⟩ ⟨3, by decide⟩ (show JsString.WellFormed (examplePassphrase.getD []) by decide) (by decide)
  have hshows := (only_buckets_show Crypto.plain_lawful Unicode.ascii_lawful hleft hright
    (packedLength_eq_ok isPackable_exampleInput) (packedLength_eq_ok isPackable_exampleText)
    ⟨JsNumber.ofNat 60, JsNumber.ofNat 3, examplePassphrase⟩).1 (by decide)
  rcases hshows with ⟨error, herror, -⟩ | ⟨note, note', -, -, hnote, hnote', hsame, -, -, -, hstores⟩
  . cases hcreated.symm.trans herror
  . exact ⟨note, note', hnote, hnote', hsame, hstores⟩

end Protocol
