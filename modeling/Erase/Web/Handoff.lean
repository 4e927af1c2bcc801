import Erase.Web.Delivered
import Erase.Web.Published

/-!
A draft on its way from the page of a composer to the page of a reader.
-/

open Protocol

namespace Web

-- How a browser reads the links of a page that was served from the origin.
def ReadsLinks (parseUrl : JsString → Option Shared.Url) (origin : JsString) : Prop :=
  ∀ id secret : ByteString 32, ∃ place,
    parseUrl (origin ++ JsString.ofString "/view"
        ++ Shared.shareHash (Shared.toBase64Url id) (Shared.toBase64Url secret)) = some place
      ∧ Shared.isShareUrl place = true
      ∧ place.hash = Shared.shareHash (Shared.toBase64Url id) (Shared.toBase64Url secret)

namespace Sender

section

variable {crypto : Crypto} {unicode : Shared.Unicode} {origin : JsString} {config : PublicConfig}
variable {text passphrase : JsString} {ttl views : JsNumber}

-- What a page asks of a text without files.
theorem allowed_drafted
    (h : Composer.isRefused (drafted origin config text passphrase ttl views).host.state config = false)
    : text ≠ []
      ∧ (Shared.encoderEncode text).length ≤ config.maxTextBytes
      ∧ (∃ n, views = .ofNat n ∧ 1 ≤ n ∧ n ≤ config.maxViews)
      ∧ (∃ n, ttl = .ofNat n ∧ 60 ≤ n ∧ n ≤ config.maxTtl)
      ∧ passphrase.length ≤ 256 := by
  change Composer.isRefused { (drafted origin config text passphrase ttl views).host.state with
    text, files := [], mode := .text, passphrase, ttl, views } config = false at h
  unfold Composer.isRefused Composer.submittedFiles at h
  simp only [Bool.or_eq_false_iff, Bool.not_eq_false', decide_eq_false_iff_not, not_lt] at h
  rcases h with ⟨⟨⟨⟨⟨⟨⟨⟨⟨⟨hblank, -⟩, htext⟩, -⟩, hviews⟩, hlow⟩, hhigh⟩, httl⟩, hshort⟩, hlong⟩, hlength⟩
  refine ⟨?_, htext, JsNumber.exists_ofNat hviews hlow hhigh, JsNumber.exists_ofNat httl hshort hlong, hlength⟩
  rintro rfl
  cases hblank

-- Such a draft makes a note, unless it has a lone surrogate.
theorem exists_created (hcrypto : crypto.Lawful) (hunicode : unicode.Lawful) (random : Shared.Randomness)
    (htext : JsString.WellFormed text) (hpassphrase : JsString.WellFormed passphrase)
    (hallowed : Composer.isRefused (drafted origin config text passphrase ttl views).host.state config = false)
    : ∃ (note : Shared.CreatedNote) (upload : Server.Packet),
      Shared.create crypto unicode random ⟨text, []⟩ ⟨ttl, views, some passphrase⟩ = .ok note
        ∧ Server.parsePacket note.packet = .ok upload := by
  rcases allowed_drafted hallowed with
    ⟨hnonempty, hbytes, ⟨openings, rfl, hviews⟩, ⟨lifetime, rfl, httl⟩, hlength⟩
  have hopenings := config.views.2
  have hlifetime := config.ttl.2
  have hpackable : Shared.IsPackable unicode ⟨text, []⟩ := {
    text_wellFormed := htext
    text_le := Nat.le_trans hbytes config.text.2
    files_le := Nat.zero_le _
    nonempty := fun h => hnonempty h.1
    accepts := trivial }
  rcases Shared.layOut_extends random.padding (Shared.encoderEncode text) [] with ⟨clear, hclear, -⟩
  have hpack : Shared.pack unicode random.padding ⟨text, []⟩ = .ok clear :=
    Shared.pack_eq_ok_iff.mpr ⟨hpackable, hclear⟩
  have hpassword := Shared.length_encoderEncode_le hpassphrase
  have hcreated := create_eq_ok hcrypto hpack (clear_blocks hunicode hpack).1
    ⟨lifetime, httl.1, by omega⟩ ⟨openings, hviews.1, by omega⟩
    (show JsString.WellFormed ((some passphrase).getD []) from hpassphrase)
    (by rw [Option.getD_some]; omega)
  let sending : Sending crypto unicode := ⟨_, _, _, _, hcreated⟩
  rcases sending.exists_value hcrypto hunicode with ⟨value, hvalue⟩
  exact ⟨_, ⟨_, value.bytes, value.toServer⟩, hcreated,
    serverParsePacket_eq_ok_iff.mpr ⟨value, _, hvalue.framed, rfl⟩⟩

end

end Sender

section

variable {crypto : Crypto} {unicode : Shared.Unicode} {parseUrl : JsString → Option Shared.Url}
variable {origin : JsString}

/--
From one page to the other: a draft that the composer does not refuse and that has no lone surrogates makes a
note, and it is published under a link, once the service has given a challenge and has named the note. A reader
that is given this link and the passphrase shows the draft, from the header and the packet that the service has
kept.
-/
theorem published_opens (hcrypto : crypto.Lawful) (hunicode : unicode.Lawful)
    (hlinks : ReadsLinks parseUrl origin) {config : PublicConfig} {text passphrase : JsString}
    {ttl views : JsNumber} (surroundings : Composer.Surroundings) (htext : JsString.WellFormed text)
    (hpassphrase : JsString.WellFormed passphrase)
    (hallowed : Composer.isRefused (Sender.drafted origin config text passphrase ttl views).host.state config
      = false)
    : ∃ (note : Shared.CreatedNote) (upload : Server.Packet),
      Shared.create crypto unicode surroundings.random ⟨text, []⟩ ⟨ttl, views, some passphrase⟩ = .ok note
        ∧ Server.parsePacket note.packet = .ok upload
        ∧ ∀ (challenge : Challenge) (nonce : JsString) (receipt : Receipt) (metadata : Metadata),
          (Shared.solveProof crypto note.packet (Composer.Sealer.proofChallenge challenge)
              surroundings.pauses).result = .ok nonce
            → receipt.id = note.id
            → metadata.header = JsString.ofString (Server.encodeUrlSafe upload.headerBytes)
            → metadata.remaining ≤ upload.header.views
            → let link := (Sender.publish crypto unicode origin config text passphrase ttl views surroundings
                challenge receipt).page.host.state.link
              link = origin ++ JsString.ofString "/view" ++ Shared.shareHash note.id note.secret
                ∧ (Receiver.run crypto unicode parseUrl (fun _ => true) (Receiver.mount 0)
                  (Receiver.noteEvents link metadata passphrase note.packet)).page.host.state.content
                    = some (Shared.normalized unicode ⟨text, []⟩) := by
  rcases Sender.exists_created hcrypto hunicode surroundings.random htext hpassphrase hallowed
    with ⟨note, upload, hcreated, hupload⟩
  refine ⟨note, upload, hcreated, hupload, ?_⟩
  intro challenge nonce receipt metadata hsolved hid hheader hremaining link
  let sending : Sending crypto unicode := ⟨_, _, _, note, hcreated⟩
  have hlink : link = origin ++ JsString.ofString "/view" ++ Shared.shareHash note.id note.secret :=
    (Sender.link_publish hallowed hcreated hsolved hid).trans (Sender.shareLink_eq origin note)
  have hopens := Receiver.opens_sending hcrypto hunicode sending hupload hheader hremaining
  have hparsed : Shared.parseShareLink parseUrl link = .ok ⟨note.id, note.secret⟩ := by
    rcases Cli.exists_opens hcrypto hunicode sending with ⟨_, _, _, hnote⟩
    rcases hnote.link with ⟨id, secret, hnoteId, hnoteSecret⟩
    have hnamed : note.id = Shared.toBase64Url id ∧ note.secret = Shared.toBase64Url secret :=
      ⟨hnoteId, hnoteSecret⟩
    rcases hlinks id secret with ⟨place, hplace, hshare, hhash⟩
    rw [hlink, hnamed.1, hnamed.2]
    exact Shared.parseShareLink_eq_ok hplace hshare hhash
  exact ⟨hlink, Receiver.run_noteEvents hparsed hopens⟩

end

-- A browser that takes everything after the path for the fragment.
def exampleParse (text : JsString) : Option Shared.Url :=
  some { Receiver.exampleUrl with hash := text.drop 5 }

theorem readsLinks_exampleParse : ReadsLinks exampleParse [] := by
  have hshare : Shared.isShareUrl Receiver.exampleUrl = true := by decide
  intro id secret
  exact ⟨_, rfl, hshare, rfl⟩

theorem published_opens_exampleText
    : ∃ (receipt : Receipt) (metadata : Metadata) (packet : Bytes),
      let link := (Sender.publish Crypto.plain Shared.Unicode.ascii [] Composer.exampleConfig [65] []
        (.ofNat 3600) (.ofNat 1) Sender.exampleSurroundings Sender.exampleChallenge
        receipt).page.host.state.link
      (Receiver.run Crypto.plain Shared.Unicode.ascii exampleParse (fun _ => true) (Receiver.mount 0)
        (Receiver.noteEvents link metadata [] packet)).page.host.state.content
          = some (Shared.normalized Shared.Unicode.ascii ⟨[65], []⟩) := by
  rcases Sender.exists_exampleText with ⟨made, packet, nonce, hexample, hpacket, hviews, hsolved⟩
  have hallowed : Composer.isRefused (Sender.drafted [] Composer.exampleConfig [65] [] (.ofNat 3600)
      (.ofNat 1)).host.state Composer.exampleConfig = false := by decide +kernel
  rcases published_opens Crypto.plain_lawful Shared.Unicode.ascii_lawful readsLinks_exampleParse
      Sender.exampleSurroundings (by decide) (by decide) hallowed with ⟨note, upload, hcreated, hupload, hopens⟩
  cases hexample.symm.trans hcreated
  cases hpacket.symm.trans hupload
  have hopened := hopens Sender.exampleChallenge nonce ⟨made.id, 1⟩ (Receiver.describe packet) hsolved rfl
    rfl hviews
  exact ⟨_, _, _, hopened.2⟩

end Web
