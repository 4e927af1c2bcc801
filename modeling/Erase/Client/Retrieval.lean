import Erase.Cli.Receive
import Erase.Protocol.Preparation
import Erase.Web.Provenance

/-!
No client spends a retrieval on a passphrase that would not open the note.
-/

open Shared Web Protocol

namespace Client

-- The values that a recipient's passphrase makes the clients and the server compare do not collide.
structure Distinguishes {crypto : Crypto} {unicode : Unicode} (sending : Sending crypto unicode)
    (passphrase : JsString) : Prop where
  hkdf : Set.InjOn (Derivation.output crypto)
    {sending.readDerivation passphrase, sending.readDerivation sending.passphrase}
  sha256 : Set.InjOn crypto.sha256
    {(sending.readDerivation passphrase).output crypto,
      (sending.readDerivation sending.passphrase).output crypto}

-- The header of a stored packet, as the service returns it.
def servedHeader (packet : Server.Packet) : JsString :=
  JsString.ofString (Server.encodeUrlSafe packet.headerBytes)

def linkOf (note : CreatedNote) : ShareLink := { id := note.id, secret := note.secret }

-- A reader that is given the link of the note, and is served its header.
structure ReadsNote (parseUrl : JsString → Option Url) (note : CreatedNote) (header : JsString)
    (trace : Trace) : Prop where
  link : ∀ number url link, trace.Asks number (.load url) → parseShareLink parseUrl url = .ok link
    → link = linkOf note
  header : ∀ number text, trace.Asks number (.inspect text) → text = header

structure ReceivesNote (parseUrl : JsString → Option Cli.Location) (note : CreatedNote)
    (header : JsString) (surroundings : Cli.Surroundings) : Prop where
  link : ∀ text link, Cli.stdin surroundings.stdin 2048 = .ok text
    → parseShareLink (fun value => (parseUrl value).map Cli.Location.toUrl) (Cli.trim text) = .ok link
    → link = linkOf note
  header : ∀ metadata, surroundings.metadata = .ok metadata → metadata.header = header

section

variable {crypto : Crypto} {unicode : Unicode}

theorem leads_readsNote {parseUrl : JsString → Option Url} {note : CreatedNote} {header : JsString}
    {trace : Trace} (hreads : ReadsNote parseUrl note header trace) {passphrase token : JsString}
    (hgrants : trace.Grants crypto parseUrl passphrase token)
    : ∃ prepared, prepareOpen crypto header note.secret note.id passphrase = .ok prepared
        ∧ token = prepared.readToken := by
  rcases hgrants with ⟨first, second, url, text, link, prepared, hload, hlink, hinspect, hprepared, htoken⟩
  have hsame := hreads.link first url link hload hlink
  have htext := hreads.header second text hinspect
  subst hsame htext
  exact ⟨prepared, hprepared, htoken⟩

theorem retrieval_unwasted (hcrypto : crypto.Lawful) (hunicode : unicode.Lawful)
    (sending : Sending crypto unicode) {packet : Server.Packet}
    (hpacket : Server.parsePacket sending.note.packet = .ok packet)
    : (∀ passphrase prepared, Distinguishes sending passphrase
        → prepareOpen crypto (servedHeader packet) sending.note.secret sending.note.id passphrase
            = .ok prepared
        → HashesTo crypto prepared.readToken packet.header.read
          ∧ decrypt crypto unicode sending.note.packet prepared
            = .ok (normalized unicode sending.input))
      ∧ (∀ (parseUrl : JsString → Option Url) (posts : Nat → Bool) (now : Nat)
          (events : List Receiver.Event) (before after : Trace) (generation number : Nat)
          (id token : JsString),
        ReadsNote parseUrl sending.note (servedHeader packet)
            (Receiver.run crypto unicode parseUrl posts (.mount now) events).page.trace
          → (Receiver.run crypto unicode parseUrl posts (.mount now) events).page.trace
              = before ++ (generation, .call number (.openNote id token)) :: after
          → ∃ (earlier : Trace) (other : Nat) (passphrase : JsString) (prepared : PreparedOpen),
            before = earlier ++ [(generation, .event (.settle other (.access token)))]
              ∧ earlier.Asks other (.prepare passphrase)
              ∧ prepareOpen crypto (servedHeader packet) sending.note.secret sending.note.id passphrase
                = .ok prepared
              ∧ token = prepared.readToken)
      ∧ ∀ (parseUrl : JsString → Option Cli.Location) (surroundings : Cli.Surroundings)
          (id token : JsString),
        ReceivesNote parseUrl sending.note (servedHeader packet) surroundings
          → .openNote id token ∈ (Cli.receive crypto unicode parseUrl surroundings).requests
          → ∃ passphrase prepared,
            Cli.passphrase surroundings.passphraseFile = .ok passphrase
              ∧ prepareOpen crypto (servedHeader packet) sending.note.secret sending.note.id passphrase
                = .ok prepared
              ∧ id = sending.note.id
              ∧ token = prepared.readToken := by
  refine ⟨?_, ?_, ?_⟩
  . intro passphrase prepared hdistinguishes hprepared
    exact prepareOpen_unwasted hcrypto hunicode sending hpacket hdistinguishes.hkdf
      hdistinguishes.sha256 hprepared
  . intro parseUrl posts now events before after generation number id token hreads hsplit
    rcases Receiver.leads_run now events before after generation number id token hsplit
      with ⟨earlier, other, rfl, passphrase, hasks, hgrants⟩
    have htrace : earlier ⊆ (Receiver.run crypto unicode parseUrl posts (.mount now) events).page.trace := by
      rw [hsplit]
      intro entry hentry
      simp [hentry]
    rcases leads_readsNote hreads (hgrants.mono htrace) with ⟨prepared, hprepared, htoken⟩
    exact ⟨earlier, other, passphrase, prepared, rfl, hasks, hprepared, htoken⟩
  . intro parseUrl surroundings id token hreceives hmem
    rcases Cli.openNote_mem_receive hmem
      with ⟨text, link, metadata, passphrase, prepared, htext, hlink, hmetadata, hpassphrase, hprepared,
        hid, htoken⟩
    have hsame := hreceives.link text link htext hlink
    have hheader := hreceives.header metadata hmetadata
    subst hsame
    rw [hheader] at hprepared
    exact ⟨passphrase, prepared, hpassphrase, hprepared, hid, htoken⟩

theorem retrieval_unwasted_exampleInput
    : ∃ (sending : Sending Crypto.plain Unicode.ascii) (packet : Server.Packet) (prepared : PreparedOpen),
      sending.input = exampleInput
        ∧ prepareOpen Crypto.plain (servedHeader packet) sending.note.secret sending.note.id
            (Protocol.examplePassphrase.getD []) = .ok prepared
        ∧ HashesTo Crypto.plain prepared.readToken packet.header.read
        ∧ decrypt Crypto.plain Unicode.ascii sending.note.packet prepared
          = .ok (normalized Unicode.ascii exampleInput) := by
  rcases Protocol.exists_exampleNote with ⟨note, packet, prepared, hcreated, hpacket, hprepared, -⟩
  let sending : Sending Crypto.plain Unicode.ascii := ⟨_, _, _, note, hcreated⟩
  have hdistinguishes : Distinguishes sending (Protocol.examplePassphrase.getD []) := by
    constructor
    . simp [sending, Sending.passphrase]
    . simp [sending, Sending.passphrase]
  rcases (retrieval_unwasted Crypto.plain_lawful Unicode.ascii_lawful sending hpacket).1 _ prepared
    hdistinguishes hprepared with ⟨hread, hcontent⟩
  exact ⟨sending, packet, prepared, rfl, hprepared, hread, hcontent⟩

end

end Client
