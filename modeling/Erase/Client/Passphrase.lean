import Erase.Cli.Passphrase
import Erase.Protocol.RoundTrip
import Erase.Web.Composer
import Erase.Web.Reader

/-!
Which passphrases the clients take.
-/

namespace Client

open Shared

-- A passphrase that the protocol allows, on one line.
structure Usable (passphrase : JsString) : Prop where
  wellFormed : JsString.WellFormed passphrase
  bytes : 1 ≤ (encoderEncode passphrase).length ∧ (encoderEncode passphrase).length ≤ 1024
  line : ∀ unit ∈ passphrase, unit ≠ 10 ∧ unit ≠ 13

namespace Usable

variable {passphrase : JsString}

theorem ne_nil (h : Usable passphrase) : passphrase ≠ [] := by
  intro hnil
  have hbytes := h.bytes.1
  rw [hnil] at hbytes
  simp [encoderEncode, JsString.scalars] at hbytes

theorem getLast?_ne (h : Usable passphrase)
    : passphrase.getLast? ≠ some 10 ∧ passphrase.getLast? ≠ some 13 := by
  constructor
  . exact fun hlast => (h.line 10 (List.mem_of_getLast? hlast)).1 rfl
  . exact fun hlast => (h.line 13 (List.mem_of_getLast? hlast)).2 rfl

theorem chomp_append (h : Usable passphrase) {ending : JsString}
    (hending : ending ∈ [[], [10], [13, 10]]) : Cli.chomp (passphrase ++ ending) = passphrase := by
  rcases h.getLast?_ne with ⟨hfeed, hreturn⟩
  simp only [List.mem_cons, List.not_mem_nil, or_false] at hending
  unfold Cli.chomp
  rcases hending with rfl | rfl | rfl
  . rw [List.append_nil, if_pos hfeed]
  . rw [if_neg (by simp), List.dropLast_concat, if_neg hreturn]
  . have hsplit : passphrase ++ [13, 10] = (passphrase ++ [13]) ++ [10] := by simp
    rw [hsplit, if_neg (by simp), List.dropLast_concat, if_pos (by simp), List.dropLast_concat]

end Usable

-- Shared `create` takes the passphrase for every content that can be packed.
def CreateAccepts (passphrase : JsString) : Prop :=
  ∀ (crypto : Crypto) (unicode : Unicode) (random : Randomness) (input : ContentInput)
      (clear : Bytes) (ttl views : Nat),
    crypto.Lawful → unicode.Lawful → pack unicode random.padding input = .ok clear
      → 60 ≤ ttl ∧ ttl ≤ 604800 → 1 ≤ views ∧ views ≤ 100
      → ∃ note, create crypto unicode random input
          ⟨JsNumber.ofNat ttl, JsNumber.ofNat views, some passphrase⟩ = .ok note

-- `prepareOpen` takes the passphrase for every note that was created with it.
def PrepareOpenAccepts (passphrase : JsString) : Prop :=
  ∀ (crypto : Crypto) (unicode : Unicode) (random : Randomness) (input : ContentInput)
      (clear : Bytes) (ttl views : Nat) (note : CreatedNote),
    crypto.Lawful → unicode.Lawful → pack unicode random.padding input = .ok clear
      → 60 ≤ ttl ∧ ttl ≤ 604800 → 1 ≤ views ∧ views ≤ 100
      → create crypto unicode random input
          ⟨JsNumber.ofNat ttl, JsNumber.ofNat views, some passphrase⟩ = .ok note
      → ∃ prepared, prepareOpen crypto (toBase64Url (serializeHeader note.header)) note.secret note.id
          passphrase = .ok prepared

-- The command reads the passphrase from a file that holds it, with or without a final line break.
def CliAccepts (passphrase : JsString) : Prop :=
  ∀ ending : Bytes, ending ∈ [[], [10], [13, 10]]
    → Cli.passphrase (some (encoderEncode passphrase ++ ending)) = .ok passphrase

-- A submission that nothing else keeps back is sealed under the passphrase.
def ComposerAccepts (passphrase : JsString) : Prop :=
  ∀ (page : Web.ComposerPage) (limits : Web.PublicConfig),
    page.host.state.busy = false → page.host.state.configured = true
      → page.host.state.config = some limits → page.Live
      → Web.Composer.isRefused { page.host.state with passphrase := [] } limits = false
      → (Web.Composer.submit (Web.Composer.handle (.passphrase passphrase) page)).trace
        = page.trace ++ [(page.session.generation, .call page.host.promises.next
            (.seal page.host.state.text (Web.Composer.submittedFiles page.host.state)
              page.host.state.ttl page.host.state.views passphrase))]

-- An opening of a note that is ready is prepared with the passphrase that was typed.
def ReaderAccepts (passphrase : JsString) : Prop :=
  ∀ page : Web.ReaderPage,
    page.host.state.busy = false → page.host.state.phase = .ready → page.host.id ≠ []
      → page.host.metadata ≠ none → page.Live
      → (Web.Reader.openNote (Web.Reader.handle
          (.passphrase (Web.Reader.unlockField passphrase)) page)).trace
        = page.trace ++ [(page.session.generation, .call page.host.promises.next
            (.prepare passphrase))]

structure AcceptedEverywhere (passphrase : JsString) : Prop where
  create : CreateAccepts passphrase
  prepareOpen : PrepareOpenAccepts passphrase
  cli : CliAccepts passphrase
  composer : ComposerAccepts passphrase
  reader : ReaderAccepts passphrase

section

variable {passphrase : JsString}

theorem Usable.createAccepts (h : Usable passphrase) : CreateAccepts passphrase := by
  intro crypto unicode random input clear ttl views hcrypto hunicode hpack httl hviews
  exact ⟨_, Protocol.create_eq_ok hcrypto hpack (Protocol.clear_blocks hunicode hpack).1 ⟨ttl, httl⟩
    ⟨views, hviews⟩ h.wellFormed h.bytes.2⟩

theorem Usable.prepareOpenAccepts (h : Usable passphrase) : PrepareOpenAccepts passphrase := by
  intro crypto unicode random input clear ttl views note hcrypto hunicode hpack httl hviews hcreate
  have hwellFormed : JsString.WellFormed ((some passphrase).getD []) := h.wellFormed
  have hlength : (encoderEncode ((some passphrase).getD [])).length ≤ 1024 := h.bytes.2
  have hcreated := Protocol.create_eq_ok hcrypto hpack (Protocol.clear_blocks hunicode hpack).1
    ⟨ttl, httl⟩ ⟨views, hviews⟩ hwellFormed hlength
  rw [hcreate] at hcreated
  cases hcreated
  rw [Protocol.HeaderValue.serializeHeader_toShared]
  exact ⟨_, Protocol.prepareOpen_eq_ok hcrypto ⟨ttl, httl⟩ ⟨views, hviews⟩ h.wellFormed h.bytes.2⟩

theorem Usable.passphrase_append (h : Usable passphrase) {codes : List Nat}
    (hascii : Ascii.IsAscii codes) (hshort : codes.length ≤ 2)
    (hending : Ascii.units codes ∈ [[], [10], [13, 10]])
    : Cli.passphrase (some (encoderEncode passphrase ++ Ascii.bytes codes)) = .ok passphrase := by
  have hdecode : Cli.decodeFatal (encoderEncode passphrase ++ Ascii.bytes codes)
      = .ok (passphrase ++ Ascii.units codes) := by
    unfold Cli.decodeFatal encoderEncode
    rw [← Ascii.encode_chars hascii, ← Utf8.encode_append, Utf8.decode?_encode]
    dsimp only
    rw [JsString.ofChars_append, h.wellFormed, Ascii.ofChars_chars hascii]
  have hbytes := h.bytes.2
  have hlength : (encoderEncode passphrase ++ Ascii.bytes codes).length ≤ 1026 := by
    rw [List.length_append, Ascii.length_bytes]
    omega
  have hlimit : maxPassphraseBytes = 1024 := rfl
  have hread : Cli.readBoundedFile (encoderEncode passphrase ++ Ascii.bytes codes)
      (maxPassphraseBytes + 2) = .ok (encoderEncode passphrase ++ Ascii.bytes codes) := by
    unfold Cli.readBoundedFile
    rw [if_neg (by omega)]
    rfl
  unfold Cli.passphrase
  dsimp only
  rw [if_neg (by omega), hread]
  dsimp only [Except.ok_bind]
  rw [if_neg (by omega), hdecode]
  dsimp only [Except.ok_bind]
  rw [h.chomp_append hending, if_neg (by rw [not_or]; exact ⟨h.ne_nil, by omega⟩)]
  rfl

theorem Usable.cliAccepts (h : Usable passphrase) : CliAccepts passphrase := by
  intro ending hending
  simp only [List.mem_cons, List.not_mem_nil, or_false] at hending
  rcases hending with rfl | rfl | rfl
  . exact h.passphrase_append (show Ascii.IsAscii [] by decide) (by decide) (by simp [Ascii.units])
  . exact h.passphrase_append (show Ascii.IsAscii [10] by decide) (by decide) (by simp [Ascii.units])
  . exact h.passphrase_append (show Ascii.IsAscii [13, 10] by decide) (by decide) (by simp [Ascii.units])

end

section

open Web Composer

variable {passphrase : JsString} {page : ComposerPage} {limits : PublicConfig}

theorem isRefused_passphrase (state : ComposerState) (limits : PublicConfig) (passphrase : JsString)
    : isRefused { state with passphrase } limits
        = (isRefused { state with passphrase := [] } limits || decide (passphrase.length > 256)) := by
  unfold isRefused
  simp [submittedFiles]

theorem submit_of_long (hlong : 256 < passphrase.length) (hlive : page.Live)
    : (submit (handle (.passphrase passphrase) page)).trace = page.trace := by
  have hexpire : (handle (.passphrase passphrase) page).expire options
      = (false, handle (.passphrase passphrase) page) := Page.expire_of_live hlive
  unfold submit
  split
  . rfl
  . rw [hexpire]
    dsimp only
    split
    . rfl
    . next limits hlimits =>
      have hrefused : isRefused (handle (.passphrase passphrase) page).host.state limits = true := by
        change isRefused { page.host.state with passphrase } limits = true
        rw [isRefused_passphrase]
        simp [hlong]
      rw [if_pos hrefused]
      rfl

theorem submit_of_short (hshort : passphrase.length ≤ 256) (hbusy : page.host.state.busy = false)
    (hconfigured : page.host.state.configured = true) (hconfig : page.host.state.config = some limits)
    (hlive : page.Live)
    (haccepted : isRefused { page.host.state with passphrase := [] } limits = false)
    : (submit (handle (.passphrase passphrase) page)).trace
        = page.trace ++ [(page.session.generation, .call page.host.promises.next
            (.seal page.host.state.text (submittedFiles page.host.state)
              page.host.state.ttl page.host.state.views passphrase))] := by
  have hexpire : (handle (.passphrase passphrase) page).expire options
      = (false, handle (.passphrase passphrase) page) := Page.expire_of_live hlive
  have hallowed : isRefused (handle (.passphrase passphrase) page).host.state limits = false := by
    change isRefused { page.host.state with passphrase } limits = false
    rw [isRefused_passphrase, haccepted]
    simp [hshort]
  have hstays : ¬((handle (.passphrase passphrase) page).host.state.busy
      || !(handle (.passphrase passphrase) page).host.state.configured) = true := by
    change ¬(page.host.state.busy || !page.host.state.configured) = true
    simp [hbusy, hconfigured]
  have hlimits : (handle (.passphrase passphrase) page).host.state.config = some limits := hconfig
  unfold submit
  rw [if_neg hstays, hexpire]
  dsimp only
  rw [hlimits]
  dsimp only
  rw [hallowed, Page.touch_of_hasData (by simp [options, setState, Page.modify, modifyState])]
  rw [Page.ticket_of_live (by unfold Page.Live; dsimp only; omega)]
  rfl

end

section

open Web Reader

variable {passphrase : JsString} {page : ReaderPage}

theorem trace_openNote (hne : passphrase ≠ []) (hbusy : page.host.state.busy = false)
    (hphase : page.host.state.phase = .ready) (hid : page.host.id ≠ [])
    (hmetadata : page.host.metadata ≠ none) (hlive : page.Live)
    : (openNote (handle (.passphrase passphrase) page)).trace
        = page.trace ++ [(page.session.generation, .call page.host.promises.next
            (.prepare passphrase))] := by
  rw [@openNote_eq (handle (.passphrase passphrase) page) hbusy hphase hid hmetadata (fun _ => hne) hlive]
  rfl

end

def exampleLimits : Web.PublicConfig where
  maxContentBytes := maxContentBytes
  maxTextBytes := maxTextBytes
  maxFiles := maxFiles
  maxViews := 100
  maxTtl := 604800
  powBits := 18
  content := by decide
  text := by decide
  files := by decide
  views := by decide
  ttl := by decide
  pow := by decide

-- A composer that knows its limits and holds a draft.
def exampleComposer : Web.ComposerPage :=
  Web.Composer.run (Web.Composer.mount [] 0) [.init, .settle 0 (.config exampleLimits), .text [65]]

-- A reader that has checked a note without a passphrase.
def exampleReader : Web.ReaderPage :=
  Web.Reader.run (Web.Reader.mount 0) [
    .load [35],
    .settle 0 (.link [65] [66]),
    .settle 1 (.metadata { header := [67], expiresAt := 3600, remaining := 1 }),
    .settle 2 (.header {
      id := [65], ttl := 3600, views := 1, peek := [], read := [], revoke := [], kdf := .none,
      salt := [], nonce := [] })]

section

variable {passphrase : JsString}

theorem composerAccepts_iff : ComposerAccepts passphrase ↔ passphrase.length ≤ 256 := by
  constructor
  . intro haccepts
    by_contra hlong
    have hlive : exampleComposer.Live := by
      unfold Web.Page.Live
      decide
    have htrace := haccepts exampleComposer exampleLimits rfl rfl rfl hlive (by decide)
    rw [submit_of_long (Nat.lt_of_not_le hlong) hlive] at htrace
    simpa using congrArg List.length htrace
  . intro hshort page limits hbusy hconfigured hconfig hlive haccepted
    exact submit_of_short hshort hbusy hconfigured hconfig hlive haccepted

theorem readerAccepts_iff (hne : passphrase ≠ [])
    : ReaderAccepts passphrase ↔ passphrase.length ≤ 256 := by
  have hfield : Web.Reader.unlockField passphrase ≠ [] := by
    unfold Web.Reader.unlockField
    simp [hne]
  constructor
  . intro haccepts
    have hlive : exampleReader.Live := by
      unfold Web.Page.Live
      decide
    have htrace := haccepts exampleReader rfl rfl (by decide) (by decide) hlive
    rw [trace_openNote hfield rfl rfl (by decide) (by decide) hlive] at htrace
    have htaken : Web.Reader.unlockField passphrase = passphrase := by simpa using htrace
    unfold Web.Reader.unlockField at htaken
    exact List.take_eq_self_iff _ |>.mp htaken
  . intro hshort page hbusy hphase hid hmetadata hlive
    have htaken : Web.Reader.unlockField passphrase = passphrase := List.take_of_length_le hshort
    rw [htaken]
    exact trace_openNote hne hbusy hphase hid hmetadata hlive

theorem acceptedEverywhere_iff (h : Usable passphrase)
    : AcceptedEverywhere passphrase ↔ passphrase.length ≤ 256 := by
  constructor
  . exact fun haccepted => composerAccepts_iff.mp haccepted.composer
  . intro hshort
    exact {
      create := h.createAccepts
      prepareOpen := h.prepareOpenAccepts
      cli := h.cliAccepts
      composer := composerAccepts_iff.mpr hshort
      reader := (readerAccepts_iff h.ne_nil).mpr hshort }

end

def examplePassphrase : JsString := JsString.ofString "pass"

theorem acceptedEverywhere_examplePassphrase : AcceptedEverywhere examplePassphrase := by
  have hunits : examplePassphrase = [112, 97, 115, 115] := by decide
  have husable : Usable examplePassphrase := by
    refine ⟨by decide, by decide, ?_⟩
    rw [hunits]
    simp
  exact (acceptedEverywhere_iff husable).mpr (by decide)

def exampleLong : JsString := JsString.ofChars (List.replicate 257 'a')

theorem ascii_exampleLong : ∀ c ∈ List.replicate 257 'a', c.toNat < 128 := by
  intro c hc
  rw [List.eq_of_mem_replicate hc]
  decide

theorem exampleLong_eq : exampleLong = List.replicate 257 97 := by
  unfold exampleLong
  rw [JsString.ofChars_of_ascii ascii_exampleLong, List.map_replicate]
  rfl

theorem usable_exampleLong : Usable exampleLong where
  wellFormed := JsString.wellFormed_ofChars _
  bytes := by
    unfold encoderEncode exampleLong
    rw [JsString.scalars_ofChars, Utf8.encode_of_ascii ascii_exampleLong, List.length_map,
      List.length_replicate]
    decide
  line unit hunit := by
    rw [exampleLong_eq] at hunit
    rw [List.eq_of_mem_replicate hunit]
    decide

theorem not_acceptedEverywhere_exampleLong
    : ¬∀ passphrase, Usable passphrase → AcceptedEverywhere passphrase := by
  intro haccepted
  have hshort := composerAccepts_iff.mp (haccepted exampleLong usable_exampleLong).composer
  rw [exampleLong_eq, List.length_replicate] at hshort
  exact absurd hshort (by decide)

end Client
