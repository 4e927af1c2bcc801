import Erase.Web.SingleRequest

/-!
The calls of a reader. Each step makes at most one, and which one follows from what has been settled.
-/

namespace Web

namespace Reader

-- The entries that a step adds for its event and its call.
def isRecord : Entry → Bool
  | .event _ => true
  | .call _ _ => true
  | _ => false

-- What a page becomes without a call.
structure Rests (start page : ReaderPage) : Prop where
  trace : ∃ more : Trace, page.trace = start.trace ++ more ∧ ∀ entry ∈ more, isRecord entry.2 = false
  waiting : ∀ number continuation, page.host.promises.waiting number = some continuation
    → start.host.promises.waiting number = some continuation
  content : page.host.state.content = start.host.state.content ∨ page.host.state.content = none

-- A page that has rested, or has made one call since.
inductive Calls (allowed : Request → Continuation → Prop) (start page : ReaderPage) : Prop where
  | rests (h : Rests start page)
  | asks {before : ReaderPage} {request : Request} {continuation : Continuation}
      (h : Rests start before) (follows : allowed request continuation)
      (page_eq : page = await request continuation before)

-- The call that goes on where a load or an opening was suspended.
inductive Follows : Continuation → Result → Request → Continuation → Prop where
  | metadata (ticket : Ticket) (id peekToken : JsString)
    : Follows (.loadLink ticket) (.link id peekToken) (.metadata id peekToken) (.loadMetadata ticket)
  | inspect (ticket : Ticket) (metadata : Metadata)
    : Follows (.loadMetadata ticket) (.metadata metadata) (.inspect metadata.header)
        (.loadHeader ticket metadata)
  | openNote (ticket : Ticket) (id readToken : JsString)
    : Follows (.openAccess ticket) (.access readToken) (.openNote id readToken) (.openPacket ticket)
  | decrypt (ticket : Ticket) (packet : Bytes)
    : Follows (.openPacket ticket) (.packet packet) (.decrypt packet) (.openContent ticket)

-- The call that a user asks for.
inductive Begins : Request → Continuation → Prop where
  | load (ticket : Ticket) (url : JsString) : Begins (.load url) (.loadLink ticket)
  | prepare (ticket : Ticket) (passphrase : JsString) : Begins (.prepare passphrase) (.openAccess ticket)
  | copy (ticket : Ticket) (text : JsString) : Begins (.copy text) (.copyText ticket)

-- A decrypted packet shows its content.
def Opens (start : ReaderPage) (content : Shared.ContentInput) (page : ReaderPage) : Prop :=
  ∃ before shown : ReaderPage, Rests start before
    ∧ shown.trace = before.trace
    ∧ shown.host.promises = before.host.promises
    ∧ shown.host.state.content = some content
    ∧ Rests shown page

-- What one step does to the calls and to the content.
inductive Proceeds (page : ReaderPage) (event : Event) : Prop where
  | begins (h : Calls Begins (page.emit (.event event)) (step page event))
  | follows {number : Nat} {continuation : Continuation} {result : Result}
      (settles : event = .settle number result)
      (waiting : page.host.promises.waiting number = some continuation)
      (h : Calls (Follows continuation result) (page.emit (.event event)) (step page event))
  | opens {number : Nat} {ticket : Ticket} {content : Shared.ContentInput}
      (settles : event = .settle number (.content content))
      (waiting : page.host.promises.waiting number = some (.openContent ticket))
      (h : Opens (page.emit (.event event)) content (step page event))

section

variable {start page page' : ReaderPage} {ticket : Ticket} {f : ReaderState → ReaderState}

namespace Rests

theorem refl (page : ReaderPage) : Rests page page where
  trace := ⟨[], by simp, by simp⟩
  waiting _ _ h := h
  content := .inl rfl

theorem same (h : Rests start page) (htrace : page'.trace = page.trace)
    (hpromises : page'.host.promises = page.host.promises)
    (hcontent : page'.host.state.content = page.host.state.content) : Rests start page' where
  trace := by
    rw [htrace]
    exact h.trace
  waiting := by
    rw [hpromises]
    exact h.waiting
  content := by
    rw [hcontent]
    exact h.content

theorem append (h : Rests start page) {more : Trace} (htrace : page'.trace = page.trace ++ more)
    (hmore : ∀ entry ∈ more, isRecord entry.2 = false)
    : ∃ all : Trace, page'.trace = start.trace ++ all ∧ ∀ entry ∈ all, isRecord entry.2 = false := by
  rcases h.trace with ⟨earlier, hearlier, hquiet⟩
  refine ⟨earlier ++ more, ?_, List.forall_mem_append.mpr ⟨hquiet, hmore⟩⟩
  rw [htrace, hearlier, List.append_assoc]

theorem emit (h : Rests start page) {entry : Entry} (hentry : isRecord entry = false)
    : Rests start (page.emit entry) :=
  { h with trace := h.append rfl (by simpa using hentry) }

theorem foldl_emit (h : Rests start page) {entries : List Entry}
    (hentries : ∀ entry ∈ entries, isRecord entry = false)
    : Rests start (entries.foldl (fun page entry => page.emit entry) page) := by
  rw [Page.foldl_emit]
  refine { h with trace := h.append rfl ?_ }
  intro other hother
  rcases List.mem_map.mp hother with ⟨entry, hentry, rfl⟩
  exact hentries entry hentry

theorem isRecord_of_mem_fillFiles {content : Option Shared.ContentInput} {entry : Entry}
    (h : entry ∈ fillFiles content) : isRecord entry = false := by
  rcases eq_fill_of_mem_fillFiles h with ⟨data, rfl⟩
  rfl

theorem isRecord_of_mem_reset (reason : ClearReason) (reader : Reader) {entry : Entry}
    (h : entry ∈ (reset reason reader).2) : isRecord entry = false := by
  unfold reset at h
  rcases List.mem_cons.mp h with rfl | h
  . rfl
  . rcases List.mem_append.mp h with h | h
    . rcases List.mem_map.mp h with ⟨url, -, rfl⟩
      rfl
    . exact isRecord_of_mem_fillFiles h

theorem clear (h : Rests start page) (reason : ClearReason) : Rests start (page.clear options reason) where
  trace := by
    apply h.append rfl
    intro entry hentry
    rcases List.mem_map.mp hentry with ⟨other, hother, rfl⟩
    exact isRecord_of_mem_reset reason _ hother
  waiting := h.waiting
  content := .inr rfl

theorem invariant (start : ReaderPage) : options.Invariant (Rests start) where
  clear reason h := h.clear reason
  ambient _ _ _ _ h := h.same rfl rfl rfl
  schedule _ _ h := h.same rfl rfl rfl
  warning _ h := h.same rfl rfl rfl
  clock _ h := h.same rfl rfl rfl

theorem valid (h : Rests start page) {isValid : Bool}
    (hvalid : page.valid options ticket = (isValid, page')) : Rests start page' :=
  (invariant start).valid h hvalid

theorem expire (h : Rests start page) {expired : Bool}
    (hexpire : page.expire options = (expired, page')) : Rests start page' :=
  (invariant start).expire h hexpire

theorem settled (page : ReaderPage) (number : Nat) (result : Result)
    : Rests (page.emit (.event (.settle number result))) (settledPage number result page) :=
  { refl (page.emit (.event (.settle number result))) with
    waiting := fun _ _ hwaiting => (Promises.waiting_settle.mp hwaiting).2 }

theorem loadFailed (h : Rests start page) (error : Failure) : Rests start (loadFailed ticket error page) := by
  unfold Reader.loadFailed
  split
  . next hvalid => exact h.valid hvalid
  . next before hvalid =>
    have hdisposed : Rests start (before.emit .dispose) := (h.valid hvalid).emit rfl
    exact hdisposed.same rfl rfl rfl

theorem loadHeader (h : Rests start page) (metadata : Metadata) (header : Shared.Header)
    : Rests start (loadHeader ticket metadata header page) := by
  unfold Reader.loadHeader
  split
  . next hvalid => exact h.valid hvalid
  . next hvalid =>
    have hcurrent := h.valid hvalid
    split
    . exact hcurrent.loadFailed _
    . apply emit
      . exact hcurrent.same rfl rfl rfl
      . rfl

theorem openFinally (h : Rests start page) (packet : Option Bytes)
    : Rests start (openFinally ticket packet page) := by
  have hrest : ∀ {page' : ReaderPage}, Rests start page'
      → Rests start (Reader.openFinally ticket none page') := by
    intro page' h
    unfold Reader.openFinally
    dsimp only
    split
    . next hvalid => exact h.valid hvalid
    . next hvalid => exact (h.valid hvalid).same rfl rfl rfl
  rcases openFinally_eq ticket packet with hsame | ⟨bytes, hsame⟩
  . rw [hsame]
    exact hrest h
  . rw [hsame]
    apply hrest
    exact h.emit rfl

theorem openFailed (h : Rests start page) (requested : Bool) (error : Failure)
    : Rests start (openFailed ticket requested error page) := by
  unfold Reader.openFailed
  split
  . next hvalid => exact (h.valid hvalid).openFinally none
  . next before hvalid =>
    apply openFinally
    cases requested with
    | false => exact (h.valid hvalid).same rfl rfl rfl
    | true =>
      have hdisposed : Rests start (before.emit .dispose) := (h.valid hvalid).emit rfl
      exact hdisposed.same rfl rfl rfl

theorem copied (h : Rests start page) (message : String) : Rests start (copied ticket message page) := by
  unfold Reader.copied
  split
  . next hvalid => exact h.valid hvalid
  . next hvalid => exact (h.valid hvalid).same rfl rfl rfl

theorem save (h : Rests start page) (name : JsString) (data : Bytes) : Rests start (save name data page) := by
  unfold Reader.save
  apply emit
  . apply emit
    . exact h.same rfl rfl rfl
    . rfl
  . rfl

theorem download (h : Rests start page) (index : Nat) : Rests start (download index page) := by
  unfold Reader.download
  split
  . next hexpire => exact h.expire hexpire
  . next hexpire =>
    split
    . exact h.expire hexpire
    . exact (h.expire hexpire).save _ _

theorem downloadText (h : Rests start page) : Rests start (downloadText page) := by
  unfold Reader.downloadText
  split
  . next hexpire => exact h.expire hexpire
  . next hexpire =>
    split
    . exact h.expire hexpire
    . exact (h.expire hexpire).save _ _

theorem releaseUrl (h : Rests start page) (index : Nat) : Rests start (releaseUrl index page) := by
  unfold Reader.releaseUrl
  split
  . exact h
  . next url due _ =>
    split
    . exact h
    . have hrevoked : Rests start (page.emit (.revokeObjectUrl url)) := h.emit rfl
      exact hrevoked.same rfl rfl rfl

end Rests

namespace Calls

theorem load (h : Rests start page) (url : JsString) : Calls Begins start (load url page) := by
  refine .asks ?_ (.load _ url) rfl
  apply (Rests.invariant start).ticket
  apply (Rests.invariant start).touchAt
  exact h.same rfl rfl rfl

theorem openNote (h : Rests start page) : Calls Begins start (openNote page) := by
  unfold Reader.openNote
  split
  . next hexpire => exact .rests (h.expire hexpire)
  . next hexpire =>
    have hlive := h.expire hexpire
    split
    . exact .rests hlive
    . split
      . exact .rests (hlive.same rfl rfl rfl)
      . refine .asks ?_ (.prepare _ _) rfl
        apply (Rests.invariant start).ticket
        exact hlive.same rfl rfl rfl

theorem copyText (h : Rests start page) : Calls Begins start (copyText page) := by
  unfold Reader.copyText
  split
  . next hexpire => exact .rests (h.expire hexpire)
  . next hexpire =>
    split
    . exact .rests (h.expire hexpire)
    . exact .asks ((Rests.invariant start).ticket (h.expire hexpire)) (.copy _ _) rfl

theorem loadLink (h : Rests start page) (id peekToken : JsString)
    : Calls (Follows (.loadLink ticket) (.link id peekToken)) start (loadLink ticket id peekToken page) := by
  unfold Reader.loadLink
  split
  . next hvalid => exact .rests (h.valid hvalid)
  . next hvalid =>
    refine .asks ?_ (.metadata _ _ _) rfl
    exact (h.valid hvalid).same rfl rfl rfl

theorem loadMetadata (h : Rests start page) (metadata : Metadata)
    : Calls (Follows (.loadMetadata ticket) (.metadata metadata)) start
        (loadMetadata ticket metadata page) := by
  unfold Reader.loadMetadata
  split
  . next hvalid => exact .rests (h.valid hvalid)
  . next hvalid => exact .asks (h.valid hvalid) (.inspect _ _) rfl

theorem openAccess (h : Rests start page) (readToken : JsString)
    : Calls (Follows (.openAccess ticket) (.access readToken)) start (openAccess ticket readToken page) := by
  unfold Reader.openAccess
  split
  . next hvalid => exact .rests ((h.valid hvalid).openFinally none)
  . next hvalid =>
    refine .asks ?_ (.openNote _ _ _) rfl
    exact (h.valid hvalid).same rfl rfl rfl

theorem openPacket (h : Rests start page) (packet : Bytes)
    : Calls (Follows (.openPacket ticket) (.packet packet)) start (openPacket ticket packet page) := by
  unfold Reader.openPacket
  split
  . next hvalid => exact .rests ((h.valid hvalid).openFinally _)
  . next hvalid =>
    refine .asks ?_ (.decrypt _ _) rfl
    exact (h.valid hvalid).same rfl rfl rfl

end Calls

theorem opens_openContent (ticket : Ticket) (h : Rests start page) (content : Shared.ContentInput)
    : Rests start (openContent ticket content page)
        ∨ Opens start content (openContent ticket content page) := by
  unfold openContent
  split
  . next hvalid =>
    left
    apply Rests.openFinally
    apply (h.valid hvalid).foldl_emit
    exact fun entry hentry => Rests.isRecord_of_mem_fillFiles hentry
  . next before hvalid =>
    right
    have hrests : ∀ shown : ReaderPage, Rests shown (openFinally ticket none (shown.emit .dispose)) := by
      intro shown
      apply Rests.openFinally
      apply Rests.emit
      . apply Rests.refl
      . rfl
    refine ⟨before, _, h.valid hvalid, ?_, ?_, ?_, hrests _⟩
    all_goals rfl

theorem proceeds_settle (page : ReaderPage) (number : Nat) (result : Result)
    : Proceeds page (.settle number result) := by
  have hsettled := Rests.settled page number result
  cases hresume : (page.host.promises.waiting number).bind fun continuation => resume? continuation result with
  | none =>
    apply Proceeds.begins
    rw [step_settle_none hresume]
    exact .rests (Rests.refl _)
  | some resume =>
    rcases Option.bind_eq_some_iff.mp hresume with ⟨continuation, hwaiting, hresume⟩
    have hstep := step_settle hwaiting hresume
    unfold resume? at hresume
    split at hresume
    all_goals cases hresume
    . exact .follows rfl hwaiting (hstep ▸ Calls.loadLink hsettled _ _)
    . exact .follows rfl hwaiting (hstep ▸ Calls.loadMetadata hsettled _)
    . exact .begins (hstep ▸ .rests (hsettled.loadHeader _ _))
    . exact .begins (hstep ▸ .rests (hsettled.loadFailed _))
    . exact .begins (hstep ▸ .rests (hsettled.loadFailed _))
    . exact .begins (hstep ▸ .rests (hsettled.loadFailed _))
    . exact .follows rfl hwaiting (hstep ▸ Calls.openAccess hsettled _)
    . exact .follows rfl hwaiting (hstep ▸ Calls.openPacket hsettled _)
    . next ticket content =>
      rcases opens_openContent ticket hsettled content with hrests | hopens
      . exact .begins (hstep ▸ .rests hrests)
      . exact .opens rfl hwaiting (hstep ▸ hopens)
    . exact .begins (hstep ▸ .rests (hsettled.openFailed false _))
    . exact .begins (hstep ▸ .rests (hsettled.openFailed true _))
    . exact .begins (hstep ▸ .rests (hsettled.openFailed true _))
    . exact .begins (hstep ▸ .rests (hsettled.copied _))
    . exact .begins (hstep ▸ .rests (hsettled.copied _))

theorem proceeds_step (page : ReaderPage) (event : Event) : Proceeds page event := by
  have hinvariant := Rests.invariant (page.emit (.event event))
  have hrecorded : Rests (page.emit (.event event)) (page.emit (.event event)) := Rests.refl _
  cases event with
  | tick elapsed => exact .begins (.rests (hinvariant.ambient _ _ _ _ hrecorded))
  | timer => exact .begins (.rests (hinvariant.fire hrecorded))
  | urlTimer index => exact .begins (.rests (hrecorded.releaseUrl index))
  | activity isTrusted => exact .begins (.rests (hinvariant.activity hrecorded isTrusted))
  | microtask index => exact .begins (.rests (hinvariant.microtask hrecorded index))
  | keep isTrusted => exact .begins (.rests (hinvariant.keep hrecorded isTrusted))
  | visibility hidden => exact .begins (.rests (hinvariant.visibility hrecorded hidden))
  | pagehide => exact .begins (.rests (hinvariant.leave hrecorded))
  | pageshow persisted => exact .begins (.rests (hinvariant.restore hrecorded persisted))
  | passphrase value => exact .begins (.rests (hrecorded.same rfl rfl rfl))
  | load url => exact .begins (Calls.load hrecorded url)
  | openNote => exact .begins (Calls.openNote hrecorded)
  | copyText => exact .begins (Calls.copyText hrecorded)
  | download index => exact .begins (.rests (hrecorded.download index))
  | downloadText => exact .begins (.rests hrecorded.downloadText)
  | clear => exact .begins (.rests (hinvariant.clear .manual hrecorded))
  | destroy => exact .begins (.rests (hinvariant.destroy hrecorded))
  | settle number result => exact proceeds_settle page number result

end

end Reader

end Web
