import Erase.Library.Runs
import Erase.Web.ReaderCleared
import Erase.Web.SingleRequest

/-!
What a reader shows, and what the browser keeps of it, while its document is hidden.
-/

namespace Web

open Reader

namespace Trace

-- Every object URL is registered, or revoked after its creation.
def Tracked (trace : Trace) (urls : List Nat) : Prop :=
  ∀ before after generation url data, trace = before ++ (generation, .createObjectUrl url data) :: after
    → url ∈ urls ∨ ∃ later, (later, .revokeObjectUrl url) ∈ after

section

variable {trace more : Trace} {urls urls' : List Nat}

theorem Tracked.append (h : trace.Tracked urls)
    (hmore : ∀ generation url data, (generation, .createObjectUrl url data) ∉ more)
    (hurls : ∀ url ∈ urls, url ∈ urls' ∨ ∃ later, (later, .revokeObjectUrl url) ∈ more)
    : Tracked (trace ++ more) urls' := by
  intro before after generation url data hsplit
  rcases List.append_eq_append_iff.mp hsplit with ⟨middle, -, hrest⟩ | ⟨rest, htrace, hrest⟩
  . exact absurd (by simp [hrest]) (hmore generation url data)
  . cases rest with
    | nil => exact absurd (by simp [show more = _ from hrest.symm]) (hmore generation url data)
    | cons entry rest =>
      rw [List.cons_append] at hrest
      cases hrest
      rcases h before rest generation url data htrace with hurl | ⟨later, hlater⟩
      . apply (hurls url hurl).imp_right
        rintro ⟨later, hlater⟩
        exact ⟨later, List.mem_append_right _ hlater⟩
      . exact .inr ⟨later, List.mem_append_left _ hlater⟩

theorem Tracked.emit (h : trace.Tracked urls) (generation : Nat) {entry : Entry}
    (hentry : ∀ url data, entry ≠ .createObjectUrl url data)
    : Tracked (trace ++ [(generation, entry)]) urls := by
  apply h.append
  . intro generation' url data hmem
    cases List.mem_singleton.mp hmem
    exact hentry url data rfl
  . exact fun url hurl => .inl hurl

theorem Tracked.create (h : trace.Tracked urls) (generation url : Nat) (data : Bytes)
    : Tracked (trace ++ [(generation, .createObjectUrl url data)]) (urls ++ [url]) := by
  intro before after generation' url' data' hsplit
  rcases List.append_eq_append_iff.mp hsplit with ⟨middle, -, hrest⟩ | ⟨rest, htrace, hrest⟩
  . rcases List.singleton_eq_append_cons hrest with ⟨-, hentry⟩
    cases hentry
    exact .inl (List.mem_append_right _ (List.mem_singleton_self _))
  . cases rest with
    | nil =>
      cases hrest
      exact .inl (List.mem_append_right _ (List.mem_singleton_self _))
    | cons entry rest =>
      rw [List.cons_append] at hrest
      cases hrest
      rcases h before rest generation' url' data' htrace with hurl | ⟨later, hlater⟩
      . exact .inl (List.mem_append_left _ hurl)
      . exact .inr ⟨later, List.mem_append_left _ hlater⟩

end

end Trace

-- What a reader shows, on a document that is hidden or not.
structure Shows (fresh isHidden isAttached : Bool) (page : ReaderPage) : Prop where
  hidden : page.hidden = isHidden
  attached : page.attached = isAttached
  past : ∀ {number continuation}, page.host.promises.waiting number = some continuation
    → continuation.ticket.generation ≤ page.session.generation
  fresh : fresh = true → page.host.state.content = none ∧ page.host.state.busy = false
  loading : ∀ {number continuation}, (view page).Current number continuation
    → continuation.isLoad = true → page.host.state.content = none ∧ page.host.state.busy = false
  shown : page.host.state.content.isSome = true → page.host.state.phase = .opened ∧ (view page).Idle
  kept : page.host.state.content = none → page.host.urls.urls = [] ∧ page.host.urls.timers = []
  tracked : Trace.Tracked page.trace page.host.urls.urls
  veiled : isHidden = true ∨ isAttached = false
    → page.host.state.phase ≠ .opened ∧ page.host.state.busy = false

namespace Shows

variable {fresh isHidden isAttached : Bool} {page page' : ReaderPage} {ticket : Ticket}

theorem same (h : Shows fresh isHidden isAttached page) (hhidden : page'.hidden = page.hidden)
    (hattached : page'.attached = page.attached)
    (hgeneration : page'.session.generation = page.session.generation)
    (hpromises : page'.host.promises = page.host.promises)
    (hcontent : page'.host.state.content = page.host.state.content)
    (hphase : page'.host.state.phase = page.host.state.phase)
    (hbusy : page'.host.state.busy = page.host.state.busy) (hurls : page'.host.urls = page.host.urls)
    (htracked : Trace.Tracked page'.trace page.host.urls.urls)
    : Shows fresh isHidden isAttached page' := by
  have hcurrent : ∀ {number continuation}, (view page').Current number continuation
      → (view page).Current number continuation := by
    rintro number continuation ⟨hwaiting, hticket⟩
    have hwaiting : page'.host.promises.waiting number = some continuation := hwaiting
    rw [hpromises] at hwaiting
    exact ⟨hwaiting, hticket.trans hgeneration⟩
  exact {
    hidden := hhidden.trans h.hidden
    attached := hattached.trans h.attached
    past := by
      rw [hpromises, hgeneration]
      exact h.past
    fresh := by
      rw [hcontent, hbusy]
      exact h.fresh
    loading := by
      rw [hcontent, hbusy]
      exact fun h' => h.loading (hcurrent h')
    shown := by
      rw [hcontent, hphase]
      exact fun hsome => ⟨(h.shown hsome).1, fun number continuation h' =>
        (h.shown hsome).2 number continuation (hcurrent h')⟩
    kept := by
      rw [hcontent, hurls]
      exact h.kept
    tracked := by
      rw [hurls]
      exact htracked
    veiled := by
      rw [hphase, hbusy]
      exact h.veiled }

theorem emit (h : Shows fresh isHidden isAttached page) {entry : Entry}
    (hentry : ∀ url data, entry ≠ .createObjectUrl url data)
    : Shows fresh isHidden isAttached (page.emit entry) :=
  h.same rfl rfl rfl rfl rfl rfl rfl rfl (h.tracked.emit _ hentry)

theorem setState (h : Shows fresh isHidden isAttached page) {f : ReaderState → ReaderState}
    (hcontent : (f page.host.state).content = page.host.state.content)
    (hphase : (f page.host.state).phase = page.host.state.phase)
    (hbusy : (f page.host.state).busy = page.host.state.busy)
    : Shows fresh isHidden isAttached (Reader.setState f page) :=
  h.same rfl rfl rfl rfl hcontent hphase hbusy rfl h.tracked

-- A clear takes the content away, revokes what is registered and makes every ticket stale.
theorem clear (h : Shows fresh isHidden isAttached page) (reason : ClearReason) (fresh' : Bool)
    : Shows fresh' isHidden isAttached (page.clear options reason) := by
  have hstale : ∀ {number continuation},
      ¬(view (page.clear options reason)).Current number continuation := by
    rintro number continuation ⟨hwaiting, hgeneration⟩
    have hpast := h.past hwaiting
    have hnext : continuation.ticket.generation = page.session.generation + 1 := hgeneration
    omega
  have hcreates : ∀ generation url data, (generation, .createObjectUrl url data) ∉
      (options.clear reason (options.clock 0 (options.warning 0 page.host))).2.map
        fun entry => (page.session.generation + 1, entry) := by
    intro generation url data hmem
    rcases List.mem_map.mp hmem with ⟨entry, hentry, heq⟩
    cases heq
    rcases List.mem_cons.mp hentry with hdispose | hentry
    . cases hdispose
    . rcases List.mem_append.mp hentry with hrevoke | hfill
      . rcases List.mem_map.mp hrevoke with ⟨_, -, hrevoked⟩
        cases hrevoked
      . rcases eq_fill_of_mem_fillFiles hfill with ⟨_, hfilled⟩
        cases hfilled
  exact {
    hidden := h.hidden
    attached := h.attached
    past := fun hwaiting => Nat.le_succ_of_le (h.past hwaiting)
    fresh := fun _ => ⟨rfl, rfl⟩
    loading := fun hcurrent => absurd hcurrent hstale
    shown := fun hsome => by cases hsome
    kept := fun _ => ⟨rfl, rfl⟩
    tracked := by
      apply h.tracked.append hcreates
      intro url hurl
      refine .inr ⟨page.session.generation + 1, List.mem_map.mpr ⟨.revokeObjectUrl url, ?_, rfl⟩⟩
      exact List.mem_cons_of_mem _ (List.mem_append_left _ (List.mem_map_of_mem hurl))
    veiled := fun _ => ⟨by simp [Page.clear, options, reset, modifyState], rfl⟩ }

theorem keeps (fresh isHidden isAttached : Bool) : options.Kept (Shows fresh isHidden isAttached) where
  clear reason h := h.clear reason fresh
  ambient _ _ h := h.same rfl rfl rfl rfl rfl rfl rfl rfl h.tracked
  schedule _ _ h := h.same rfl rfl rfl rfl rfl rfl rfl rfl h.tracked
  warning _ h := h.same rfl rfl rfl rfl rfl rfl rfl rfl h.tracked
  clock _ h := h.same rfl rfl rfl rfl rfl rfl rfl rfl h.tracked

theorem settle (h : Shows fresh isHidden isAttached page) (number : Nat)
    : Shows fresh isHidden isAttached (page.modify fun reader =>
        { reader with promises := reader.promises.settle number }) where
  hidden := h.hidden
  attached := h.attached
  past hwaiting := h.past (Promises.waiting_settle.mp hwaiting).2
  fresh := h.fresh
  loading hcurrent := h.loading ⟨(Promises.waiting_settle.mp hcurrent.1).2, hcurrent.2⟩
  shown hsome := ⟨(h.shown hsome).1, fun number continuation hcurrent =>
    (h.shown hsome).2 number continuation ⟨(Promises.waiting_settle.mp hcurrent.1).2, hcurrent.2⟩⟩
  kept := h.kept
  tracked := h.tracked
  veiled := h.veiled

-- A load suspends on an empty reader, an opening on one without content.
theorem await (h : Shows fresh isHidden isAttached page) {request : Request}
    {continuation : Continuation}
    (hgeneration : continuation.ticket.generation = page.session.generation)
    (hload : continuation.isLoad = true
      → page.host.state.content = none ∧ page.host.state.busy = false)
    (hopen : continuation.isOpen = true → page.host.state.content = none)
    : Shows fresh isHidden isAttached (Reader.await request continuation page) where
  hidden := h.hidden
  attached := h.attached
  past hwaiting := by
    rcases Promises.waiting_suspend.mp hwaiting with ⟨-, rfl⟩ | ⟨-, hwaiting⟩
    . exact hgeneration.le
    . exact h.past hwaiting
  fresh := h.fresh
  loading hcurrent hkind := by
    rcases Promises.waiting_suspend.mp hcurrent.1 with ⟨-, rfl⟩ | ⟨-, hwaiting⟩
    . exact hload hkind
    . exact h.loading ⟨hwaiting, hcurrent.2⟩ hkind
  shown hsome := by
    refine ⟨(h.shown hsome).1, ?_⟩
    have hfull : ¬page.host.state.content = none := Option.isSome_iff_ne_none.mp hsome
    intro number suspended hcurrent
    rcases Promises.waiting_suspend.mp hcurrent.1 with ⟨-, rfl⟩ | ⟨-, hwaiting⟩
    . constructor
      . exact Bool.not_eq_true _ ▸ fun hkind => hfull (hload hkind).1
      . exact Bool.not_eq_true _ ▸ fun hkind => hfull (hopen hkind)
    . exact (h.shown hsome).2 number suspended ⟨hwaiting, hcurrent.2⟩
  kept := h.kept
  tracked := h.tracked.emit _ (by simp)
  veiled := h.veiled

-- The phase of a reader without content is free, but for the one that shows content.
theorem turn (h : Shows fresh isHidden isAttached page) (hempty : page.host.state.content = none)
    {f : ReaderState → ReaderState} (hcontent : (f page.host.state).content = none)
    (hphase : (f page.host.state).phase ≠ .opened)
    (hbusy : (f page.host.state).busy = page.host.state.busy)
    : Shows fresh isHidden isAttached (Reader.setState f page) where
  hidden := h.hidden
  attached := h.attached
  past := h.past
  fresh hfresh := ⟨hcontent, hbusy.trans (h.fresh hfresh).2⟩
  loading hcurrent hkind := ⟨hcontent, hbusy.trans (h.loading hcurrent hkind).2⟩
  shown hsome := by
    have hsome : (f page.host.state).content.isSome = true := hsome
    rw [hcontent] at hsome
    cases hsome
  kept _ := h.kept hempty
  tracked := h.tracked
  veiled hveiled := ⟨hphase, hbusy.trans (h.veiled hveiled).2⟩

theorem rest (h : Shows fresh isHidden isAttached page)
    : Shows fresh isHidden isAttached
        (Reader.setState (fun state => { state with busy := false }) page) where
  hidden := h.hidden
  attached := h.attached
  past := h.past
  fresh hfresh := ⟨(h.fresh hfresh).1, rfl⟩
  loading hcurrent hkind := ⟨(h.loading hcurrent hkind).1, rfl⟩
  shown := h.shown
  kept := h.kept
  tracked := h.tracked
  veiled hveiled := ⟨(h.veiled hveiled).1, rfl⟩

theorem load (h : Shows true isHidden isAttached page) (url : JsString)
    : Shows false isHidden isAttached (Reader.load url page) := by
  have hstarted : Shows true isHidden isAttached (Reader.setState (fun state => { state with
      phase := .loading, error := "", status := "Checking package metadata…" }) page) := by
    apply h.turn (h.fresh rfl).1
    . exact (h.fresh rfl).1
    . exact (show Phase.loading ≠ .opened by decide)
    . rfl
  have hkept := keeps true isHidden isAttached
  have hticketed := hkept.ticket (hkept.touchAt hstarted page.now)
  have hempty := hticketed.fresh rfl
  have hused : Shows false isHidden isAttached _ := { hticketed with fresh := fun hfresh => by cases hfresh }
  apply hused.await
  . rfl
  . exact fun _ => hempty
  . exact fun _ => hempty.1

theorem loadFailed (h : Shows fresh isHidden isAttached page)
    (hempty : page.host.state.content = none) (error : Failure)
    : Shows fresh isHidden isAttached (Reader.loadFailed ticket error page) := by
  unfold Reader.loadFailed
  split
  . next hvalid => exact (keeps fresh isHidden isAttached).valid h hvalid
  . next hvalid =>
    rcases Page.valid_eq_true hvalid with ⟨rfl, -, -⟩
    have hdisposed : Shows fresh isHidden isAttached (page.emit .dispose) := h.emit (by simp)
    have hforgotten : Shows fresh isHidden isAttached ((page.emit .dispose).modify fun reader =>
        { reader with id := [] }) :=
      hdisposed.same rfl rfl rfl rfl rfl rfl rfl rfl hdisposed.tracked
    apply hforgotten.turn hempty
    . exact hempty
    . exact (show Phase.error ≠ .opened by decide)
    . rfl

theorem openFinally (h : Shows fresh isHidden isAttached page) (packet : Option Bytes)
    : Shows fresh isHidden isAttached (Reader.openFinally ticket packet page) := by
  have hrest : ∀ {page' : ReaderPage}, Shows fresh isHidden isAttached page'
      → Shows fresh isHidden isAttached (Reader.openFinally ticket none page') := by
    intro page' h
    unfold Reader.openFinally
    dsimp only
    split
    . next hvalid => exact (keeps fresh isHidden isAttached).valid h hvalid
    . next hvalid => exact ((keeps fresh isHidden isAttached).valid h hvalid).rest
  rcases openFinally_eq ticket packet with hsame | ⟨bytes, hsame⟩
  . rw [hsame]
    exact hrest h
  . rw [hsame]
    apply hrest
    exact h.emit (by simp)

theorem copied (h : Shows fresh isHidden isAttached page) (message : String)
    : Shows fresh isHidden isAttached (Reader.copied ticket message page) := by
  unfold Reader.copied
  split
  . next hvalid => exact (keeps fresh isHidden isAttached).valid h hvalid
  . next hvalid => exact ((keeps fresh isHidden isAttached).valid h hvalid).setState rfl rfl rfl

theorem copyText (h : Shows fresh isHidden isAttached page)
    : Shows fresh isHidden isAttached (Reader.copyText page) := by
  unfold Reader.copyText
  split
  . next hexpire => exact (keeps fresh isHidden isAttached).expire h hexpire
  . next hexpire =>
    have hlive := (keeps fresh isHidden isAttached).expire h hexpire
    split
    . exact hlive
    . apply ((keeps fresh isHidden isAttached).ticket hlive).await
      . rfl
      . simp [Continuation.isLoad]
      . simp [Continuation.isOpen]

-- What a download registers goes with the content it is made of.
theorem save (h : Shows fresh isHidden isAttached page) (hfull : page.host.state.content ≠ none)
    (name : JsString) (data : Bytes)
    : Shows fresh isHidden isAttached (Reader.save name data page) where
  hidden := h.hidden
  attached := h.attached
  past := h.past
  fresh hfresh := absurd (h.fresh hfresh).1 hfull
  loading hcurrent hkind := absurd (h.loading hcurrent hkind).1 hfull
  shown := h.shown
  kept hempty := absurd hempty hfull
  tracked := (h.tracked.create _ _ _).emit _ (by simp)
  veiled := h.veiled

theorem download (h : Shows fresh isHidden isAttached page) (index : Nat)
    : Shows fresh isHidden isAttached (Reader.download index page) := by
  unfold Reader.download
  split
  . next hexpire => exact (keeps fresh isHidden isAttached).expire h hexpire
  . next hexpire =>
    rcases Page.expire_eq_false hexpire with ⟨rfl, -⟩
    split
    . exact h
    . next file hfile =>
      apply h.save
      intro hempty
      rw [hempty] at hfile
      cases hfile

theorem downloadText (h : Shows fresh isHidden isAttached page)
    : Shows fresh isHidden isAttached (Reader.downloadText page) := by
  unfold Reader.downloadText
  split
  . next hexpire => exact (keeps fresh isHidden isAttached).expire h hexpire
  . next hexpire =>
    rcases Page.expire_eq_false hexpire with ⟨rfl, -⟩
    split
    . exact h
    . next text htext =>
      apply h.save
      intro hempty
      unfold Reader.text? at htext
      rw [hempty] at htext
      cases htext

theorem releaseUrl (h : Shows fresh isHidden isAttached page) (index : Nat)
    : Shows fresh isHidden isAttached (Reader.releaseUrl index page) := by
  unfold Reader.releaseUrl
  split
  . exact h
  . next url due htimer =>
    split
    . exact h
    . exact {
        hidden := h.hidden
        attached := h.attached
        past := h.past
        fresh := h.fresh
        loading := h.loading
        shown := h.shown
        kept := fun hempty => by
          rw [(h.kept hempty).2] at htimer
          cases htimer
        tracked := by
          apply h.tracked.append
          . simp
          . intro other hother
            by_cases hurl : other = url
            . exact .inr ⟨page.session.generation, by simp [hurl]⟩
            . exact .inl (List.mem_filter.mpr ⟨hother, decide_eq_true hurl⟩)
        veiled := h.veiled }

theorem openNote (h : Shows fresh isHidden isAttached page) (hcoherent : Coherent fresh (view page))
    (hhidden : isHidden = false) (hattached : isAttached = true)
    : Shows fresh isHidden isAttached (Reader.openNote page) := by
  unfold Reader.openNote
  split
  . next hexpire => exact (keeps fresh isHidden isAttached).expire h hexpire
  . next hexpire =>
    rcases Page.expire_eq_false hexpire with ⟨rfl, hlive⟩
    split
    . exact h
    . next hguard =>
      split
      . exact h.setState rfl rfl rfl
      . simp only [Bool.or_eq_true, not_or, decide_eq_true_eq, Bool.not_eq_true, not_not] at hguard
        rcases hguard with ⟨⟨⟨hbusy, hphase⟩, -⟩, -⟩
        have hempty : page.host.state.content = none := by
          rw [← Option.not_isSome_iff_eq_none]
          intro hsome
          cases hphase.symm.trans (h.shown hsome).1
        have hstarted : Shows fresh isHidden isAttached (Reader.setState (fun state => { state with
            busy := true, error := "", status := "Deriving and verifying access locally…" }) page) := {
          hidden := h.hidden
          attached := h.attached
          past := h.past
          fresh := fun hfresh => absurd hphase (hcoherent.fresh hfresh).1
          loading := fun hcurrent hkind => absurd hphase (hcoherent.loading _ _ hcurrent hkind)
          shown := h.shown
          kept := h.kept
          tracked := h.tracked
          veiled := fun hveiled => by
            rcases hveiled with hveiled | hveiled
            . cases hhidden.symm.trans hveiled
            . cases hattached.symm.trans hveiled }
        dsimp only
        rw [Page.ticket_of_live (live_setState hlive _)]
        apply hstarted.await
        . rfl
        . simp [Continuation.isLoad]
        . exact fun _ => hempty

theorem loadLink (h : Shows fresh isHidden isAttached page)
    (hvalid : page.valid options ticket = (true, page)) (hempty : page.host.state.content = none
      ∧ page.host.state.busy = false) (id peekToken : JsString)
    : Shows fresh isHidden isAttached (Reader.loadLink ticket id peekToken page) := by
  have hnamed : Shows fresh isHidden isAttached (page.modify fun reader => { reader with id }) :=
    h.same rfl rfl rfl rfl rfl rfl rfl rfl h.tracked
  unfold Reader.loadLink
  rw [hvalid]
  apply hnamed.await
  . exact (Page.valid_eq_true hvalid).2.2
  . exact fun _ => hempty
  . exact fun _ => hempty.1

theorem loadMetadata (h : Shows fresh isHidden isAttached page)
    (hvalid : page.valid options ticket = (true, page)) (hempty : page.host.state.content = none
      ∧ page.host.state.busy = false) (metadata : Metadata)
    : Shows fresh isHidden isAttached (Reader.loadMetadata ticket metadata page) := by
  unfold Reader.loadMetadata
  rw [hvalid]
  apply h.await
  . exact (Page.valid_eq_true hvalid).2.2
  . exact fun _ => hempty
  . exact fun _ => hempty.1

theorem loadHeader (h : Shows fresh isHidden isAttached page)
    (hvalid : page.valid options ticket = (true, page)) (hempty : page.host.state.content = none)
    (metadata : Metadata) (header : Shared.Header)
    : Shows fresh isHidden isAttached (Reader.loadHeader ticket metadata header page) := by
  unfold Reader.loadHeader
  rw [hvalid]
  dsimp only
  split
  . exact h.loadFailed hempty _
  . have hdescribed : Shows fresh isHidden isAttached (page.modify fun reader =>
        { reader with metadata := some metadata }) :=
      h.same rfl rfl rfl rfl rfl rfl rfl rfl h.tracked
    apply Shows.emit
    . apply hdescribed.turn hempty
      . exact hempty
      . exact (show Phase.ready ≠ .opened by decide)
      . rfl
    . simp

theorem openAccess (h : Shows fresh isHidden isAttached page)
    (hvalid : page.valid options ticket = (true, page)) (hempty : page.host.state.content = none)
    (readToken : JsString)
    : Shows fresh isHidden isAttached (Reader.openAccess ticket readToken page) := by
  unfold Reader.openAccess
  rw [hvalid]
  apply Shows.await
  . exact h.setState rfl rfl rfl
  . exact (Page.valid_eq_true hvalid).2.2
  . simp [Continuation.isLoad]
  . exact fun _ => hempty

theorem openPacket (h : Shows fresh isHidden isAttached page)
    (hvalid : page.valid options ticket = (true, page)) (hempty : page.host.state.content = none)
    (packet : Bytes) : Shows fresh isHidden isAttached (Reader.openPacket ticket packet page) := by
  unfold Reader.openPacket
  rw [hvalid]
  apply Shows.await
  . exact h.setState rfl rfl rfl
  . exact (Page.valid_eq_true hvalid).2.2
  . simp [Continuation.isLoad]
  . exact fun _ => hempty

theorem openFailed (h : Shows fresh isHidden isAttached page)
    (hvalid : page.valid options ticket = (true, page)) (hempty : page.host.state.content = none)
    (requested : Bool) (error : Failure)
    : Shows fresh isHidden isAttached (Reader.openFailed ticket requested error page) := by
  have hfailed : Shows fresh isHidden isAttached (Reader.setState (fun state => { state with
      passphrase := [], error := errorText error }) page) := h.setState rfl rfl rfl
  unfold Reader.openFailed
  rw [hvalid]
  dsimp only
  apply openFinally
  cases requested with
  | false =>
    rw [if_neg Bool.false_ne_true]
    exact hfailed.setState rfl rfl rfl
  | true =>
    rw [if_pos rfl]
    apply Shows.setState
    . have hdisposed : Shows fresh isHidden isAttached (Page.emit .dispose
          (Reader.setState (fun state => { state with
            passphrase := [], error := errorText error }) page)) := hfailed.emit (by simp)
      have hforgotten : Shows fresh isHidden isAttached (Page.modify (fun reader =>
          { reader with id := [], metadata := none }) (Page.emit .dispose
            (Reader.setState (fun state => { state with
              passphrase := [], error := errorText error }) page))) :=
        hdisposed.same rfl rfl rfl rfl rfl rfl rfl rfl hdisposed.tracked
      apply hforgotten.turn hempty
      . exact hempty
      . exact (show Phase.error ≠ .opened by decide)
      . rfl
    . rfl
    . rfl
    . rfl

-- Content appears only for an opening that holds the flag, which no hidden document has.
theorem openContent (h : Shows false isHidden isAttached page)
    (hvalid : page.valid options ticket = (true, page)) (hbusy : page.host.state.busy = true)
    (hidle : (view page).Idle) (content : Shared.ContentInput)
    : Shows false isHidden isAttached (Reader.openContent ticket content page) := by
  have hvisible : ¬(isHidden = true ∨ isAttached = false) := by
    intro hveiled
    cases hbusy.symm.trans (h.veiled hveiled).2
  have hopened : Shows false isHidden isAttached ((Reader.setState (fun state => { state with
        content := some content
        remaining := state.remaining - 1
        phase := .opened
        status := "Decrypted locally. This retrieval has been counted." }) page).modify fun reader =>
      { reader with id := [], metadata := none }) := {
    hidden := h.hidden
    attached := h.attached
    past := h.past
    fresh := fun hfresh => by cases hfresh
    loading := fun {number continuation} hcurrent hkind => by
      rw [(hidle number continuation hcurrent).1] at hkind
      cases hkind
    shown := fun _ => ⟨rfl, hidle⟩
    kept := fun hnone => by cases hnone
    tracked := h.tracked
    veiled := fun hveiled => absurd hveiled hvisible }
  unfold Reader.openContent
  rw [hvalid]
  apply openFinally
  exact hopened.emit (by simp)

theorem foldl_emit (h : Shows fresh isHidden isAttached page) {entries : List Entry}
    (hentries : ∀ entry ∈ entries, ∀ url data, entry ≠ .createObjectUrl url data)
    : Shows fresh isHidden isAttached (entries.foldl (fun page entry => page.emit entry) page) := by
  induction entries generalizing page with
  | nil => exact h
  | cons entry entries ih =>
    apply ih
    . exact h.emit (hentries entry List.mem_cons_self)
    . exact fun other hother => hentries other (List.mem_cons_of_mem entry hother)

theorem resume (h : Shows fresh isHidden isAttached page) (hcoherent : Coherent fresh (view page))
    {number : Nat} {continuation : Continuation} {result : Result} {resume : ReaderPage → ReaderPage}
    (hwaiting : page.host.promises.waiting number = some continuation)
    (hresume : resume? continuation result = some resume)
    : Shows fresh isHidden isAttached (resume (settledPage number result page)) := by
  have hsettled : Shows fresh isHidden isAttached (settledPage number result page) :=
    Shows.settle (h.emit (by simp)) number
  rcases hvalid : (settledPage number result page).valid options continuation.ticket with ⟨isValid, page'⟩
  cases isValid with
  | false =>
    have hstale := Page.stale_of_valid_eq_false hvalid (hcoherent.past number continuation hwaiting).2
      hcoherent.controller
    rw [Reader.resume_invalid hresume hvalid hstale]
    apply ((keeps fresh isHidden isAttached).valid hsettled hvalid).foldl_emit
    rintro entry hentry url data rfl
    cases isCommand_fill hentry
  | true =>
    rcases Page.valid_eq_true hvalid with ⟨rfl, -, hgeneration⟩
    have hcurrent : (view page).Current number continuation := ⟨hwaiting, hgeneration⟩
    have hloading := h.loading hcurrent
    have hopening : continuation.isOpen = true → page.host.state.content = none := by
      intro hkind
      rw [← Option.not_isSome_iff_eq_none]
      intro hsome
      cases hkind.symm.trans ((h.shown hsome).2 number continuation hcurrent).2
    unfold resume? at hresume
    split at hresume
    all_goals cases hresume
    . exact hsettled.loadLink hvalid (hloading rfl) _ _
    . exact hsettled.loadMetadata hvalid (hloading rfl) _
    . exact hsettled.loadHeader hvalid (hloading rfl).1 _ _
    . exact hsettled.loadFailed (hloading rfl).1 _
    . exact hsettled.loadFailed (hloading rfl).1 _
    . exact hsettled.loadFailed (hloading rfl).1 _
    . exact hsettled.openAccess hvalid (hopening rfl) _
    . exact hsettled.openPacket hvalid (hopening rfl) _
    . next ticket content =>
      rcases hcoherent.idle_settle hcurrent rfl with ⟨rfl, hidle⟩
      exact hsettled.openContent hvalid (hcoherent.opening number _ hcurrent rfl) hidle _
    . exact hsettled.openFailed hvalid (hopening rfl) _ _
    . exact hsettled.openFailed hvalid (hopening rfl) _ _
    . exact hsettled.openFailed hvalid (hopening rfl) _ _
    . exact hsettled.copied _
    . exact hsettled.copied _

theorem settles (h : Shows fresh isHidden isAttached page) (hcoherent : Coherent fresh (view page))
    (number : Nat) (result : Result)
    : Shows fresh isHidden isAttached (step page (.settle number result)) := by
  cases hbound : (page.host.promises.waiting number).bind fun continuation => resume? continuation result with
  | none =>
    rw [step_settle_none hbound]
    exact h.emit (by simp)
  | some resume =>
    rcases Option.bind_eq_some_iff.mp hbound with ⟨continuation, hwaiting, hresume⟩
    rw [step_settle hwaiting hresume]
    exact h.resume hcoherent hwaiting hresume

-- The handler of a change clears what only an open reader shows.
theorem visibility (h : Shows fresh isHidden isAttached page) (hidden : Bool)
    : Shows fresh hidden isAttached (page.visibility options hidden) := by
  have hturned : ¬(hidden = true ∧ (page.host.state.phase = .opened ∨ page.host.state.busy = true))
      ∨ isAttached = false → Shows fresh hidden isAttached { page with hidden } := by
    intro hclosed
    exact {
      hidden := rfl
      attached := h.attached
      past := h.past
      fresh := h.fresh
      loading := h.loading
      shown := h.shown
      kept := h.kept
      tracked := h.tracked
      veiled := fun hveiled => by
        rcases hclosed with hclosed | hdetached
        . rcases hveiled with hhidden | hdetached
          . rw [not_and, not_or, Bool.not_eq_true] at hclosed
            exact hclosed hhidden
          . exact h.veiled (.inr hdetached)
        . exact h.veiled (.inr hdetached) }
  unfold Page.visibility
  dsimp only
  split
  . next hdetached =>
    have hdetached : page.attached = false := by simpa using hdetached
    exact hturned (.inr (h.attached.symm.trans hdetached))
  . split
    . have hcleared := h.clear .hidden fresh
      exact { hcleared with
        hidden := rfl
        veiled := fun _ => ⟨by simp [Page.clear, options, reset, modifyState], rfl⟩ }
    . next hclosed =>
      have hshown : Shows fresh hidden isAttached { page with hidden } := by
        apply hturned
        left
        rintro ⟨hhidden, hopen⟩
        apply hclosed
        rcases hopen with hopen | hopen
        . simp [hhidden, options, hopen]
        . simp [hhidden, options, hopen]
      split
      . exact (keeps fresh hidden isAttached).check hshown
      . exact hshown

end Shows

-- A recipient opens what is on screen.
def OpensInView (page : ReaderPage) (event : Event) : Prop :=
  event = .openNote → page.hidden = false ∧ page.attached = true

section

variable {fresh : Bool} {page : ReaderPage} {event : Event}

theorem shows_step {isHidden isAttached : Bool} (h : Shows fresh isHidden isAttached page)
    (hcoherent : Coherent fresh (view page)) (hload : ∀ url, event = .load url → fresh = true)
    (hopens : OpensInView page event)
    : ∃ isHidden isAttached, Shows (event.fresh fresh) isHidden isAttached (step page event) := by
  have hemitted : Shows fresh isHidden isAttached (page.emit (.event event)) := h.emit (by simp)
  have hkept := Shows.keeps fresh isHidden isAttached
  unfold step handle
  cases event with
  | tick elapsed => exact ⟨_, _, hkept.ambient _ _ hemitted⟩
  | timer => exact ⟨_, _, hkept.fire hemitted⟩
  | urlTimer index => exact ⟨_, _, hemitted.releaseUrl index⟩
  | activity isTrusted => exact ⟨_, _, hkept.activity hemitted isTrusted⟩
  | microtask index => exact ⟨_, _, hkept.microtask hemitted index⟩
  | keep isTrusted => exact ⟨_, _, hkept.keep hemitted isTrusted⟩
  | visibility hidden => exact ⟨_, _, hemitted.visibility hidden⟩
  | pagehide => exact ⟨_, _, hkept.leave hemitted⟩
  | pageshow persisted => exact ⟨_, _, hkept.restore hemitted persisted⟩
  | passphrase value => exact ⟨_, _, hemitted.setState rfl rfl rfl⟩
  | load url =>
    have hfresh := hload url rfl
    subst hfresh
    exact ⟨_, _, hemitted.load url⟩
  | openNote =>
    rcases hopens rfl with ⟨hhidden, hattached⟩
    have hopened : Coherent fresh (view (page.emit (.event .openNote))) :=
      hcoherent.emit rfl fun _ _ _ => rfl
    exact ⟨_, _, hemitted.openNote hopened (h.hidden.symm.trans hhidden) (h.attached.symm.trans hattached)⟩
  | copyText => exact ⟨_, _, hemitted.copyText⟩
  | download index => exact ⟨_, _, hemitted.download index⟩
  | downloadText => exact ⟨_, _, hemitted.downloadText⟩
  | clear => exact ⟨_, _, hemitted.clear .manual true⟩
  | destroy =>
    have hcleared := hemitted.clear .navigation fresh
    exact ⟨isHidden, false, { hcleared with
      attached := rfl
      veiled := fun _ => ⟨by simp [Page.destroy, Page.clear, options, reset, modifyState], rfl⟩ }⟩
  | settle number result => exact ⟨_, _, h.settles hcoherent number result⟩

theorem shows_run {isHidden isAttached : Bool} (h : Shows fresh isHidden isAttached page)
    (hcoherent : Coherent fresh (view page)) {events : List Event}
    (hloads : LoadsFollowClears fresh events)
    (hopens : Runs.Along step OpensInView page events)
    : ∃ fresh' isHidden' isAttached', Shows fresh' isHidden' isAttached' (run page events)
      ∧ Coherent fresh' (view (run page events)) := by
  induction events generalizing fresh isHidden isAttached page with
  | nil => exact ⟨_, _, _, h, hcoherent⟩
  | cons event events ih =>
    rcases shows_step h hcoherent hloads.1 hopens.1 with ⟨isHidden', isAttached', hstep⟩
    exact ih hstep (coherent_step hcoherent hloads.1) hloads.2 hopens.2

theorem shows_mount (now : Nat) : Shows true false true (mount now) where
  hidden := rfl
  attached := rfl
  past hwaiting := by cases hwaiting
  fresh _ := ⟨rfl, rfl⟩
  loading hcurrent := by cases hcurrent.1
  shown hsome := by cases hsome
  kept _ := ⟨rfl, rfl⟩
  tracked := by simp [Trace.Tracked, mount]
  veiled hveiled := by simp at hveiled

end

-- The session of a reader that has shown content: only another load can show some again.
structure Spent (isGone : Bool) (page : ReaderPage) : Prop where
  past : ∀ {number continuation}, page.host.promises.waiting number = some continuation
    → continuation.ticket.generation ≤ page.session.generation
  phase : page.host.state.phase ≠ .ready
  idle : (view page).Idle
  gone : isGone = true → page.host.state.content = none

namespace Spent

variable {isGone : Bool} {page page' : ReaderPage} {ticket : Ticket}

theorem same (h : Spent isGone page) (hgeneration : page'.session.generation = page.session.generation)
    (hpromises : page'.host.promises = page.host.promises)
    (hcontent : page'.host.state.content = page.host.state.content)
    (hphase : page'.host.state.phase = page.host.state.phase) : Spent isGone page' where
  past := by
    rw [hpromises, hgeneration]
    exact h.past
  phase := by
    rw [hphase]
    exact h.phase
  idle := by
    rintro number continuation ⟨hwaiting, hticket⟩
    have hwaiting : page'.host.promises.waiting number = some continuation := hwaiting
    rw [hpromises] at hwaiting
    exact h.idle number continuation ⟨hwaiting, hticket.trans hgeneration⟩
  gone := by
    rw [hcontent]
    exact h.gone

theorem invariant (isGone : Bool) : options.Invariant (Spent isGone) where
  clear reason h := {
    past := fun hwaiting => Nat.le_succ_of_le (h.past hwaiting)
    phase := by simp [Page.clear, options, reset, modifyState]
    idle := by
      rintro number continuation ⟨hwaiting, hgeneration⟩
      have hpast := h.past hwaiting
      have hnext : continuation.ticket.generation = _ + 1 := hgeneration
      omega
    gone := fun _ => rfl }
  ambient _ _ _ _ h := h.same rfl rfl rfl rfl
  schedule _ _ h := h.same rfl rfl rfl rfl
  warning _ h := h.same rfl rfl rfl rfl
  clock _ h := h.same rfl rfl rfl rfl

theorem openNote (h : Spent isGone page) : Spent isGone (Reader.openNote page) := by
  unfold Reader.openNote
  split
  . next hexpire => exact (invariant isGone).expire h hexpire
  . next hexpire =>
    rcases Page.expire_eq_false hexpire with ⟨rfl, -⟩
    rw [if_pos (by simp [h.phase])]
    exact h

theorem copyText (h : Spent isGone page) : Spent isGone (Reader.copyText page) := by
  unfold Reader.copyText
  split
  . next hexpire => exact (invariant isGone).expire h hexpire
  . next hexpire =>
    have hlive := (invariant isGone).expire h hexpire
    split
    . exact hlive
    . have hticketed := (invariant isGone).ticket hlive
      exact {
        past := fun hwaiting => by
          rcases Promises.waiting_suspend.mp hwaiting with ⟨-, rfl⟩ | ⟨-, hwaiting⟩
          . exact Nat.le_refl _
          . exact hticketed.past hwaiting
        phase := hticketed.phase
        idle := by
          rintro number continuation ⟨hwaiting, hgeneration⟩
          rcases Promises.waiting_suspend.mp hwaiting with ⟨-, rfl⟩ | ⟨-, hwaiting⟩
          . exact ⟨rfl, rfl⟩
          . exact hticketed.idle number continuation ⟨hwaiting, hgeneration⟩
        gone := hticketed.gone }

theorem download (h : Spent isGone page) (index : Nat) : Spent isGone (Reader.download index page) := by
  unfold Reader.download
  split
  . next hexpire => exact (invariant isGone).expire h hexpire
  . next hexpire =>
    have hlive := (invariant isGone).expire h hexpire
    split
    . exact hlive
    . exact hlive.same rfl rfl rfl rfl

theorem downloadText (h : Spent isGone page) : Spent isGone (Reader.downloadText page) := by
  unfold Reader.downloadText
  split
  . next hexpire => exact (invariant isGone).expire h hexpire
  . next hexpire =>
    have hlive := (invariant isGone).expire h hexpire
    split
    . exact hlive
    . exact hlive.same rfl rfl rfl rfl

theorem releaseUrl (h : Spent isGone page) (index : Nat)
    : Spent isGone (Reader.releaseUrl index page) := by
  unfold Reader.releaseUrl
  split
  . exact h
  . split
    . exact h
    . exact h.same rfl rfl rfl rfl

theorem copied (h : Spent isGone page) (message : String)
    : Spent isGone (Reader.copied ticket message page) := by
  unfold Reader.copied
  split
  . next hvalid => exact (invariant isGone).valid h hvalid
  . next hvalid => exact ((invariant isGone).valid h hvalid).same rfl rfl rfl rfl

-- Only a copy can go on: every load and every opening that waits is stale.
theorem settles (h : Spent isGone page) (number : Nat) (result : Result)
    : Spent isGone (step page (.settle number result)) := by
  cases hbound : (page.host.promises.waiting number).bind fun continuation => resume? continuation result with
  | none =>
    rw [step_settle_none hbound]
    exact h.same rfl rfl rfl rfl
  | some resume =>
    rcases Option.bind_eq_some_iff.mp hbound with ⟨continuation, hwaiting, hresume⟩
    have hsettled : Spent isGone (settledPage number result page) := {
      past := fun hother => h.past (Promises.waiting_settle.mp hother).2
      phase := h.phase
      idle := fun other suspended hother =>
        h.idle other suspended ⟨(Promises.waiting_settle.mp hother.1).2, hother.2⟩
      gone := h.gone }
    rw [step_settle hwaiting hresume]
    by_cases hgeneration : continuation.ticket.generation = page.session.generation
    . rcases h.idle number continuation ⟨hwaiting, hgeneration⟩ with ⟨hload, hopen⟩
      cases continuation with
      | copyText ticket =>
        cases result with
        | copied =>
          cases hresume
          exact hsettled.copied _
        | rejected error =>
          cases hresume
          exact hsettled.copied _
        | _ => cases hresume
      | openAccess ticket => cases hopen
      | openPacket ticket => cases hopen
      | openContent ticket => cases hopen
      | _ => cases hload
    . have hstale : (settledPage number result page).valid options continuation.ticket
          = (false, settledPage number result page) := Page.valid_of_stale hgeneration
      rw [Reader.resume_invalid hresume hstale hgeneration, Page.foldl_emit]
      exact hsettled.same rfl rfl rfl rfl

theorem step (h : Spent isGone page) {event : Event} (hload : ∀ url, event ≠ .load url)
    : Spent isGone (Reader.step page event) := by
  have hemitted : Spent isGone (page.emit (.event event)) := h.same rfl rfl rfl rfl
  have hinvariant := invariant isGone
  unfold Reader.step handle
  cases event with
  | tick elapsed => exact hinvariant.ambient _ _ _ _ hemitted
  | timer => exact hinvariant.fire hemitted
  | urlTimer index => exact hemitted.releaseUrl index
  | activity isTrusted => exact hinvariant.activity hemitted isTrusted
  | microtask index => exact hinvariant.microtask hemitted index
  | keep isTrusted => exact hinvariant.keep hemitted isTrusted
  | visibility hidden => exact hinvariant.visibility hemitted hidden
  | pagehide => exact hinvariant.leave hemitted
  | pageshow persisted => exact hinvariant.restore hemitted persisted
  | passphrase value => exact hemitted.same rfl rfl rfl rfl
  | load url => exact absurd rfl (hload url)
  | openNote => exact hemitted.openNote
  | copyText => exact hemitted.copyText
  | download index => exact hemitted.download index
  | downloadText => exact hemitted.downloadText
  | clear => exact hinvariant.clear _ hemitted
  | destroy => exact hinvariant.destroy hemitted
  | settle number result => exact h.settles number result

theorem run (h : Spent isGone page) {events : List Event}
    (hloads : ∀ event ∈ events, ∀ url, event ≠ .load url) : Spent isGone (Reader.run page events) := by
  induction events generalizing page with
  | nil => exact h
  | cons event events ih =>
    apply ih (h.step (hloads event List.mem_cons_self))
    exact fun other hother => hloads other (List.mem_cons_of_mem event hother)

end Spent

-- Nothing of a decrypted package is left on the page.
structure Concealed (page : ReaderPage) : Prop where
  content : page.host.state.content = none
  unopened : ∀ number continuation, page.host.promises.waiting number = some continuation
    → continuation.isOpen = true → continuation.ticket.generation ≠ page.session.generation
  unregistered : page.host.urls.urls = [] ∧ page.host.urls.timers = []
  revoked : ∀ before after generation url data,
    page.trace = before ++ (generation, .createObjectUrl url data) :: after
      → ∃ later, (later, .revokeObjectUrl url) ∈ after

theorem Shows.concealed {fresh isAttached : Bool} {page : ReaderPage}
    (h : Shows fresh true isAttached page)
    (hcoherent : Coherent fresh (view page)) : Concealed page := by
  rcases h.veiled (.inl rfl) with ⟨hphase, hbusy⟩
  have hempty : page.host.state.content = none := by
    rw [← Option.not_isSome_iff_eq_none]
    exact fun hsome => hphase (h.shown hsome).1
  exact {
    content := hempty
    unopened := by
      intro number continuation hwaiting hkind hgeneration
      cases hbusy.symm.trans (hcoherent.opening number continuation ⟨hwaiting, hgeneration⟩ hkind)
    unregistered := h.kept hempty
    revoked := by
      intro before after generation url data hsplit
      apply (h.tracked before after generation url data hsplit).resolve_left
      rw [(h.kept hempty).1]
      exact List.not_mem_nil }

theorem hidden_shows_nothing (now : Nat) {events : List Event} (hloads : LoadsFollowClears true events)
    (hopens : Runs.Along step OpensInView (mount now) events)
    : ((run (mount now) events).hidden = true → Concealed (run (mount now) events))
      ∧ ∀ between after, (run (mount now) events).host.state.content.isSome = true
        → (∀ event ∈ between ++ after, ∀ url, event ≠ .load url)
        → (run (mount now) (events ++ between)).host.state.content = none
        → (run (mount now) (events ++ between ++ after)).host.state.content = none := by
  rcases shows_run (shows_mount now) (coherent_mount now) hloads hopens
    with ⟨fresh, isHidden, isAttached, hshows, hcoherent⟩
  constructor
  . intro hhidden
    cases hshows.hidden.symm.trans hhidden
    exact hshows.concealed hcoherent
  . intro between after hsome hloads' hnone
    rcases hshows.shown hsome with ⟨hphase, hidle⟩
    have hspent : Spent false (run (mount now) events) := {
      past := hshows.past
      phase := by simp [hphase]
      idle := hidle
      gone := fun hgone => by cases hgone }
    have hbetween := hspent.run fun event hmem => hloads' event (List.mem_append_left _ hmem)
    have hgone : Spent true (run (run (mount now) events) between) := { hbetween with
      gone := fun _ => by
        rw [← hnone, run, run, run, List.foldl_append] }
    have hafter := hgone.run fun event hmem => hloads' event (List.mem_append_right between hmem)
    rw [run, List.foldl_append, List.foldl_append]
    exact hafter.gone rfl

def exampleShown : List Event := exampleLoaded ++ [
  .passphrase [69],
  .openNote,
  .settle 3 (.access [70]),
  .settle 4 (.packet [71]),
  .settle 5 (.content { text := [72], files := [] })]

theorem hidden_shows_nothing_exampleShown
    : Concealed (run (mount 0) (exampleShown ++ [.downloadText, .visibility true])) := by
  have hloads : LoadsFollowClears true (exampleShown ++ [.downloadText, .visibility true]) := by
    simp [exampleShown, exampleLoaded, LoadsFollowClears]
  have hopens : Runs.Along step OpensInView (mount 0) (exampleShown ++ [.downloadText, .visibility true]) := by
    refine ⟨?_, ?_, ?_, ?_, ?_, ?_, ?_, ?_, ?_, ?_, ?_, trivial⟩
    all_goals exact fun _ => ⟨rfl, rfl⟩
  exact (hidden_shows_nothing 0 hloads hopens).1 rfl

-- A load over shown content gives up the phase that a change of visibility looks for.
theorem not_concealed_load
    : ¬∀ events, Runs.Along step OpensInView (mount 0) events → (run (mount 0) events).hidden = true
      → (run (mount 0) events).host.state.content = none := by
  intro h
  have hopens : Runs.Along step OpensInView (mount 0) (exampleShown ++ [.load [35], .visibility true]) := by
    refine ⟨?_, ?_, ?_, ?_, ?_, ?_, ?_, ?_, ?_, ?_, ?_, trivial⟩
    all_goals exact fun _ => ⟨rfl, rfl⟩
  cases h _ hopens rfl

end Web
