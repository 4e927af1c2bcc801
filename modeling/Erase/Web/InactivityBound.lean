import Erase.Web.ComposerInactivity
import Erase.Web.ReaderInactivity

/-!
The inactivity bound over every run of a composer, and of a reader from its first load on.
-/

namespace Web

variable {σ ε α : Type}

def Watch.perform (handle : Page σ ε → α → Page σ ε) (session : SessionEvent → α) (isAction : α → Bool)
    (watch : Watch σ ε) (task : TabTask α) : Watch σ ε :=
  watch.run handle isAction (task.events session)

theorem Watch.perform_page {handle : Page σ ε → α → Page σ ε} {session : SessionEvent → α}
    {isAction : α → Bool} {watch : Watch σ ε} {task : TabTask α}
    : (watch.perform handle session isAction task).page = (task.events session).foldl handle watch.page :=
  run_page handle isAction watch _

-- Of the handlers that run between two tasks, only those of a user action move the deadline later.
structure Rests (options : Options σ ε) (handle : Page σ ε → α → Page σ ε) (isPlain isAction : α → Bool)
    (empty : σ → Prop) (watch : Watch σ ε) : Prop extends Bounded options watch where
  no_later : ∀ event, isPlain event = true → isAction event = false
    → (handle watch.page event).session.deadline ≤ watch.page.session.deadline
  emptied : (∀ due, watch.page.session.timer = some due → watch.page.now < due)
    → watch.action + 300000 ≤ watch.page.now → empty watch.page.host

theorem Settled.rests {options : Options σ ε} {handle : Page σ ε → α → Page σ ε}
    {isPlain isAction : α → Bool}
    {empty : σ → Prop} {watch : Watch σ ε} (h : Settled options true watch)
    (hempty : ∀ host, options.hasData host = false → empty host)
    (hevent : ∀ event, isPlain event = true → ∀ limit, Covered options true watch.page limit watch.page
      → (isAction event = true → watch.page.now + 300000 ≤ limit)
      → Covered options true watch.page limit (handle watch.page event))
    : Rests options handle isPlain isAction empty watch where
  toBounded := h.bounded
  no_later event hplain hpassive := h.no_later (hevent event hplain) hpassive
  emptied hrun hlate := hempty _ (h.bounded.cleared hrun hlate)

-- No deadline, and no check on its way.
structure Vacant (page : Page σ ε) : Prop where
  deadline : page.session.deadline = 0
  microtasks : page.microtasks = []

section

variable {options : Options σ ε} {handle : Page σ ε → α → Page σ ε} {session : SessionEvent → α}
variable {isAction binds blank : α → Bool} {page : Page σ ε} {binding : α}

theorem Vacant.bind (hcontrols : Controls options handle session isAction binds blank) (h : Vacant page)
    (hbinds : binds binding = true) : Vacant (handle page binding) := by
  rcases hcontrols.bind page binding hbinds with ⟨entry, f, hhandle, -⟩
  rw [hhandle]
  exact ⟨h.deadline, h.microtasks⟩

theorem Vacant.tick (hcontrols : Controls options handle session isAction binds blank) (h : Vacant page)
    (elapsed : Nat) : Vacant (handle page (session (.tick elapsed)))
      ∧ (handle page (session (.tick elapsed))).host = page.host := by
  rcases hcontrols.dispatch page (.tick elapsed) with ⟨entry, hhandle⟩
  rw [hhandle]
  exact ⟨⟨h.deadline, h.microtasks⟩, rfl⟩

theorem Vacant.microtask (hcontrols : Controls options handle session isAction binds blank)
    (h : Vacant page) : Vacant (handle page (session (.microtask 0)))
      ∧ (handle page (session (.microtask 0))).host = page.host := by
  rcases hcontrols.dispatch page (.microtask 0) with ⟨entry, hhandle⟩
  have hsame : (page.emit entry).microtask options 0 = page.emit entry := by
    have hnone : (page.emit entry).microtasks = [] := h.microtasks
    unfold Page.microtask
    rw [hnone]
    rfl
  have hhandle : handle page (session (.microtask 0)) = (page.emit entry).microtask options 0 := hhandle
  rw [hhandle, hsame]
  exact ⟨⟨h.deadline, h.microtasks⟩, rfl⟩

-- A listener that expires the session leaves its microtask nothing to check.
theorem vacant_activity (hcontrols : Controls options handle session isAction binds blank)
    (hattached : page.attached = true) (hvisible : page.hidden = false) (hmicrotasks : page.microtasks = [])
    (hexpired : ¬page.Live) : Vacant (handle page (session (.activity true))) := by
  rcases hcontrols.dispatch page (.activity true) with ⟨entry, hhandle⟩
  have hhandle : handle page (session (.activity true)) = (page.emit entry).activity options true := hhandle
  have hattached : (page.emit entry).attached = true := hattached
  have hvisible : (page.emit entry).hidden = false := hvisible
  have hexpired : ¬(page.emit entry).Live := hexpired
  rw [Page.activity_of_expired hattached hvisible hexpired] at hhandle
  rw [hhandle]
  exact ⟨rfl, hmicrotasks⟩

-- Nor does its microtask arm the session before there is data.
theorem vacant_listen (hcontrols : Controls options handle session isAction binds blank)
    (hattached : page.attached = true) (hvisible : page.hidden = false) (hmicrotasks : page.microtasks = [])
    (hlive : page.Live) (hdata : options.hasData page.host = false)
    : Vacant (handle (handle page (session (.activity true))) (session (.microtask 0))) := by
  rcases hcontrols.dispatch page (.activity true) with ⟨entry, hactivity⟩
  have hactivity : handle page (session (.activity true)) = (page.emit entry).activity options true :=
    hactivity
  have hattached : (page.emit entry).attached = true := hattached
  have hvisible : (page.emit entry).hidden = false := hvisible
  have hlive : (page.emit entry).Live := hlive
  have hdata : options.hasData (page.emit entry).host = false := hdata
  have hmicrotasks : (page.emit entry).microtasks = [] := hmicrotasks
  rw [Page.activity_of_live hattached hvisible hlive, Page.touch_of_no_data hdata, hmicrotasks] at hactivity
  rcases hcontrols.dispatch (handle page (session (.activity true))) (.microtask 0) with ⟨entry', hhandle⟩
  have hhandle : handle (handle page (session (.activity true))) (session (.microtask 0))
      = ((handle page (session (.activity true))).emit entry').microtask options 0 := hhandle
  rw [hhandle, hactivity, Page.microtask_of_live, Page.touch_of_no_data]
  . exact ⟨rfl, rfl⟩
  . exact (hcontrols.sensitive.clock _ _).trans ((hcontrols.sensitive.warning _ _).trans hdata)
  . rfl
  . exact hvisible
  . exact fun hexpired => hexpired.1 rfl

-- Data that comes any later stays without a deadline.
theorem Settled.unbounded_input {started : Bool} {watch : Watch σ ε}
    (hcontrols : Controls options handle session isAction binds blank) (h : Settled options started watch)
    (hattached : watch.page.attached = true) (hvisible : watch.page.hidden = false)
    (hbinds : binds binding = true)
    (hfills : blank binding = false → ∀ page, options.hasData (handle page binding).host = true)
    {order : BindingOrder} {elapsed : Nat}
    (hlate : ¬Prompt options blank watch.page (.input order binding elapsed))
    : ¬Bounded options (watch.perform handle session isAction (.input order binding elapsed)) := by
  intro hbounded
  have hexposed : Vacant (watch.perform handle session isAction (.input order binding elapsed)).page
      ∧ options.hasData (watch.perform handle session isAction (.input order binding elapsed)).page.host
        = true := by
    have hnonblank : blank binding = false := by
      cases hblank : blank binding with
      | false => rfl
      | true => exact absurd (.inr (.inl hblank)) hlate
    have hpresent := hfills hnonblank
    rw [Watch.perform_page]
    cases order with
    | before => exact absurd (.inl rfl) hlate
    | between =>
      have hexpired : ¬watch.page.Live := fun hlive => hlate (.inr (.inr ⟨hlive, .inl rfl⟩))
      have hvacant := (vacant_activity hcontrols hattached hvisible h.microtasks hexpired).bind hcontrols hbinds
      rcases hvacant.tick hcontrols elapsed with ⟨hticked, hhost⟩
      rcases hticked.microtask hcontrols with ⟨hchecked, hhost'⟩
      refine ⟨hchecked, ?_⟩
      exact (congrArg options.hasData (hhost'.trans hhost)).trans (hpresent _)
    | after =>
      have hvacant : Vacant (handle (handle watch.page (session (.activity true))) (session (.microtask 0))) := by
        by_cases hlive : watch.page.Live
        . cases hdata : options.hasData watch.page.host with
          | false => exact vacant_listen hcontrols hattached hvisible h.microtasks hlive hdata
          | true => exact absurd (.inr (.inr ⟨hlive, .inr hdata⟩)) hlate
        . have hcleared := vacant_activity hcontrols hattached hvisible h.microtasks hlive
          exact (hcleared.microtask hcontrols).1
      have hbound := (hvacant.tick hcontrols elapsed).1.bind hcontrols hbinds
      exact ⟨hbound, hpresent _⟩
  have harmed := (hbounded.armed hexposed.2).1
  have hdeadline := hexposed.1.deadline
  omega

theorem Settled.unbounded {started : Bool} {watch : Watch σ ε} {isPlain : α → Bool} {task : TabTask α}
    (hcontrols : Controls options handle session isAction binds blank) (h : Settled options started watch)
    (hfills : ∀ binding, binds binding = true → blank binding = false
      → ∀ page, options.hasData (handle page binding).host = true)
    (hoccurs : Occurs binds isPlain watch.page task) (hlate : ¬Prompt options blank watch.page task)
    : ¬Bounded options (watch.perform handle session isAction task) := by
  cases task with
  | wait elapsed => exact absurd trivial hlate
  | event event => exact absurd trivial hlate
  | activity isTrusted elapsed => exact absurd trivial hlate
  | input order binding elapsed =>
    rcases hoccurs with ⟨hbinds, hattached, hvisible⟩
    exact h.unbounded_input hcontrols hattached hvisible hbinds (hfills binding hbinds) hlate

end

namespace Composer

def perform : Watch Composer Entry → TabTask Event → Watch Composer Entry :=
  Watch.perform step Event.session Event.isAction

def Performed (watch : Watch Composer Entry) (task : TabTask Event) : Prop :=
  Occurs Event.binds Event.isPlain watch.page task

def Timely (watch : Watch Composer Entry) (task : TabTask Event) : Prop :=
  Prompt options Event.blank watch.page task

theorem hasData_binds (binding : Event) (hbinds : binding.binds = true) (hblank : binding.blank = false)
    (page : ComposerPage) : options.hasData (step page binding).host = true := by
  cases binding with
  | text value => exact hasData_iff.mpr (.inl (of_decide_eq_false hblank))
  | passphrase value => exact hasData_iff.mpr (.inr (.inr (.inl (of_decide_eq_false hblank))))
  | _ => cases hbinds

def Empty (composer : Composer) : Prop :=
  composer.state.text = [] ∧ composer.state.files = [] ∧ composer.state.passphrase = []
    ∧ composer.state.link = []

theorem empty_of_no_data (composer : Composer) (h : options.hasData composer = false)
    : Empty composer := by
  have hnone := Bool.eq_false_iff.mp h
  rw [ne_eq, hasData_iff] at hnone
  simp only [not_or, not_not] at hnone
  rcases hnone with ⟨htext, hfiles, hpassphrase, hlink, -⟩
  exact ⟨htext, hfiles, hpassphrase, hlink⟩

section

variable {origin : JsString} {watch : Watch Composer Entry} {task : TabTask Event}

theorem settled_perform (hcoherent : Coherent origin watch.page) (h : Settled options true watch)
    (hperformed : Performed watch task) (htimely : Timely watch task)
    : Coherent origin (perform watch task).page ∧ Settled options true (perform watch task) := by
  constructor
  . unfold perform
    rw [Watch.perform_page]
    exact hcoherent.run _
  . apply h.task controls hperformed
    . exact fun _ => htimely
    . intro event _ hplain
      apply h.event_task
      intro limit hcovered hlimit
      exact covered_step hcoherent hcovered hplain hlimit

theorem rests_of_settled (hcoherent : Coherent origin watch.page) (h : Settled options true watch)
    : Rests options step Event.isPlain Event.isAction Empty watch := by
  apply h.rests empty_of_no_data
  intro event hplain limit hcovered hlimit
  exact covered_step hcoherent hcovered hplain hlimit

theorem settled_mount (origin : JsString) (now : Nat)
    : Coherent origin (mount origin now) ∧ Settled options true (.start (mount origin now)) := by
  refine ⟨coherent_mount origin now, ?_⟩
  apply Settled.start
  . rfl
  . rfl
  . exact fun _ => rfl

theorem timely_iff {tasks : List (TabTask Event)} (hcoherent : Coherent origin watch.page)
    (h : Settled options true watch) (hperformed : Runs.Along perform Performed watch tasks)
    : Runs.Along perform Timely watch tasks
        ↔ ∀ earlier, earlier <+: tasks
          → Rests options step Event.isPlain Event.isAction Empty (earlier.foldl perform watch) := by
  apply Runs.along_iff (I := fun watch tasks => Coherent origin watch.page ∧ Settled options true watch
    ∧ Runs.Along perform Performed watch tasks)
  . rintro watch task tasks ⟨hcoherent, h, hperformed⟩ htimely
    rcases settled_perform hcoherent h hperformed.1 htimely with ⟨hcoherent', h'⟩
    exact ⟨hcoherent', h', hperformed.2⟩
  . rintro watch task tasks ⟨-, h, hperformed⟩ hlate hrests
    exact h.unbounded controls hasData_binds hperformed.1 hlate hrests.toBounded
  . rintro watch tasks ⟨hcoherent, h, -⟩
    exact rests_of_settled hcoherent h
  . exact ⟨hcoherent, h, hperformed⟩

end

end Composer

open Reader

theorem loadsFollowClears_append {fresh : Bool} {earlier later : List Event}
    : LoadsFollowClears fresh (earlier ++ later)
        ↔ LoadsFollowClears fresh earlier ∧ LoadsFollowClears (earlier.foldl Event.fresh fresh) later := by
  induction earlier generalizing fresh with
  | nil => simp [LoadsFollowClears]
  | cons event events ih => simp [LoadsFollowClears, ih, and_assoc]

theorem loads_mount (now : Nat) : Loads (mount now) := by
  intro number continuation hwaiting
  cases hwaiting

def Reader.perform : Watch Reader Entry → TabTask Event → Watch Reader Entry :=
  Watch.perform step Event.ofSession Event.isAction

def Reader.Performed (watch : Watch Reader Entry) (task : TabTask Event) : Prop :=
  Occurs Event.binds Event.isPlain watch.page task

def Reader.Timely (watch : Watch Reader Entry) (task : TabTask Event) : Prop :=
  Prompt options Event.blank watch.page task

theorem Reader.hasData_binds (binding : Event) (hbinds : binding.binds = true)
    (hblank : binding.blank = false) (page : ReaderPage) : options.hasData (step page binding).host = true := by
  cases binding with
  | passphrase value => exact hasData_iff.mpr (.inr (.inl (of_decide_eq_false hblank)))
  | _ => cases hbinds

def Reader.Empty (reader : Reader) : Prop :=
  reader.id = [] ∧ reader.state.passphrase = [] ∧ reader.state.content = none

theorem Reader.empty_of_no_data (reader : Reader) (h : options.hasData reader = false)
    : Empty reader := by
  have hnone := Bool.eq_false_iff.mp h
  rw [ne_eq, hasData_iff] at hnone
  simp only [not_or, not_not, Bool.not_eq_true, Option.isSome_eq_false_iff, Option.isNone_iff_eq_none] at hnone
  rcases hnone with ⟨hid, hpassphrase, hcontent, -, -⟩
  exact ⟨hid, hpassphrase, hcontent⟩

def loading (url : JsString) : TabTask Event := .event (.load url)

-- What holds of a reader whether it has loaded or not.
structure Steady (fresh started : Bool) (watch : Watch Reader Entry) : Prop where
  coherent : Coherent fresh (view watch.page)
  loads : Loads watch.page
  settled : Settled options started watch

section

variable {started fresh : Bool} {watch : Watch Reader Entry} {task : TabTask Event}

theorem loads_run {page : ReaderPage} {events : List Event} (hcoherent : Coherent fresh (view page))
    (h : Loads page) (hfollow : LoadsFollowClears fresh events)
    : Coherent (events.foldl Event.fresh fresh) (view (events.foldl step page))
        ∧ Loads (events.foldl step page) := by
  induction events generalizing fresh page with
  | nil => exact ⟨hcoherent, h⟩
  | cons event events ih =>
    exact ih (coherent_step hcoherent hfollow.1) (loads_step hcoherent h hfollow.1) hfollow.2

theorem Steady.load (h : Steady true false watch) (url : JsString)
    : Steady false true (perform watch (loading url)) := by
  have hload : ∀ other, Event.load url = .load other → true = true := fun _ _ => rfl
  constructor
  . exact coherent_step h.coherent hload
  . exact loads_step h.coherent h.loads hload
  . apply h.settled.event_task
    intro limit hcovered hlimit
    exact covered_step h.coherent h.loads hcovered rfl hlimit

theorem Steady.perform (h : Steady fresh started watch) (hperformed : Performed watch task)
    (hprompt : started = true → Prompt options Event.blank watch.page task)
    (hfollow : LoadsFollowClears fresh (task.events Event.ofSession))
    : Steady ((task.events Event.ofSession).foldl Event.fresh fresh) started (perform watch task) := by
  have hpage : (Reader.perform watch task).page = (task.events Event.ofSession).foldl step watch.page :=
    Watch.perform_page
  rcases loads_run h.coherent h.loads hfollow with ⟨hcoherent, hloads⟩
  constructor
  . rw [hpage]
    exact hcoherent
  . rw [hpage]
    exact hloads
  . apply h.settled.task Reader.controls hperformed hprompt
    intro event _ hplain
    have hstarted : Settled options (started || event.loads) (watch.step step Event.isAction event) := by
      apply h.settled.event_task
      intro limit hcovered hlimit
      exact covered_step h.coherent h.loads hcovered hplain hlimit
    cases started with
    | true => exact hstarted
    | false => exact hstarted.weaken

-- Before it has loaded.
theorem Steady.run {tasks : List (TabTask Event)} (h : Steady fresh false watch)
    (hperformed : Runs.Along Reader.perform Performed watch tasks)
    (hfollow : LoadsFollowClears fresh (tasks.flatMap (TabTask.events Event.ofSession)))
    : Steady ((tasks.flatMap (TabTask.events Event.ofSession)).foldl Event.fresh fresh) false
        (tasks.foldl Reader.perform watch) := by
  induction tasks generalizing fresh watch with
  | nil => exact h
  | cons task tasks ih =>
    rw [List.flatMap_cons] at hfollow ⊢
    rw [List.foldl_append]
    rcases loadsFollowClears_append.mp hfollow with ⟨hnow, hlater⟩
    exact ih (h.perform hperformed.1 nofun hnow) hperformed.2 hlater

theorem Steady.rests (h : Steady fresh true watch)
    : Rests options step Event.isPlain Event.isAction Reader.Empty watch := by
  apply h.settled.rests Reader.empty_of_no_data
  intro event hplain limit hcovered hlimit
  exact covered_step h.coherent h.loads hcovered hplain hlimit

theorem Steady.timely_iff {tasks : List (TabTask Event)} (h : Steady fresh true watch)
    (hperformed : Runs.Along Reader.perform Performed watch tasks)
    (hfollow : LoadsFollowClears fresh (tasks.flatMap (TabTask.events Event.ofSession)))
    : Runs.Along Reader.perform Timely watch tasks
        ↔ ∀ earlier, earlier <+: tasks
          → Rests options step Event.isPlain Event.isAction Reader.Empty (earlier.foldl Reader.perform watch) := by
  apply Runs.along_iff (I := fun watch tasks => ∃ fresh, Steady fresh true watch
    ∧ Runs.Along Reader.perform Performed watch tasks
    ∧ LoadsFollowClears fresh (tasks.flatMap (TabTask.events Event.ofSession)))
  . rintro watch task tasks ⟨fresh, h, hperformed, hfollow⟩ htimely
    rw [List.flatMap_cons] at hfollow
    rcases loadsFollowClears_append.mp hfollow with ⟨hnow, hlater⟩
    exact ⟨_, h.perform hperformed.1 (fun _ => htimely) hnow, hperformed.2, hlater⟩
  . rintro watch task tasks ⟨fresh, h, hperformed, -⟩ hlate hrests
    exact h.settled.unbounded Reader.controls Reader.hasData_binds hperformed.1 hlate hrests.toBounded
  . rintro watch tasks ⟨fresh, h, -, -⟩
    exact h.rests
  . exact ⟨fresh, h, hperformed, hfollow⟩

theorem steady_mount (now : Nat) : Steady true false (.start (mount now)) where
  coherent := coherent_mount now
  loads := loads_mount now
  settled := by
    apply Settled.start
    . rfl
    . rfl
    . nofun

end

/--
Between two tasks of a tab, the data of a composer, and of a reader once it loads, has a deadline ahead of
it and a timer for as long as every input is met in time, and no longer.
-/
theorem inactivity_bound (origin : JsString) (now : Nat)
    : (∀ tasks : List (TabTask Composer.Event),
        Runs.Along Composer.perform Composer.Performed (.start (Composer.mount origin now)) tasks
          → (Runs.Along Composer.perform Composer.Timely (.start (Composer.mount origin now)) tasks
            ↔ ∀ earlier, earlier <+: tasks
              → Rests Composer.options Composer.step Composer.Event.isPlain Composer.Event.isAction Composer.Empty
                  (earlier.foldl Composer.perform (.start (Composer.mount origin now)))))
      ∧ ∀ (before after : List (TabTask Event)) (url : JsString),
        Runs.Along Reader.perform Performed (.start (mount now)) (before ++ loading url :: after)
          → LoadsFollowClears true
              ((before ++ loading url :: after).flatMap (TabTask.events Event.ofSession))
          → (Runs.Along Reader.perform Timely
              ((before ++ [loading url]).foldl Reader.perform (.start (mount now))) after
            ↔ ∀ earlier, earlier <+: after
              → Rests options step Event.isPlain Event.isAction Reader.Empty
                  (earlier.foldl Reader.perform
                    ((before ++ [loading url]).foldl Reader.perform (.start (mount now))))) := by
  constructor
  . intro tasks hperformed
    rcases Composer.settled_mount origin now with ⟨hcoherent, hsettled⟩
    exact Composer.timely_iff hcoherent hsettled hperformed
  . intro before after url hperformed hfollow
    rw [Runs.along_append] at hperformed
    rw [List.flatMap_append, loadsFollowClears_append] at hfollow
    rcases hperformed with ⟨hbefore, -, hafter⟩
    rcases hfollow with ⟨hfollow, hload, hlater⟩
    have hsteady := (steady_mount now).run hbefore hfollow
    rw [hload url rfl] at hsteady
    rw [List.foldl_append]
    exact (hsteady.load url).timely_iff hafter hlater

def exampleTyped : List (TabTask Composer.Event) := [
  .event .init,
  .input .between (.text [65]) 5,
  .wait 200000,
  .input .between (.passphrase [66]) 0,
  .wait 1000,
  .event (.session .timer)]

def exampleOpened : List (TabTask Event) := [
  .event (.settle 0 (.link [65] [66])),
  .input .before (.passphrase [67]) 0]

theorem inactivity_bound_exampleTyped
    : Rests Composer.options Composer.step Composer.Event.isPlain Composer.Event.isAction Composer.Empty
        (exampleTyped.foldl Composer.perform (.start (Composer.mount [] 0)))
      ∧ Rests options step Event.isPlain Event.isAction Reader.Empty
        (exampleOpened.foldl Reader.perform (([] ++ [loading [35]]).foldl Reader.perform (.start (mount 0)))) := by
  constructor
  . have hperformed : Runs.Along Composer.perform Composer.Performed (.start (Composer.mount [] 0))
        exampleTyped :=
      ⟨rfl, ⟨rfl, rfl, rfl⟩, trivial, ⟨rfl, rfl, rfl⟩, trivial, rfl, trivial⟩
    apply ((inactivity_bound [] 0).1 exampleTyped hperformed).mp _ exampleTyped List.prefix_rfl
    refine ⟨trivial, .inr (.inr ⟨?_, .inl rfl⟩), trivial, .inr (.inr ⟨?_, .inl rfl⟩), trivial, trivial, trivial⟩
    . unfold Page.Live
      decide
    . unfold Page.Live
      decide
  . have hperformed : Runs.Along Reader.perform Performed (.start (mount 0))
        ([] ++ loading [35] :: exampleOpened) :=
      ⟨rfl, rfl, ⟨rfl, rfl, rfl⟩, trivial⟩
    have hfollow : LoadsFollowClears true
        (([] ++ loading [35] :: exampleOpened).flatMap (TabTask.events Event.ofSession)) := by
      simp [exampleOpened, loading, TabTask.events, LoadsFollowClears, Event.ofSession, Event.fresh]
    apply ((inactivity_bound [] 0).2 [] exampleOpened [35] hperformed hfollow).mp _ exampleOpened List.prefix_rfl
    exact ⟨trivial, .inl rfl, trivial⟩

-- The listener expires the session and queues no check, so that the value which its binding then writes
-- stays without a deadline.
def exampleLate : List (TabTask Composer.Event) := [
  .input .before (.text [65]) 0,
  .wait 300000,
  .input .between (.text [66]) 0]

def exampleLateRun : Watch Composer Composer.Entry :=
  exampleLate.foldl Composer.perform (.start (Composer.mount [] 0))

theorem inactivity_unbounded
    : Runs.Along Composer.perform Composer.Performed (.start (Composer.mount [] 0)) exampleLate
      ∧ exampleLateRun.page.microtasks = []
      ∧ Composer.options.hasData exampleLateRun.page.host = true
      ∧ exampleLateRun.page.session.deadline = 0
      ∧ exampleLateRun.page.session.timer = none := by
  refine ⟨⟨⟨rfl, rfl, rfl⟩, trivial, ⟨rfl, rfl, rfl⟩, trivial⟩, ?_⟩
  decide

end Web
