import Erase.Web.ComposerCleared
import Erase.Web.ReaderCleared

namespace Web

-- What a clear does to the methods of a controller that wait for a promise.
structure Cleared {σ ε κ ρ α : Type} (controller : Controller σ ε κ ρ α) (page : Page σ ε) : Prop where
  stale : ∀ reason number continuation (events : List α),
    (controller.promises (page.clear controller.options reason).host).waiting number = some continuation
      → (controller.ticket continuation).generation
        ≠ (controller.run (page.clear controller.options reason) events).session.generation
  ignored : ∀ event number result continuation resume,
    controller.settlement? event = some (number, result)
      → (controller.promises page.host).waiting number = some continuation
      → controller.resume? continuation result = some resume
      → (controller.ticket continuation).generation ≠ page.session.generation
      → controller.step page event
        = (controller.fills continuation result).foldl (fun page entry => page.emit entry)
            (controller.settled number (page.emit (controller.event event)))
  dropped : ∀ events : List α,
    controller.forget (controller.late page) (controller.run page events)
      = controller.forget (controller.late page) (controller.run page
          (events.filter fun event => !controller.isLate (controller.late page) event))
  expired : ∀ event number result continuation resume,
    controller.settlement? event = some (number, result)
      → (controller.promises page.host).waiting number = some continuation
      → controller.resume? continuation result = some resume
      → (controller.ticket continuation).generation = page.session.generation
      → ¬page.Live
      → controller.step page event
        = (controller.fills continuation result).foldl (fun page entry => page.emit entry)
            ((controller.settled number (page.emit (controller.event event))).clear
              controller.options .expired)

theorem Controller.Lawful.cleared {σ ε κ ρ α : Type} {controller : Controller σ ε κ ρ α}
    {page : Page σ ε} (h : controller.Lawful) (hissued : controller.Issued 0 0 page)
    : Cleared controller page := by
  have hsettle : ∀ {event number result continuation resume},
      controller.settlement? event = some (number, result)
        → (controller.promises page.host).waiting number = some continuation
        → controller.resume? continuation result = some resume
        → controller.step page event
          = resume (controller.settled number (page.emit (controller.event event))) := by
    intro event number result continuation resume hevent hwaiting hresume
    have hbind : ((controller.promises (page.emit (controller.event event)).host).waiting number).bind
        (fun continuation => controller.resume? continuation result) = some resume :=
      Option.bind_eq_some_iff.mpr ⟨continuation, hwaiting, hresume⟩
    unfold Controller.step
    rw [h.handle_settle _ hevent]
    unfold Controller.settle
    rw [hbind]
  refine ⟨?_, ?_, h.forget_run hissued, ?_⟩
  . intro reason number continuation events hwaiting
    rw [h.promises_clear] at hwaiting
    have hpast := hissued.past number continuation hwaiting
    have hcleared : controller.Issued 0 (page.session.generation + 1)
        (page.clear controller.options reason) := by
      unfold Controller.Issued
      rw [h.promises_clear]
      exact { Issued.clear hissued with generation := Nat.le_refl _ }
    have hlater := (h.issued_run hcleared events).generation
    omega
  . intro event number result continuation resume hevent hwaiting hresume hstale
    rw [hsettle hevent hwaiting hresume]
    exact h.resume_invalid hresume (Page.valid_of_stale hstale) hstale
  . intro event number result continuation resume hevent hwaiting hresume hcurrent hexpired
    rw [hsettle hevent hwaiting hresume]
    apply h.resume_invalid hresume
    . exact Page.valid_of_expired hcurrent hexpired
    . rw [hcurrent]
      exact Nat.ne_of_lt (Nat.lt_succ_self _)

theorem issued_mount {σ ε κ ρ α : Type} {controller : Controller σ ε κ ρ α} {page : Page σ ε}
    (h : controller.promises page.host = .empty) : controller.Issued 0 0 page := by
  unfold Controller.Issued
  rw [h]
  exact {
    next := Nat.zero_le _
    generation := Nat.zero_le _
    numbered := Promises.numbered_empty
    past := fun _ _ hwaiting => by cases hwaiting }

theorem cleared_means_cleared
    : (∀ (origin : JsString) (now : Nat) (events : List Composer.Event),
        Cleared Composer.controller (Composer.run (Composer.mount origin now) events))
      ∧ (∀ (now : Nat) (events : List Event),
        Cleared Reader.controller (Reader.run (Reader.mount now) events))
      ∧ ∀ (ticket : Ticket) (content : Shared.ContentInput),
        Reader.fills (.openContent ticket) (.content content)
          = content.files.map fun file => .fill file.data := by
  refine ⟨?_, ?_, fun _ _ => rfl⟩
  . intro origin now events
    exact Composer.lawful.cleared (Composer.lawful.issued_run (issued_mount rfl) events)
  . intro now events
    exact Reader.lawful.cleared (Reader.lawful.issued_run (issued_mount rfl) events)

end Web
