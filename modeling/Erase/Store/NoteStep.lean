import Erase.Store.Transition

namespace Store

open Server Server.Lua

-- The score of a note in the expiry index is the second that the note itself carries.
def Indexed (ledger : Ledger) : Prop :=
  ∀ id note, ledger.notes id = some note → ledger.index.lookup id = some note.expires

namespace Indexed

variable {env : Environment Site} {ledger ledger' : Ledger}

theorem of_shrinks (h : Indexed ledger) (hshrinks : Shrinks ledger ledger') : Indexed ledger' := by
  intro id note hnote
  have hkept : ledger'.notes id ≠ none := by simp [hnote]
  have hsame := (hshrinks.notes id).resolve_right hkept
  rw [hshrinks.index id hkept]
  exact h id note (hsame ▸ hnote)

theorem of_accessed {id hash : Bytes} {operation : Operation} {reply : Option Reply}
    (h : Indexed ledger) (haccessed : Accessed env ledger id hash operation reply ledger')
    : Indexed ledger' := by
  cases haccessed with
  | expired _ _ hreleased => exact h.of_shrinks hreleased.shrinks
  | exhausted _ _ _ _ hreleased => exact h.of_shrinks hreleased.shrinks
  | deleted _ _ _ _ hreleased => exact h.of_shrinks hreleased.shrinks
  | openedLast _ _ _ _ hreleased => exact h.of_shrinks hreleased.shrinks
  | @opened note hnote _ _ _ _ =>
    intro other note' hnote'
    by_cases hother : other = id
    . subst hother
      simp only [Ledger.setNote, Function.update_self, Option.some.injEq] at hnote'
      rw [← hnote']
      exact h other note hnote
    . simp only [Ledger.setNote, Function.update_of_ne hother] at hnote'
      exact h other note' hnote'
  | _ => exact h

theorem of_created {args : CreateArgs} {reply : Option Reply} (h : Indexed ledger)
    (hcreated : Created env ledger args reply ledger') : Indexed ledger' := by
  cases hcreated with
  | reused => exact h
  | unproven => exact h
  | aborted _ hreaped => exact h.of_shrinks hreaped.shrinks
  | conflict _ hreaped => exact h.of_shrinks hreaped.shrinks
  | full _ hreaped => exact h.of_shrinks hreaped.shrinks
  | rolledBack hproven hreaped =>
    have hspent := hreaped.shrinks.spent ▸ hproven.unspent
    exact (h.of_shrinks hreaped.shrinks).of_shrinks (Ledger.shrinks_rolledBack _ hspent)
  | recorded _ hreaped =>
    intro id note hnote
    by_cases hid : id = args.id
    . subst hid
      simp only [Ledger.recorded, Function.update_self] at hnote ⊢
      rw [Note.eq_of_stamped hnote, Finmap.lookup_insert]
      rfl
    . simp only [Ledger.recorded, Function.update_of_ne hid] at hnote ⊢
      rw [Finmap.lookup_insert_of_ne _ hid]
      exact h.of_shrinks hreaped.shrinks id note hnote

theorem of_called {request : Request} {reply : Option Reply} (h : Indexed ledger)
    (hcalled : Called env ledger request reply ledger') : Indexed ledger' := by
  cases hcalled with
  | issue hissued => cases hissued <;> exact h
  | inspectProof => exact h
  | create hcreated => exact h.of_created hcreated
  | access haccessed => exact h.of_accessed haccessed
  | reap hswept =>
    cases hswept with
    | aborted hreaped => exact h.of_shrinks hreaped.shrinks
    | swept hreaped =>
      have hindexed := h.of_shrinks hreaped.shrinks
      exact hindexed

theorem of_transition {now : Nat} {event : Event} {answers : List Answer} (h : Indexed ledger)
    (htransition : Transition now ledger event answers ledger') : Indexed ledger' := by
  cases htransition with
  | tick => exact h
  | call hcalled => exact h.of_called hcalled
  | @expire key =>
    have hfaded := faded_expire now ledger key
    intro id note hnote
    rcases hfaded.notes id with hsame | ⟨hnone, -⟩
    . rw [hfaded.index]
      exact h id note (hsame ▸ hnote)
    . simp [hnone] at hnote

end Indexed

-- What one call does to one note.
inductive NoteStep (now : Nat) (ledger ledger' : Ledger) (id : Bytes) (answer : Answer) : Prop where
  | created (hanswer : answer.creates id = true)
  | opened {note hash} (hrequest : answer.request = .access id hash .openNote)
      (hnote : ledger.notes id = some note) (hlive : now / 1000 < note.expires)
      (hallowed : note.Authorizes .openNote hash)
      (hreply : answer.reply = some (.ok [note.packet]))
      (hafter : note.remaining = 1 ∧ ledger'.notes id = none
        ∨ 2 ≤ note.remaining
          ∧ ledger'.notes id = some { note with remaining := note.remaining - 1 })
  | deleted (hanswer : answer.deletes id = true) (hafter : ledger'.notes id = none)
  | kept (hquiet : answer.Quiet id) (hafter : ledger'.notes id = ledger.notes id)
  | dropped {note} (hquiet : answer.Quiet id) (hnote : ledger.notes id = some note)
      (hafter : ledger'.notes id = none)
      (hreason : note.expires ≤ now / 1000 ∨ note.remaining = 0 ∨ answer.reply = none)

section

variable {env : Environment Site} {ledger ledger' : Ledger} {id : Bytes}

theorem Reaped.note (hindexed : Indexed ledger) {time limit : Nat} {outcome : Option Unit}
    (h : Reaped env ledger time limit outcome ledger') (id : Bytes)
    : ledger'.notes id = ledger.notes id
        ∨ ∃ note, ledger.notes id = some note ∧ ledger'.notes id = none ∧ note.expires ≤ time := by
  by_cases hmem : id ∈ SortedSet.upTo ledger.index time limit
  . rcases h.shrinks.notes id with hsame | hnone
    . exact .inl hsame
    . cases hnote : ledger.notes id with
      | none => exact .inl hnone
      | some note =>
        rcases SortedSet.score_le_of_mem_upTo hmem with ⟨score, hle, hscore⟩
        rw [hindexed id note hnote] at hscore
        cases hscore
        exact .inr ⟨note, rfl, hnone, hle⟩
  . exact .inl (h.frame id hmem)

theorem Accessed.frame {hash other : Bytes} {operation : Operation} {reply : Option Reply}
    (h : Accessed env ledger id hash operation reply ledger') (hother : other ≠ id)
    : ledger'.notes other = ledger.notes other := by
  cases h with
  | expired _ _ hreleased => exact hreleased.frame other hother
  | exhausted _ _ _ _ hreleased => exact hreleased.frame other hother
  | deleted _ _ _ _ hreleased => exact hreleased.frame other hother
  | openedLast _ _ _ _ hreleased => exact hreleased.frame other hother
  | opened => exact Function.update_of_ne hother _ _
  | _ => rfl

end

section

variable {now : Nat} {denied : Site → Bool} {ledger ledger' : Ledger}

theorem noteStep_of_reaped {id : Bytes} {answer : Answer} {outcome : Option Unit} {limit : Nat}
    (hindexed : Indexed ledger)
    (h : Reaped { now, denied } ledger (now / 1000) limit outcome ledger')
    (hquiet : answer.Quiet id) : NoteStep now ledger ledger' id answer := by
  rcases h.note hindexed id with hsame | ⟨note, hnote, hnone, hexpired⟩
  . exact .kept hquiet hsame
  . exact .dropped hquiet hnote hnone (.inl hexpired)

theorem noteStep_of_released {id : Bytes} {answer : Answer} {note : Note} {outcome : Option Unit}
    (h : Released { now, denied } ledger id outcome ledger') (hnote : ledger.notes id = some note)
    (hquiet : answer.Quiet id)
    (hreason : note.expires ≤ now / 1000 ∨ note.remaining = 0 ∨ answer.reply = none)
    : NoteStep now ledger ledger' id answer := by
  rcases h.shrinks.notes id with hsame | hnone
  . exact .kept hquiet hsame
  . exact .dropped hquiet hnote hnone hreason

theorem noteStep_of_accessed {id hash : Bytes} {operation : Operation} {reply : Option Reply}
    (h : Accessed { now, denied } ledger id hash operation reply ledger')
    : NoteStep now ledger ledger' id
        { time := now, request := .access id hash operation, reply } := by
  have hunavailable : ∀ outcome : Option Unit, Answer.Quiet
      { time := now, request := .access id hash operation,
        reply := outcome.map fun _ => .unavailable } id := by
    intro outcome
    apply Answer.quiet_of_failed
    cases outcome <;> rfl
  cases h with
  | missing => exact .kept (Answer.quiet_of_failed rfl id) rfl
  | expired hnote hexpired hreleased =>
    exact noteStep_of_released hreleased hnote (hunavailable _) (.inl hexpired)
  | unknown => exact .kept (Answer.quiet_of_failed rfl id) rfl
  | refused => exact .kept (Answer.quiet_of_failed rfl id) rfl
  | exhausted hnote _ _ hexhausted hreleased =>
    exact noteStep_of_released hreleased hnote (hunavailable _) (.inr (.inl hexhausted))
  | checked => exact .kept (Answer.quiet_of_operation rfl (.inr ⟨nofun, nofun⟩)) rfl
  | described => exact .kept (Answer.quiet_of_operation rfl (.inr ⟨nofun, nofun⟩)) rfl
  | @deleted _ outcome _ hnote _ _ _ hreleased =>
    cases outcome with
    | none => exact noteStep_of_released hreleased hnote (Answer.quiet_of_failed rfl id) (.inr (.inr rfl))
    | some _ =>
      apply NoteStep.deleted
      . simp [Answer.deletes, Answer.accesses, Answer.succeeded]
      . exact hreleased.gone rfl
  | @openedLast _ outcome _ hnote hlive hallowed hlast hreleased =>
    cases outcome with
    | none => exact noteStep_of_released hreleased hnote (Answer.quiet_of_failed rfl id) (.inr (.inr rfl))
    | some _ => exact .opened rfl hnote hlive hallowed rfl (.inl ⟨hlast, hreleased.gone rfl⟩)
  | opened hnote hlive hallowed hmore =>
    exact .opened rfl hnote hlive hallowed rfl (.inr ⟨hmore, Function.update_self _ _ _⟩)
  | undecremented => exact .kept (Answer.quiet_of_failed rfl id) rfl

theorem noteStep_of_created {id : Bytes} {config : Config} {packet : Packet} {token : Bytes}
    {reply : Option Reply} (hindexed : Indexed ledger)
    (h : Created { now, denied } ledger (createArgs config packet token) reply ledger')
    : NoteStep now ledger ledger' id
        { time := now, request := .create config packet token, reply } := by
  have hquiet : Answer.Quiet { time := now, request := .create config packet token, reply } id :=
    ⟨rfl, rfl⟩
  cases h with
  | reused => exact .kept hquiet rfl
  | unproven => exact .kept hquiet rfl
  | aborted _ hreaped => exact noteStep_of_reaped hindexed hreaped hquiet
  | conflict _ hreaped => exact noteStep_of_reaped hindexed hreaped hquiet
  | full _ hreaped => exact noteStep_of_reaped hindexed hreaped hquiet
  | @rolledBack _ reaped _ hreaped hfree =>
    have hsame : (reaped.rolledBack (createArgs config packet token) (reaped.total.getD 0)).notes
        = reaped.notes := by
      simp only [Ledger.rolledBack, ← hfree.note, Function.update_eq_self]
    rcases hreaped.note hindexed id with hkept | ⟨note, hnote, hnone, hexpired⟩
    . exact .kept hquiet (hsame ▸ hkept)
    . exact .dropped hquiet hnote (hsame ▸ hnone) (.inl hexpired)
  | @recorded _ reaped _ hreaped =>
    by_cases hid : id = asBytes packet.header.id
    . apply NoteStep.created
      simp [Answer.creates, Answer.succeeded, hid]
    . have hsame : (reaped.recorded { now, denied } (createArgs config packet token)
          (reaped.total.getD 0) (expiresOf { now, denied } (createArgs config packet token))
          (Lease.expires ‹_›)).notes id = reaped.notes id :=
        Function.update_of_ne hid _ _
      rcases hreaped.note hindexed id with hkept | ⟨note, hnote, hnone, hexpired⟩
      . exact .kept hquiet (hsame.trans hkept)
      . exact .dropped hquiet hnote (hsame.trans hnone) (.inl hexpired)

theorem noteStep_of_called {request : Request} {reply : Option Reply} (hindexed : Indexed ledger)
    (h : Called { now, denied } ledger request reply ledger') (id : Bytes)
    : NoteStep now ledger ledger' id { time := now, request, reply } := by
  cases h with
  | issue hissued => cases hissued <;> exact .kept ⟨rfl, rfl⟩ rfl
  | inspectProof => exact .kept ⟨rfl, rfl⟩ rfl
  | create hcreated => exact noteStep_of_created hindexed hcreated
  | @access other hash operation reply ledger' haccessed =>
    by_cases hid : id = other
    . subst hid
      exact noteStep_of_accessed haccessed
    . exact .kept (Answer.quiet_of_operation rfl (.inl (Ne.symm hid))) (haccessed.frame hid)
  | reap hswept =>
    cases hswept with
    | aborted hreaped => exact noteStep_of_reaped hindexed hreaped ⟨rfl, rfl⟩
    | @swept reaped hreaped =>
      rcases hreaped.note hindexed id with hkept | ⟨note, hnote, hnone, hexpired⟩
      . exact .kept ⟨rfl, rfl⟩ hkept
      . exact .dropped ⟨rfl, rfl⟩ hnote hnone (.inl hexpired)

end

end Store
