import Erase.Library.Independence
import Erase.Store.Accounting

namespace Store

open Server Server.Lua Valkey Script

-- What an access does to the note of its id.
inductive Effect where
  | keep
  | release
  | write (note : Note)

def Effect.apply (ledger : Ledger) (id : Bytes) : Effect → Ledger
  | keep => ledger
  | release => ledger.release id
  | write note => ledger.setNote id (some note)

instance (note : Note) (operation : Operation) (hash : Bytes)
    : Decidable (note.Authorizes operation hash) :=
  inferInstanceAs (Decidable (_ ∧ _))

def grant (note : Note) : Operation → Reply × Effect
  | .metadata => (.ok [note.header, tostring note.expires, tostring note.remaining], .keep)
  | .checkOpen => (.ok [], .keep)
  | .openNote =>
    (.ok [note.packet],
      if note.remaining = 1 then .release else .write { note with remaining := note.remaining - 1 })
  | .deleteNote => (.ok [], .release)
  | .other => (.capacity, .keep)

-- An access decides by the note of its own id alone.
def judge (second : Nat) (hash : Bytes) (operation : Operation) : Option Note → Reply × Effect
  | none => (.unavailable, .keep)
  | some note =>
    if note.expires ≤ second then (.unavailable, .release)
    else if operation = .other then (.capacity, .keep)
    else if ¬note.Authorizes operation hash then (.unavailable, .keep)
    else if note.remaining = 0 then (.unavailable, .release)
    else grant note operation

theorem judge_allowed {second : Nat} {hash : Bytes} {operation : Operation} {note : Note}
    (hlive : second < note.expires) (hallowed : note.Authorizes operation hash)
    : judge second hash operation (some note)
        = if note.remaining = 0 then (.unavailable, .release) else grant note operation := by
  have hknown : operation ≠ .other := by
    rintro rfl
    exact nomatch hallowed.1
  simp only [judge, Nat.not_le.mpr hlive, hknown, hallowed, not_true_eq_false, if_false]

theorem Accessed.eq_judge {env : Environment Site} {ledger ledger' : Ledger} {id hash : Bytes}
    {operation : Operation} {reply : Option Reply}
    (h : Accessed env ledger id hash operation reply ledger')
    (hdenied : ∀ site, env.denied site = false)
    : reply = some (judge (env.now / 1000) hash operation (ledger.notes id)).1
        ∧ ledger' = (judge (env.now / 1000) hash operation (ledger.notes id)).2.apply ledger id := by
  have hreleased : ∀ {outcome ledger'}, Released env ledger id outcome ledger'
      → outcome = some () ∧ ledger' = ledger.release id :=
    fun hreleased => hreleased.exact (allowsRelease_of_undenied hdenied)
  cases h with
  | missing habsent => simp [judge, habsent, Effect.apply]
  | expired hnote hexpired h =>
    rcases hreleased h with ⟨rfl, rfl⟩
    simp [judge, hnote, hexpired, Effect.apply]
  | unknown hnote hlive => simp [judge, hnote, Nat.not_le.mpr hlive, Effect.apply]
  | refused hnote hlive hknown hrefused =>
    simp [judge, hnote, Nat.not_le.mpr hlive, hknown, hrefused, Effect.apply]
  | exhausted hnote hlive hallowed hexhausted h =>
    rcases hreleased h with ⟨rfl, rfl⟩
    rw [hnote, judge_allowed hlive hallowed, if_pos hexhausted]
    exact ⟨rfl, rfl⟩
  | checked hnote hlive hallowed hsome =>
    rw [hnote, judge_allowed hlive hallowed, if_neg (by omega)]
    exact ⟨rfl, rfl⟩
  | described hnote hlive hallowed hsome =>
    rw [hnote, judge_allowed hlive hallowed, if_neg (by omega)]
    exact ⟨rfl, rfl⟩
  | deleted hnote hlive hallowed hsome h =>
    rcases hreleased h with ⟨rfl, rfl⟩
    rw [hnote, judge_allowed hlive hallowed, if_neg (by omega)]
    exact ⟨rfl, rfl⟩
  | openedLast hnote hlive hallowed hlast h =>
    rcases hreleased h with ⟨rfl, rfl⟩
    rw [hnote, judge_allowed hlive hallowed, if_neg (by omega), grant, if_pos hlast]
    exact ⟨rfl, rfl⟩
  | opened hnote hlive hallowed hmore =>
    rw [hnote, judge_allowed hlive hallowed, if_neg (by omega), grant, if_neg (by omega)]
    exact ⟨rfl, rfl⟩
  | undecremented _ _ _ _ hsite => simp [hdenied] at hsite

section

variable {ledger : Ledger} {id other : Bytes}

theorem Effect.notes_apply (effect : Effect) (hother : other ≠ id)
    : (effect.apply ledger id).notes other = ledger.notes other := by
  cases effect with
  | keep => rfl
  | release => exact Function.update_of_ne hother _ _
  | write note => exact Function.update_of_ne hother _ _

theorem charge_release (hother : other ≠ id)
    : (ledger.release id).charge other = ledger.charge other := by
  simp only [Ledger.charge, Ledger.release, Finmap.lookup_erase_ne hother]

def debit (charge : Nat) (total : Option Nat) : Option Nat :=
  if charge > 0 then some (total.getD 0 - charge) else total

-- The clamp at zero does not tell which release came first.
theorem debit_debit (charge charge' : Nat) (total : Option Nat)
    : debit charge' (debit charge total) = debit charge (debit charge' total) := by
  unfold debit
  by_cases h : charge > 0 <;> by_cases h' : charge' > 0
  . simp only [if_pos h, if_pos h', Option.getD_some, Nat.sub_right_comm]
  . simp only [if_pos h, if_neg h']
  . simp only [if_neg h, if_pos h']
  . simp only [if_neg h, if_neg h']

theorem release_release (hother : other ≠ id)
    : (ledger.release id).release other = (ledger.release other).release id := by
  have htotal : debit ((ledger.release id).charge other) (ledger.release id).total
      = debit ((ledger.release other).charge id) (ledger.release other).total := by
    rw [charge_release hother, charge_release hother.symm]
    exact debit_debit _ _ _
  have hnotes : Function.update (Function.update ledger.notes id none) other none
      = Function.update (Function.update ledger.notes other none) id none :=
    Function.update_comm hother.symm _ _ _
  have hindex : (ledger.index.erase id).erase other = (ledger.index.erase other).erase id :=
    Finmap.erase_erase
  have hcharges : (ledger.charges.erase id).erase other = (ledger.charges.erase other).erase id :=
    Finmap.erase_erase
  exact Ledger.mk.injEq .. ▸ ⟨hnotes, hindex, hcharges, htotal, rfl, rfl, rfl⟩

theorem setNote_release (note : Option Note) (hother : other ≠ id)
    : (ledger.release id).setNote other note = (ledger.setNote other note).release id := by
  have hnotes : Function.update (Function.update ledger.notes id none) other note
      = Function.update (Function.update ledger.notes other note) id none :=
    Function.update_comm hother.symm _ _ _
  exact Ledger.mk.injEq .. ▸ ⟨hnotes, rfl, rfl, rfl, rfl, rfl, rfl⟩

theorem Effect.apply_apply (effect effect' : Effect) (hother : other ≠ id)
    : effect'.apply (effect.apply ledger id) other
        = effect.apply (effect'.apply ledger other) id := by
  cases effect with
  | keep => rfl
  | release =>
    cases effect' with
    | keep => rfl
    | release => exact release_release hother
    | write note => exact setNote_release _ hother
  | write note =>
    cases effect' with
    | keep => rfl
    | release => exact (setNote_release _ hother.symm).symm
    | write note' =>
      have hnotes := Function.update_comm hother.symm (some note) (some note') ledger.notes
      exact Ledger.mk.injEq .. ▸ ⟨hnotes, rfl, rfl, rfl, rfl, rfl, rfl⟩

end

structure Access where
  id : Bytes
  hash : Bytes
  operation : Operation
  deriving DecidableEq

namespace Access

def request (access : Access) : Request := .access access.id access.hash access.operation

def event (access : Access) : Event := .call allowAll access.request

def answer (access : Access) (now : Nat) (reply : Reply) : Answer where
  time := now
  request := access.request
  reply := some reply

end Access

def Answer.concerns (answer : Answer) (id : Bytes) : Bool :=
  match answer.request with
  | .access other _ _ => other = id
  | _ => false

def accessStep (second : Nat) (ledger : Ledger) (access : Access) : Reply × Ledger :=
  let (reply, effect) := judge second access.hash access.operation (ledger.notes access.id)
  (reply, effect.apply ledger access.id)

theorem commutes_accessStep (second : Nat)
    : Independence.Commutes (accessStep second) Access.id where
  reply ledger first other hother := by
    simp only [accessStep, Effect.notes_apply _ hother.symm]
  state ledger first other hother := by
    simp only [accessStep, Effect.notes_apply _ hother.symm, Effect.notes_apply _ hother]
    exact Effect.apply_apply _ _ hother.symm

theorem step_access (ledger : Ledger) (now : Nat) (access : Access)
    : (ledger.cache now).step access.event
        = ((accessStep (now / 1000) ledger access).2.cache now,
          [access.answer now (accessStep (now / 1000) ledger access).1]) := by
  rcases run_access { now, denied := allowAll } ledger access.id access.hash access.operation
    with ⟨reply, ledger', hrun, haccessed⟩
  rcases haccessed.eq_judge (fun _ => rfl) with ⟨rfl, rfl⟩
  simp only [Cache.step, Access.event, Access.request, Request.script, Ledger.cache, hrun]
  rfl

theorem run_accesses (ledger : Ledger) (now : Nat) (accesses : List Access)
    : (ledger.cache now).run (accesses.map Access.event)
        = ((Independence.run (accessStep (now / 1000)) ledger accesses).2.cache now,
          (Independence.run (accessStep (now / 1000)) ledger accesses).1.map fun (access, reply) =>
            access.answer now reply) := by
  induction accesses generalizing ledger with
  | nil => rfl
  | cons access accesses ih =>
    rw [List.map_cons, Cache.run, step_access]
    dsimp only
    rw [ih]
    rfl

theorem filter_answers (now : Nat) (id : Bytes) (entries : List (Access × Reply))
    : (entries.map fun (access, reply) => access.answer now reply).filter
          (fun answer => Answer.concerns answer id)
        = (entries.filter fun entry => entry.1.id = id).map fun (access, reply) =>
            access.answer now reply := by
  rw [List.filter_map]
  rfl

-- This needs no invariant of the ledger: clamped subtractions commute.
theorem accesses_commute (ledger : Ledger) (now : Nat)
    : (∀ first second : Access, first.id ≠ second.id → ∃ reply reply' last,
        (ledger.cache now).run [first.event, second.event]
            = (last, [first.answer now reply, second.answer now reply'])
          ∧ (ledger.cache now).run [second.event, first.event]
            = (last, [second.answer now reply', first.answer now reply]))
      ∧ (∀ (id : Bytes) (accesses accesses' : List Access),
        accesses.filter (fun access => access.id = id)
          = accesses'.filter (fun access => access.id = id)
        → ((ledger.cache now).run (accesses.map Access.event)).2.filter
            (fun answer => Answer.concerns answer id)
          = ((ledger.cache now).run (accesses'.map Access.event)).2.filter
            (fun answer => Answer.concerns answer id))
      ∧ ∀ accesses accesses' : List Access,
        (∀ id, accesses.filter (fun access => access.id = id)
          = accesses'.filter (fun access => access.id = id))
        → ((ledger.cache now).run (accesses.map Access.event)).1
          = ((ledger.cache now).run (accesses'.map Access.event)).1 := by
  have hcommutes := commutes_accessStep (now / 1000)
  refine ⟨fun first second hne => ?_, fun id accesses accesses' hsame => ?_,
    fun accesses accesses' hsame => ?_⟩
  . have hrun := run_accesses ledger now [first, second]
    have hrun' := run_accesses ledger now [second, first]
    simp only [List.map_cons, List.map_nil, Independence.run] at hrun hrun'
    rw [hcommutes.reply ledger first second hne] at hrun
    rw [hcommutes.reply ledger second first hne.symm, hcommutes.state ledger second first hne.symm]
      at hrun'
    exact ⟨_, _, _, hrun, hrun'⟩
  . rw [run_accesses, run_accesses, filter_answers, filter_answers,
      Independence.replies_filter hcommutes, Independence.replies_filter hcommutes, hsame]
  . rw [run_accesses, run_accesses, Independence.state_eq_of_filter hcommutes hsame]

end Store
