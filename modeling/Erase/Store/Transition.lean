import Erase.Server.Store
import Erase.Store.Access
import Erase.Store.Challenge

namespace Store

open Server Server.Lua Valkey Script

namespace Ledger

def expire (ledger : Ledger) (now : Nat) : Key → Ledger
  | .note id =>
    if Entry.isPast now ((ledger.notes id).bind Note.expireAt) then ledger.setNote id none
    else ledger
  | .challenge token =>
    if Entry.isPast now ((ledger.leases token).map Lease.expireAt) then ledger.setLease token none
    else ledger
  | .spent token =>
    if Entry.isPast now (ledger.spent token) then ledger.setSpent token none
    else ledger
  | _ => ledger

theorem keyspace_expire (ledger : Ledger) (now : Nat) (key : Key)
    : ledger.keyspace.expire now key = (ledger.expire now key).keyspace := by
  unfold Keyspace.expire
  cases key with
  | note id =>
    have hdeadline : ledger.keyspace.expireAt (.note id) = (ledger.notes id).bind Note.expireAt := by
      simp only [Keyspace.expireAt, keyspace, Option.bind_map]
      rfl
    have hput := ledger.put_note id none
    rw [hdeadline, expire]
    split
    . exact hput
    . rfl
  | challenge token =>
    have hdeadline : ledger.keyspace.expireAt (.challenge token)
        = (ledger.leases token).map Lease.expireAt := by
      simp only [Keyspace.expireAt, keyspace, Option.bind_map]
      cases ledger.leases token <;> rfl
    have hput := ledger.put_challenge token none
    rw [hdeadline, expire]
    split
    . exact hput
    . rfl
  | spent token =>
    have hdeadline : ledger.keyspace.expireAt (.spent token) = ledger.spent token := by
      simp only [Keyspace.expireAt, keyspace, Option.bind_map]
      cases ledger.spent token <;> rfl
    have hput := ledger.put_spent token none
    rw [hdeadline, expire]
    split
    . exact hput
    . rfl
  | notes =>
    have hnone : ledger.keyspace.expireAt .notes = none := Keyspace.expireAt_ofZset rfl
    rw [hnone]
    rfl
  | charges =>
    have hnone : ledger.keyspace.expireAt .charges = none := Keyspace.expireAt_ofHash rfl
    rw [hnone]
    rfl
  | challenges =>
    have hnone : ledger.keyspace.expireAt .challenges = none := Keyspace.expireAt_ofZset rfl
    rw [hnone]
    rfl
  | bytes =>
    have hnone : ledger.keyspace.expireAt .bytes = none := by
      simp only [Keyspace.expireAt, keyspace, Option.bind_map]
      cases ledger.total <;> rfl
    rw [hnone]
    rfl

end Ledger

-- What native expiry can take away, and when.
structure Faded (now : Nat) (ledger ledger' : Ledger) : Prop where
  notes : ∀ id, ledger'.notes id = ledger.notes id
    ∨ ledger'.notes id = none
      ∧ ∃ note deadline, ledger.notes id = some note ∧ note.expireAt = some deadline ∧ deadline ≤ now
  leases : ∀ token, ledger'.leases token = ledger.leases token
    ∨ ledger'.leases token = none
      ∧ ∃ lease, ledger.leases token = some lease ∧ lease.expireAt ≤ now
  spent : ∀ token, ledger'.spent token = ledger.spent token
    ∨ ledger'.spent token = none ∧ ∃ deadline ≤ now, ledger.spent token = some deadline
  index : ledger'.index = ledger.index
  charges : ledger'.charges = ledger.charges
  total : ledger'.total = ledger.total
  challenges : ledger'.challenges = ledger.challenges

theorem Faded.refl (now : Nat) (ledger : Ledger) : Faded now ledger ledger where
  notes _ := .inl rfl
  leases _ := .inl rfl
  spent _ := .inl rfl
  index := rfl
  charges := rfl
  total := rfl
  challenges := rfl

theorem faded_expire (now : Nat) (ledger : Ledger) (key : Key)
    : Faded now ledger (ledger.expire now key) := by
  unfold Ledger.expire
  cases key with
  | note id =>
    dsimp only
    split
    . next hpast =>
      rcases Entry.isPast_iff.mp hpast with ⟨deadline, hdeadline, hle⟩
      rcases Option.bind_eq_some_iff.mp hdeadline with ⟨note, hnote, hnative⟩
      refine { Faded.refl now ledger with notes := fun other => ?_ }
      by_cases hother : other = id
      . subst hother
        exact .inr ⟨Function.update_self _ _ _, note, deadline, hnote, hnative, hle⟩
      . exact .inl (Function.update_of_ne hother _ _)
    . exact .refl now ledger
  | challenge token =>
    dsimp only
    split
    . next hpast =>
      rcases Entry.isPast_iff.mp hpast with ⟨deadline, hdeadline, hle⟩
      rcases Option.map_eq_some_iff.mp hdeadline with ⟨lease, hlease, rfl⟩
      refine { Faded.refl now ledger with leases := fun other => ?_ }
      by_cases hother : other = token
      . subst hother
        exact .inr ⟨Function.update_self _ _ _, lease, hlease, hle⟩
      . exact .inl (Function.update_of_ne hother _ _)
    . exact .refl now ledger
  | spent token =>
    dsimp only
    split
    . next hpast =>
      rcases Entry.isPast_iff.mp hpast with ⟨deadline, hdeadline, hle⟩
      refine { Faded.refl now ledger with spent := fun other => ?_ }
      by_cases hother : other = token
      . subst hother
        exact .inr ⟨Function.update_self _ _ _, deadline, hle, hdeadline⟩
      . exact .inl (Function.update_of_ne hother _ _)
    . exact .refl now ledger
  | _ => exact .refl now ledger

def allowAll : Site → Bool := fun _ => false

def Ledger.cache (ledger : Ledger) (now : Nat) : Cache where
  now := now
  keys := ledger.keyspace

def Event.elapsed : Event → Nat
  | .tick elapsed => elapsed
  | _ => 0

-- What one call answers and leaves behind, by the script that it runs.
inductive Called (env : Environment Site) (ledger : Ledger)
    : Request → Option Reply → Ledger → Prop where
  | issue {config token reply ledger'} (h : Issued env ledger token config.powBits
      config.challengeSeconds config.maxChallenges reply ledger')
    : Called env ledger (.issue config token) reply ledger'
  | inspectProof {token reply} (h : Inspected env ledger token reply)
    : Called env ledger (.inspectProof token) (some reply) ledger
  | create {config packet token reply ledger'}
      (h : Created env ledger (createArgs config packet token) reply ledger')
    : Called env ledger (.create config packet token) reply ledger'
  | access {id hash operation reply ledger'} (h : Accessed env ledger id hash operation reply ledger')
    : Called env ledger (.access id hash operation) reply ledger'
  | reap {reply ledger'} (h : Swept env ledger reply ledger') : Called env ledger .reap reply ledger'

theorem run_script (env : Environment Site) (ledger : Ledger) (request : Request)
    : ∃ reply ledger', request.script.run env ledger.keyspace = (reply, ledger'.keyspace)
        ∧ Called env ledger request reply ledger' := by
  cases request with
  | issue config token =>
    rcases run_issue env ledger token config.powBits config.challengeSeconds config.maxChallenges
      with ⟨reply, ledger', hrun, h⟩
    exact ⟨reply, ledger', hrun, .issue h⟩
  | inspectProof token =>
    rcases run_inspectProof env ledger token with ⟨reply, hrun, h⟩
    exact ⟨some reply, ledger, hrun, .inspectProof h⟩
  | create config packet token =>
    rcases run_create env ledger (createArgs config packet token) with ⟨reply, ledger', hrun, h⟩
    exact ⟨reply, ledger', hrun, .create h⟩
  | access id hash operation =>
    rcases run_access env ledger id hash operation with ⟨reply, ledger', hrun, h⟩
    exact ⟨reply, ledger', hrun, .access h⟩
  | reap =>
    rcases run_reap env ledger with ⟨reply, ledger', hrun, h⟩
    exact ⟨reply, ledger', hrun, .reap h⟩

inductive Transition (now : Nat) (ledger : Ledger) : Event → List Answer → Ledger → Prop where
  | tick {elapsed} : Transition now ledger (.tick elapsed) [] ledger
  | expire {key} : Transition now ledger (.expire key) [] (ledger.expire now key)
  | call {denied request reply ledger'} (h : Called { now, denied } ledger request reply ledger')
    : Transition now ledger (.call denied request) [{ time := now, request, reply }] ledger'

theorem step_keyspace (now : Nat) (ledger : Ledger) (event : Event)
    : ∃ ledger' answers, Cache.step { now, keys := ledger.keyspace } event
          = ({ now := now + Event.elapsed event, keys := ledger'.keyspace }, answers)
        ∧ Transition now ledger event answers ledger' := by
  cases event with
  | tick elapsed => exact ⟨ledger, [], rfl, .tick⟩
  | expire key =>
    refine ⟨ledger.expire now key, [], ?_, .expire⟩
    rw [Cache.step, Ledger.keyspace_expire]
    rfl
  | call denied request =>
    rcases run_script { now, denied } ledger request with ⟨reply, ledger', hrun, h⟩
    refine ⟨ledger', _, ?_, .call h⟩
    rw [Cache.step, hrun]
    rfl

theorem step_call {cache next : Cache} {ledger : Ledger} {denied : Site → Bool} {request : Request}
    {answer : Answer} (hkeys : cache.keys = ledger.keyspace)
    (hstep : cache.step (.call denied request) = (next, [answer]))
    : ∃ ledger', next = { now := cache.now, keys := ledger'.keyspace }
        ∧ answer.time = cache.now ∧ answer.request = request
        ∧ Called { now := cache.now, denied } ledger request answer.reply ledger' := by
  rcases cache with ⟨now, keys⟩
  dsimp only at hkeys
  subst hkeys
  rcases run_script { now, denied } ledger request with ⟨reply, ledger', hrun, hcalled⟩
  rw [Cache.step, hrun] at hstep
  cases hstep
  exact ⟨ledger', rfl, rfl, rfl, hcalled⟩

-- `P` relates the clock, the ledger and the answers so far.
section

variable (allowed : Event → Prop) (P : Nat → Ledger → List Answer → Prop)

theorem run_extends
    (hstep : ∀ {now ledger answers event new ledger'}, P now ledger answers → allowed event
      → Transition now ledger event new ledger'
      → P (now + Event.elapsed event) ledger' (answers ++ new))
    {events : List Event} (hallowed : ∀ event ∈ events, allowed event) {now : Nat} {ledger : Ledger}
    {answers : List Answer} (h : P now ledger answers)
    : ∃ ledger', (Cache.run { now, keys := ledger.keyspace } events).1.keys = ledger'.keyspace
        ∧ P (Cache.run { now, keys := ledger.keyspace } events).1.now ledger'
            (answers ++ (Cache.run { now, keys := ledger.keyspace } events).2) := by
  induction events generalizing now ledger answers with
  | nil =>
    refine ⟨ledger, rfl, ?_⟩
    simpa only [Cache.run, List.append_nil] using h
  | cons event events ih =>
    rcases step_keyspace now ledger event with ⟨ledger', new, hrun, htransition⟩
    have hnext := hstep h (hallowed event List.mem_cons_self) htransition
    rcases ih (fun event hmem => hallowed event (List.mem_cons_of_mem _ hmem)) hnext
      with ⟨last, hkeys, hlast⟩
    refine ⟨last, ?_, ?_⟩
    . simp only [Cache.run, hrun]
      exact hkeys
    . simp only [Cache.run, hrun]
      rw [← List.append_assoc]
      exact hlast

theorem run_invariant {cache last : Cache} {events : List Event} {answers : List Answer}
    {ledger : Ledger} (hrun : cache.run events = (last, answers))
    (hkeys : cache.keys = ledger.keyspace) (h : P cache.now ledger [])
    (hstep : ∀ {now ledger answers event new ledger'}, P now ledger answers → allowed event
      → Transition now ledger event new ledger'
      → P (now + Event.elapsed event) ledger' (answers ++ new))
    (hallowed : ∀ event ∈ events, allowed event)
    : ∃ ledger', last.keys = ledger'.keyspace ∧ P last.now ledger' answers := by
  rcases cache with ⟨now, keys⟩
  dsimp only at hkeys
  subst hkeys
  have hlast := run_extends allowed P hstep hallowed h
  rw [hrun, List.nil_append] at hlast
  exact hlast

theorem run_empty_invariant {start : Nat} {last : Cache} {events : List Event}
    {answers : List Answer} (hrun : (Cache.empty start).run events = (last, answers))
    (h : P start .empty [])
    (hstep : ∀ {now ledger answers event new ledger'}, P now ledger answers → allowed event
      → Transition now ledger event new ledger'
      → P (now + Event.elapsed event) ledger' (answers ++ new))
    (hallowed : ∀ event ∈ events, allowed event)
    : ∃ ledger', last.keys = ledger'.keyspace ∧ P last.now ledger' answers :=
  run_invariant allowed P hrun Ledger.keyspace_empty.symm h hstep hallowed

end

end Store
