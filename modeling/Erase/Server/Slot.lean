import Erase.Library.Runs
import Erase.Server.Protocol

/-!
The connection slot of `Cache`, with every interleaving of the calls that share it. A call goes from
one await point to the next one in a step, and holds the lock in the phases that say so.
-/

namespace Server.Slot

abbrev Generation := UInt64

abbrev Connection := Nat

inductive Phase where
  | idle
  | waiting
  | connecting
  | verifying (connection : Connection)
  | acquired (generation : Generation) (connection : Connection)
  | sent (generation : Generation) (connection : Connection)
  -- Waits for the lock once more.
  | failed (generation : Generation)
  | finished
  deriving DecidableEq

def Phase.holds : Phase → Bool
  | .connecting | .verifying _ => true
  | _ => false

structure State where
  requireSafeConfiguration : Bool
  slot : Option (Generation × Connection)
  holder : Option Nat
  nextGeneration : Generation
  nextConnection : Connection
  phases : Nat → Phase
  -- The connections that have passed `verify_configuration`.
  verified : List Connection
  published : List (Generation × Connection)
  sent : List (Nat × Generation × Connection)
  failures : List (Nat × Generation)

def State.initial (requireSafeConfiguration : Bool) : State where
  requireSafeConfiguration
  slot := none
  holder := none
  nextGeneration := 1
  nextConnection := 0
  phases _ := .idle
  verified := []
  published := []
  sent := []
  failures := []

inductive Event where
  | start (call : Nat)
  -- The lock is free, and the call gets it.
  | lock (call : Nat)
  | lockTimeout (call : Nat)
  -- The attempt to connect ends, in time and well or not.
  | connect (call : Nat) (connected : Bool)
  -- The reply to `CONFIG GET`, unless it fails or is late.
  | configuration (call : Nat) (fields : Option (Bytes → Option Bytes))
  | send (call : Nat)
  -- The command succeeds, or it fails or is late.
  | reply (call : Nat) (succeeds : Bool)
  -- The future is dropped.
  | drop (call : Nat)

def isSafe (fields : Bytes → Option Bytes) : Bool :=
  fields (asBytes "save") = some [] && fields (asBytes "appendonly") = some (asBytes "no")
    && fields (asBytes "maxmemory-policy") = some (asBytes "noeviction")
    && ((fields (asBytes "maxmemory")).bind (parseUnsigned? 64)).any fun value => 0 < value

namespace State

variable (state : State) (call : Nat)

-- The guard of the lock lives as long as the call is in a phase that holds it.
def enter (phase : Phase) : State :=
  { state with
    phases := Function.update state.phases call phase
    holder :=
      if phase.holds then some call else if state.holder = some call then none else state.holder }

def publish (connection : Connection) : State :=
  { state with
    nextGeneration := state.nextGeneration + 1
    slot := some (state.nextGeneration, connection)
    published := state.published ++ [(state.nextGeneration, connection)]
  }.enter call (.acquired state.nextGeneration connection)

def connected : State :=
  let state' := { state with nextConnection := state.nextConnection + 1 }
  if state.requireSafeConfiguration then state'.enter call (.verifying state.nextConnection)
  else state'.publish call state.nextConnection

def discard (generation : Generation) : State :=
  { state with
    slot := if state.slot.map Prod.fst = some generation then none else state.slot
  }.enter call .finished

def step : Event → State
  | .start call => if state.phases call = .idle then state.enter call .waiting else state
  | .lock call =>
    if state.holder.isSome then state
    else
      match state.phases call with
      | .waiting =>
        match state.slot with
        | some (generation, connection) => state.enter call (.acquired generation connection)
        | none => state.enter call .connecting
      | .failed generation => state.discard call generation
      | _ => state
  | .lockTimeout call => if state.phases call = .waiting then state.enter call .finished else state
  | .connect call connected =>
    if state.phases call = .connecting then
      if connected then state.connected call else state.enter call .finished
    else state
  | .configuration call fields =>
    match state.phases call with
    | .verifying connection =>
      if fields.any isSafe then
        { state with verified := connection :: state.verified }.publish call connection
      else state.enter call .finished
    | _ => state
  | .send call =>
    match state.phases call with
    | .acquired generation connection =>
      { state with sent := state.sent ++ [(call, generation, connection)] }.enter call
        (.sent generation connection)
    | _ => state
  | .reply call succeeds =>
    match state.phases call with
    | .sent generation _ =>
      if succeeds then state.enter call .finished
      else
        { state with failures := state.failures ++ [(call, generation)] }.enter call
          (.failed generation)
    | _ => state
  | .drop call => if state.phases call = .idle then state else state.enter call .finished

def run (requireSafeConfiguration : Bool) (events : List Event) : State :=
  events.foldl step (initial requireSafeConfiguration)

end State

-- A late failure of the first connection leaves the second one where it is.
example : (State.run false [.start 0, .lock 0, .connect 0 true, .start 1, .lock 1, .send 0, .send 1,
    .reply 0 false, .lock 0, .start 2, .lock 2, .connect 2 true, .reply 1 false, .lock 1]).slot
  = some (2, 1) := by decide

def sends (call : Nat) (sent : List (Nat × Generation × Connection)) : Nat :=
  sent.countP fun entry => entry.1 = call

-- What is known of a call in its phase.
def Owed (state : State) (call : Nat) : Phase → Prop
  | .idle | .waiting | .connecting | .verifying _ => sends call state.sent = 0
  | .acquired generation connection =>
    sends call state.sent = 0 ∧ (generation, connection) ∈ state.published
  | .sent generation connection =>
    sends call state.sent ≤ 1 ∧ (generation, connection) ∈ state.published
      ∧ (call, generation, connection) ∈ state.sent
  | .failed generation =>
    sends call state.sent ≤ 1 ∧ (call, generation) ∈ state.failures
      ∧ ∃ connection, (generation, connection) ∈ state.published
        ∧ (call, generation, connection) ∈ state.sent
  | .finished => sends call state.sent ≤ 1

theorem Owed.once {state : State} {call : Nat} {phase : Phase} (h : Owed state call phase)
    : sends call state.sent ≤ 1 := by
  have hnone : sends call state.sent = 0 → sends call state.sent ≤ 1 := by omega
  cases phase with
  | idle => exact hnone h
  | waiting => exact hnone h
  | connecting => exact hnone h
  | verifying connection => exact hnone h
  | acquired generation connection => exact hnone h.1
  | sent generation connection => exact h.1
  | failed generation => exact h.1
  | finished => exact h

theorem Owed.mono {state next : State} {call : Nat} {phase : Phase} (h : Owed state call phase)
    (hsends : sends call next.sent = sends call state.sent)
    (hpublished : state.published ⊆ next.published)
    (hsent : state.sent ⊆ next.sent) (hfailures : state.failures ⊆ next.failures)
    : Owed next call phase := by
  cases phase with
  | idle => exact hsends.trans h
  | waiting => exact hsends.trans h
  | connecting => exact hsends.trans h
  | verifying connection => exact hsends.trans h
  | acquired generation connection => exact ⟨hsends.trans h.1, hpublished h.2⟩
  | sent generation connection => exact ⟨hsends ▸ h.1, hpublished h.2.1, hsent h.2.2⟩
  | failed generation =>
    rcases h with ⟨honce, hfailed, connection, hconnection, hcommand⟩
    exact ⟨hsends ▸ honce, hfailures hfailed, connection, hpublished hconnection, hsent hcommand⟩
  | finished => exact hsends.trans_le h

-- The generations that are given to so many connections.
def generations (count : Nat) : List Generation :=
  (List.range count).map fun n => UInt64.ofNat (1 + n)

structure Good (state : State) : Prop where
  calls : ∀ call, Owed state call (state.phases call)
  holder : ∀ call, state.holder = some call ↔ (state.phases call).holds = true
  empty : state.holder ≠ none → state.slot = none
  slot : ∀ generation connection, state.slot = some (generation, connection)
    → (generation, connection) ∈ state.published
  verified : state.requireSafeConfiguration = true
    → ∀ generation connection, (generation, connection) ∈ state.published
      → connection ∈ state.verified
  next : state.nextGeneration = UInt64.ofNat (1 + state.published.length)
  generations : state.published.map Prod.fst = generations state.published.length

theorem good_initial (requireSafeConfiguration : Bool)
    : Good (State.initial requireSafeConfiguration) where
  calls _ := rfl
  holder _ := by simp [State.initial, Phase.holds]
  empty h := absurd rfl h
  slot _ _ h := by cases h
  verified _ _ _ h := by cases h
  next := rfl
  generations := rfl

section

variable {state : State} {call : Nat} {phase : Phase}

theorem calls_enter (hothers : ∀ other, other ≠ call → Owed state other (state.phases other))
    (howed : Owed state call phase) (other : Nat)
    : Owed (state.enter call phase) other ((state.enter call phase).phases other) := by
  by_cases hother : other = call
  . subst hother
    have hphase : (state.enter other phase).phases other = phase := Function.update_self ..
    rw [hphase]
    exact howed
  . have hphase : (state.enter call phase).phases other = state.phases other :=
      Function.update_of_ne hother ..
    rw [hphase]
    exact hothers other hother

theorem holder_enter (hholder : ∀ call, state.holder = some call ↔ (state.phases call).holds = true)
    (hfree : phase.holds = true → state.holder = none ∨ state.holder = some call) (other : Nat)
    : (state.enter call phase).holder = some other
        ↔ ((state.enter call phase).phases other).holds = true := by
  by_cases hother : other = call
  . subst hother
    simp only [State.enter, Function.update_self]
    split
    . next hholds => simp [hholds]
    . next hholds =>
      split
      . simp [hholds]
      . next hne => simp [hholds, hne]
  . have hne : some call ≠ some other := fun heq => hother (Option.some.inj heq).symm
    have hcurrent := hholder other
    simp only [State.enter, Function.update_of_ne hother]
    split
    . next hholds =>
      rcases hfree hholds with hnone | hsome
      . rw [hnone] at hcurrent
        simpa [hne] using hcurrent
      . rw [hsome] at hcurrent
        simpa [hne] using hcurrent
    . split
      . next hsome =>
        rw [hsome] at hcurrent
        simpa [hne] using hcurrent
      . exact hcurrent

theorem empty_enter (hempty : state.holder ≠ none → state.slot = none)
    (hfree : phase.holds = true → state.slot = none) (hne : (state.enter call phase).holder ≠ none)
    : (state.enter call phase).slot = none := by
  simp only [State.enter] at hne ⊢
  split at hne
  . next hholds => exact hfree hholds
  . split at hne
    . exact absurd rfl hne
    . exact hempty hne

theorem Good.enter (h : Good state) (howed : Owed state call phase)
    (hfree : phase.holds = true → state.slot = none ∧ (state.holder = none ∨ state.holder = some call))
    : Good (state.enter call phase) where
  calls := calls_enter (fun other _ => h.calls other) howed
  holder := holder_enter h.holder fun hholds => (hfree hholds).2
  empty := empty_enter h.empty fun hholds => (hfree hholds).1
  slot := h.slot
  verified := h.verified
  next := h.next
  generations := h.generations

theorem Good.leave (h : Good state) (howed : Owed state call phase) (hholds : phase.holds = false)
    : Good (state.enter call phase) := by
  apply h.enter howed
  intro hcontrary
  rw [hholds] at hcontrary
  cases hcontrary

theorem generations_succ (count : Nat)
    : generations (count + 1) = generations count ++ [UInt64.ofNat (1 + count)] := by
  simp [generations, List.range_succ]

theorem Good.publish (h : Good state) {connection : Connection}
    (hholds : (state.phases call).holds = true) (hnone : sends call state.sent = 0)
    (hverified : state.requireSafeConfiguration = true → connection ∈ state.verified)
    : Good (state.publish call connection) := by
  have hholder := (h.holder call).mpr hholds
  refine ⟨?_, ?_, ?_, ?_, ?_, ?_, ?_⟩
  . apply calls_enter
    . intro other _
      exact (h.calls other).mono rfl (List.subset_append_left ..) (List.Subset.refl _)
        (List.Subset.refl _)
    . exact ⟨hnone, List.mem_append_right _ (List.mem_singleton_self _)⟩
  . apply holder_enter h.holder
    intro hcontrary
    cases hcontrary
  . simp [State.publish, State.enter, Phase.holds, hholder]
  . intro generation connection' hslot
    cases hslot
    exact List.mem_append_right _ (List.mem_singleton_self _)
  . intro hsafe generation connection' hmem
    rcases List.mem_append.mp hmem with hmem | hmem
    . exact h.verified hsafe generation connection' hmem
    . cases List.mem_singleton.mp hmem
      exact hverified hsafe
  . change state.nextGeneration + 1 = _
    rw [h.next]
    simp only [State.publish, State.enter, List.length_append, List.length_singleton]
    rw [← Nat.add_assoc, UInt64.ofNat_add (1 + state.published.length) 1]
    rfl
  . simp only [State.publish, State.enter, List.map_append, List.map_singleton, List.length_append,
      List.length_singleton, generations_succ, h.generations, h.next]

theorem Good.send (h : Good state) {generation : Generation} {connection : Connection}
    (howed : Owed state call (.acquired generation connection))
    : Good ({ state with sent := state.sent ++ [(call, generation, connection)] }.enter call
        (.sent generation connection)) := by
  have hsends : ∀ other, sends other (state.sent ++ [(call, generation, connection)])
      = sends other state.sent + if call = other then 1 else 0 := by
    intro other
    simp [sends, List.countP_append, List.countP_singleton]
  refine ⟨?_, ?_, ?_, h.slot, h.verified, h.next, h.generations⟩
  . apply calls_enter
    . intro other hother
      have hsame : sends other (state.sent ++ [(call, generation, connection)])
          = sends other state.sent := by
        rw [hsends, if_neg (Ne.symm hother), Nat.add_zero]
      exact (h.calls other).mono hsame (List.Subset.refl _) (List.subset_append_left ..)
        (List.Subset.refl _)
    . have honce : sends call (state.sent ++ [(call, generation, connection)]) ≤ 1 := by
        have hnone : sends call state.sent = 0 := howed.1
        rw [hsends, if_pos rfl]
        omega
      exact ⟨honce, howed.2, List.mem_append_right _ (List.mem_singleton_self _)⟩
  . apply holder_enter h.holder
    intro hcontrary
    cases hcontrary
  . apply empty_enter h.empty
    intro hcontrary
    cases hcontrary

theorem Good.fail (h : Good state) {generation : Generation} {connection : Connection}
    (howed : Owed state call (.sent generation connection))
    : Good ({ state with failures := state.failures ++ [(call, generation)] }.enter call
        (.failed generation)) := by
  have hgood : Good { state with failures := state.failures ++ [(call, generation)] } := by
    refine ⟨?_, h.holder, h.empty, h.slot, h.verified, h.next, h.generations⟩
    intro other
    exact (h.calls other).mono rfl (List.Subset.refl _) (List.Subset.refl _)
      (List.subset_append_left ..)
  apply hgood.leave _ rfl
  exact ⟨howed.1, List.mem_append_right _ (List.mem_singleton_self _), connection, howed.2⟩

theorem Good.discard (h : Good state) {generation : Generation}
    (howed : Owed state call (.failed generation)) : Good (state.discard call generation) := by
  have hgood : Good { state with
      slot := if state.slot.map Prod.fst = some generation then none else state.slot } := by
    refine ⟨h.calls, h.holder, ?_, ?_, h.verified, h.next, h.generations⟩
    . intro hne
      simp [h.empty hne]
    . intro generation' connection' hslot
      dsimp only at hslot
      split at hslot
      . cases hslot
      . exact h.slot generation' connection' hslot
  exact hgood.leave howed.once rfl

theorem Good.connected (h : Good state) (hphase : state.phases call = .connecting)
    : Good (state.connected call) := by
  have howed := h.calls call
  have hholder := (h.holder call).mpr (by rw [hphase]; rfl)
  have hgood : Good { state with nextConnection := state.nextConnection + 1 } :=
    ⟨h.calls, h.holder, h.empty, h.slot, h.verified, h.next, h.generations⟩
  rw [hphase] at howed
  unfold State.connected
  dsimp only
  split
  . apply hgood.enter
    . exact howed
    . intro _
      exact ⟨h.empty (by rw [hholder]; exact Option.some_ne_none call), .inr hholder⟩
  . next hunsafe =>
    apply hgood.publish _ howed
    . intro hsafe
      exact absurd hsafe hunsafe
    . dsimp only
      rw [hphase]
      rfl

theorem Good.configured (h : Good state) {connection : Connection}
    (hphase : state.phases call = .verifying connection)
    : Good ({ state with verified := connection :: state.verified }.publish call connection) := by
  have howed := h.calls call
  rw [hphase] at howed
  have hgood : Good { state with verified := connection :: state.verified } := by
    refine ⟨h.calls, h.holder, h.empty, h.slot, ?_, h.next, h.generations⟩
    intro hsafe generation connection' hmem
    exact List.mem_cons_of_mem _ (h.verified hsafe generation connection' hmem)
  apply hgood.publish _ howed
  . intro _
    exact List.mem_cons_self
  . dsimp only
    rw [hphase]
    rfl

-- What a step comes to.
inductive Acts (state : State) : State → Prop where
  | stay : Acts state state
  | start {call : Nat} : state.phases call = .idle → Acts state (state.enter call .waiting)
  | share {call : Nat} {generation : Generation} {connection : Connection} : state.phases call = .waiting
    → state.slot = some (generation, connection)
    → Acts state (state.enter call (.acquired generation connection))
  | connect {call : Nat} : state.holder = none → state.phases call = .waiting → state.slot = none
    → Acts state (state.enter call .connecting)
  | connected {call : Nat} : state.phases call = .connecting → Acts state (state.connected call)
  | configured {call : Nat} {connection : Connection} : state.phases call = .verifying connection
    → Acts state ({ state with verified := connection :: state.verified }.publish call connection)
  | send {call : Nat} {generation : Generation} {connection : Connection}
    : state.phases call = .acquired generation connection
    → Acts state ({ state with sent := state.sent ++ [(call, generation, connection)] }.enter call
        (.sent generation connection))
  | fail {call : Nat} {generation : Generation} {connection : Connection}
    : state.phases call = .sent generation connection
    → Acts state ({ state with failures := state.failures ++ [(call, generation)] }.enter call
        (.failed generation))
  | discard {call : Nat} {generation : Generation} : state.phases call = .failed generation
    → Acts state (state.discard call generation)
  | finish {call : Nat} : Acts state (state.enter call .finished)

theorem acts_lock (hfree : state.holder = none) : Acts state (state.step (.lock call)) := by
  simp only [State.step, hfree, Option.isSome_none, Bool.false_eq_true, if_false]
  split
  . next hphase =>
    split
    . next hslot => exact .share hphase hslot
    . next hslot => exact .connect hfree hphase hslot
  . next hphase => exact .discard hphase
  . exact .stay

theorem acts_step (state : State) (event : Event) : Acts state (state.step event) := by
  cases event with
  | start call =>
    simp only [State.step]
    split
    . next hphase => exact .start hphase
    . exact .stay
  | lock call =>
    cases hholder : state.holder with
    | none => exact acts_lock hholder
    | some other =>
      simp only [State.step, hholder, Option.isSome_some, if_true]
      exact .stay
  | lockTimeout call =>
    simp only [State.step]
    split
    . exact .finish
    . exact .stay
  | connect call connected =>
    simp only [State.step]
    split
    . next hphase =>
      split
      . exact .connected hphase
      . exact .finish
    . exact .stay
  | configuration call fields =>
    simp only [State.step]
    split
    . next hphase =>
      split
      . exact .configured hphase
      . exact .finish
    . exact .stay
  | send call =>
    simp only [State.step]
    split
    . next hphase => exact .send hphase
    . exact .stay
  | reply call succeeds =>
    simp only [State.step]
    split
    . next hphase =>
      split
      . exact .finish
      . exact .fail hphase
    . exact .stay
  | drop call =>
    simp only [State.step]
    split
    . exact .stay
    . exact .finish

theorem Good.acts (h : Good state) {next : State} (hacts : Acts state next) : Good next := by
  cases hacts with
  | stay => exact h
  | @start call hphase =>
    have howed := h.calls call
    rw [hphase] at howed
    exact h.leave howed rfl
  | @share call generation connection hphase hslot =>
    have howed := h.calls call
    rw [hphase] at howed
    exact h.leave ⟨howed, h.slot generation connection hslot⟩ rfl
  | @connect call hfree hphase hslot =>
    have howed := h.calls call
    rw [hphase] at howed
    have hconnecting : Owed state call .connecting := howed
    apply h.enter hconnecting
    exact fun _ => ⟨hslot, .inl hfree⟩
  | connected hphase => exact h.connected hphase
  | configured hphase => exact h.configured hphase
  | @send call generation connection hphase =>
    have howed := h.calls call
    rw [hphase] at howed
    exact h.send howed
  | @fail call generation connection hphase =>
    have howed := h.calls call
    rw [hphase] at howed
    exact h.fail howed
  | @discard call generation hphase =>
    have howed := h.calls call
    rw [hphase] at howed
    exact h.discard howed
  | @finish call => exact h.leave (h.calls call).once rfl

theorem good_run (requireSafeConfiguration : Bool) (events : List Event)
    : Good (State.run requireSafeConfiguration events) := by
  induction events using List.reverseRecOn with
  | nil => exact good_initial requireSafeConfiguration
  | append_singleton events event ih =>
    rw [State.run, List.foldl_append]
    exact ih.acts (acts_step _ event)

theorem Acts.requireSafeConfiguration {next : State} (h : Acts state next)
    : next.requireSafeConfiguration = state.requireSafeConfiguration := by
  cases h with
  | connected hphase =>
    unfold State.connected
    split
    . rfl
    . rfl
  | _ => rfl

theorem requireSafeConfiguration_run (requireSafeConfiguration : Bool) (events : List Event)
    : (State.run requireSafeConfiguration events).requireSafeConfiguration
        = requireSafeConfiguration := by
  induction events using List.reverseRecOn with
  | nil => rfl
  | append_singleton events event ih =>
    rw [State.run, List.foldl_append]
    exact (acts_step _ event).requireSafeConfiguration.trans ih

-- A slot that is full changes only by a call that has failed on the generation in it.
theorem Good.slot_acts (h : Good state) {next : State} (hacts : Acts state next)
    : next.slot = state.slot
      ∨ state.slot = none
      ∨ ∃ call generation, state.phases call = .failed generation
        ∧ state.slot.map Prod.fst = some generation
        ∧ next.slot = none := by
  have hholds : ∀ call, (state.phases call).holds = true → state.slot = none := by
    intro call hphase
    apply h.empty
    rw [(h.holder call).mpr hphase]
    exact Option.some_ne_none call
  cases hacts with
  | connected hphase => exact .inr (.inl (hholds _ (by rw [hphase]; rfl)))
  | configured hphase => exact .inr (.inl (hholds _ (by rw [hphase]; rfl)))
  | @discard call generation hphase =>
    by_cases hcurrent : state.slot.map Prod.fst = some generation
    . exact .inr (.inr ⟨call, generation, hphase, hcurrent, if_pos hcurrent⟩)
    . exact .inl (if_neg hcurrent)
  | _ => exact .inl rfl

end

theorem toNat_ofNat_generation {n : Nat} (h : n + 1 < 2 ^ 64) : (UInt64.ofNat (1 + n)).toNat = 1 + n :=
  UInt64.toNat_ofNat_of_lt' (show 1 + n < 2 ^ 64 by omega)

theorem pairwise_generations {count : Nat} (h : count < 2 ^ 64)
    : (generations count).Pairwise (· < ·) := by
  rw [generations, List.pairwise_map]
  apply List.pairwise_lt_range.imp_of_mem
  intro left right hleft hright hlt
  rw [List.mem_range] at hleft hright
  rw [UInt64.lt_iff_toNat_lt, toNat_ofNat_generation (by omega), toNat_ofNat_generation (by omega)]
  omega

theorem Good.connection_unique {state : State} (h : Good state)
    (hcount : state.published.length < 2 ^ 64)
    {generation : Generation} {left right : Connection} (hleft : (generation, left) ∈ state.published)
    (hright : (generation, right) ∈ state.published) : left = right := by
  have hnodup : (state.published.map Prod.fst).Nodup := by
    rw [h.generations]
    exact (pairwise_generations hcount).imp fun hlt => UInt64.ne_of_lt hlt
  have heq := List.inj_on_of_nodup_map hnodup hleft hright rfl
  exact congrArg Prod.snd heq

theorem slot_discipline (requireSafeConfiguration : Bool) (events : List Event)
    : let state := State.run requireSafeConfiguration events
      (∀ call, sends call state.sent ≤ 1)
      ∧ (requireSafeConfiguration = true → ∀ generation connection,
        state.slot = some (generation, connection) → connection ∈ state.verified)
      ∧ (state.published.length < 2 ^ 64 → (state.published.map Prod.fst).Pairwise (· < ·))
      ∧ ∀ event generation connection, state.slot = some (generation, connection)
        → (state.step event).slot ≠ some (generation, connection)
        → (state.step event).slot = none
          ∧ ∃ call connection', (call, generation, connection') ∈ state.sent
            ∧ (call, generation) ∈ state.failures
            ∧ (state.published.length < 2 ^ 64 → connection' = connection) := by
  intro state
  have hgood : Good state := good_run requireSafeConfiguration events
  refine ⟨fun call => (hgood.calls call).once, ?_, ?_, ?_⟩
  . intro hsafe generation connection hslot
    have hrequire : state.requireSafeConfiguration = true :=
      (requireSafeConfiguration_run requireSafeConfiguration events).trans hsafe
    exact hgood.verified hrequire generation connection (hgood.slot generation connection hslot)
  . intro hcount
    rw [hgood.generations]
    exact pairwise_generations hcount
  . intro event generation connection hslot hleaves
    rcases hgood.slot_acts (acts_step state event) with hsame | hnone | ⟨call, failed, hphase, hcurrent, hnone⟩
    . exact absurd (hsame.trans hslot) hleaves
    . rw [hslot] at hnone
      cases hnone
    . rw [hslot] at hcurrent
      cases hcurrent
      have howed := hgood.calls call
      rw [hphase] at howed
      rcases howed with ⟨-, hfailed, connection', hpublished, hsent⟩
      refine ⟨hnone, call, connection', hsent, hfailed, ?_⟩
      intro hcount
      exact hgood.connection_unique hcount hpublished (hgood.slot generation connection hslot)

-- A call that connects, sends its command and fails.
def cycle (call : Nat) : List Event :=
  [.start call, .lock call, .connect call true, .send call, .reply call false, .lock call]

structure Restful (state : State) (count : Nat) : Prop where
  unchecked : state.requireSafeConfiguration = false
  slot : state.slot = none
  holder : state.holder = none
  idle : ∀ call, count ≤ call → state.phases call = .idle
  length : state.published.length = count

theorem Restful.foldl_cycle {state : State} {count : Nat} (h : Restful state count)
    : (cycle count).foldl State.step state = { state with
        nextGeneration := state.nextGeneration + 1
        nextConnection := state.nextConnection + 1
        phases := Function.update state.phases count .finished
        published := state.published ++ [(state.nextGeneration, state.nextConnection)]
        sent := state.sent ++ [(count, state.nextGeneration, state.nextConnection)]
        failures := state.failures ++ [(count, state.nextGeneration)] } := by
  have hidle := h.idle count (Nat.le_refl count)
  simp [cycle, State.step, State.enter, State.connected, State.publish, State.discard, Phase.holds,
    hidle, h.slot, h.holder, h.unchecked]

theorem Restful.cycle {state : State} {count : Nat} (h : Restful state count)
    : Restful ((Slot.cycle count).foldl State.step state) (count + 1) := by
  rw [h.foldl_cycle]
  refine ⟨h.unchecked, h.slot, h.holder, ?_, ?_⟩
  . intro call hcall
    have hne : call ≠ count := by omega
    dsimp only
    rw [Function.update_of_ne hne]
    exact h.idle call (by omega)
  . dsimp only
    rw [List.length_append, h.length, List.length_singleton]

theorem restful_cycles (count : Nat)
    : Restful (State.run false ((List.range count).flatMap cycle)) count := by
  induction count with
  | zero => exact ⟨rfl, rfl, rfl, fun _ _ => rfl, rfl⟩
  | succ count ih =>
    rw [List.range_succ, List.flatMap_append, List.flatMap_singleton, State.run, List.foldl_append]
    exact ih.cycle

theorem not_pairwise_generations {count : Nat} (h : 2 ^ 64 ≤ count)
    : ¬(generations count).Pairwise (· < ·) := by
  intro hpairwise
  rw [generations, List.pairwise_map, List.pairwise_iff_getElem] at hpairwise
  have hlt := hpairwise 0 (2 ^ 64 - 1) (by rw [List.length_range]; omega)
    (by rw [List.length_range]; omega) (by omega)
  rw [List.getElem_range, List.getElem_range] at hlt
  exact absurd hlt (by decide)

theorem generations_wrap
    : ¬((State.run false ((List.range (2 ^ 64)).flatMap cycle)).published.map Prod.fst).Pairwise
        (· < ·) := by
  have hlength := (restful_cycles (2 ^ 64)).length
  rw [(good_run false _).generations, hlength]
  exact not_pairwise_generations (Nat.le_refl _)

end Server.Slot
