import Erase.Library.Lists
import Erase.Web.Worker

namespace Web

-- What is observed of the workers: the events, and what each of them causes.
inductive WorkerEntry (π ρ : Type) where
  | event (event : CryptoWorker.Event π ρ)
  | effect (effect : CryptoWorker.Effect π ρ)

abbrev Workers.Trace (π ρ : Type) := List (WorkerEntry π ρ)

structure Workers (π ρ : Type) where
  crypto : CryptoWorker π
  trace : Workers.Trace π ρ

namespace Workers

open CryptoWorker

variable {π ρ : Type}

def start : Workers π ρ where
  crypto := .new
  trace := []

def Trace.record (trace : Trace π ρ) (event : CryptoWorker.Event π ρ) (effects : List (Effect π ρ))
    : Trace π ρ :=
  trace ++ .event event :: effects.map .effect

def step (workers : Workers π ρ) (event : CryptoWorker.Event π ρ) : Workers π ρ :=
  let (crypto, effects) := handle event workers.crypto
  { crypto, trace := workers.trace.record event effects }

def run (workers : Workers π ρ) (events : List (CryptoWorker.Event π ρ)) : Workers π ρ :=
  events.foldl step workers

-- A worker answers what was posted to it, and only a constructed worker has events.
def Possible (workers : Workers π ρ) : CryptoWorker.Event π ρ → Prop
  | .message worker id _ => ∃ promise, .effect (.post worker id promise) ∈ workers.trace
  | .error worker => worker < workers.crypto.created
  | .messageerror worker => worker < workers.crypto.created
  | _ => True

def isFailureOf (worker : Nat) : CryptoWorker.Event π ρ → Bool
  | .error other => other = worker
  | .messageerror other => other = worker
  | _ => false

-- No worker fails while another one is in its place.
def FailsInPlace (workers : Workers π ρ) (event : CryptoWorker.Event π ρ) : Prop :=
  ∀ failed current, isFailureOf failed event = true → workers.crypto.worker = some current
    → failed = current

namespace Trace

def settledId : WorkerEntry π ρ → Option Nat
  | .effect (.settle id _ _) => some id
  | _ => none

-- An event that settles an earlier request of a worker.
def Answers (worker id : Nat) (outcome : Outcome ρ) : CryptoWorker.Event π ρ → Prop
  | .message worker' id' result => worker' = worker ∧ id' = id ∧ outcome = reply result
  | .error worker' => worker' = worker ∧ outcome = .rejected (.workerFailure "worker_failed")
  | .messageerror worker' => worker' = worker ∧ outcome = .rejected (.workerFailure "worker_failed")
  | .dispose => outcome = .rejected .abortError
  | .run _ _ => False

-- Why the promise of a request is settled at the end of the trace.
def Settles (before : Trace π ρ) (id : Nat) (promise : π) (outcome : Outcome ρ) : Prop :=
  ∃ (earlier : Trace π ρ) (event : CryptoWorker.Event π ρ) (middle : List (Effect π ρ)) (worker : Nat),
    before = earlier.record event middle
    ∧ (.effect (.post worker id promise) ∈ earlier ∧ Answers worker id outcome event
      ∨ event = .run promise false ∧ middle = [.post worker id promise]
        ∧ outcome = .rejected (.workerFailure "worker_failed"))

-- Why a worker is terminated at the end of the trace.
def Terminates (before : Trace π ρ) (worker : Nat) : Prop :=
  ∃ (earlier : Trace π ρ) (event : CryptoWorker.Event π ρ) (middle : List (Effect π ρ)),
    before = earlier.record event middle
    ∧ (event = .dispose ∨ event = .error worker ∨ event = .messageerror worker)

structure Isolated (trace : Trace π ρ) : Prop where
  once : (trace.filterMap settledId).Nodup
  settles : ∀ (before after : Trace π ρ) id promise outcome,
    trace = before ++ .effect (.settle id promise outcome) :: after
      → before.Settles id promise outcome
  terminates : ∀ (before after : Trace π ρ) worker,
    trace = before ++ .effect (.terminate worker) :: after → before.Terminates worker

section

variable {trace : Trace π ρ} {event : CryptoWorker.Event π ρ} {effects : List (Effect π ρ)}

theorem filterMap_record : (trace.record event effects).filterMap settledId
    = trace.filterMap settledId ++ effects.filterMap fun effect => settledId (.effect effect) := by
  unfold record
  rw [List.filterMap_append, List.filterMap_cons_none rfl, List.filterMap_map]
  rfl

theorem effect_mem_record {effect : Effect π ρ}
    : .effect effect ∈ trace.record event effects ↔ .effect effect ∈ trace ∨ effect ∈ effects := by
  simp [record]

-- Where an effect of the last event stands.
theorem split_step {before after : Trace π ρ} {effect : Effect π ρ}
    (h : trace.record event effects = before ++ .effect effect :: after)
    : (∃ rest, trace = before ++ .effect effect :: rest)
      ∨ ∃ middle rest, before = trace.record event middle ∧ effects = middle ++ effect :: rest := by
  rcases List.split_append h with hrest | ⟨middle, rfl, hmiddle⟩
  . exact .inl hrest
  . cases middle with
    | nil => cases hmiddle
    | cons head middle =>
      rcases List.cons.inj hmiddle with ⟨rfl, htail⟩
      rcases List.map_eq_append_iff.mp htail with ⟨left, right, rfl, rfl, hright⟩
      rcases List.map_eq_cons_iff.mp hright with ⟨found, rest, rfl, hfound, -⟩
      cases hfound
      exact .inr ⟨left, rest, rfl, rfl⟩

theorem Isolated.append (h : trace.Isolated)
    (honce : (effects.filterMap fun effect => settledId (.effect effect)).Nodup)
    (hfresh : ∀ id ∈ effects.filterMap fun effect => settledId (.effect effect),
      id ∉ trace.filterMap settledId)
    (hsettles : ∀ middle rest id promise outcome, effects = middle ++ .settle id promise outcome :: rest
      → (trace.record event middle).Settles id promise outcome)
    (hterminates : ∀ middle rest worker, effects = middle ++ .terminate worker :: rest
      → (trace.record event middle).Terminates worker)
    : (trace.record event effects).Isolated where
  once := by
    rw [filterMap_record]
    exact List.Nodup.append h.once honce fun id hold hnew => hfresh id hnew hold
  settles before after id promise outcome hsplit := by
    rcases split_step hsplit with ⟨rest, htrace⟩ | ⟨middle, rest, rfl, heffects⟩
    . exact h.settles before rest id promise outcome htrace
    . exact hsettles middle rest id promise outcome heffects
  terminates before after worker hsplit := by
    rcases split_step hsplit with ⟨rest, htrace⟩ | ⟨middle, rest, rfl, heffects⟩
    . exact h.terminates before rest worker htrace
    . exact hterminates middle rest worker heffects

end

end Trace

-- What holds of the pending requests.
structure Coherent (workers : Workers π ρ) : Prop where
  isolated : Trace.Isolated workers.trace
  past : ∀ worker id promise, .effect (.post worker id promise) ∈ workers.trace
    → id ≤ workers.crypto.sequence
  unique : ∀ worker worker' id promise promise',
    .effect (.post worker id promise) ∈ workers.trace
      → .effect (.post worker' id promise') ∈ workers.trace → worker = worker'
  nodup : (workers.crypto.pending.map Prod.fst).Nodup
  pending : ∀ id promise, (id, promise) ∈ workers.crypto.pending
    → id ∉ workers.trace.filterMap Trace.settledId
      ∧ ∃ worker, workers.crypto.worker = some worker
        ∧ .effect (.post worker id promise) ∈ workers.trace
  settled : ∀ id, id ∈ workers.trace.filterMap Trace.settledId → id ≤ workers.crypto.sequence

section

variable {workers : Workers π ρ} {event : CryptoWorker.Event π ρ}

theorem Coherent.of_id_mem (h : Coherent workers) {id : Nat}
    (hid : id ∈ workers.crypto.pending.map Prod.fst)
    : id ≤ workers.crypto.sequence ∧ id ∉ workers.trace.filterMap Trace.settledId := by
  rcases List.mem_map.mp hid with ⟨⟨id, promise⟩, hmem, rfl⟩
  rcases h.pending id promise hmem with ⟨hfresh, worker, -, hpost⟩
  exact ⟨h.past worker id promise hpost, hfresh⟩

-- The effects of an event settle what was pending or is new, and post under a new identifier only.
theorem Coherent.append (h : Coherent workers) {crypto : CryptoWorker π} {effects : List (Effect π ρ)}
    (hisolated : (workers.trace.record event effects).Isolated)
    (hsequence : workers.crypto.sequence ≤ crypto.sequence)
    (hposts : ∀ worker id promise, .post worker id promise ∈ effects
      → workers.crypto.sequence < id ∧ id ≤ crypto.sequence ∧ crypto.worker = some worker)
    (hsettled : ∀ id ∈ effects.filterMap fun effect => Trace.settledId (.effect effect),
      id ≤ crypto.sequence)
    (hnodup : (crypto.pending.map Prod.fst).Nodup)
    (hpending : ∀ id promise, (id, promise) ∈ crypto.pending
      → id ∉ (effects.filterMap fun effect => Trace.settledId (.effect effect))
        ∧ id ∉ workers.trace.filterMap Trace.settledId
        ∧ ∃ worker, crypto.worker = some worker
          ∧ (.effect (.post worker id promise) ∈ workers.trace ∨ .post worker id promise ∈ effects))
    : Coherent { crypto, trace := workers.trace.record event effects } := by
  refine ⟨hisolated, ?_, ?_, hnodup, ?_, ?_⟩
  . intro worker id promise hpost
    rcases Trace.effect_mem_record.mp hpost with hold | hnew
    . exact (h.past worker id promise hold).trans hsequence
    . exact (hposts worker id promise hnew).2.1
  . intro worker worker' id promise promise' hpost hpost'
    rcases Trace.effect_mem_record.mp hpost with hold | hnew
    . rcases Trace.effect_mem_record.mp hpost' with hold' | hnew'
      . exact h.unique worker worker' id promise promise' hold hold'
      . have := h.past worker id promise hold
        have := (hposts worker' id promise' hnew').1
        omega
    . rcases Trace.effect_mem_record.mp hpost' with hold' | hnew'
      . have := h.past worker' id promise' hold'
        have := (hposts worker id promise hnew).1
        omega
      . have hworker := (hposts worker id promise hnew).2.2
        rw [(hposts worker' id promise' hnew').2.2] at hworker
        exact (Option.some.inj hworker).symm
  . intro id promise hid
    rcases hpending id promise hid with ⟨hnew, hold, worker, hworker, hpost⟩
    dsimp only
    rw [Trace.filterMap_record]
    exact ⟨fun hsettled => (List.mem_append.mp hsettled).elim hold hnew, worker, hworker,
      Trace.effect_mem_record.mpr hpost⟩
  . intro id hid
    dsimp only at hid
    rw [Trace.filterMap_record] at hid
    rcases List.mem_append.mp hid with hold | hnew
    . exact (h.settled id hold).trans hsequence
    . exact hsettled id hnew

-- A failure settles what is pending, and nothing is pending on another worker.
theorem coherent_fail (h : Coherent workers) {error : Failure}
    (hhandle : (handle event workers.crypto : _ × List (Effect π ρ)) = workers.crypto.fail error)
    (hanswers : ∀ worker id, workers.crypto.worker = some worker
      → Trace.Answers worker id (.rejected error) event)
    (hterminates : ∀ worker, workers.crypto.worker = some worker
      → event = .dispose ∨ event = .error worker ∨ event = .messageerror worker)
    : Coherent (step workers event) := by
  have heffects : ∀ effect ∈ (workers.crypto.fail error : _ × List (Effect π ρ)).2,
      (∃ worker, workers.crypto.worker = some worker ∧ effect = .terminate worker)
        ∨ ∃ id promise, (id, promise) ∈ workers.crypto.pending
          ∧ effect = .settle id promise (.rejected error) := by
    intro effect hmem
    rcases List.mem_append.mp hmem with hmem | hmem
    . rcases List.mem_map.mp hmem with ⟨worker, hworker, rfl⟩
      exact .inl ⟨worker, Option.mem_toList.mp hworker, rfl⟩
    . rcases List.mem_map.mp hmem with ⟨⟨id, promise⟩, hpending, rfl⟩
      exact .inr ⟨id, promise, hpending, rfl⟩
  have hids : ((workers.crypto.fail error : _ × List (Effect π ρ)).2.filterMap
      fun effect => Trace.settledId (.effect effect)) = workers.crypto.pending.map Prod.fst := by
    unfold fail
    rw [List.filterMap_append, List.filterMap_map, List.filterMap_map]
    have hterminated : workers.crypto.worker.toList.filterMap ((fun effect : Effect π ρ =>
        Trace.settledId (.effect effect)) ∘ .terminate) = [] :=
      List.filterMap_eq_nil_iff.mpr fun _ _ => rfl
    rw [hterminated, List.nil_append]
    exact congrFun (List.filterMap_eq_map (f := Prod.fst)) workers.crypto.pending
  have hstep : step workers event = {
      crypto := (workers.crypto.fail error : _ × List (Effect π ρ)).1
      trace := workers.trace.record event (workers.crypto.fail error).2 } := by
    unfold step
    rw [hhandle]
  rw [hstep]
  apply h.append
  . apply h.isolated.append
    . rw [hids]
      exact h.nodup
    . intro id hid
      rw [hids] at hid
      exact (h.of_id_mem hid).2
    . intro middle rest id promise outcome hsplit
      rcases heffects (.settle id promise outcome) (by rw [hsplit]; simp)
        with ⟨worker, -, heffect⟩ | ⟨id', promise', hpending, heffect⟩
      . cases heffect
      . cases heffect
        rcases (h.pending id promise hpending).2 with ⟨worker, hworker, hpost⟩
        exact ⟨_, _, _, worker, rfl, .inl ⟨hpost, hanswers worker id hworker⟩⟩
    . intro middle rest worker hsplit
      rcases heffects (.terminate worker) (by rw [hsplit]; simp)
        with ⟨worker', hworker, heffect⟩ | ⟨id, promise, -, heffect⟩
      . cases heffect
        exact ⟨_, _, _, rfl, hterminates worker hworker⟩
      . cases heffect
  . exact Nat.le_refl _
  . intro worker id promise hpost
    rcases heffects _ hpost with ⟨worker, -, heffect⟩ | ⟨id, promise, -, heffect⟩
    . cases heffect
    . cases heffect
  . intro id hid
    rw [hids] at hid
    exact (h.of_id_mem hid).1
  . exact List.nodup_nil
  . intro id promise hmem
    cases hmem

theorem coherent_message (h : Coherent workers) {worker id : Nat} (result : Except String ρ)
    (hpossible : Possible workers (.message worker id result))
    : Coherent (step workers (.message worker id result)) := by
  have hquiet : ∀ event, Coherent { workers with trace := workers.trace.record event [] } := by
    intro event
    apply h.append
    . apply h.isolated.append
      . exact List.nodup_nil
      . simp
      . simp
      . simp
    . exact Nat.le_refl _
    . simp
    . simp
    . exact h.nodup
    . intro id promise hmem
      rcases h.pending id promise hmem with ⟨hfresh, worker, hworker, hpost⟩
      exact ⟨by simp, hfresh, worker, hworker, .inl hpost⟩
  cases hlookup : workers.crypto.pending.lookup id with
  | none =>
    have hstep : step workers (.message worker id result) = { workers with
        trace := workers.trace.record (.message worker id result) [] } := by
      unfold step handle onmessage
      simp only [hlookup]
    rw [hstep]
    exact hquiet _
  | some promise =>
    have hstep : step workers (.message worker id result) = {
        crypto := { workers.crypto with
          pending := workers.crypto.pending.filter fun entry => entry.1 ≠ id }
        trace := workers.trace.record (.message worker id result)
          [.settle id promise (reply result)] } := by
      unfold step handle onmessage
      simp only [hlookup]
    rw [hstep]
    rcases hpossible with ⟨promise', hposted⟩
    have hmem := List.mem_of_lookup hlookup
    rcases h.pending id promise hmem with ⟨hfresh, current, hworker, hpost⟩
    have hsame := h.unique current worker id promise promise' hpost hposted
    apply h.append
    . apply h.isolated.append
      . exact List.nodup_singleton id
      . intro id' hid
        rw [List.mem_singleton.mp hid]
        exact hfresh
      . intro middle rest id' promise'' outcome hsplit
        rcases List.singleton_eq_append_cons hsplit with ⟨rfl, hsettle⟩
        cases hsettle
        exact ⟨_, _, _, worker, rfl, .inl ⟨hsame ▸ hpost, rfl, rfl, rfl⟩⟩
      . intro middle rest worker hsplit
        rcases List.singleton_eq_append_cons hsplit with ⟨-, hsettle⟩
        cases hsettle
    . exact Nat.le_refl _
    . simp
    . intro id' hid
      rw [List.mem_singleton.mp hid]
      exact h.past current id promise hpost
    . exact h.nodup.sublist (List.filter_sublist.map _)
    . intro id' promise' hmem'
      rcases List.mem_filter.mp hmem' with ⟨hmem', hne⟩
      rcases h.pending id' promise' hmem' with ⟨hfresh', worker', hworker', hpost'⟩
      refine ⟨?_, hfresh', worker', hworker', .inl hpost'⟩
      intro hid
      simp [List.mem_singleton.mp hid] at hne

theorem coherent_run (h : Coherent workers) (promise : π) (posts : Bool)
    : Coherent (step workers (.run promise posts)) := by
  have hold : ∀ id promise, (id, promise) ∈ workers.crypto.pending
      → id ≤ workers.crypto.sequence ∧ id ∉ workers.trace.filterMap Trace.settledId
        ∧ ∃ worker, workers.crypto.worker.getD workers.crypto.created = worker
          ∧ .effect (.post worker id promise) ∈ workers.trace := by
    intro id promise hmem
    rcases h.pending id promise hmem with ⟨hfresh, worker, hworker, hpost⟩
    exact ⟨h.past worker id promise hpost, hfresh, worker, by rw [hworker, Option.getD_some], hpost⟩
  have hids : ∀ id ∈ workers.crypto.pending.map Prod.fst, id ≤ workers.crypto.sequence :=
    fun id hid => (h.of_id_mem hid).1
  have hfresh : workers.crypto.sequence + 1 ∉ workers.trace.filterMap Trace.settledId := by
    intro hid
    have := h.settled _ hid
    omega
  have hnodup : ((workers.crypto.pending ++ [(workers.crypto.sequence + 1, promise)]).map
      Prod.fst).Nodup := by
    rw [List.map_append]
    apply List.Nodup.append h.nodup (List.nodup_singleton _)
    intro id hid hnew
    have := hids id hid
    rw [List.mem_singleton.mp hnew] at this
    simp at this
  cases posts with
  | true =>
    apply h.append
    . apply h.isolated.append
      . exact List.nodup_nil
      . simp [Trace.settledId]
      . intro middle rest id promise outcome hsplit
        rcases List.singleton_eq_append_cons hsplit with ⟨-, heffect⟩
        cases heffect
      . intro middle rest worker hsplit
        rcases List.singleton_eq_append_cons hsplit with ⟨-, heffect⟩
        cases heffect
    . exact Nat.le_succ _
    . intro worker id promise hpost
      cases List.mem_singleton.mp hpost
      exact ⟨Nat.lt_succ_self _, Nat.le_refl _, rfl⟩
    . simp [Trace.settledId]
    . exact hnodup
    . intro id promise hmem
      rcases List.mem_append.mp hmem with hmem | hmem
      . rcases hold id promise hmem with ⟨-, hsettled, worker, hworker, hpost⟩
        exact ⟨by simp [Trace.settledId], hsettled, worker, congrArg some hworker, .inl hpost⟩
      . cases List.mem_singleton.mp hmem
        exact ⟨by simp [Trace.settledId], hfresh, _, rfl, .inr (List.mem_singleton.mpr rfl)⟩
  | false =>
    apply h.append
    . apply h.isolated.append
      . exact List.nodup_singleton _
      . intro id hid
        cases List.mem_singleton.mp hid
        exact hfresh
      . intro middle rest id promise outcome hsplit
        cases middle with
        | nil => cases hsplit
        | cons head middle =>
          rcases List.cons.inj hsplit with ⟨rfl, htail⟩
          rcases List.singleton_eq_append_cons htail with ⟨rfl, heffect⟩
          cases heffect
          exact ⟨_, _, _, _, rfl, .inr ⟨rfl, rfl, rfl⟩⟩
      . intro middle rest worker hsplit
        have hmem : .terminate worker ∈ middle ++ .terminate worker :: rest := by simp
        rw [← hsplit] at hmem
        rcases List.mem_cons.mp hmem with heffect | hmem
        . cases heffect
        . cases List.mem_singleton.mp hmem
    . exact Nat.le_succ _
    . intro worker id promise hpost
      rcases List.mem_cons.mp hpost with heffect | hpost
      . cases heffect
        exact ⟨Nat.lt_succ_self _, Nat.le_refl _, rfl⟩
      . cases List.mem_singleton.mp hpost
    . intro id hid
      cases List.mem_singleton.mp hid
      exact Nat.le_refl _
    . exact hnodup.sublist (List.filter_sublist.map _)
    . intro id promise hmem
      rcases List.mem_filter.mp hmem with ⟨hmem, hne⟩
      rcases List.mem_append.mp hmem with hmem | hmem
      . rcases hold id promise hmem with ⟨hid, hsettled, worker, hworker, hpost⟩
        refine ⟨?_, hsettled, worker, congrArg some hworker, .inl hpost⟩
        intro hnew
        rw [List.mem_singleton.mp hnew] at hid
        simp at hid
      . cases List.mem_singleton.mp hmem
        simp at hne

theorem coherent_step (h : Coherent workers) (hpossible : Possible workers event)
    (hplace : FailsInPlace workers event) : Coherent (step workers event) := by
  cases event with
  | run promise posts => exact coherent_run h promise posts
  | dispose =>
    apply coherent_fail h rfl
    . exact fun _ _ _ => rfl
    . exact fun _ _ => .inl rfl
  | message worker id result => exact coherent_message h result hpossible
  | error worker =>
    apply coherent_fail h rfl
    . exact fun current _ hworker => ⟨hplace worker current (by simp [isFailureOf]) hworker, rfl⟩
    . intro current hworker
      rw [hplace worker current (by simp [isFailureOf]) hworker]
      exact .inr (.inl rfl)
  | messageerror worker =>
    apply coherent_fail h rfl
    . exact fun current _ hworker => ⟨hplace worker current (by simp [isFailureOf]) hworker, rfl⟩
    . intro current hworker
      rw [hplace worker current (by simp [isFailureOf]) hworker]
      exact .inr (.inr rfl)

theorem coherent_start : Coherent (start : Workers π ρ) where
  isolated := {
    once := List.nodup_nil
    settles := by
      intro before after id promise outcome hsplit
      simp [start] at hsplit
    terminates := by
      intro before after worker hsplit
      simp [start] at hsplit }
  past _ _ _ hmem := by cases hmem
  unique _ _ _ _ _ hmem := by cases hmem
  nodup := List.nodup_nil
  pending _ _ hmem := by cases hmem
  settled _ hmem := by cases hmem

theorem trace_run (events : List (CryptoWorker.Event π ρ))
    : ∃ later, (run workers events).trace = workers.trace ++ later := by
  induction events generalizing workers with
  | nil => exact ⟨[], (List.append_nil _).symm⟩
  | cons event events ih =>
    rcases @ih (step workers event) with ⟨later, hlater⟩
    exact ⟨_, hlater.trans (List.append_assoc _ _ _)⟩

-- A worker that fails out of its place takes the current one down.
theorem not_isolated_of_misplaced (hmisplaced : ¬FailsInPlace workers event) (later : Trace π ρ)
    : ¬Trace.Isolated ((step workers event).trace ++ later) := by
  intro hisolated
  unfold FailsInPlace at hmisplaced
  push Not at hmisplaced
  rcases hmisplaced with ⟨failed, current, hfailed, hcurrent, hne⟩
  have hhandle : (handle event workers.crypto : _ × List (Effect π ρ)).2
      = .terminate current :: workers.crypto.pending.map fun entry =>
        .settle entry.1 entry.2 (.rejected (.workerFailure "worker_failed")) := by
    cases event with
    | error worker => simp [handle, onerror, fail, hcurrent]
    | messageerror worker => simp [handle, onmessageerror, fail, hcurrent]
    | _ => cases hfailed
  have htrace : (step workers event).trace = workers.trace.record event
      ((handle event workers.crypto : _ × List (Effect π ρ)).2) := rfl
  rw [htrace, hhandle] at hisolated
  have hterminate : ∀ rest : List (Effect π ρ),
      workers.trace.record event (.terminate current :: rest) ++ later
        = (workers.trace ++ [.event event]) ++ .effect (.terminate current)
          :: (rest.map .effect ++ later) := by
    intro rest
    unfold Trace.record
    simp
  rcases hisolated.terminates _ _ current (hterminate _) with ⟨earlier, cause, middle, hsplit, hcause⟩
  have hevent : cause = event := by
    unfold Trace.record at hsplit
    rcases List.eq_nil_or_concat middle with rfl | ⟨middle, last, rfl⟩
    . rcases List.append_inj' hsplit rfl with ⟨-, hlast⟩
      cases hlast
      rfl
    . rw [List.map_concat, List.concat_eq_append, ← List.cons_append, ← List.append_assoc] at hsplit
      rcases List.append_inj' hsplit rfl with ⟨-, hlast⟩
      cases hlast
  subst hevent
  rcases hcause with rfl | rfl | rfl
  . cases hfailed
  . exact hne (of_decide_eq_true hfailed).symm
  . exact hne (of_decide_eq_true hfailed).symm

-- Exactly the runs without a misplaced failure keep the workers apart.
theorem isolated_iff_failsInPlace {events : List (CryptoWorker.Event π ρ)}
    (hpossible : Runs.Along step Possible start events)
    : (run start events).trace.Isolated ↔ Runs.Along step FailsInPlace start events := by
  constructor
  . intro hisolated
    by_contra hmisplaced
    rcases Runs.exists_of_not_along hmisplaced with ⟨before, event, after, rfl, hevent⟩
    rcases @trace_run _ _ (step (before.foldl step start) event) after with ⟨later, hlater⟩
    apply not_isolated_of_misplaced hevent later
    rw [← hlater]
    unfold run at hisolated ⊢
    rwa [List.foldl_append] at hisolated
  . intro hplace
    have hcoherent := Runs.invariant (I := Coherent)
      (fun h hstep => coherent_step h hstep.1 hstep.2) coherent_start (hpossible.and hplace)
    exact hcoherent.isolated

end

-- A worker that has been disposed of fails while the next one works.
def exampleLate : List (CryptoWorker.Event Nat Nat) :=
  [.run 0 true, .dispose, .run 1 true, .error 0]

theorem not_isolated_exampleLate
    : ¬∀ events : List (CryptoWorker.Event Nat Nat), Runs.Along step Possible start events
        → (run start events).trace.Isolated := by
  intro hisolated
  have hpossible : Runs.Along step Possible start exampleLate := by
    simp [exampleLate, Runs.Along, Possible, step, start, handle, CryptoWorker.run, dispose, fail,
      CryptoWorker.new]
  have hmisplaced : ¬FailsInPlace (run start [.run 0 true, .dispose, .run 1 true])
      (.error 0 : CryptoWorker.Event Nat Nat) := by
    intro hplace
    cases hplace 0 1 rfl rfl
  apply not_isolated_of_misplaced hmisplaced []
  rw [List.append_nil]
  exact hisolated exampleLate hpossible

def exampleReply : List (CryptoWorker.Event Nat Nat) :=
  [.run 0 true, .message 0 1 (.ok 5), .run 1 true, .dispose, .error 0, .run 2 false, .error 1]

theorem isolated_iff_failsInPlace_exampleReply : (run start exampleReply).trace.Isolated := by
  have hpossible : Runs.Along step Possible start exampleReply := by
    simp [exampleReply, Runs.Along, Possible, step, start, handle, CryptoWorker.run, dispose, fail,
      onmessage, onerror, CryptoWorker.new, Trace.record]
  have hplace : Runs.Along step FailsInPlace start exampleReply := by
    simp [exampleReply, Runs.Along, FailsInPlace, isFailureOf, step, start, handle, CryptoWorker.run,
      dispose, fail, onmessage, onerror, CryptoWorker.new]
  exact (isolated_iff_failsInPlace hpossible).mpr hplace

end Workers

end Web
