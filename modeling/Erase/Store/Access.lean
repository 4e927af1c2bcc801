import Erase.Store.Release

namespace Store

open Server Server.Lua Valkey Script

theorem foldl_or_eq_zero_iff (pairs : List (UInt8 × UInt8)) (difference : UInt8)
    : pairs.foldl (fun difference (x, y) => difference ||| (x ^^^ y)) difference = 0
        ↔ difference = 0 ∧ ∀ pair ∈ pairs, pair.1 = pair.2 := by
  induction pairs generalizing difference with
  | nil => simp
  | cons pair pairs ih =>
    rw [List.foldl_cons, ih]
    simp [and_assoc]

theorem eq_of_mem_zip_self {bytes : Bytes} {pair : UInt8 × UInt8} (h : pair ∈ bytes.zip bytes)
    : pair.1 = pair.2 := by
  induction bytes with
  | nil => simp at h
  | cons byte bytes ih =>
    rw [List.zip_cons_cons, List.mem_cons] at h
    rcases h with rfl | h
    . rfl
    . exact ih h

theorem constantEqual_iff {a : Option Bytes} {b : Bytes}
    : constantEqual a b = true ↔ a = some b ∧ b.length = 64 := by
  unfold constantEqual
  cases a with
  | none => simp
  | some a =>
  by_cases hlength : a.length ≠ 64 ∨ b.length ≠ 64
  . simp only [hlength, if_true, Bool.false_eq_true, false_iff, not_and, Option.some.injEq]
    rintro rfl
    simpa using hlength
  . have hsame : a.length = b.length := by omega
    simp only [hlength, if_false, decide_eq_true_eq, foldl_or_eq_zero_iff, true_and,
      Option.some.injEq]
    constructor
    . intro h
      have hzip : (a.zip b).map Prod.fst = (a.zip b).map Prod.snd := List.map_congr_left h
      rw [List.map_fst_zip (by omega), List.map_snd_zip (by omega)] at hzip
      exact ⟨hzip, by omega⟩
    . rintro ⟨rfl, -⟩ pair hpair
      exact eq_of_mem_zip_self hpair

def Note.capability (note : Note) : Operation → Option Bytes
  | .metadata => some note.peek
  | .checkOpen => some note.read
  | .openNote => some note.read
  | .deleteNote => some note.revoke
  | .other => none

def Note.Authorizes (note : Note) (operation : Operation) (hash : Bytes) : Prop :=
  note.capability operation = some hash ∧ hash.length = 64

theorem lookup_capability {operation : Operation} {field : Bytes} (note : Note)
    (h : Lua.Operation.capability operation = some field)
    : note.fields.lookup field = note.capability operation := by
  cases operation with
  | other => cases h
  | _ =>
    cases h
    simp [Note.capability]

-- Every way an access script ends, with what it answers and what it leaves behind.
inductive Accessed (env : Environment Site) (ledger : Ledger) (id hash : Bytes)
    : Operation → Option Reply → Ledger → Prop where
  | missing {operation} (habsent : ledger.notes id = none)
    : Accessed env ledger id hash operation (some .unavailable) ledger
  | expired {operation note outcome ledger'} (hnote : ledger.notes id = some note)
      (hexpired : note.expires ≤ env.now / 1000) (hreleased : Released env ledger id outcome ledger')
    : Accessed env ledger id hash operation (outcome.map fun _ => .unavailable) ledger'
  | unknown {note} (hnote : ledger.notes id = some note) (hlive : env.now / 1000 < note.expires)
    : Accessed env ledger id hash .other (some .capacity) ledger
  | refused {operation note} (hnote : ledger.notes id = some note)
      (hlive : env.now / 1000 < note.expires) (hknown : operation ≠ .other)
      (hrefused : ¬note.Authorizes operation hash)
    : Accessed env ledger id hash operation (some .unavailable) ledger
  | exhausted {operation note outcome ledger'} (hnote : ledger.notes id = some note)
      (hlive : env.now / 1000 < note.expires) (hallowed : note.Authorizes operation hash)
      (hexhausted : note.remaining = 0) (hreleased : Released env ledger id outcome ledger')
    : Accessed env ledger id hash operation (outcome.map fun _ => .unavailable) ledger'
  | checked {note} (hnote : ledger.notes id = some note) (hlive : env.now / 1000 < note.expires)
      (hallowed : note.Authorizes .checkOpen hash) (hsome : 1 ≤ note.remaining)
    : Accessed env ledger id hash .checkOpen (some (.ok [])) ledger
  | described {note} (hnote : ledger.notes id = some note) (hlive : env.now / 1000 < note.expires)
      (hallowed : note.Authorizes .metadata hash) (hsome : 1 ≤ note.remaining)
    : Accessed env ledger id hash .metadata
        (some (.ok [note.header, tostring note.expires, tostring note.remaining])) ledger
  | deleted {note outcome ledger'} (hnote : ledger.notes id = some note)
      (hlive : env.now / 1000 < note.expires) (hallowed : note.Authorizes .deleteNote hash)
      (hsome : 1 ≤ note.remaining) (hreleased : Released env ledger id outcome ledger')
    : Accessed env ledger id hash .deleteNote (outcome.map fun _ => .ok []) ledger'
  | openedLast {note outcome ledger'} (hnote : ledger.notes id = some note)
      (hlive : env.now / 1000 < note.expires) (hallowed : note.Authorizes .openNote hash)
      (hlast : note.remaining = 1) (hreleased : Released env ledger id outcome ledger')
    : Accessed env ledger id hash .openNote (outcome.map fun _ => .ok [note.packet]) ledger'
  | opened {note} (hnote : ledger.notes id = some note) (hlive : env.now / 1000 < note.expires)
      (hallowed : note.Authorizes .openNote hash) (hmore : 2 ≤ note.remaining)
      (hsite : env.denied .decrement = false)
    : Accessed env ledger id hash .openNote (some (.ok [note.packet]))
        (ledger.setNote id (some { note with remaining := note.remaining - 1 }))
  | undecremented {note} (hnote : ledger.notes id = some note)
      (hlive : env.now / 1000 < note.expires) (hallowed : note.Authorizes .openNote hash)
      (hmore : 2 ≤ note.remaining) (hsite : env.denied .decrement = true)
    : Accessed env ledger id hash .openNote none ledger

section

variable {env : Environment Site} {ledger : Ledger} {id hash : Bytes}

-- A script that releases a note and then answers.
theorem run_release_answer {operation : Operation} {reply : Reply}
    (hend : ∀ {outcome ledger'}, Released env ledger id outcome ledger'
      → Accessed env ledger id hash operation (outcome.map fun _ => reply) ledger')
    : ∃ answer ledger', (do
          releaseNote (.note id) id .notes .charges .bytes
          return reply : Lua Reply).run env ledger.keyspace = (answer, ledger'.keyspace)
        ∧ Accessed env ledger id hash operation answer ledger' := by
  rcases run_releaseNote env ledger id with ⟨outcome, ledger', hrun, hreleased⟩
  refine ⟨outcome.map fun _ => reply, ledger', ?_, hend hreleased⟩
  cases outcome with
  | none => rw [bind_of_none _ hrun, Option.map_none]
  | some _ => rw [bind_of_some _ hrun, run_pure, Option.map_some]

end

theorem run_access (env : Environment Site) (ledger : Ledger) (id hash : Bytes)
    (operation : Operation)
    : ∃ answer ledger', (access id hash operation).run env ledger.keyspace
          = (answer, ledger'.keyspace)
        ∧ Accessed env ledger id hash operation answer ledger' := by
  unfold access
  rw [bind_of_some _ (ledgerTypes_keyspace ledger), if_neg (by decide),
    bind_of_some _ (run_call (isPresent_note ledger))]
  cases hnote : ledger.notes id with
  | none =>
    rw [if_pos (by simp)]
    exact ⟨_, ledger, rfl, .missing hnote⟩
  | some note =>
  have hexpires : tonumber ((note.fields.lookup Field.expires).getD zero) = some note.expires := by
    rw [Note.lookup_expires]
    exact Decimal.parse?_print _
  rw [if_neg (by simp), bind_of_some _ (run_call (hget_note ledger hnote _)), hexpires,
    bind_of_some _ (run_nonNil_some _), bind_of_some _ run_nowSeconds]
  by_cases hlive : note.expires ≤ env.now / 1000
  . rw [if_pos hlive]
    exact run_release_answer (.expired hnote hlive)
  rw [if_neg hlive]
  rw [Nat.not_le] at hlive
  cases hfield : Lua.Operation.capability operation with
  | none =>
    cases operation with
    | other => exact ⟨_, ledger, rfl, .unknown hnote hlive⟩
    | _ => cases hfield
  | some field =>
  dsimp only
  rw [bind_of_some _ (run_call (hget_note ledger hnote _)), lookup_capability note hfield]
  by_cases hallowed : note.Authorizes operation hash
  case neg =>
    rw [if_pos (mt constantEqual_iff.mp hallowed)]
    refine ⟨_, ledger, rfl, .refused hnote hlive ?_ hallowed⟩
    rintro rfl
    cases hfield
  have hremaining : tonumber ((note.fields.lookup Field.remaining).getD zero)
      = some note.remaining := by
    rw [Note.lookup_remaining]
    exact Decimal.parse?_print _
  rw [if_neg (not_not.mpr (constantEqual_iff.mpr hallowed)),
    bind_of_some _ (run_call (hget_note ledger hnote _)), hremaining,
    bind_of_some _ (run_nonNil_some _)]
  by_cases hsome : note.remaining < 1
  . rw [if_pos hsome]
    exact run_release_answer (.exhausted hnote hlive hallowed (by omega))
  rw [if_neg hsome]
  rw [Nat.not_lt] at hsome
  cases operation with
  | other => cases hfield
  | checkOpen => exact ⟨_, ledger, rfl, .checked hnote hlive hallowed hsome⟩
  | metadata =>
    rw [if_neg nofun, if_pos rfl, bind_of_some _ (run_call (hget_note ledger hnote _)),
      Note.lookup_header]
    exact ⟨_, ledger, rfl, .described hnote hlive hallowed hsome⟩
  | deleteNote =>
    rw [if_neg nofun, if_neg nofun, if_pos rfl]
    exact run_release_answer (.deleted hnote hlive hallowed hsome)
  | openNote =>
    rw [if_neg nofun, if_neg nofun, if_neg nofun, bind_of_some _ (run_call (hget_note ledger hnote _)),
      Note.lookup_packet]
    dsimp only
    by_cases hlast : note.remaining = 1
    . rw [if_pos hlast]
      exact run_release_answer (.openedLast hnote hlive hallowed hlast)
    rw [if_neg hlast]
    cases hsite : env.denied .decrement with
    | true =>
      rw [bind_of_none _ (run_call_denied hsite)]
      exact ⟨none, ledger, rfl, .undecremented hnote hlive hallowed (by omega) hsite⟩
    | false =>
      rcases hincrby_note ledger hnote hsome with ⟨count, hcount⟩
      rw [bind_of_some _ (run_call_allowed hsite hcount)]
      exact ⟨_, _, rfl, .opened hnote hlive hallowed (by omega) hsite⟩

end Store
