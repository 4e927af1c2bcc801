/-!
Scripts that run atomically against a state. A command may fail; a failing command aborts the
script that calls it, and nothing undoes the commands before it. The environment of one run fixes
the clock and the set of sites whose commands are denied.
-/

structure Environment (Site : Type) where
  now : Nat
  denied : Site → Bool

abbrev Command (Site σ α : Type) := Environment Site → σ → Option (α × σ)

structure Script (Site σ α : Type) where
  run : Environment Site → σ → Option α × σ

def Command.guarded {Site σ α : Type} (site : Site) (command : Command Site σ α)
    : Command Site σ α :=
  fun env state => if env.denied site then none else command env state

namespace Script

variable {Site σ α β : Type}

protected def bind (x : Script Site σ α) (f : α → Script Site σ β) : Script Site σ β where
  run env state :=
    match x.run env state with
    | (none, state) => (none, state)
    | (some a, state) => (f a).run env state

instance : Monad (Script Site σ) where
  pure a := { run := fun _ state => (some a, state) }
  bind := Script.bind

def abort : Script Site σ α where
  run _ state := (none, state)

def now : Script Site σ Nat where
  run env state := (some env.now, state)

def nonNil : Option α → Script Site σ α
  | none => abort
  | some a => pure a

-- An error aborts the script.
def call (command : Command Site σ α) : Script Site σ α where
  run env state :=
    match command env state with
    | none => (none, state)
    | some (a, state) => (some a, state)

-- An error is returned to the script.
def pcall (command : Command Site σ α) : Script Site σ (Option α) where
  run env state :=
    match command env state with
    | none => (some none, state)
    | some (a, state) => (some (some a), state)

section

variable {env : Environment Site} {state : σ}

@[simp]
theorem run_pure (a : α) : (pure a : Script Site σ α).run env state = (some a, state) := rfl

@[simp]
theorem run_now : (now : Script Site σ Nat).run env state = (some env.now, state) := rfl

@[simp]
theorem run_nonNil_some (a : α)
    : (nonNil (some a) : Script Site σ α).run env state = (some a, state) :=
  rfl

theorem run_bind (x : Script Site σ α) (f : α → Script Site σ β)
    : (x >>= f).run env state
        = match x.run env state with
          | (none, state) => (none, state)
          | (some a, state) => (f a).run env state :=
  rfl

theorem bind_of_some {x : Script Site σ α} {a : α} {state' : σ} (f : α → Script Site σ β)
    (h : x.run env state = (some a, state')) : (x >>= f).run env state = (f a).run env state' := by
  rw [run_bind, h]

theorem bind_of_none {x : Script Site σ α} {state' : σ} (f : α → Script Site σ β)
    (h : x.run env state = (none, state')) : (x >>= f).run env state = (none, state') := by
  rw [run_bind, h]

theorem run_call {command : Command Site σ α} {a : α} {state' : σ}
    (h : command env state = some (a, state'))
    : (call command).run env state = (some a, state') := by
  simp only [call, h]

theorem run_pcall {command : Command Site σ α} {a : α} {state' : σ}
    (h : command env state = some (a, state'))
    : (pcall command).run env state = (some (some a), state') := by
  simp only [pcall, h]

theorem run_call_denied {command : Command Site σ α} {site : Site} (h : env.denied site = true)
    : (call (command.guarded site)).run env state = (none, state) := by
  simp only [call, Command.guarded, h, if_true]

theorem run_call_allowed {command : Command Site σ α} {site : Site} {a : α} {state' : σ}
    (hsite : env.denied site = false) (h : command env state = some (a, state'))
    : (call (command.guarded site)).run env state = (some a, state') := by
  simp only [call, Command.guarded, hsite, Bool.false_eq_true, if_false, h]

theorem run_pcall_denied {command : Command Site σ α} {site : Site} (h : env.denied site = true)
    : (pcall (command.guarded site)).run env state = (some none, state) := by
  simp only [pcall, Command.guarded, h, if_true]

theorem run_pcall_failed {command : Command Site σ α} {site : Site}
    (hsite : env.denied site = false) (h : command env state = none)
    : (pcall (command.guarded site)).run env state = (some none, state) := by
  simp only [pcall, Command.guarded, hsite, Bool.false_eq_true, if_false, h]

theorem run_pcall_allowed {command : Command Site σ α} {site : Site} {a : α} {state' : σ}
    (hsite : env.denied site = false) (h : command env state = some (a, state'))
    : (pcall (command.guarded site)).run env state = (some (some a), state') := by
  simp only [pcall, Command.guarded, hsite, Bool.false_eq_true, if_false, h]

end

end Script
