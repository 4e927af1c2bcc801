import Erase.Shared.Encoding

namespace Web.TextMetrics

def chunkUnits : Nat := 65536

structure Measurement where
  bytes : Nat
  lines : Nat
  pending : Bool
  deriving DecidableEq

structure Progress where
  offset : Nat
  bytes : Nat
  lines : Nat
  deriving DecidableEq

def Progress.start : Progress := ⟨0, 0, 1⟩

-- `text.charCodeAt(index)`, within the text
def codeAt (text : JsString) (index : Nat) : Nat := (text.getD index 0).toNat

-- One turn of the loop.
def scanUnit (text : JsString) (progress : Progress) : Progress :=
  let code := codeAt text progress.offset
  let offset := progress.offset + 1
  let lines := if code = 10 then progress.lines + 1 else progress.lines
  if code < 0x80 then ⟨offset, progress.bytes + 1, lines⟩
  else if code < 0x800 then ⟨offset, progress.bytes + 2, lines⟩
  else if 0xD800 ≤ code ∧ code ≤ 0xDBFF ∧ offset < text.length
      ∧ 0xDC00 ≤ codeAt text offset ∧ codeAt text offset ≤ 0xDFFF then
    ⟨offset + 1, progress.bytes + 4, lines⟩
  else ⟨offset, progress.bytes + 3, lines⟩

-- The loop, with a bound on its turns.
def scan (text : JsString) (stop : Nat) : (turns : Nat) → Progress → Progress
  | 0, progress => progress
  | turns + 1, progress =>
    if progress.offset < stop then scan text stop turns (scanUnit text progress) else progress

-- The object, the timers that are set and the reports that it has made.
structure State where
  text : JsString
  progress : Progress
  timer : Option Nat
  scheduled : List Nat
  nextTimer : Nat
  reports : List Measurement
  deriving DecidableEq

def State.initial : State := ⟨[], .start, none, [], 0, []⟩

inductive Event where
  | update (text : JsString)
  | clear
  -- The callback of a timer, if it is still set.
  | tick (timer : Nat)
  deriving DecidableEq

namespace State

variable (chunk : Nat) (state : State)

def report (measurement : Measurement) : State :=
  { state with reports := state.reports ++ [measurement] }

def clearTimeout : State :=
  { state with
    timer := none
    scheduled := state.scheduled.filter fun timer => some timer ≠ state.timer }

def setTimeout : State :=
  { state with
    timer := some state.nextTimer
    scheduled := state.scheduled ++ [state.nextTimer]
    nextTimer := state.nextTimer + 1 }

def step : State :=
  let stop := min state.text.length (state.progress.offset + chunk)
  let progress := scan state.text stop (stop - state.progress.offset) state.progress
  let state := { state with progress }
  if progress.offset < state.text.length then state.setTimeout
  else { state with timer := none }.report ⟨progress.bytes, progress.lines, false⟩

def restart (text : JsString) : State :=
  { state.clearTimeout with text, progress := .start }

def update (text : JsString) : State :=
  if text = state.text ∧ (state.progress.offset ≠ 0 ∨ text.length = 0) then state
  else if text.length > chunk then ((state.restart text).report ⟨0, 1, true⟩).step chunk
  else (state.restart text).step chunk

def clear : State := (state.restart []).report ⟨0, 1, false⟩

def handle : Event → State
  | .update text => state.update chunk text
  | .clear => state.clear
  | .tick timer =>
    if timer ∈ state.scheduled then
      { state with scheduled := state.scheduled.erase timer }.step chunk
    else state

def run (chunk : Nat) (events : List Event) : State := events.foldl (handle chunk) initial

end State

-- The measure in one pass.
def measure (text : JsString) : Measurement :=
  ⟨(Shared.encoderEncode text).length, 1 + text.count 10, false⟩

section

variable {text rest : JsString} {unit next : UInt16} {progress : Progress}

theorem length_encode_cons (c : Char) (text : List Char)
    : (Utf8.encode (c :: text)).length = c.utf8Size + (Utf8.encode text).length := by
  rw [Utf8.encode_cons, List.length_append, String.length_utf8EncodeChar]

theorem scalars_pair (hleading : JsString.isLeading unit = true)
    (htrailing : JsString.isTrailing next = true)
    : JsString.scalars (unit :: next :: rest) = JsString.ofPair unit next :: JsString.scalars rest := by
  simp [JsString.scalars, hleading, htrailing]

theorem scalars_single
    (h : ¬(JsString.isLeading unit = true ∧ rest.head?.any JsString.isTrailing = true))
    : JsString.scalars (unit :: rest)
        = (if JsString.isLeading unit || JsString.isTrailing unit then '\uFFFD'
          else Char.ofNat unit.toNat) :: JsString.scalars rest := by
  cases rest with
  | nil =>
    simp only [JsString.scalars]
    split
    . rfl
    . rfl
  | cons next rest =>
    cases hleading : JsString.isLeading unit with
    | true =>
      have htrailing : JsString.isTrailing next = false := by simpa [hleading] using h
      simp [JsString.scalars, hleading, htrailing]
    | false =>
      cases hunit : JsString.isTrailing unit with
      | true => simp [JsString.scalars, hleading, hunit]
      | false => simp [JsString.scalars, hleading, hunit]

theorem utf8Size_eq (c : Char)
    : c.utf8Size = if c.toNat < 0x80 then 1 else if c.toNat < 0x800 then 2
        else if c.toNat < 0x10000 then 3 else 4 := by
  have hval : c.toNat = c.val.toNat := rfl
  split
  . rw [Char.utf8Size_eq_one_iff, UInt32.le_iff_toNat_le]
    change c.val.toNat ≤ 127
    omega
  . split
    . rw [Char.utf8Size_eq_two_iff, UInt32.le_iff_toNat_le, UInt32.lt_iff_toNat_lt]
      change 127 < c.val.toNat ∧ c.val.toNat ≤ 0x7FF
      omega
    . split
      . rw [Char.utf8Size_eq_three_iff, UInt32.le_iff_toNat_le, UInt32.lt_iff_toNat_lt]
        change 0x7FF < c.val.toNat ∧ c.val.toNat ≤ 0xFFFF
        omega
      . rw [Char.utf8Size_eq_four_iff, UInt32.lt_iff_toNat_lt]
        change 0xFFFF < c.val.toNat
        omega

theorem toNat_ofNat {n : Nat} (h : n < 0xD800 ∨ (0xDFFF < n ∧ n < 0x110000))
    : (Char.ofNat n).toNat = n := by
  have hvalid : n.isValidChar := h
  rw [Char.ofNat, dif_pos hvalid]
  rfl

theorem utf8Size_ofPair (hleading : JsString.isLeading unit = true)
    (htrailing : JsString.isTrailing next = true) : (JsString.ofPair unit next).utf8Size = 4 := by
  simp only [JsString.isLeading, JsString.isTrailing, Bool.and_eq_true, decide_eq_true_eq]
    at hleading htrailing
  rw [utf8Size_eq, JsString.ofPair, toNat_ofNat (by omega)]
  rw [if_neg (by omega), if_neg (by omega), if_neg (by omega)]

-- The bytes that the loop counts for one code unit, outside a pair.
def width (unit : UInt16) : Nat :=
  if unit.toNat < 0x80 then 1 else if unit.toNat < 0x800 then 2 else 3

theorem length_encoderEncode_single
    (h : ¬(JsString.isLeading unit = true ∧ rest.head?.any JsString.isTrailing = true))
    : (Shared.encoderEncode (unit :: rest)).length
        = width unit + (Shared.encoderEncode rest).length := by
  rw [Shared.encoderEncode, scalars_single h, length_encode_cons, Shared.encoderEncode]
  congr 1
  unfold width
  split
  . next hlone =>
    have hreplacement : ('\uFFFD').utf8Size = 3 := by decide
    simp only [JsString.isLeading, JsString.isTrailing, Bool.or_eq_true, Bool.and_eq_true,
      decide_eq_true_eq] at hlone
    rw [hreplacement, if_neg (by omega), if_neg (by omega)]
  . next hscalar =>
    have hlt := unit.toNat_lt
    simp only [JsString.isLeading, JsString.isTrailing, Bool.or_eq_true, Bool.and_eq_true,
      decide_eq_true_eq] at hscalar
    rw [utf8Size_eq, toNat_ofNat (by omega)]
    have hbmp : unit.toNat < 0x10000 := by omega
    simp only [hbmp, if_true]

theorem length_encoderEncode_pair (hleading : JsString.isLeading unit = true)
    (htrailing : JsString.isTrailing next = true)
    : (Shared.encoderEncode (unit :: next :: rest)).length
        = 4 + (Shared.encoderEncode rest).length := by
  rw [Shared.encoderEncode, scalars_pair hleading htrailing, length_encode_cons,
    utf8Size_ofPair hleading htrailing, Shared.encoderEncode]

theorem getElem?_of_drop {index : Nat} (h : text.drop index = unit :: rest)
    : text[index]? = some unit := by
  rw [← List.head?_drop, h]
  rfl

theorem codeAt_of_drop {index : Nat} (h : text.drop index = unit :: rest)
    : codeAt text index = unit.toNat := by
  rw [codeAt, List.getD_eq_getElem?_getD, getElem?_of_drop h]
  rfl

theorem drop_succ_of_drop {index : Nat} (h : text.drop index = unit :: rest)
    : text.drop (index + 1) = rest := by
  rw [← List.tail_drop, h]
  rfl

theorem length_of_drop {index : Nat} (h : text.drop index = unit :: rest)
    : text.length = index + 1 + rest.length := by
  have hlength := congrArg List.length h
  rw [List.length_drop, List.length_cons] at hlength
  omega

-- Where the loop sees a pair.
theorem scanUnit_of_pair (h : text.drop progress.offset = unit :: next :: rest)
    (hleading : JsString.isLeading unit = true) (htrailing : JsString.isTrailing next = true)
    : scanUnit text progress = ⟨progress.offset + 2, progress.bytes + 4, progress.lines⟩ := by
  have hcode := codeAt_of_drop h
  have hnext := codeAt_of_drop (drop_succ_of_drop h)
  have hlength := length_of_drop h
  rw [List.length_cons] at hlength
  simp only [JsString.isLeading, JsString.isTrailing, Bool.and_eq_true, decide_eq_true_eq]
    at hleading htrailing
  unfold scanUnit
  simp only [hcode, hnext]
  rw [if_neg (show ¬unit.toNat < 0x80 by omega), if_neg (show ¬unit.toNat < 0x800 by omega),
    if_pos (by omega), if_neg (show ¬unit.toNat = 10 by omega)]

theorem scanUnit_of_single (h : text.drop progress.offset = unit :: rest)
    (hsingle : ¬(JsString.isLeading unit = true ∧ rest.head?.any JsString.isTrailing = true))
    : scanUnit text progress = ⟨progress.offset + 1, progress.bytes + width unit,
        if unit.toNat = 10 then progress.lines + 1 else progress.lines⟩ := by
  have hcode := codeAt_of_drop h
  have hlength := length_of_drop h
  unfold scanUnit width
  simp only [hcode]
  by_cases hone : unit.toNat < 0x80
  . rw [if_pos hone, if_pos hone]
  . rw [if_neg hone, if_neg hone]
    by_cases htwo : unit.toNat < 0x800
    . rw [if_pos htwo, if_pos htwo]
    . rw [if_neg htwo, if_neg htwo, if_neg]
      intro hpair
      apply hsingle
      cases rest with
      | nil =>
        rw [List.length_nil] at hlength
        omega
      | cons next rest =>
        have hnext := codeAt_of_drop (drop_succ_of_drop h)
        simp only [JsString.isLeading, JsString.isTrailing, List.head?_cons, Option.any_some,
          Bool.and_eq_true, decide_eq_true_eq]
        omega

-- What is counted, with what is left to count, makes the measure.
structure Progress.Agrees (progress : Progress) (text : JsString) : Prop where
  offset_le : progress.offset ≤ text.length
  bytes : progress.bytes + (Shared.encoderEncode (text.drop progress.offset)).length
    = (Shared.encoderEncode text).length
  lines : progress.lines + (text.drop progress.offset).count 10 = 1 + text.count 10

theorem Progress.agrees_start (text : JsString) : Progress.start.Agrees text where
  offset_le := by simp [Progress.start]
  bytes := by simp [Progress.start]
  lines := by simp [Progress.start]

theorem Progress.Agrees.measure_eq (h : progress.Agrees text) (hoffset : text.length ≤ progress.offset)
    : (⟨progress.bytes, progress.lines, false⟩ : Measurement) = measure text := by
  have hdrop : text.drop progress.offset = [] := List.drop_eq_nil_of_le hoffset
  have hbytes := h.bytes
  have hlines := h.lines
  have hnil : (Shared.encoderEncode []).length = 0 := by decide
  rw [hdrop] at hbytes hlines
  rw [List.count_nil] at hlines
  rw [measure, Measurement.mk.injEq]
  exact ⟨by omega, by omega, rfl⟩

theorem count_ten_cons (unit : UInt16) (rest : JsString)
    : (unit :: rest).count 10 = (if unit.toNat = 10 then 1 else 0) + rest.count 10 := by
  have hten : (unit == 10) = decide (unit.toNat = 10) := by
    rw [Bool.eq_iff_iff, beq_iff_eq, decide_eq_true_eq, ← UInt16.toNat_inj]
    rfl
  rw [List.count_cons, hten]
  simp only [decide_eq_true_eq]
  omega

theorem scanUnit_agrees (h : progress.Agrees text) (hlt : progress.offset < text.length)
    : (scanUnit text progress).Agrees text ∧ progress.offset < (scanUnit text progress).offset := by
  rcases hdrop : text.drop progress.offset with _ | ⟨unit, rest⟩
  . rw [List.drop_eq_nil_iff] at hdrop
    omega
  . have hbytes := h.bytes
    have hlines := h.lines
    have hlength := length_of_drop hdrop
    rw [hdrop] at hbytes hlines
    rw [count_ten_cons] at hlines
    by_cases hpair : JsString.isLeading unit = true ∧ rest.head?.any JsString.isTrailing = true
    . rcases hpair with ⟨hleading, htrailing⟩
      cases rest with
      | nil => cases htrailing
      | cons next rest =>
        rw [List.head?_cons, Option.any_some] at htrailing
        have hrest : text.drop (progress.offset + 2) = rest :=
          drop_succ_of_drop (drop_succ_of_drop hdrop)
        rw [length_encoderEncode_pair hleading htrailing] at hbytes
        rw [count_ten_cons] at hlines
        rw [List.length_cons] at hlength
        simp only [JsString.isLeading, JsString.isTrailing, Bool.and_eq_true, decide_eq_true_eq]
          at hleading htrailing
        rw [if_neg (by omega), if_neg (by omega)] at hlines
        rw [scanUnit_of_pair hdrop (by simpa [JsString.isLeading] using hleading)
          (by simpa [JsString.isTrailing] using htrailing)]
        refine ⟨⟨?_, ?_, ?_⟩, ?_⟩
        . dsimp only
          omega
        . dsimp only
          rw [hrest]
          omega
        . dsimp only
          rw [hrest]
          omega
        . dsimp only
          omega
    . have hrest := drop_succ_of_drop hdrop
      rw [length_encoderEncode_single hpair] at hbytes
      rw [scanUnit_of_single hdrop hpair]
      refine ⟨⟨?_, ?_, ?_⟩, ?_⟩
      . dsimp only
        omega
      . dsimp only
        rw [hrest]
        omega
      . dsimp only
        rw [hrest]
        split at hlines
        . next hten =>
          rw [if_pos hten]
          omega
        . next hten =>
          rw [if_neg hten]
          omega
      . dsimp only
        omega

-- The loop gets to its end, within or one past the pair that lies there.
theorem scan_agrees {stop turns : Nat} (h : progress.Agrees text) (hstop : stop ≤ text.length)
    (hturns : stop - progress.offset ≤ turns)
    : (scan text stop turns progress).Agrees text
      ∧ stop ≤ (scan text stop turns progress).offset
      ∧ progress.offset ≤ (scan text stop turns progress).offset := by
  induction turns generalizing progress with
  | zero => exact ⟨h, by rw [scan]; omega, by rw [scan]⟩
  | succ turns ih =>
    rw [scan]
    by_cases hlt : progress.offset < stop
    . rw [if_pos hlt]
      rcases scanUnit_agrees h (by omega) with ⟨hagrees, hgrows⟩
      rcases ih hagrees (by omega) with ⟨hscan, hreached, hle⟩
      exact ⟨hscan, hreached, by omega⟩
    . rw [if_neg hlt]
      exact ⟨h, by omega, by omega⟩

end

-- The text that is current after the event.
def Event.next (text : JsString) : Event → JsString
  | .update text => text
  | .clear => []
  | .tick _ => text

def latest (events : List Event) : JsString := events.foldl Event.next []

-- A call that always leads to a report.
def Event.Reports : Event → Prop
  | .update text => text ≠ []
  | .clear => True
  | .tick _ => False

namespace State

structure Valid (state : State) (seen : Prop) : Prop where
  agrees : state.progress.Agrees state.text
  scheduled : state.scheduled = state.timer.toList
  running : state.timer = none ↔ state.text.length ≤ state.progress.offset
  last : seen → state.timer = none → state.reports.getLast? = some (measure state.text)
  unseen : ¬seen → state = initial

-- What a turn adds to the reports.
structure Extends (state next : State) (text : JsString) : Prop where
  text_eq : next.text = text
  reports : ∃ made, next.reports = state.reports ++ made
    ∧ ∀ measurement ∈ made, measurement.pending = false → measurement = measure text

variable {chunk : Nat} {state : State} {seen : Prop}

theorem Extends.refl (state : State) : state.Extends state state.text :=
  ⟨rfl, [], (List.append_nil _).symm, by simp⟩

theorem valid_initial : initial.Valid False where
  agrees := Progress.agrees_start []
  scheduled := rfl
  running := by simp [initial, Progress.start]
  last := by simp
  unseen _ := rfl

theorem step_spec (hagrees : state.progress.Agrees state.text)
    (hscheduled : state.scheduled = [])
    : (state.step chunk).Valid True ∧ state.Extends (state.step chunk) state.text := by
  have hoffset := hagrees.offset_le
  rcases scan_agrees hagrees (Nat.min_le_left state.text.length (state.progress.offset + chunk))
    (Nat.le_refl _) with ⟨hscan, -, -⟩
  unfold step
  dsimp only
  split
  . next hlt =>
    refine ⟨⟨hscan, ?_, ?_, ?_, ?_⟩, ⟨rfl, [], ?_, by simp⟩⟩
    . simp [setTimeout, hscheduled]
    . simp only [setTimeout, reduceCtorEq, false_iff]
      omega
    . intro _ hnone
      cases hnone
    . intro h
      exact absurd trivial h
    . simp [setTimeout]
  . next hle =>
    have hmeasure := hscan.measure_eq (by omega)
    refine ⟨⟨hscan, ?_, ?_, ?_, ?_⟩, ⟨rfl, [measure state.text], ?_, by simp⟩⟩
    . simp [report, hscheduled]
    . simp only [report, true_iff]
      omega
    . intro _ _
      simp [report, hmeasure]
    . intro h
      exact absurd trivial h
    . simp [report, hmeasure]

theorem scheduled_restart (h : state.scheduled = state.timer.toList) (text : JsString)
    : (state.restart text).scheduled = [] := by
  simp only [restart, clearTimeout, h]
  cases state.timer with
  | none => rfl
  | some timer => simp

theorem Valid.weaken {seen' : Prop} (h : state.Valid True) (hseen : seen') : state.Valid seen' :=
  ⟨h.agrees, h.scheduled, h.running, fun _ => h.last trivial, fun hnone => absurd hseen hnone⟩

theorem update_spec (h : state.Valid seen) (text : JsString)
    : (state.update chunk text).Valid (seen ∨ text ≠ [])
      ∧ state.Extends (state.update chunk text) text := by
  unfold update
  split
  . next hsame =>
    rcases hsame with ⟨rfl, hskip⟩
    have hseen : seen ∨ state.text ≠ [] → seen := by
      intro hor
      by_contra hunseen
      rw [h.unseen hunseen] at hor
      exact hor.elim hunseen fun hne => hne rfl
    refine ⟨⟨h.agrees, h.scheduled, h.running, fun hor => h.last (hseen hor), ?_⟩, .refl state⟩
    intro hnone
    exact h.unseen fun hseen => hnone (.inl hseen)
  . next hother =>
    have hseen : seen ∨ text ≠ [] := by
      by_contra hnone
      push Not at hnone
      rw [h.unseen hnone.1, hnone.2] at hother
      exact hother ⟨rfl, .inr rfl⟩
    have hscheduled := scheduled_restart h.scheduled text
    split
    . have hstep : (((state.restart text).report ⟨0, 1, true⟩).step chunk).Valid True ∧ _ :=
        step_spec (Progress.agrees_start text) hscheduled
      refine ⟨hstep.1.weaken hseen, hstep.2.text_eq, ?_⟩
      rcases hstep.2.reports with ⟨made, hreports, hmade⟩
      refine ⟨⟨0, 1, true⟩ :: made, ?_, ?_⟩
      . rw [hreports]
        simp [report, restart, clearTimeout]
      . intro measurement hmem hpending
        rcases List.mem_cons.mp hmem with rfl | hmem
        . cases hpending
        . exact hmade measurement hmem hpending
    . have hstep : ((state.restart text).step chunk).Valid True ∧ _ :=
        step_spec (Progress.agrees_start text) hscheduled
      exact ⟨hstep.1.weaken hseen, hstep.2.text_eq, hstep.2.reports⟩

theorem measure_nil : measure [] = ⟨0, 1, false⟩ := by decide

theorem clear_spec (h : state.Valid seen)
    : state.clear.Valid True ∧ state.Extends state.clear [] := by
  have hscheduled := scheduled_restart h.scheduled []
  refine ⟨⟨Progress.agrees_start [], hscheduled, ?_, ?_, ?_⟩, ⟨rfl, [⟨0, 1, false⟩], rfl, ?_⟩⟩
  . simp [clear, report, restart, clearTimeout]
  . intro _ _
    simp [clear, report, restart, measure_nil]
  . intro hnone
    exact absurd trivial hnone
  . intro measurement hmem _
    rw [List.mem_singleton] at hmem
    rw [hmem, measure_nil]

theorem tick_spec (h : state.Valid seen) (timer : Nat)
    : (state.handle chunk (.tick timer)).Valid seen
      ∧ state.Extends (state.handle chunk (.tick timer)) state.text := by
  rw [handle]
  split
  . next hmem =>
    have hseen : seen := by
      by_contra hunseen
      rw [h.unseen hunseen] at hmem
      cases hmem
    have hscheduled : state.scheduled.erase timer = [] := by
      rw [h.scheduled] at hmem ⊢
      cases hcurrent : state.timer with
      | none => rfl
      | some current =>
        rw [hcurrent, Option.toList_some, List.mem_singleton] at hmem
        simp [hmem]
    have hstep : (State.step chunk { state with scheduled := state.scheduled.erase timer }).Valid True
        ∧ _ := step_spec h.agrees hscheduled
    exact ⟨hstep.1.weaken hseen, hstep.2.text_eq, hstep.2.reports⟩
  . exact ⟨h, .refl state⟩

theorem handle_spec (h : state.Valid seen) (event : Event)
    : (state.handle chunk event).Valid (seen ∨ event.Reports)
      ∧ state.Extends (state.handle chunk event) (event.next state.text) := by
  cases event with
  | update text => exact update_spec h text
  | clear =>
    have hclear := clear_spec h
    exact ⟨hclear.1.weaken (.inr trivial), hclear.2⟩
  | tick timer =>
    rw [Event.Reports, or_false]
    exact tick_spec h timer

theorem run_snoc (chunk : Nat) (events : List Event) (event : Event)
    : run chunk (events ++ [event]) = (run chunk events).handle chunk event := by
  simp [run]

theorem run_spec (chunk : Nat) (events : List Event)
    : (run chunk events).Valid (∃ event ∈ events, event.Reports)
      ∧ (run chunk events).text = latest events := by
  induction events using List.reverseRecOn with
  | nil =>
    have hnone : (∃ event ∈ ([] : List Event), event.Reports) = False := by simp
    rw [hnone]
    exact ⟨valid_initial, rfl⟩
  | append_singleton events event ih =>
    have hhandle : ((run chunk events).handle chunk event).Valid _ ∧ _ := handle_spec ih.1 event
    have hseen : (∃ other ∈ events ++ [event], other.Reports)
        = ((∃ other ∈ events, other.Reports) ∨ event.Reports) := by
      simp only [List.mem_append, List.mem_singleton, or_and_right, exists_or, exists_eq_left]
    have hlatest : latest (events ++ [event]) = event.next (latest events) := by simp [latest]
    rw [run_snoc, hseen, hlatest, ← ih.2]
    exact ⟨hhandle.1, hhandle.2.text_eq⟩

-- Every turn of a timer goes on, so that in the end none is pending.
theorem exists_ticks (hchunk : 0 < chunk) (h : state.Valid seen)
    : ∃ ticks : List Nat, ((ticks.map Event.tick).foldl (handle chunk) state).scheduled = [] := by
  induction hrest : state.text.length - state.progress.offset using Nat.strongRecOn
    generalizing state with
  | ind rest ih =>
    cases htimer : state.timer with
    | none => exact ⟨[], by simpa [htimer] using h.scheduled⟩
    | some timer =>
      have hmem : timer ∈ state.scheduled := by simp [h.scheduled, htimer]
      have hrunning : ¬state.text.length ≤ state.progress.offset := by simp [← h.running, htimer]
      have hnext : (state.handle chunk (.tick timer)).Valid seen ∧ _ := tick_spec h timer
      have hgrows : min state.text.length (state.progress.offset + chunk)
          ≤ (state.handle chunk (.tick timer)).progress.offset := by
        have hscan := (scan_agrees h.agrees
          (Nat.min_le_left state.text.length (state.progress.offset + chunk)) (Nat.le_refl _)).2.1
        rw [handle, if_pos hmem]
        unfold step
        dsimp only
        split
        . exact hscan
        . exact hscan
      have htext := hnext.2.text_eq
      rcases ih ((state.handle chunk (.tick timer)).text.length
        - (state.handle chunk (.tick timer)).progress.offset) (by rw [htext]; omega) hnext.1 rfl with
        ⟨ticks, hticks⟩
      exact ⟨timer :: ticks, hticks⟩

end State

-- Whether the event is no call.
def Event.isTick : Event → Bool
  | .tick _ => true
  | _ => false

theorem latest_of_ticks {before ticks : List Event} (event : Event) (h : ticks.all Event.isTick = true)
    : latest (before ++ event :: ticks) = event.next (latest before) := by
  induction ticks using List.reverseRecOn with
  | nil => simp [latest]
  | append_singleton ticks tick ih =>
    rw [List.all_append, Bool.and_eq_true, List.all_cons, List.all_nil, Bool.and_true] at h
    cases tick with
    | tick timer =>
      have hrest := ih h.1
      simp only [latest, List.foldl_append, List.foldl_cons, List.foldl_nil, Event.next] at hrest ⊢
      exact hrest
    | update text => exact absurd h.2 (by simp [Event.isTick])
    | clear => exact absurd h.2 (by simp [Event.isTick])

theorem last_report_measures {chunk : Nat} {before ticks : List Event} {event : Event}
    (hticks : ticks.all Event.isTick = true)
    (hreports : ∃ other ∈ before ++ event :: ticks, other.Reports)
    (hidle : (State.run chunk (before ++ event :: ticks)).scheduled = [])
    : (State.run chunk (before ++ event :: ticks)).reports.getLast?
        = some (measure (event.next (latest before))) := by
  have hrun := State.run_spec chunk (before ++ event :: ticks)
  have htimer : (State.run chunk (before ++ event :: ticks)).timer = none := by
    have hscheduled := hrun.1.scheduled
    rw [hidle] at hscheduled
    cases hcases : (State.run chunk (before ++ event :: ticks)).timer with
    | none => rfl
    | some timer =>
      rw [hcases] at hscheduled
      cases hscheduled
  rw [hrun.1.last hreports htimer, hrun.2, latest_of_ticks event hticks]

-- However long the chunks are, `chunkUnits` or another number of units.
theorem reports_measure (chunk : Nat) (events : List Event)
    : (∀ before event after, events = before ++ event :: after
        → ∃ made, (State.run chunk (before ++ [event])).reports = (State.run chunk before).reports ++ made
          ∧ ∀ measurement ∈ made, measurement.pending = false
            → measurement = measure (latest (before ++ [event])))
      ∧ ((State.run chunk events).scheduled = []
        → (∃ event ∈ events, event.Reports)
        → (∀ before ticks, events = before ++ .clear :: ticks → ticks.all Event.isTick = true
            → (State.run chunk events).reports.getLast? = some ⟨0, 1, false⟩)
          ∧ ∀ before text ticks, events = before ++ .update text :: ticks
            → ticks.all Event.isTick = true
            → (State.run chunk events).reports.getLast?
                = some ⟨(Shared.encoderEncode text).length, 1 + text.count 10, false⟩)
      ∧ (0 < chunk
        → ∃ timers : List Nat, (State.run chunk (events ++ timers.map Event.tick)).scheduled = []) := by
  refine ⟨?_, ?_, ?_⟩
  . intro before event after _
    have hrun := State.run_spec chunk before
    have hhandle : ((State.run chunk before).handle chunk event).Valid _ ∧ _ :=
      State.handle_spec hrun.1 event
    have hlatest : latest (before ++ [event]) = event.next (latest before) := by simp [latest]
    rw [State.run_snoc, hlatest, ← hrun.2]
    exact hhandle.2.reports
  . intro hidle hreports
    constructor
    . intro before ticks hevents hticks
      subst hevents
      rw [last_report_measures hticks hreports hidle, Event.next, State.measure_nil]
    . intro before text ticks hevents hticks
      subst hevents
      rw [last_report_measures hticks hreports hidle, Event.next, measure]

  . intro hchunk
    rcases State.exists_ticks hchunk (State.run_spec chunk events).1 with ⟨timers, htimers⟩
    refine ⟨timers, ?_⟩
    rw [State.run, List.foldl_append]
    exact htimers

def exampleText : JsString := List.replicate (chunkUnits + 1) 97

theorem reports_measure_exampleText
    : ∃ timers : List Nat,
        (State.run chunkUnits (.update exampleText :: timers.map Event.tick)).reports.getLast?
          = some ⟨(Shared.encoderEncode exampleText).length, 1, false⟩ := by
  rcases (reports_measure chunkUnits [.update exampleText]).2.2 (by decide) with ⟨timers, htimers⟩
  have hreports : ∃ event ∈ Event.update exampleText :: timers.map Event.tick, event.Reports := by
    refine ⟨_, List.mem_cons_self, ?_⟩
    simp [Event.Reports, exampleText, List.replicate_succ]
  have hticks : (timers.map Event.tick).all Event.isTick = true := by simp [Event.isTick]
  have hlast := ((reports_measure chunkUnits (.update exampleText :: timers.map Event.tick)).2.1 htimers
    hreports).2 [] exampleText _ rfl hticks
  have hlines : exampleText.count 10 = 0 := by
    rw [exampleText, List.count_replicate, if_neg (by decide)]
  rw [hlines] at hlast
  exact ⟨timers, hlast⟩

-- A pair that lies on the end of a chunk.
example : (State.run 2 [.update [97, 0xD83D, 0xDD12, 10, 0xD800], .tick 0]).reports
    = [⟨0, 1, true⟩, ⟨9, 2, false⟩] := by decide

example : (State.run chunkUnits [.update [97, 0xD83D, 0xDD12, 10, 0xD800]]).reports
    = [⟨9, 2, false⟩] := by decide

end Web.TextMetrics
