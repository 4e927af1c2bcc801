import Erase.Library.EcmaScript
import Erase.Library.Logged

/-!
The two readers of response bodies, with every allocation and every call on the stream's reader.
-/

namespace Client

inductive ReadError where
  | requestError (code : String)
  | error (message : String)
  | rangeError
  | broken
  deriving DecidableEq, Repr

-- What the reader gives out: the chunks, then the end of the stream or a rejected read.
structure Stream where
  chunks : List Bytes
  broken : Bool

structure Response where
  contentEncoding : Option JsString
  contentLength : Option JsString
  body : Option Stream

inductive Event where
  | allocate (size : Nat)
  | ended
  | cancel
  | releaseLock
  deriving DecidableEq, Repr

abbrev Call := Logged Event ReadError

-- The numbers below `Number.MAX_SAFE_INTEGER`, itself included.
abbrev SafeInteger := {n : Nat // n < 2 ^ 53}

def refuse (error : ReadError) : Except ReadError α := .error error

-- `fetch` exposes decoded bytes, while `Content-Length` describes encoded bytes.
def lengthHeader (response : Response) : Option JsString :=
  match response.contentEncoding with
  | none => response.contentLength
  | some encoding =>
    if encoding = [] ∨ encoding = JsString.ofString "identity" then response.contentLength else none

-- `/^\d+$/`
def isDigits (header : JsString) : Bool :=
  header ≠ [] && header.all fun unit => Decimal.isDigit unit.toNat

-- `Number(header)` of a header of digits
def number (header : JsString) : JsNumber :=
  JsNumber.ofLiteral ⟨false, header.map UInt16.toNat, none, none⟩

-- `Number.isSafeInteger(length) && length <= limit`
def checkLength (error : ReadError) (limit : SafeInteger) (length : JsNumber)
    : Except ReadError Nat :=
  match length.safeInteger? with
  | some length => if length > limit.val then refuse error else .ok length.toNat
  | none => refuse error

def expectedLength (error : ReadError) (limit : SafeInteger) : Option JsString → Call (Option Nat)
  | none => pure none
  | some header => return some (← checkLength error limit (number header))

def allocate (size : Nat) : Call Bytes := .note (.allocate size) (.ok (List.replicate size 0))

def set (target part : Bytes) (offset : Nat) : Except ReadError Bytes :=
  match target.write offset part with
  | some target => .ok target
  | none => .error .rangeError

structure Buffer where
  target : Bytes
  size : Nat

def grow (maximum next : Nat) (buffer : Buffer) : Call Bytes := do
  let grown ← allocate (min maximum (max next (buffer.target.length * 2)))
  set grown (buffer.target.take buffer.size) 0

def reserve (maximum next : Nat) (buffer : Buffer) : Call Bytes :=
  if next > buffer.target.length then grow maximum next buffer else pure buffer.target

def append (tooLong : ReadError) (maximum : Nat) (buffer : Buffer) (part : Bytes) : Call Buffer := do
  let next := buffer.size + part.length
  if next > maximum then refuse tooLong
  let target ← reserve maximum next buffer
  return { target := ← set target part buffer.size, size := next }

-- The loop over `reader.read()`.
def fill (tooLong : ReadError) (maximum : Nat) (broken : Bool) : List Bytes → Buffer → Call Buffer
  | [], buffer => if broken then refuse .broken else .note .ended (.ok buffer)
  | part :: chunks, buffer => do
    let buffer ← append tooLong maximum buffer part
    fill tooLong maximum broken chunks buffer

-- `target.slice(0, size)`, when the buffer is larger than what it holds
def Buffer.content (buffer : Buffer) : Call Bytes :=
  if buffer.size = buffer.target.length then
    pure buffer.target
  else
    .note (.allocate buffer.size) (.ok (buffer.target.take buffer.size))

def collect (tooLong incomplete : ReadError) (limit : SafeInteger) (expected : Option Nat)
    (stream : Stream) : Call Bytes := do
  let maximum := expected.getD limit
  let target ← allocate (expected.getD (min limit 65536))
  let buffer ← fill tooLong maximum stream.broken stream.chunks ⟨target, 0⟩
  if expected.any fun length => buffer.size ≠ length then refuse incomplete
  buffer.content

def readBody (invalidLength tooLong incomplete : ReadError) (limit : SafeInteger)
    (header : Option JsString) (stream : Stream) : Call Bytes := do
  let expected ← expectedLength invalidLength limit header
  collect tooLong incomplete limit expected stream

-- The `finally` block, whose `reader.cancel()` may fail without anyone being told.
def close (cancelled : Bool) (body : Call α) : Call α where
  log := body.log ++ (if cancelled then [.cancel] else []) ++ [.releaseLock]
  result := body.result

def Stream.content (stream : Stream) : Bytes := stream.chunks.flatten

-- The stream ends, within the limit and with the length that was declared.
structure Fits (limit : SafeInteger) (expected : Option Nat) (stream : Stream) : Prop where
  ends : stream.broken = false
  within : stream.content.length ≤ limit
  declared : ∀ length, expected = some length → length ≤ limit ∧ stream.content.length = length

-- The buffer holds `front` and has not outgrown `maximum`.
structure Holds (maximum : Nat) (front : Bytes) (buffer : Buffer) : Prop where
  held : front <+: buffer.target
  size : buffer.size = front.length
  bounded : buffer.target.length ≤ maximum

-- What a reader may do before it is closed.
def Bounded (maximum : Nat) (event : Event) : Prop :=
  event ≠ .cancel ∧ ∀ size, event = .allocate size → size ≤ maximum

section

variable {maximum : Nat} {front part : Bytes} {buffer : Buffer}

theorem Holds.size_le (h : Holds maximum front buffer) : buffer.size ≤ buffer.target.length := by
  rw [h.size]
  exact h.held.length_le

theorem Holds.take_eq (h : Holds maximum front buffer) : buffer.target.take buffer.size = front := by
  rw [h.size]
  exact (List.prefix_iff_eq_take.mp h.held).symm

theorem set_extends {target front part : Bytes} {offset : Nat} (hfront : front <+: target)
    (hoffset : front.length = offset) (hfit : offset + part.length ≤ target.length)
    : ∃ out, set target part offset = .ok out ∧ (front ++ part) <+: out
        ∧ out.length = target.length := by
  rcases Bytes.write_extends hfront hoffset hfit with ⟨out, hwrite, hextends, hlength⟩
  refine ⟨out, ?_, hextends, hlength⟩
  rw [set, hwrite]

theorem grow_eq (h : Holds maximum front buffer) {next : Nat} (hnext : next ≤ maximum)
    (hsize : buffer.size ≤ next)
    : ∃ grown, (grow maximum next buffer).result = .ok grown ∧ front <+: grown
        ∧ next ≤ grown.length ∧ grown.length ≤ maximum := by
  have hlength : (List.replicate (min maximum (max next (buffer.target.length * 2))) (0 : UInt8)).length
      = min maximum (max next (buffer.target.length * 2)) := List.length_replicate
  have hfit : 0 + front.length
      ≤ (List.replicate (min maximum (max next (buffer.target.length * 2))) (0 : UInt8)).length := by
    rw [hlength, ← h.size]
    omega
  have hnil : ([] : Bytes).length = 0 := rfl
  rcases set_extends List.nil_prefix hnil hfit with ⟨grown, hset, hextends, hgrown⟩
  refine ⟨grown, ?_, hextends, ?_, ?_⟩
  . simp only [grow, allocate, Logged.result_bind, Logged.result_note, Logged.result_lift, Except.ok_bind,
      h.take_eq, hset]
  . omega
  . omega

theorem reserve_eq (h : Holds maximum front buffer) {next : Nat} (hnext : next ≤ maximum)
    (hsize : buffer.size ≤ next)
    : ∃ target, (reserve maximum next buffer).result = .ok target ∧ front <+: target
        ∧ next ≤ target.length ∧ target.length ≤ maximum := by
  unfold reserve
  split
  . exact grow_eq h hnext hsize
  . exact ⟨buffer.target, rfl, h.held, by omega, h.bounded⟩

theorem append_eq_ok (tooLong : ReadError) (h : Holds maximum front buffer)
    (hfit : front.length + part.length ≤ maximum)
    : ∃ next, (append tooLong maximum buffer part).result = .ok next
        ∧ Holds maximum (front ++ part) next := by
  have hsize := h.size
  rcases reserve_eq h (by omega : buffer.size + part.length ≤ maximum) (by omega) with
    ⟨target, htarget, hheld, hspace, hbounded⟩
  rcases set_extends hheld hsize.symm hspace with ⟨out, hset, hextends, hlength⟩
  refine ⟨⟨out, buffer.size + part.length⟩, ?_, hextends, ?_, hlength.trans_le hbounded⟩
  . rw [append, if_neg (by omega)]
    simp only [Logged.result_bind, htarget, Except.ok_bind, Logged.result_lift, hset, Logged.result_pure]
  . rw [List.length_append, hsize]

theorem append_eq_error (tooLong : ReadError) (h : Holds maximum front buffer)
    (hlong : maximum < front.length + part.length)
    : (append tooLong maximum buffer part).result = .error tooLong := by
  have hsize := h.size
  rw [append, if_pos (by omega), Logged.result_bind]
  rfl

theorem fill_eq_ok (tooLong : ReadError) {chunks : List Bytes} (h : Holds maximum front buffer)
    (hfit : front.length + chunks.flatten.length ≤ maximum)
    : ∃ filled, (fill tooLong maximum false chunks buffer).result = .ok filled
        ∧ Holds maximum (front ++ chunks.flatten) filled := by
  induction chunks generalizing front buffer with
  | nil => exact ⟨buffer, rfl, by simpa using h⟩
  | cons part chunks ih =>
    rw [List.flatten_cons, List.length_append] at hfit
    rcases append_eq_ok tooLong h (by omega : front.length + part.length ≤ maximum) with
      ⟨next, hnext, hholds⟩
    rcases ih hholds (by rw [List.length_append]; omega) with ⟨filled, hfilled, hfinal⟩
    refine ⟨filled, ?_, ?_⟩
    . rw [fill, Logged.result_bind, hnext, Except.ok_bind, hfilled]
    . rwa [List.flatten_cons, ← List.append_assoc]

theorem fill_eq_error (tooLong : ReadError) {chunks : List Bytes} {broken : Bool}
    (h : Holds maximum front buffer)
    (hrefused : broken = true ∨ maximum < front.length + chunks.flatten.length)
    : ∃ error, (fill tooLong maximum broken chunks buffer).result = .error error := by
  induction chunks generalizing front buffer with
  | nil =>
    have hbounded := h.held.length_le.trans h.bounded
    rcases hrefused with rfl | hlong
    . exact ⟨.broken, rfl⟩
    . simp only [List.flatten_nil, List.length_nil] at hlong
      omega
  | cons part chunks ih =>
    rw [List.flatten_cons, List.length_append] at hrefused
    rw [fill, Logged.result_bind]
    by_cases hfit : front.length + part.length ≤ maximum
    . rcases append_eq_ok tooLong h hfit with ⟨next, hnext, hholds⟩
      rw [hnext, Except.ok_bind]
      apply ih hholds
      rw [List.length_append]
      rcases hrefused with hbroken | hlong
      . exact Or.inl hbroken
      . exact Or.inr (by omega)
    . rw [append_eq_error tooLong h (by omega)]
      exact ⟨tooLong, rfl⟩

theorem holds_of_fill {tooLong : ReadError} {broken : Bool} {chunks : List Bytes} {filled : Buffer}
    (h : Holds maximum front buffer)
    (hfill : (fill tooLong maximum broken chunks buffer).result = .ok filled)
    : broken = false ∧ Holds maximum (front ++ chunks.flatten) filled := by
  by_cases hrefused : broken = true ∨ maximum < front.length + chunks.flatten.length
  . rcases fill_eq_error tooLong h hrefused with ⟨error, herror⟩
    rw [herror] at hfill
    cases hfill
  . rw [not_or, Bool.not_eq_true] at hrefused
    rcases hrefused with ⟨rfl, hfit⟩
    rcases fill_eq_ok tooLong h (by omega : front.length + chunks.flatten.length ≤ maximum) with
      ⟨filled', hfilled, hholds⟩
    rw [hfilled, Except.ok.injEq] at hfill
    subst hfill
    exact ⟨rfl, hholds⟩

theorem content_eq (h : Holds maximum front buffer) : buffer.content.result = .ok front := by
  unfold Buffer.content
  split
  . next hfull =>
    have hlength : front.length = buffer.target.length := h.size.symm.trans hfull
    rw [h.held.eq_of_length hlength]
    rfl
  . rw [Logged.result_note, h.take_eq]

theorem fill_meets (tooLong : ReadError) (broken : Bool) {chunks : List Bytes}
    (h : Holds maximum front buffer)
    : (fill tooLong maximum broken chunks buffer).Meets (Bounded maximum) fun _ => True := by
  have hanything {α : Type} (x : Except ReadError α) : x.Raises fun _ => True := fun _ _ => trivial
  have hlift {α : Type} (x : Except ReadError α)
      : (liftM x : Call α).Meets (Bounded maximum) fun _ => True := Logged.meets_lift (hanything x)
  induction chunks generalizing front buffer with
  | nil =>
    unfold fill
    split
    . exact hlift _
    . exact Logged.meets_note ⟨nofun, nofun⟩ (hanything _)
  | cons part chunks ih =>
    have hreserve (next : Nat) : (reserve maximum next buffer).Meets (Bounded maximum) fun _ => True := by
      unfold reserve
      split
      . have hbounded : Bounded maximum
            (.allocate (min maximum (max next (buffer.target.length * 2)))) := by
          refine ⟨nofun, fun size hevent => ?_⟩
          cases hevent
          exact Nat.min_le_left _ _
        exact (Logged.meets_note hbounded (hanything _)).bind fun grown _ => hlift _
      . exact Logged.meets_pure _
    have happend : (append tooLong maximum buffer part).Meets (Bounded maximum) fun _ => True := by
      apply Logged.meets_guard (hanything _) nofun
      intro _
      exact (hreserve _).bind fun target _ => (hlift _).bind fun out _ => Logged.meets_pure _
    apply happend.bind
    intro next hnext
    by_cases hfit : front.length + part.length ≤ maximum
    . rcases append_eq_ok tooLong h hfit with ⟨next', hnext', hholds⟩
      rw [hnext', Except.ok.injEq] at hnext
      subst hnext
      exact ih hholds
    . rw [append_eq_error tooLong h (by omega)] at hnext
      cases hnext

end

section

variable {tooLong incomplete : ReadError} {limit : SafeInteger} {expected : Option Nat}
    {stream : Stream}

theorem holds_empty (limit : SafeInteger) (expected : Option Nat)
    : Holds (expected.getD limit) [] ⟨List.replicate (expected.getD (min limit 65536)) 0, 0⟩ where
  held := List.nil_prefix
  size := rfl
  bounded := by
    rw [List.length_replicate]
    cases expected with
    | none => exact Nat.min_le_left _ _
    | some length => exact Nat.le_refl _

theorem Fits.le_getD (h : Fits limit expected stream)
    : stream.content.length ≤ expected.getD limit := by
  cases expected with
  | none => exact h.within
  | some length => exact (h.declared length rfl).2.le

theorem collect_eq_ok (h : Fits limit expected stream)
    : (collect tooLong incomplete limit expected stream).result = .ok stream.content := by
  have hfit : ([] : Bytes).length + stream.chunks.flatten.length ≤ expected.getD limit := by
    rw [List.length_nil, Nat.zero_add]
    exact h.le_getD
  rcases fill_eq_ok tooLong (holds_empty limit expected) hfit with ⟨filled, hfilled, hholds⟩
  rw [List.nil_append] at hholds
  have hcomplete : ¬(expected.any fun length => decide (filled.size ≠ length)) = true := by
    intro hany
    simp only [Option.any_eq_true, decide_eq_true_eq] at hany
    rcases hany with ⟨length, hlength, hne⟩
    exact hne (hholds.size.trans (h.declared length hlength).2)
  rw [collect, Logged.result_bind, allocate, Logged.result_note, Except.ok_bind, Logged.result_bind,
    h.ends, hfilled, Except.ok_bind, if_neg hcomplete]
  exact content_eq hholds

theorem collect_eq_error (hexpected : ∀ length, expected = some length → length ≤ limit)
    (h : ¬Fits limit expected stream)
    : ∃ error, (collect tooLong incomplete limit expected stream).result = .error error := by
  rw [collect, Logged.result_bind, allocate, Logged.result_note, Except.ok_bind, Logged.result_bind]
  cases hfill : (fill tooLong (expected.getD limit) stream.broken stream.chunks
      ⟨List.replicate (expected.getD (min limit 65536)) 0, 0⟩).result with
  | error error => exact ⟨error, rfl⟩
  | ok filled =>
    rcases holds_of_fill (holds_empty limit expected) hfill with ⟨hends, hholds⟩
    rw [List.nil_append] at hholds
    have hfit : stream.content.length ≤ expected.getD limit := hholds.held.length_le.trans hholds.bounded
    have hincomplete : (expected.any fun length => decide (filled.size ≠ length)) = true := by
      cases expected with
      | none => exact absurd ⟨hends, hfit, nofun⟩ h
      | some length =>
        have hle := hexpected length rfl
        simp only [Option.any_some, decide_eq_true_eq]
        intro hsize
        apply h
        have hlength : stream.content.length = length := hholds.size.symm.trans hsize
        refine ⟨hends, hlength.trans_le hle, fun length' hlength' => ?_⟩
        cases hlength'
        exact ⟨hle, hlength⟩
    rw [Except.ok_bind, if_pos hincomplete]
    exact ⟨incomplete, rfl⟩

theorem collect_meets
    : (collect tooLong incomplete limit expected stream).Meets (Bounded (expected.getD limit))
        fun _ => True := by
  have hanything {α : Type} (x : Except ReadError α) : x.Raises fun _ => True := fun _ _ => trivial
  have hinitial : Bounded (expected.getD limit) (.allocate (expected.getD (min limit 65536))) := by
    refine ⟨nofun, fun size hevent => ?_⟩
    cases hevent
    have hbounded := (holds_empty limit expected).bounded
    rwa [List.length_replicate] at hbounded
  apply (Logged.meets_note hinitial (hanything _)).bind
  intro target htarget
  obtain rfl : List.replicate (expected.getD (min limit 65536)) 0 = target := by simpa using htarget
  apply (fill_meets tooLong stream.broken (holds_empty limit expected)).bind
  intro buffer hbuffer
  apply Logged.meets_guard (hanything _) nofun
  intro _
  unfold Buffer.content
  split
  . exact Logged.meets_pure _
  . refine Logged.meets_note ⟨nofun, fun size hevent => ?_⟩ (hanything _)
    cases hevent
    have hholds := (holds_of_fill (holds_empty limit expected) hbuffer).2
    exact hholds.size_le.trans hholds.bounded

end

-- The length a header of digits declares.
def declared (header : JsString) : Nat := Decimal.value (header.map UInt16.toNat)

theorem checkLength_number (error : ReadError) (limit : SafeInteger) (header : JsString)
    : checkLength error limit (number header)
        = if declared header ≤ limit then .ok (declared header) else .error error := by
  have hlimit := limit.property
  rw [checkLength, number, JsNumber.safeInteger?_ofLiteral]
  change (match if declared header < 2 ^ 53 then some (declared header : ℤ) else none with
    | some length => if length > limit.val then refuse error else .ok length.toNat
    | none => refuse error) = _
  by_cases hle : declared header ≤ limit
  . rw [if_pos hle, if_pos (by omega)]
    simp [hle]
  . rw [if_neg hle]
    split
    . next length hlength =>
      simp only [Option.ite_none_right_eq_some, Option.some.injEq] at hlength
      rw [if_pos (by omega)]
      rfl
    . rfl

/--
What a reader of response bodies owes its caller.
-/
structure Exact (limit : SafeInteger) (length : Option Nat) (stream : Stream) (call : Call Bytes)
    : Prop where
  returns : Fits limit length stream → call.result = .ok stream.content
  throws : ¬Fits limit length stream → ∃ error, call.result = .error error
  cancels : ∀ error, call.result = .error error → .ended ∉ call.log → .cancel ∈ call.log
  allocates : ∀ size, .allocate size ∈ call.log
    → size ≤ limit ∧ ∀ declared, length = some declared → size ≤ declared

theorem Exact.toOption_eq {limit : SafeInteger} {length : Option Nat} {stream : Stream}
    {left right : Call Bytes} (hleft : Exact limit length stream left)
    (hright : Exact limit length stream right)
    : left.result.toOption = right.result.toOption := by
  by_cases hfits : Fits limit length stream
  . rw [hleft.returns hfits, hright.returns hfits]
  . rcases hleft.throws hfits with ⟨_, herror⟩
    rcases hright.throws hfits with ⟨_, herror'⟩
    rw [herror, herror']
    rfl

section

variable {invalidLength tooLong incomplete : ReadError} {limit : SafeInteger} {header : Option JsString}
  {stream : Stream}

theorem readBody_accepted (h : ∀ length, header.map declared = some length → length ≤ limit)
    : readBody invalidLength tooLong incomplete limit header stream
        = collect tooLong incomplete limit (header.map declared) stream := by
  cases header with
  | none => rfl
  | some header =>
    rw [readBody, expectedLength, checkLength_number, if_pos (h _ rfl)]
    rfl

theorem readBody_refused (h : ¬∀ length, header.map declared = some length → length ≤ limit)
    : readBody invalidLength tooLong incomplete limit header stream
        = liftM (refuse invalidLength : Except ReadError Bytes) := by
  cases header with
  | none => exact absurd nofun h
  | some header =>
    have hlong : ¬declared header ≤ limit := by
      intro hle
      apply h
      rintro length hlength
      cases hlength
      exact hle
    rw [readBody, expectedLength, checkLength_number, if_neg hlong]
    rfl

theorem close_exact {cancelled : Bool}
    (hcancel : ∀ error,
      (readBody invalidLength tooLong incomplete limit header stream).result = .error error
      → .ended ∉ (readBody invalidLength tooLong incomplete limit header stream).log
      → cancelled = true)
    : Exact limit (header.map declared) stream
        (close cancelled (readBody invalidLength tooLong incomplete limit header stream)) where
  returns := by
    intro hfits
    rw [close, readBody_accepted fun length hlength => (hfits.declared length hlength).1]
    exact collect_eq_ok hfits
  throws := by
    intro hfits
    by_cases hdeclared : ∀ length, header.map declared = some length → length ≤ limit
    . rw [close, readBody_accepted hdeclared]
      exact collect_eq_error hdeclared hfits
    . rw [close, readBody_refused hdeclared]
      exact ⟨invalidLength, rfl⟩
  cancels := by
    intro error herror hended
    have hcancelled := hcancel error herror fun h => hended (by simp [close, h])
    simp [close, hcancelled]
  allocates := by
    intro size hsize
    have hbody : .allocate size ∈ (readBody invalidLength tooLong incomplete limit header stream).log := by
      cases cancelled <;> simpa [close] using hsize
    by_cases hdeclared : ∀ length, header.map declared = some length → length ≤ limit
    . rw [readBody_accepted hdeclared] at hbody
      have hbounded := (collect_meets.log _ hbody).2 size rfl
      cases hlength : header.map declared with
      | none =>
        rw [hlength] at hbounded
        exact ⟨hbounded, nofun⟩
      | some length =>
        rw [hlength] at hbounded
        refine ⟨Nat.le_trans hbounded (hdeclared length hlength), fun declared hdeclared => ?_⟩
        cases hdeclared
        exact hbounded
    . rw [readBody_refused hdeclared] at hbody
      cases hbody

end

end Client

namespace Web

open Client

def invalidResponse : ReadError := .requestError "invalid_response"

def readBounded (response : Response) (limit : SafeInteger) : Call Bytes :=
  match response.body with
  | none => liftM (refuse invalidResponse : Except ReadError Bytes)
  | some stream =>
    let body := readBody invalidResponse invalidResponse invalidResponse limit
      ((lengthHeader response).filter isDigits) stream
    -- `finished` is set where the end of the stream is seen.
    close (.ended ∉ body.log) body

end Web

namespace Cli

open Client

def invalidLength : ReadError := .error "Invalid or oversized response length."

def bytes (response : Response) (limit : SafeInteger) : Call Bytes :=
  match response.body with
  | none => liftM (refuse (.error "Empty server response.") : Except ReadError Bytes)
  | some stream =>
    let body : Call Bytes := do
      if (lengthHeader response).any fun header => !isDigits header then refuse invalidLength
      readBody invalidLength (.error "Server response exceeds the protocol limit.")
        (.error "Incomplete server response.") limit (lengthHeader response) stream
    -- `complete` is set once the result is there.
    close (body.result matches .error _) body

end Cli

namespace Client

theorem bounded_readers_exact (contentEncoding contentLength : Option JsString) (stream : Stream)
    (limit : SafeInteger)
    : let response : Response := ⟨contentEncoding, contentLength, some stream⟩
      let length := ((lengthHeader response).filter isDigits).map declared
      Exact limit length stream (Web.readBounded response limit)
      ∧ ((∀ header, lengthHeader response = some header → isDigits header = true)
          → Exact limit length stream (Cli.bytes response limit)
            ∧ (Cli.bytes response limit).result.toOption
              = (Web.readBounded response limit).result.toOption) := by
  intro response length
  have hweb : Exact limit length stream (Web.readBounded response limit) := by
    apply close_exact
    intro error _ hended
    simpa using hended
  refine ⟨hweb, fun hdigits => ?_⟩
  have hfilter : (lengthHeader response).filter isDigits = lengthHeader response := by
    cases hheader : lengthHeader response with
    | none => rfl
    | some header => simp [hdigits header hheader]
  have hpassed : ¬((lengthHeader response).any fun header => !isDigits header) = true := by
    intro hany
    simp only [Option.any_eq_true, Bool.not_eq_true'] at hany
    rcases hany with ⟨header, hheader, hnot⟩
    rw [hdigits header hheader] at hnot
    cases hnot
  have hcli : Exact limit length stream (Cli.bytes response limit) := by
    simp only [Cli.bytes, if_neg hpassed, response, length, hfilter]
    apply close_exact
    intro error herror _
    rw [herror]
  exact ⟨hcli, hcli.toOption_eq hweb⟩

end Client
