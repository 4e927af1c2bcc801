import Erase.Library.Logged
import Erase.Shared.Content

namespace Shared

def JsError.IsProtocolError (error : JsError) : Prop :=
  ∃ code message, error = .protocolError code message

-- Nothing but a `ProtocolError` leaves the call.
abbrev OnlyProtocolErrors (x : Except JsError α) : Prop := x.Raises JsError.IsProtocolError

theorem isProtocolError (code message : String)
    : JsError.IsProtocolError (.protocolError code message) :=
  ⟨code, message, rfl⟩

theorem invalid_raises {α : Type} (message : String)
    : OnlyProtocolErrors (invalid message : Except JsError α) :=
  Except.raises_error (isProtocolError _ _)

theorem invalid_ne_ok {α : Type} (message : String) (a : α) : invalid message ≠ .ok a := by
  intro h
  cases h

-- `if (..) invalid(..);`
theorem check_raises {α : Type} {c : Prop} [Decidable c] {message : String}
    {f : Unit → Except JsError α}
    {x : Except JsError α} (hx : ¬c → OnlyProtocolErrors x)
    : OnlyProtocolErrors (if c then invalid message >>= f else x) :=
  Except.raises_guard (isProtocolError _ _) hx

theorem utf8_raises (bytes : Bytes) : OnlyProtocolErrors (utf8 bytes) := by
  unfold utf8
  split
  . apply Except.raises_ok
  . apply invalid_raises

theorem encodeText_raises (value : JsString) : OnlyProtocolErrors (encodeText value) := by
  apply (utf8_raises _).bind
  intro text _
  apply check_raises
  intro _
  apply Except.raises_ok

theorem fromBase64Url_raises (value : JsString) (expectedBytes : Option Nat) (maxBytes : Nat)
    : OnlyProtocolErrors (fromBase64Url value expectedBytes maxBytes) := by
  apply check_raises
  intro _
  split
  . apply invalid_raises
  . apply check_raises
    intro _
    apply Except.raises_ok

theorem validateId_raises (id : JsString) : OnlyProtocolErrors (validateId id) := by
  apply (fromBase64Url_raises _ _ _).bind
  intro bytes _
  apply Except.raises_ok

theorem validatePolicy_raises (ttl views : JsNumber)
    : OnlyProtocolErrors (validatePolicy ttl views) := by
  unfold validatePolicy
  split
  . apply Except.raises_ite
    . intro _
      exact Except.raises_error (isProtocolError _ _)
    . intro _
      apply Except.raises_ok
  . exact Except.raises_error (isProtocolError _ _)

theorem validateSalt_raises (header : Header) : OnlyProtocolErrors (validateSalt header) := by
  apply check_raises
  intro _
  apply Except.raises_ite
  . intro _
    apply (fromBase64Url_raises _ _ _).bind
    intro bytes _
    apply Except.raises_ok
  . intro _
    apply Except.raises_ok

theorem validateHeader_raises (members : Header) (ttl views : JsNumber) (text : JsString)
    : OnlyProtocolErrors (validateHeader members ttl views text) := by
  apply (validateId_raises _).bind
  intro _ _
  apply (validatePolicy_raises _ _).bind
  intro policy _
  apply (fromBase64Url_raises _ _ _).bind
  intro nonce _
  apply (validateSalt_raises _).bind
  intro _ _
  apply (utf8_raises _).bind
  intro canonical _
  apply check_raises
  intro _
  apply Except.raises_ok

theorem parseHeader_raises (bytes : Bytes) : OnlyProtocolErrors (parseHeader bytes) := by
  apply check_raises
  intro _
  apply (utf8_raises _).bind
  intro text _
  split
  . apply check_raises
    intro _
    split
    . apply invalid_raises
    . apply validateHeader_raises
  . apply invalid_raises

theorem normalizeFilename_raises (unicode : Unicode) (value : JsString)
    : OnlyProtocolErrors (normalizeFilename unicode value) := by
  apply check_raises
  intro _
  apply Except.raises_guard (isProtocolError _ _)
  intro _
  apply (encodeText_raises _).bind
  intro bytes _
  apply Except.raises_guard (isProtocolError _ _)
  intro _
  apply Except.raises_ok

theorem normalizeMime_raises (unicode : Unicode) (value : JsString)
    : OnlyProtocolErrors (normalizeMime unicode value) := by
  apply check_raises
  intro _
  apply check_raises
  intro _
  apply Except.raises_ok

end Shared
