import Erase.Server.Protocol
import Erase.Shared.Views

namespace Server

def Failure.IsApiError (failure : Failure) : Prop := ∃ error, failure = .api error

-- The call returns a value or an `ApiError`.
abbrev NeverPanics (x : Except Failure α) : Prop := x.Raises Failure.IsApiError

theorem fail_neverPanics {α : Type} (error : ApiError) : NeverPanics (fail error : Except Failure α) :=
  Except.raises_error ⟨error, rfl⟩

theorem check_neverPanics {α : Type} {c : Prop} [Decidable c] {error : ApiError}
    {f : Unit → Except Failure α} {x : Except Failure α} (hx : ¬c → NeverPanics x)
    : NeverPanics (if c then fail error >>= f else x) :=
  Except.raises_guard ⟨error, rfl⟩ hx

theorem usizeAdd_eq_ok {left right : Nat} (h : left + right < 2 ^ 64)
    : usizeAdd left right = .ok (left + right) :=
  usizeAdd_eq_ok_iff.mpr ⟨h, rfl⟩

theorem usizeSub_eq_ok {left right : Nat} (h : right ≤ left)
    : usizeSub left right = .ok (left - right) :=
  usizeSub_eq_ok_iff.mpr ⟨h, rfl⟩

theorem slice_eq_ok {bytes : Bytes} {start stop : Nat} (hstart : start ≤ stop)
    (hstop : stop ≤ bytes.length)
    : slice bytes start stop = .ok ((bytes.drop start).take (stop - start)) :=
  slice_eq_ok_iff.mpr ⟨⟨hstart, hstop⟩, rfl⟩

theorem parsePacket_neverPanics (bytes : Bytes) : NeverPanics (parsePacket bytes) := by
  apply check_neverPanics
  intro hmax
  apply check_neverPanics
  intro hmin
  rw [slice_eq_ok (by omega) (by omega), Except.ok_bind]
  apply check_neverPanics
  intro _
  rw [slice_eq_ok (by omega) (by omega), Except.ok_bind]
  apply check_neverPanics
  intro hlength
  unfold maxHeaderBytes at hlength
  rw [usizeAdd_eq_ok (by omega), Except.ok_bind, usizeAdd_eq_ok (by omega), Except.ok_bind]
  apply check_neverPanics
  intro hframe
  rw [usizeSub_eq_ok (by omega), Except.ok_bind, usizeSub_eq_ok (by omega), Except.ok_bind,
    usizeSub_eq_ok (by omega), Except.ok_bind]
  apply check_neverPanics
  intro _
  beta_reduce
  rw [Except.ok_bind, slice_eq_ok (by omega) (by omega), Except.ok_bind]
  split
  . apply fail_neverPanics
  . apply check_neverPanics
    intro _
    apply check_neverPanics
    intro _
    apply Except.raises_ok

end Server

namespace Protocol

open Shared (JsError View Unicode Span)

theorem parsers_fail_within_error_type
    : (∀ bytes : Bytes,
        (∃ packet, Server.parsePacket bytes = .ok packet)
        ∨ ∃ error, Server.parsePacket bytes = .error (.api error))
      ∧ (∀ packet : View,
          ((∃ parsed, packet.parsePacket.result = .ok parsed)
            ∨ ∃ code message, packet.parsePacket.result = .error (.protocolError code message))
          ∧ packet.parsePacket.result = Shared.parsePacket packet.bytes
          ∧ ∀ span ∈ packet.parsePacket.log, span.stop ≤ packet.byteLength)
      ∧ ∀ (unicode : Unicode) (padded : View),
          ((∃ input, (padded.unpack unicode).result = .ok input)
            ∨ ∃ code message, (padded.unpack unicode).result = .error (.protocolError code message))
          ∧ (padded.unpack unicode).result = Shared.unpack unicode padded.bytes
          ∧ ∀ span ∈ (padded.unpack unicode).log, span.stop ≤ padded.byteLength
              ∧ (span ∈ View.headSpans ∨ View.InEnvelope padded.declaredLength span) := by
  refine ⟨?_, ?_, ?_⟩
  . intro bytes
    rcases (Server.parsePacket_neverPanics bytes).exists_ok_or with hok | ⟨_, herror, error, rfl⟩
    . exact Or.inl hok
    . exact Or.inr ⟨error, herror⟩
  . intro packet
    have hkeeps := packet.parsePacket_keeps
    refine ⟨?_, packet.result_parsePacket, hkeeps.log⟩
    rcases hkeeps.result.exists_ok_or with hok | ⟨_, herror, code, message, rfl⟩
    . exact Or.inl hok
    . exact Or.inr ⟨code, message, herror⟩
  . intro unicode padded
    have hkeeps := padded.unpack_keeps unicode
    refine ⟨?_, padded.result_unpack unicode, hkeeps.log⟩
    rcases hkeeps.result.exists_ok_or with hok | ⟨_, herror, code, message, rfl⟩
    . exact Or.inl hok
    . exact Or.inr ⟨code, message, herror⟩

end Protocol
