import Erase.Library.EcmaScript
import Erase.Library.Lists
import Erase.Shared.Types

namespace Web

-- The limits that a client applies, with the ranges that it accepts from a service.
structure PublicConfig where
  maxContentBytes : Nat
  maxTextBytes : Nat
  maxFiles : Nat
  maxViews : Nat
  maxTtl : Nat
  powBits : Nat
  content : 1 ≤ maxContentBytes ∧ maxContentBytes ≤ Shared.maxContentBytes
  text : 1 ≤ maxTextBytes ∧ maxTextBytes ≤ Shared.maxTextBytes
  files : 1 ≤ maxFiles ∧ maxFiles ≤ Shared.maxFiles
  views : 1 ≤ maxViews ∧ maxViews ≤ 100
  ttl : 60 ≤ maxTtl ∧ maxTtl ≤ 604800
  pow : 1 ≤ powBits ∧ powBits ≤ 24
  deriving DecidableEq

structure Challenge where
  challenge : JsString
  bits : Nat
  expiresAt : Nat
  deriving DecidableEq

structure Metadata where
  header : JsString
  expiresAt : Nat
  remaining : Nat
  deriving DecidableEq

structure Receipt where
  id : JsString
  expiresAt : Nat
  deriving DecidableEq

-- The values that the calls of a page can throw.
inductive Failure where
  | requestError (code : String)
  | workerFailure (code : String)
  | abortError
  | otherError
  deriving DecidableEq, Repr

-- The legacy code of an abort error is a number that no message has.
def Failure.code : Failure → String
  | .requestError code => code
  | .workerFailure code => code
  | .abortError => "20"
  | .otherError => ""

def messages : List (String × String) := [
  ("crypto_unavailable",
    "Required browser cryptography is unavailable. Open the service through a supported address and browser."),
  ("unavailable",
    "Package unavailable. It may have expired, reached its retrieval limit, or been revoked."),
  ("wrong_passphrase", "Incorrect passphrase. No retrieval has been used. Try again."),
  ("too_large", "The package exceeds the size limit."),
  ("capacity", "Storage capacity is currently exhausted. Please try again later."),
  ("request_timeout",
    "The transfer exceeded the allowed time and was not retried automatically. Check your connection before starting a new attempt."),
  ("rate_limited", "The service is busy. Please wait before trying again."),
  ("proof_invalid", "The proof-of-work challenge was not accepted. Please try again."),
  ("proof_reused", "The proof-of-work challenge was already used. Please try again."),
  ("id_conflict", "Package identifier conflict. Please create a new package."),
  ("invalid_response", "The server returned an invalid response."),
  ("unsupported_protocol",
    "This client and server use different protocol versions. Reload the page."),
  ("forbidden", "The request origin was not accepted."),
  ("invalid_input", "Check the message, file sizes, and retention settings."),
  ("invalid_filename",
    "A file name contains unsupported characters or is too long. Rename the file and select it again."),
  ("duplicate_filename",
    "File names must be unique. Rename duplicate files before selecting them."),
  ("proof_expired", "The creation challenge expired. Please try again."),
  ("worker_failed",
    "Local processing could not be completed. Retry or use a smaller package if your device is low on memory.")]

-- A plain object has the members of `Object.prototype` as well, which the page shows as `String` prints them.
def inherited : List (String × String) := [
  ("constructor", "function Object() \x7b [native code] \x7d"),
  ("hasOwnProperty", "function hasOwnProperty() \x7b [native code] \x7d"),
  ("isPrototypeOf", "function isPrototypeOf() \x7b [native code] \x7d"),
  ("propertyIsEnumerable", "function propertyIsEnumerable() \x7b [native code] \x7d"),
  ("toLocaleString", "function toLocaleString() \x7b [native code] \x7d"),
  ("toString", "function toString() \x7b [native code] \x7d"),
  ("valueOf", "function valueOf() \x7b [native code] \x7d"),
  ("__defineGetter__", "function __defineGetter__() \x7b [native code] \x7d"),
  ("__defineSetter__", "function __defineSetter__() \x7b [native code] \x7d"),
  ("__lookupGetter__", "function __lookupGetter__() \x7b [native code] \x7d"),
  ("__lookupSetter__", "function __lookupSetter__() \x7b [native code] \x7d"),
  ("__proto__", "[object Object]")]

def errorText (error : Failure) : String :=
  match (messages ++ inherited).lookup error.code with
  | some message => message
  | none =>
    if error = .abortError then "The operation was cancelled or the connection timed out."
    else "The operation failed. Check your connection and try again."

theorem errorText_ne (error : Failure) : errorText error ≠ "" := by
  have hmessages : ∀ entry ∈ messages ++ inherited, entry.2 ≠ "" := by simp [messages, inherited]
  unfold errorText
  split
  . next message hlookup =>
    exact hmessages _ (List.mem_of_lookup hlookup)
  . split
    . decide
    . decide

end Web
