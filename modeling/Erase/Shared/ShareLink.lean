import Erase.Shared.Base64Url

namespace Shared

-- The components of a parsed URL, which the platform serializes.
structure Url where
  protocol : JsString
  username : JsString
  password : JsString
  pathname : JsString
  search : JsString
  hash : JsString
  deriving DecidableEq

structure ShareLink where
  id : JsString
  secret : JsString
  deriving DecidableEq

-- The two groups of `/^#1\.([A-Za-z0-9_-]{43})\.([A-Za-z0-9_-]{43})$/`.
def shareFragment? (hash : JsString) : Option (JsString × JsString) :=
  let id := (hash.drop 3).take 43
  let secret := hash.drop 47
  if hash.length = 90 ∧ hash.take 3 = JsString.ofString "#1." ∧ hash[46]? = some 46
      ∧ id.all isBase64Url ∧ secret.all isBase64Url then
    some (id, secret)
  else
    none

def isShareUrl (url : Url) : Bool :=
  (url.protocol = JsString.ofString "https:" || url.protocol = JsString.ofString "http:")
    && url.username = [] && url.password = [] && url.pathname = JsString.ofString "/view"
    && url.search = []

def parseShareLink (parseUrl : JsString → Option Url) (value : JsString)
    : Except JsError ShareLink := do
  match parseUrl value with
  | none => invalid "The private link is incomplete."
  | some url =>
    if !isShareUrl url then invalid "The private link is incomplete."
    match shareFragment? url.hash with
    | none => invalid "The private link is incomplete."
    | some (id, secret) =>
      validateId id
      let _ ← fromBase64Url secret (some 32) 32
      return { id, secret }

def decodeHeader (headerBase64 : JsString) : Except JsError Header := do
  parseHeader (← fromBase64Url headerBase64)

def shareHash (id secret : JsString) : JsString :=
  JsString.ofString "#1." ++ (id ++ (JsString.ofString "." ++ secret))

theorem shareFragment?_shareHash {id secret : JsString} (hid : id.length = 43)
    (hsecret : secret.length = 43)
    (hidUnits : id.all isBase64Url = true) (hsecretUnits : secret.all isBase64Url = true)
    : shareFragment? (shareHash id secret) = some (id, secret) := by
  have hmark : JsString.ofString "#1." = [35, 49, 46] := by decide
  have hdot : JsString.ofString "." = [46] := by decide
  have htake : ((shareHash id secret).drop 3).take 43 = id := by
    unfold shareHash
    rw [hmark]
    exact List.take_left' hid
  have hdrop : (shareHash id secret).drop 47 = secret := by
    unfold shareHash
    rw [hmark, hdot, show 47 = 3 + (43 + 1) by rfl, ← List.drop_drop]
    change (id ++ ([46] ++ secret)).drop (43 + 1) = secret
    rw [← List.drop_drop, List.drop_left' hid]
    rfl
  have hmiddle : (shareHash id secret)[46]? = some 46 := by
    unfold shareHash
    rw [hmark, hdot]
    change (id ++ ([46] ++ secret))[43]? = some 46
    rw [← hid, List.getElem?_append_right (Nat.le_refl _), Nat.sub_self]
    rfl
  have hlength : (shareHash id secret).length = 90 := by
    unfold shareHash
    rw [hmark, hdot]
    simp [hid, hsecret]
  unfold shareFragment?
  dsimp only
  rw [htake, hdrop, if_pos]
  exact ⟨hlength, by unfold shareHash; rw [hmark]; rfl, hmiddle, hidUnits, hsecretUnits⟩

theorem parseShareLink_eq_ok {parseUrl : JsString → Option Url} {value : JsString} {url : Url}
    (hparse : parseUrl value = some url) (hurl : isShareUrl url = true) {id secret : ByteString 32}
    (hhash : url.hash = shareHash (toBase64Url id) (toBase64Url secret))
    : parseShareLink parseUrl value = .ok { id := toBase64Url id, secret := toBase64Url secret } := by
  have hlength : ∀ bytes : ByteString 32, (toBase64Url bytes.1).length = 43 := by
    intro bytes
    rw [length_toBase64Url, bytes.2]
  have hexact : ∀ bytes : ByteString 32, fromBase64Url (toBase64Url bytes.1) (some 32) 32 = .ok bytes.1 :=
    fun bytes => (fromBase64Url_exact (by decide)).mpr ⟨rfl, bytes.2⟩
  unfold parseShareLink validateId
  rw [hparse]
  dsimp only
  rw [if_neg (by simp [hurl]), hhash, shareFragment?_shareHash (hlength id) (hlength secret)
    (all_isBase64Url _) (all_isBase64Url _)]
  dsimp only
  rw [hexact id, hexact secret]
  rfl

end Shared
