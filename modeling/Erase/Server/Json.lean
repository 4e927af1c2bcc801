import Erase.Server.Replies

/-!
The bodies of the replies that `serde_json` writes.
-/

namespace Server

-- The members of a map are written in the order of their names.
def PublicConfig.toVec (config : PublicConfig) : Bytes :=
  SerdeJson.toVec [
    ("max_content_bytes", .number config.maxContentBytes),
    ("max_files", .number config.maxFiles),
    ("max_text_bytes", .number config.maxTextBytes),
    ("max_ttl", .number config.maxTtl),
    ("max_views", .number config.maxViews),
    ("pow_bits", .number config.powBits),
    ("protocol", .number config.protocol)]

def Challenge.toVec (challenge : Challenge) : Bytes :=
  SerdeJson.toVec [
    ("challenge", .string challenge.challenge),
    ("bits", .number challenge.bits),
    ("expires_at", .number challenge.expiresAt)]

def Created.toVec (created : Created) : Bytes :=
  SerdeJson.toVec [("id", .string created.id), ("expires_at", .number created.expiresAt)]

def Metadata.toVec (metadata : Metadata) : Bytes :=
  SerdeJson.toVec [
    ("header", .string metadata.header),
    ("expires_at", .number metadata.expiresAt),
    ("remaining", .number metadata.remaining)]

end Server
