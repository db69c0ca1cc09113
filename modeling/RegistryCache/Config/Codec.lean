import RegistryCache.Config.Basic
import RegistryCache.Json.Decoder

/-! # Configuration as JSON

`AppConfig.toJson` writes every field; `AppConfig.ofJson?` reads them back, whether the records are
written as objects or as arrays.  Absent texts are written as `null` and may be left out of an
object.
-/

namespace RegistryCache

open Json (ofString ofNat ofOption record required? optional? asString? asBool? asWord?)

namespace RefreshPolicy

/-- The names of the fields, in order. -/
def fieldNames : List String :=
  ["catalog_refresh_interval", "tags_async_refresh_interval", "tags_online_refresh_max_count"]

/-- The policy as a record. -/
def toJson (p : RefreshPolicy) : Json :=
  record (fieldNames.zip [ofNat p.catalogInterval.toNat, ofNat p.tagsInterval.toNat,
    ofNat p.onlineMax.toNat])

def ofJson? (v : Json) : Option RefreshPolicy := do
  match ← Json.fullParts? fieldNames v with
  | [catalog, tags, most] =>
    return ⟨← required? asWord? catalog, ← required? asWord? tags, ← required? asWord? most⟩
  | _ => none

end RefreshPolicy

namespace RegistryConfig

/-- The names of the fields, in order. -/
def fieldNames : List String :=
  ["address", "username", "password", "password_file", "skip_tls", "timeout", "catalog_page_size"]

/-- The connection as a record. -/
def toJson (c : RegistryConfig) : Json :=
  record (fieldNames.zip [ofString c.address, ofOption ofString c.username,
    ofOption ofString c.password, ofOption ofString c.passwordFile, .bool c.skipTls,
    ofNat c.timeout.toNat, ofNat c.pageSize.toNat])

def ofJson? (v : Json) : Option RegistryConfig := do
  match ← Json.fullParts? fieldNames v with
  | [address, username, password, passwordFile, skipTls, timeout, pageSize] =>
    return ⟨← required? asString? address, ← optional? asString? username,
      ← optional? asString? password, ← optional? asString? passwordFile,
      ← required? asBool? skipTls, ← required? asWord? timeout, ← required? asWord? pageSize⟩
  | _ => none

end RegistryConfig

namespace AppConfig

/-- The names of the fields, in order. -/
def fieldNames : List String := ["registry", "refresh", "verbose", "quiet"]

/-- The configuration as a record. -/
def toJson (c : AppConfig) : Json :=
  record (fieldNames.zip [c.registry.toJson, c.refresh.toJson, .bool c.verbose, .bool c.quiet])

def ofJson? (v : Json) : Option AppConfig := do
  match ← Json.fullParts? fieldNames v with
  | [registry, refresh, verbose, quiet] =>
    return ⟨← required? RegistryConfig.ofJson? registry, ← required? RefreshPolicy.ofJson? refresh,
      ← required? asBool? verbose, ← required? asBool? quiet⟩
  | _ => none

def text (c : AppConfig) : String := c.toJson.render

def parse? (text : String) : Option AppConfig := (Json.parse? text).bind ofJson?

end AppConfig

end RegistryCache
