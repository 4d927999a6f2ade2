import Lineage.Json.Decode
import Lineage.Settings.Basic

/-!
# Settings in structured values

Settings decode from an object whose fields may all be left out, or from a list
of their values in order, which may break off.  The level of logging stands
inside an object or a list of its own.
-/

namespace Lineage

namespace Settings

/-- Decodes an item of a list; what the list does not reach takes another value. -/
def itemOr {α : Type} (items : List Json) (index : Nat) (otherwise : α)
    (decode : Json → Except DecodeFault α) : Except DecodeFault α :=
  match items[index]? with
  | some item => decode item
  | none => .ok otherwise

/-- Refuses a list that goes on after its last meaningful item. -/
def limitItems (items : List Json) (count : Nat) : Except DecodeFault Unit :=
  if items.length ≤ count then .ok ()
  else .error (.wrongLength items.length "fewer elements in array")

def levelOfJson : Json → Except DecodeFault String
  | .object fields => do
    let level? ← Json.optionalField fields "level" Json.asText
    return level?.getD default.loggerLevel
  | .array items => do
    let level ← itemOr items 0 default.loggerLevel Json.asText
    limitItems items 1
    return level
  | found => .error (.wrongType found "struct LoggerConfig")

def ofJson : Json → Except DecodeFault Settings
  | .object fields => do
    let timeout? ← Json.optionalField fields "cacheSyncTimeoutSeconds" Json.asWord
    let refresh? ← Json.optionalField fields "discoveryRefreshSeconds" Json.asWord
    let level? ← Json.optionalField fields "logger" levelOfJson
    let watchNamespace? ← Json.optionalField fields "watchNamespace" Json.asText
    let kinds? ← Json.optionalField fields "wellKnownKinds" (Json.asList WorkloadKind.ofJson)
    return {
      watchNamespace := watchNamespace?.getD default.watchNamespace
      wellKnownKinds := kinds?.getD default.wellKnownKinds
      discoveryRefreshSeconds := refresh?.getD default.discoveryRefreshSeconds
      cacheSyncTimeoutSeconds := timeout?.getD default.cacheSyncTimeoutSeconds
      loggerLevel := level?.getD default.loggerLevel }
  | .array items => do
    let watchNamespace ← itemOr items 0 default.watchNamespace Json.asText
    let wellKnownKinds ← itemOr items 1 default.wellKnownKinds (Json.asList WorkloadKind.ofJson)
    let discoveryRefreshSeconds ← itemOr items 2 default.discoveryRefreshSeconds Json.asWord
    let cacheSyncTimeoutSeconds ← itemOr items 3 default.cacheSyncTimeoutSeconds Json.asWord
    let loggerLevel ← itemOr items 4 default.loggerLevel levelOfJson
    limitItems items 5
    return { watchNamespace, wellKnownKinds, discoveryRefreshSeconds, cacheSyncTimeoutSeconds,
             loggerLevel }
  | found => .error (.wrongType found "struct Config")

end Settings

end Lineage
