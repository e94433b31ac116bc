import MediaBridge.Personal.Settings

/-!
# Settings in the launcher

`validateConfig` and `loadConfig` of `packaging/npm/lib/config.cjs`, and what they make of the
configurations that the personal runtime writes.

## Implementation notes

A configuration is what `JSON.parse` returns. The URL parser of the platform and the conversions of
other values are fields of `JavaScript`; index keys, which a spread string or list has, are never
read and are left out.
-/

namespace MediaBridge.Personal

open Foundation MediaBridge.Core Gateway

/-- The engine that the launcher runs on. -/
structure JavaScript where
  /-- `new URL(text)`: the protocol and the host name, or a `TypeError`. -/
  url : Str → Option (Str × Str)
  /-- `Number(text)`, if it is an integer. -/
  integerOf : Str → Option Int
  /-- A value that is neither a string nor a small integer, in a template. -/
  stringOf : Json → Str

section Values

/-- `Boolean(value)`. -/
def booleanOf : Option Json → Bool
  | none => false
  | some (.arr _) => true
  | some (.obj _) => true
  | some v => v.truthy

/-- `value || default`. -/
def valueOr (value : Option Json) (default : Json) : Json :=
  if booleanOf value then value.getD default else default

/-- `value.key`, of a value that is not `null`. -/
def property (value : Json) (key : String) : Option Json :=
  value.obj?.bind fun fields => Entries.get? fields (lit key)

/-- `value?.key`. -/
def optionalProperty (value : Option Json) (key : String) : Option Json :=
  value.bind fun v => property v key

/-- The entries of `...value`. -/
def spread (value : Option Json) : Entries Str Json := (value.bind Json.obj?).getD []

/-- The integer that a number is, if it is one. -/
def integerValue : Json → Option Int
  | .int n => if n.natAbs < 2 ^ 1024 - 2 ^ 970 then some n else none
  | .float bits =>
      match Json.floatValue bits with
      | .finite q => if q.den = 1 then some q.num else none
      | _ => none
  | _ => none

/-- `${value}`. -/
def templateText (J : JavaScript) : Json → Str
  | .str s => s
  | .int n => if n.natAbs < 2 ^ 53 then JsonText.intText n else J.stringOf (.int n)
  | v => J.stringOf v

/-- The white space and the line ends that `trim` takes off. -/
def isTrimmed (c : CodePoint) : Bool :=
  (9 ≤ c.val && c.val ≤ 13) || c.val == 0x20 || c.val == 0xA0 || c.val == 0x1680 ||
    (0x2000 ≤ c.val && c.val ≤ 0x200A) || c.val == 0x2028 || c.val == 0x2029 ||
    c.val == 0x202F || c.val == 0x205F || c.val == 0x3000 || c.val == 0xFEFF

/-- `typeof value === 'string' && value.trim() !== ''`. -/
def filledText (value : Option Json) : Bool :=
  (value.bind Json.str?).any fun text => text.any fun c => !isTrimmed c

/-- `value === 'text'`. -/
def isText (value : Option Json) (text : String) : Bool := value.any fun v => v.isLit text

end Values

section Hosts

variable (J : JavaScript)

def isLoopback (hostname : Str) : Bool :=
  ["localhost", "127.0.0.1", "[::1]", "::1"].any fun host => hostname = lit host

def isPrivateIPv4 (hostname : Str) : Bool :=
  match (Str.splitOn (cp 46) hostname).map J.integerOf with
  | [some a, some b, some c, some d] =>
      ([a, b, c, d].all fun octet => 0 ≤ octet && octet ≤ 255) &&
        (a = 10 || (a = 172 && 16 ≤ b && b ≤ 31) || (a = 192 && b = 168))
  | _ => false

def isPrivateBindHost (hostname : Str) : Bool := isLoopback hostname || isPrivateIPv4 J hostname

/-- What `validateEndpoint` throws, if it does. -/
def endpointError (value : Option Json) (field : String) (allowPrivateHttp : Bool) :
    Option String :=
  match value.bind Json.str? with
  | none => some (field ++ " endpoint is required")
  | some [] => some (field ++ " endpoint is required")
  | some text =>
      match J.url text with
      | none => some (field ++ " endpoint must be a valid URL")
      | some (protocol, hostname) =>
          if protocol ≠ lit "https:" ∧ ¬ (protocol = lit "http:" ∧ (isLoopback hostname ∨
              (allowPrivateHttp ∧ isPrivateIPv4 J hostname))) then
            some (field ++ " endpoint must use HTTPS or loopback/private HTTP")
          else none

end Hosts

section Validation

variable (J : JavaScript)

/-- What a condition that fails throws. -/
def unlessHolds (holds : Bool) (message : String) : Option String :=
  if holds then none else some message

/-- `config.name.key`, where a missing object is made an empty one. -/
def setting (config : Entries Str Json) (name key : String) : Option Json :=
  Entries.get? (configSection config name) (lit key)

/-- `^[A-Z_][A-Z0-9_]{0,127}$`. -/
def envName : Str → Bool
  | [] => false
  | c :: rest => (c.isAsciiUpper || c == cp 95) && rest.length ≤ 127 &&
      rest.all fun d => d.isAsciiUpper || d.isAsciiDigit || d == cp 95

/-- A string that a pattern accepts. -/
def matchesText (value : Option Json) (pattern : Str → Bool) : Bool :=
  (value.bind Json.str?).any pattern

/-- What the checks of `validateConfig` throw, in their order. -/
def configErrors (config : Entries Str Json) : List (Option String) :=
  [unlessHolds (((Entries.get? config (lit "port")).bind integerValue).any fun port =>
      1 ≤ port && port ≤ 65535) "port must be an integer from 1 to 65535",
    unlessHolds (matchesText (Entries.get? config (lit "host")) (isPrivateBindHost J))
      "host must be loopback or private IPv4 address",
    endpointError J (setting config "opencodex" "baseUrl") "OpenCodex" true,
    endpointError J (setting config "codingAgent" "baseUrl") "coding agent" true,
    endpointError J (setting config "solar" "endpoint") "Solar" false,
    endpointError J (setting config "textLlm" "endpoint") "text LLM" false,
    endpointError J (setting config "ocr" "endpoint") "OCR" false,
    endpointError J (setting config "mediaProcessor" "endpoint") "media processor" false,
    unlessHolds (isText (Entries.get? config (lit "runtimeMode")) "personal")
      "npm runtime mode must be personal",
    unlessHolds (filledText (setting config "solar" "model")) "Solar model is required",
    unlessHolds (filledText (setting config "solar" "apiKeyEnv"))
      "Solar API key environment reference is required",
    unlessHolds (isText (setting config "ocr" "model") "document-parse")
      "OCR model must be document-parse",
    unlessHolds (filledText (setting config "ocr" "apiKeyEnv"))
      "OCR API key environment reference is required",
    unlessHolds ((["opencodex", "eoul-gateway", "custom"].any fun name =>
        isText (setting config "codingAgent" "preset") name) &&
        isText (setting config "codingAgent" "protocol") "openai-responses")
      "coding agent preset or protocol is unsupported",
    unlessHolds ((["upstage-solar", "custom"].any fun name =>
        isText (setting config "textLlm" "preset") name) &&
        (["openai-chat-completions", "openai-responses"].any fun name =>
          isText (setting config "textLlm" "protocol") name) &&
        filledText (setting config "textLlm" "model") &&
        matchesText (setting config "textLlm" "credentialRef") credentialReference &&
        matchesText (setting config "textLlm" "credentialEnv") envName)
      "text LLM settings are invalid or unsupported",
    unlessHolds (isText (setting config "mediaProcessor" "preset") "upstage-document-parse" &&
        isText (setting config "mediaProcessor" "protocol") "upstage-document-parse" &&
        isText (setting config "mediaProcessor" "model") "document-parse" &&
        matchesText (setting config "mediaProcessor" "credentialRef") credentialReference &&
        matchesText (setting config "mediaProcessor" "credentialEnv") envName)
      "media processor settings are invalid or unsupported",
    unlessHolds (((setting config "conversion" "maxBytes").bind integerValue).any fun bytes =>
      1 ≤ bytes) "conversion maxBytes must be a positive integer"]

/-- A key can be set on the value: an object, or nothing, which is made an empty one. -/
def isSettable (value : Option Json) : Bool := value.all fun v => v.isNull || v.obj?.isSome

/-- A section with a key made a boolean; on another value than an object it is lost. -/
def booleanSetting (config : Entries Str Json) (name key : String) : Entries Str Json :=
  if isSettable (Entries.get? config (lit name)) then
    Entries.set config (lit name) (.obj (Entries.set (configSection config name) (lit key)
      (.bool (booleanOf (setting config name key)))))
  else config

/-- `validateConfig`. -/
def validateConfig (config : Entries Str Json) : Except String (Entries Str Json) :=
  match (configErrors J config).findSome? id with
  | some message => .error message
  | none => .ok (booleanSetting (booleanSetting (booleanSetting config "conversion" "ocrEnabled")
      "conversion" "visionEnabled") "failurePolicy" "blockSolarOnPreparationFailure")

end Validation

section Loading

variable (J : JavaScript)

/-- `defaultConfig`. -/
def defaultConfig : Entries Str Json :=
  [(lit "runtimeMode", .str (lit "personal")), (lit "host", .str (lit "127.0.0.1")),
    (lit "port", .int 8642),
    (lit "opencodex", .obj [(lit "baseUrl", .str (lit "http://127.0.0.1:8642/v1"))]),
    (lit "codingAgent", .obj [(lit "preset", .str (lit "opencodex")),
      (lit "protocol", .str (lit "openai-responses")),
      (lit "baseUrl", .str (lit "http://127.0.0.1:8642/v1"))]),
    (lit "solar", .obj [(lit "model", .str (lit "solar-pro4")),
      (lit "endpoint", .str (lit "https://api.upstage.ai/v1/chat/completions")),
      (lit "apiKeyEnv", .str (lit "SOLAR_API_KEY"))]),
    (lit "textLlm", .obj [(lit "preset", .str (lit "upstage-solar")),
      (lit "protocol", .str (lit "openai-chat-completions")),
      (lit "endpoint", .str (lit "https://api.upstage.ai/v1/chat/completions")),
      (lit "model", .str (lit "solar-pro4")), (lit "credentialRef", .str (lit "text-llm")),
      (lit "credentialEnv", .str (lit "SOLAR_API_KEY"))]),
    (lit "ocr", .obj [
      (lit "endpoint", .str (lit "https://api.upstage.ai/v1/document-digitization")),
      (lit "model", .str (lit "document-parse")),
      (lit "apiKeyEnv", .str (lit "SOLAR_API_KEY"))]),
    (lit "mediaProcessor", .obj [(lit "preset", .str (lit "upstage-document-parse")),
      (lit "protocol", .str (lit "upstage-document-parse")),
      (lit "endpoint", .str (lit "https://api.upstage.ai/v1/document-digitization")),
      (lit "model", .str (lit "document-parse")),
      (lit "credentialRef", .str (lit "media-processor")),
      (lit "credentialEnv", .str (lit "SOLAR_API_KEY"))]),
    (lit "conversion", .obj [(lit "maxBytes", .int 8388608), (lit "ocrEnabled", .bool true),
      (lit "visionEnabled", .bool true)]),
    (lit "failurePolicy", .obj [(lit "blockSolarOnPreparationFailure", .bool true)])]

/-- The file of the configuration. -/
inductive ConfigFile
  | absent
  | malformed
  | parsed (value : Json)

/-- `http://host:port/v1`. -/
def ownUrl (host port : Json) : Json :=
  .str (lit "http://" ++ templateText J host ++ lit ":" ++ templateText J port ++ lit "/v1")

/-- `defaults[key]`. -/
def defaultValue (key : String) : Json := Json.field defaultConfig key

/-- A profile of a newer section, or of the older section that it replaces. -/
def profileOr (parsed : Json) (name legacy : String) : Entries Str Json :=
  if booleanOf (property parsed name) then
    updated (configSection defaultConfig name) (spread (property parsed name))
  else
    let old := property parsed legacy
    updated (configSection defaultConfig name)
      [(lit "endpoint", valueOr (optionalProperty old "endpoint")
          (Json.field (configSection defaultConfig legacy) "endpoint")),
        (lit "model", valueOr (optionalProperty old "model")
          (Json.field (configSection defaultConfig legacy) "model")),
        (lit "credentialEnv", valueOr (optionalProperty old "apiKeyEnv")
          (Json.field (configSection defaultConfig legacy) "apiKeyEnv"))]

/-- The agent of a configuration. -/
def agentOr (parsed : Json) : Entries Str Json :=
  if booleanOf (property parsed "codingAgent") then
    updated (configSection defaultConfig "codingAgent") (spread (property parsed "codingAgent"))
  else
    updated (configSection defaultConfig "codingAgent")
      [(lit "baseUrl", valueOr (optionalProperty (property parsed "opencodex") "baseUrl")
        (ownUrl J (valueOr (property parsed "host") (defaultValue "host"))
          (valueOr (property parsed "port") (defaultValue "port"))))]

/-- A section with its defaults. -/
def sectionOr (parsed : Json) (name : String) : Entries Str Json :=
  updated (configSection defaultConfig name) (spread (property parsed name))

/-- The defaults with what the file says. -/
def merged (parsed : Json) : Entries Str Json :=
  updated (updated defaultConfig (spread (some parsed)))
    [(lit "opencodex", .obj (sectionOr parsed "opencodex")),
      (lit "codingAgent", .obj (agentOr J parsed)),
      (lit "solar", .obj (sectionOr parsed "solar")),
      (lit "textLlm", .obj (profileOr parsed "textLlm" "solar")),
      (lit "ocr", .obj (sectionOr parsed "ocr")),
      (lit "mediaProcessor", .obj (profileOr parsed "mediaProcessor" "ocr")),
      (lit "conversion", .obj (sectionOr parsed "conversion")),
      (lit "failurePolicy", .obj (sectionOr parsed "failurePolicy"))]

/-- A base URL with a port of an earlier version is moved. -/
def migrated (parsed : Json) (config : Entries Str Json) : Entries Str Json :=
  if isText (setting config "opencodex" "baseUrl") "http://127.0.0.1:10100/v1" then
    let url := ownUrl J (Json.field config "host") (Json.field config "port")
    let config := Entries.set config (lit "opencodex")
      (.obj (Entries.set (configSection config "opencodex") (lit "baseUrl") url))
    if booleanOf (property parsed "codingAgent") then config
    else Entries.set config (lit "codingAgent")
      (.obj (Entries.set (configSection config "codingAgent") (lit "baseUrl") url))
  else config

/-- `loadConfig`. -/
def loadConfig : ConfigFile → Except String (Entries Str Json)
  | .absent => .ok defaultConfig
  | .malformed => .error "config file is not valid JSON"
  | .parsed .null => .error "Cannot read properties of null"
  | .parsed value => validateConfig J (migrated J value (merged J value))

end Loading

end MediaBridge.Personal
