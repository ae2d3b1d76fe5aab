import TdsSession.Options.Config

/-!
# Connection strings

Options as text: parts between semicolons, each a key, an equals sign and a
value. Most options have several keys. Each part is read on its own, to one
`Setting`; the settings are then applied in order, so that the last one for
an option decides. Unknown keys are passed over.
-/

namespace TdsSession

/-- What one part of a connection string sets. -/
inductive Setting
  | server (source : DataSource)
  | partner (source : Option DataSource)
  | database (name : String)
  | user (name : String)
  | password (secret : String)
  | method (m : AuthMethod)
  | timeout (seconds : Nat)
  | multiSubnet (on : Bool)
  | readOnly (on : Bool)
  | language (name : String)
  | packetSize (size : Nat)
  | recoveries (count : Nat)
  | recoveryPause (seconds : Nat)
  | encrypt (on : Bool)
  | mars (on : Bool)
  | application (name : String)
  | workstation (name : String)
  | serverSpn (name : String)
  | version (v : TdsVersion)
deriving DecidableEq, Repr

/-- The options a connection string can set. -/
inductive SettingKey
  | server
  | partner
  | database
  | user
  | password
  | method
  | timeout
  | multiSubnet
  | readOnly
  | language
  | packetSize
  | recoveries
  | recoveryPause
  | encrypt
  | mars
  | application
  | workstation
  | serverSpn
  | version
deriving DecidableEq, Repr

namespace SettingKey

/-- The option a key names. -/
def parse (key : String) : Option SettingKey :=
  match key with
  | "server" | "data source" | "address" | "addr" | "network address" => some .server
  | "failover partner" => some .partner
  | "database" | "initial catalog" => some .database
  | "user id" | "uid" | "user" => some .user
  | "password" | "pwd" => some .password
  | "authentication" => some .method
  | "connect timeout" | "connection timeout" | "timeout" => some .timeout
  | "multisubnetfailover" | "multi subnet failover" => some .multiSubnet
  | "applicationintent" | "application intent" => some .readOnly
  | "current language" | "language" => some .language
  | "packet size" => some .packetSize
  | "connectretrycount" | "connect retry count" => some .recoveries
  | "connectretryinterval" | "connect retry interval" => some .recoveryPause
  | "encrypt" => some .encrypt
  | "multipleactiveresultsets" | "mars" => some .mars
  | "application name" | "app" => some .application
  | "workstation id" | "wsid" => some .workstation
  | "server spn" | "serverspn" => some .serverSpn
  | "tdsversion" | "tds version" | "protocolversion" | "protocol version" => some .version
  | _ => none

end SettingKey

namespace Setting

/-- One of the spellings of yes or of no. -/
def parseBool (key : String) (value : List Char) : Except Error Bool :=
  let is (word : String) := Text.sameLetters value word.toList
  if is "true" || is "yes" || is "1" then .ok true
  else if is "false" || is "no" || is "0" then .ok false
  else .error (.config ("invalid boolean for " ++ key ++ ": " ++ String.ofList value))

/-- A number of at most `limit`. -/
def parseNumber (key : String) (limit : Nat) (value : List Char) : Except Error Nat :=
  match Text.Numeral.parse limit value with
  | some n => .ok n
  | none => .error (.config ("invalid value for " ++ key ++ ": " ++ String.ofList value))

/-- The kind of work the client announces. -/
def parseReadOnly (value : List Char) : Except Error Bool :=
  match String.ofList (Text.lower (Text.squeeze value)) with
  | "readwrite" => .ok false
  | "readonly" => .ok true
  | _ => .error (.config ("invalid application intent: " ++ String.ofList value))

/-- A packet size within its limits. -/
def parsePacketSize (key : String) (value : List Char) : Except Error Nat := do
  let size ← parseNumber key 0xFFFFFFFF value
  if Config.minPacketSize ≤ size ∧ size ≤ Config.maxPacketSize then return size
  throw (.config (s!"packet size must be between {Config.minPacketSize} and {Config.maxPacketSize}" ++
    s!": {size}"))

/-- Whether to encrypt, which has more spellings than yes and no. -/
def parseEncrypt (key : String) (value : List Char) : Except Error Bool :=
  let is (word : String) := Text.sameLetters value word.toList
  if is "strict" || is "mandatory" then .ok true
  else if is "optional" then .ok false
  else parseBool key value

/-- A protocol version. -/
def parseVersion (value : List Char) : Except Error TdsVersion :=
  match TdsVersion.parse value with
  | some v => .ok v
  | none =>
    .error (.config ("invalid TDS version: " ++ String.ofList value ++
      ". Supported values: 7.3, 7.3A, 7.3B, 7.4, 8.0"))

/-- The setting of one option. -/
def ofKey (key : String) (value : List Char) : SettingKey → Except Error Setting
  | .server => .server <$> DataSource.parse value
  | .partner =>
    if value.isEmpty then .ok (.partner none) else (.partner ∘ some) <$> DataSource.parse value
  | .database => .ok (.database (String.ofList value))
  | .user => .ok (.user (String.ofList value))
  | .password => .ok (.password (String.ofList value))
  | .method =>
    match AuthMethod.parse value with
    | some m => .ok (.method m)
    | none => .error (.authentication (.unsupportedMethod (String.ofList value)))
  | .timeout => .timeout <$> parseNumber key 0xFFFFFFFFFFFFFFFF value
  | .multiSubnet => .multiSubnet <$> parseBool key value
  | .readOnly => .readOnly <$> parseReadOnly value
  | .language => .ok (.language (String.ofList value))
  | .packetSize => .packetSize <$> parsePacketSize key value
  | .recoveries => .recoveries <$> parseNumber key 0xFF value
  | .recoveryPause => .recoveryPause <$> parseNumber key 0xFFFFFFFFFFFFFFFF value
  | .encrypt => .encrypt <$> parseEncrypt key value
  | .mars => .mars <$> parseBool key value
  | .application => .ok (.application (String.ofList value))
  | .workstation => .ok (.workstation (String.ofList value))
  | .serverSpn => .ok (.serverSpn (String.ofList value))
  | .version => .version <$> parseVersion value

/-- The setting of one part; a blank part and a part with an unknown key have none. -/
def ofPart (part : List Char) : Except Error (Option Setting) :=
  let part := Text.trim part
  if part.isEmpty then .ok none
  else
    match Text.splitOnce '=' part with
    | none => .error (.config ("invalid key-value: " ++ String.ofList part))
    | some (key, value) =>
      let key := String.ofList (Text.foldKey (Text.trim key))
      match SettingKey.parse key with
      | none => .ok none
      | some k => some <$> ofKey key (Text.trim value) k

end Setting

/-- Options being put together. The credentials wait for the end, since three settings make them. -/
structure ConfigDraft where
  config : Config := {}
  user : Option String := none
  password : Option String := none
  method : Option AuthMethod := none
deriving DecidableEq, Repr

namespace ConfigDraft

/-- Applies a setting. -/
def apply (d : ConfigDraft) : Setting → ConfigDraft
  | .server source => { d with config := { d.config with server := source } }
  | .partner source => { d with config := { d.config with partner := source } }
  | .database name => { d with config := { d.config with database := some name } }
  | .user name => { d with user := some name }
  | .password secret => { d with password := some secret }
  | .method m => { d with method := some m }
  | .timeout s => { d with config := { d.config with timeout := Span.ofSeconds s } }
  | .multiSubnet on => { d with config := { d.config with multiSubnet := on } }
  | .readOnly on => { d with config := { d.config with readOnly := on } }
  | .language name => { d with config := { d.config with language := some name } }
  | .packetSize size => { d with config := { d.config with packetSize := size } }
  | .recoveries n => { d with config := { d.config with retry := { d.config.retry with recoveries := n } } }
  | .recoveryPause s =>
    { d with config :=
      { d.config with retry := { d.config.retry with recoveryPause := Span.ofSeconds s } } }
  | .encrypt on => { d with config := { d.config with encrypt := on } }
  | .mars on => { d with config := { d.config with mars := on } }
  | .application name => { d with config := { d.config with application := name } }
  | .workstation name => { d with config := { d.config with workstation := some name } }
  | .serverSpn name => { d with config := { d.config with serverSpn := some name } }
  | .version v => { d with config := { d.config with version := v } }

/-- The credentials of the draft. A token cannot be given in a connection string. -/
def credentials (d : ConfigDraft) : Except Error Credentials :=
  match d.method.getD .sqlPassword with
  | .sqlPassword => .ok (.password (d.user.getD "") (d.password.getD ""))
  | .accessToken => .error (.config "access tokens cannot be supplied in a connection string")
  | m => .ok (.federated m d.user d.password)

/-- The options of the draft. -/
def finish (d : ConfigDraft) : Except Error Config := do
  let credentials ← d.credentials
  return { d.config with credentials }

end ConfigDraft

namespace Config

/-- The options a connection string names. -/
def ofConnectionString (text : List Char) : Except Error Config := do
  let settings ← (Text.pieces ';' text).mapM Setting.ofPart
  ((settings.filterMap id).foldl ConfigDraft.apply {}).finish

end Config

end TdsSession
