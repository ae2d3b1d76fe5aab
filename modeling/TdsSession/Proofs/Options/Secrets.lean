import Mathlib.Data.List.Forall2
import TdsSession.Bearer.Token
import TdsSession.Options.ConnectionString

/-!
# Secrets in connection strings

A password is read like any other option, and nothing but the credentials ever
holds it. `withoutSecret` blots it out, from one setting to the options that a
whole connection string names, and reading a connection string commutes with
it (`Config.ofConnectionString_withoutSecret`). So two connection strings that
differ in their passwords alone come to the same error, or to options that
differ in the secret alone and are described alike (`secrets_hidden`).
-/

namespace TdsSession

/-! ## Connection strings that differ in their passwords -/

/-- The same part of a connection string, or two parts that set a password under the same key. -/
inductive SamePartButSecret : List Char → List Char → Prop
  | same (part : List Char) : SamePartButSecret part part
  | secret {key : List Char} (value value' : List Char) (hkey : '=' ∉ key)
      (hname : String.ofList (Text.foldKey (Text.trim key)) ∈ ["password", "pwd"]) :
      SamePartButSecret (key ++ '=' :: value) (key ++ '=' :: value')

/-- The connection strings differ in nothing but the values of their passwords. -/
def SameButSecrets (text text' : List Char) : Prop :=
  List.Forall₂ SamePartButSecret (Text.pieces ';' text) (Text.pieces ';' text')

/-! ## Blotting secrets out -/

/-- The credentials with nothing in the place of their secret. Whether there is one stays. -/
def Credentials.withoutSecret : Credentials → Credentials
  | .password user _ => .password user ""
  | .token _ => .token ""
  | .federated method user secret => .federated method user (secret.map fun _ => "")

/-- The options with nothing in the place of the secret in their credentials. -/
def Config.withoutSecret (c : Config) : Config := { c with credentials := c.credentials.withoutSecret }

/-- A description of credentials shows that there is a secret, and nothing of it. -/
theorem Credentials.toText_withoutSecret (c : Credentials) : c.withoutSecret.toText = c.toText := by
  cases c with
  | password user password => rfl
  | token token => rfl
  | federated method user secret => cases secret <;> rfl

/-- So does the description of a request for a token. -/
theorem TokenRequest.toText_withoutSecret (r : TokenRequest) (c : Credentials) :
    (r.withCredentials c.withoutSecret).toText = (r.withCredentials c).toText := by
  cases c with
  | password user password => rfl
  | token token => rfl
  | federated method user secret => cases secret <;> rfl

namespace Setting

/-- The setting with nothing in the place of a password. -/
def withoutSecret : Setting → Setting
  | .password _ => .password ""
  | setting => setting

end Setting

namespace ConfigDraft

/-- The draft with nothing in the place of its password. -/
def withoutSecret (d : ConfigDraft) : ConfigDraft := { d with password := d.password.map fun _ => "" }

theorem apply_withoutSecret (d : ConfigDraft) (setting : Setting) :
    (d.apply setting).withoutSecret = d.withoutSecret.apply setting.withoutSecret := by
  cases setting <;> rfl

theorem foldl_withoutSecret (d : ConfigDraft) (settings : List Setting) :
    (settings.foldl apply d).withoutSecret = (settings.map Setting.withoutSecret).foldl apply d.withoutSecret := by
  induction settings generalizing d with
  | nil => rfl
  | cons setting rest ih =>
    rw [List.foldl_cons, ih, apply_withoutSecret, List.map_cons, List.foldl_cons]

/-- The credentials of a draft come from its password as they would from any other. -/
theorem finish_withoutSecret (d : ConfigDraft) : d.finish.map Config.withoutSecret = d.withoutSecret.finish := by
  have hcredentials : d.credentials.map Credentials.withoutSecret = d.withoutSecret.credentials := by
    have hmethod : d.withoutSecret.method = d.method := rfl
    unfold credentials
    rw [hmethod]
    cases d.method.getD .sqlPassword with
    | sqlPassword =>
      cases hpassword : d.password <;> simp [withoutSecret, hpassword, Except.map, Credentials.withoutSecret]
    | accessToken => rfl
    | _ => rfl
  unfold finish
  rw [← hcredentials]
  rcases d.credentials with e | credentials <;> rfl

end ConfigDraft

/-! ## Reading connection strings -/

/-- A part that sets a password does so, whatever else it contains. -/
theorem Setting.ofPart_password {key : List Char} (hkey : '=' ∉ key)
    (hname : String.ofList (Text.foldKey (Text.trim key)) ∈ ["password", "pwd"]) (value : List Char) :
    ofPart (key ++ '=' :: value) =
      .ok (some (.password (String.ofList (Text.trim (Text.trimEnd value))))) := by
  have htrim : Text.trim (key ++ '=' :: value) = Text.trimStart key ++ '=' :: Text.trimEnd value :=
    Text.trim_append_cons (by decide) key value
  have hsplit : Text.splitOnce '=' (Text.trimStart key ++ '=' :: Text.trimEnd value) =
      some (Text.trimStart key, Text.trimEnd value) :=
    Text.splitOnce_eq_some_iff.mpr ⟨rfl, fun h => hkey ((List.dropWhile_suffix _).subset h)⟩
  have hparse : SettingKey.parse (String.ofList (Text.foldKey (Text.trim key))) = some .password := by
    rcases List.mem_pair.mp hname with hname | hname <;> rw [hname] <;> rfl
  have hkeyTrim : Text.trim (Text.trimStart key) = Text.trim key := by
    unfold Text.trim
    rw [Text.trimStart_trimStart]
  unfold ofPart
  dsimp only
  rw [htrim, if_neg (by simp), hsplit]
  dsimp only
  rw [hkeyTrim, hparse]
  rfl

/-- Parts that differ in a password alone come to the same error, or to settings that differ in it alone. -/
theorem SamePartButSecret.ofPart {part part' : List Char} (h : SamePartButSecret part part') :
    Option.map Setting.withoutSecret <$> Setting.ofPart part =
      Option.map Setting.withoutSecret <$> Setting.ofPart part' := by
  cases h with
  | same => rfl
  | secret value value' hkey hname =>
    rw [Setting.ofPart_password hkey hname, Setting.ofPart_password hkey hname]
    rfl

/-- What a connection string comes to but for its secret depends on what its parts come to but for theirs. -/
theorem Config.ofConnectionString_withoutSecret (text : List Char) :
    (ofConnectionString text).map withoutSecret =
      ((Text.pieces ';' text).mapM fun part => Option.map Setting.withoutSecret <$> Setting.ofPart part) >>=
        fun settings => ((settings.filterMap id).foldl ConfigDraft.apply {}).finish := by
  have hparts (parts : List (List Char)) :
      (parts.mapM fun part => Option.map Setting.withoutSecret <$> Setting.ofPart part) =
        (parts.mapM Setting.ofPart).map (List.map (Option.map Setting.withoutSecret)) := by
    induction parts with
    | nil => rfl
    | cons part rest ih =>
      rw [List.mapM_cons, List.mapM_cons, ih]
      rcases Setting.ofPart part with e | setting
      · rfl
      · rcases rest.mapM Setting.ofPart with e | settings <;> rfl
  have hsettings (settings : List (Option Setting)) :
      (settings.map (Option.map Setting.withoutSecret)).filterMap id =
        (settings.filterMap id).map Setting.withoutSecret := by
    rw [List.filterMap_map, List.map_filterMap]
    rfl
  rw [hparts]
  unfold ofConnectionString
  rcases (Text.pieces ';' text).mapM Setting.ofPart with e | settings
  · rfl
  show (ConfigDraft.finish _).map withoutSecret = ConfigDraft.finish _
  rw [ConfigDraft.finish_withoutSecret, ConfigDraft.foldl_withoutSecret, hsettings]
  rfl

/-- Let two connection strings differ in nothing but the values of their passwords. Then they come to the same error,
or to options that agree in all but the password or the secret in the credentials; and these credentials, and every
request for a token with them, are described by the same text. -/
theorem secrets_hidden {text text' : List Char} (h : SameButSecrets text text') :
    (∃ e, Config.ofConnectionString text = .error e ∧ Config.ofConnectionString text' = .error e) ∨
    ∃ c c', Config.ofConnectionString text = .ok c ∧ Config.ofConnectionString text' = .ok c' ∧
      c.withoutSecret = c'.withoutSecret ∧ c.credentials.toText = c'.credentials.toText ∧
      ∀ authority resource,
        (TokenRequest.withCredentials { authority, resource } c.credentials).toText =
          (TokenRequest.withCredentials { authority, resource } c'.credentials).toText := by
  have hparts {parts parts' : List (List Char)} (h : List.Forall₂ SamePartButSecret parts parts') :
      (parts.mapM fun part => Option.map Setting.withoutSecret <$> Setting.ofPart part) =
        parts'.mapM fun part => Option.map Setting.withoutSecret <$> Setting.ofPart part := by
    induction h with
    | nil => rfl
    | cons hpart _ ih => rw [List.mapM_cons, List.mapM_cons, hpart.ofPart, ih]
  have hsame : (Config.ofConnectionString text).map Config.withoutSecret =
      (Config.ofConnectionString text').map Config.withoutSecret := by
    rw [Config.ofConnectionString_withoutSecret, Config.ofConnectionString_withoutSecret, hparts h]
  rcases hc : Config.ofConnectionString text with e | c <;>
    rcases hc' : Config.ofConnectionString text' with e' | c' <;> rw [hc, hc'] at hsame
  · cases hsame
    exact .inl ⟨e, rfl, rfl⟩
  · cases hsame
  · cases hsame
  have hconfig : c.withoutSecret = c'.withoutSecret := Except.ok.inj hsame
  have hcredentials : c.credentials.withoutSecret = c'.credentials.withoutSecret := congrArg Config.credentials hconfig
  refine .inr ⟨c, c', rfl, rfl, hconfig, ?_, fun authority resource => ?_⟩
  · rw [← c.credentials.toText_withoutSecret, hcredentials, Credentials.toText_withoutSecret]
  · rw [← TokenRequest.toText_withoutSecret, hcredentials, TokenRequest.toText_withoutSecret]

/-- A federated login with a secret, as a connection string. -/
def secretText (secret : List Char) : List Char :=
  "Server=db;Authentication=Active Directory Service Principal;User Id=app; PWD =".toList ++ secret

/-- Two secrets, one of them with an equals sign in it, are not told apart. -/
theorem secretText_hidden :
    SameButSecrets (secretText ['x']) (secretText ['a', '=', 'b']) ∧
      ∃ c c', Config.ofConnectionString (secretText ['x']) = .ok c ∧
        Config.ofConnectionString (secretText ['a', '=', 'b']) = .ok c' ∧
        c.credentials ≠ c'.credentials ∧ c.withoutSecret = c'.withoutSecret ∧
        c.credentials.toText = c'.credentials.toText := by
  have hpieces (secret : List Char) (h : Text.pieces ';' secret = [secret]) :
      Text.pieces ';' (secretText secret) =
        ["Server=db".toList, "Authentication=Active Directory Service Principal".toList, "User Id=app".toList,
          " PWD ".toList ++ '=' :: secret] := by
    unfold secretText
    simp [Text.pieces, h]
  have hdiffer : SameButSecrets (secretText ['x']) (secretText ['a', '=', 'b']) := by
    unfold SameButSecrets
    rw [hpieces _ (by decide), hpieces _ (by decide)]
    exact .cons (.same _) (.cons (.same _) (.cons (.same _)
      (.cons (.secret ['x'] ['a', '=', 'b'] (by decide) (by decide)) .nil)))
  have hsecret {c : Config} {secret : List Char} (hc : Config.ofConnectionString (secretText secret) = .ok c)
      (h : secret ∈ [['x'], ['a', '=', 'b']]) :
      c.credentials = .federated .directoryServicePrincipal "app" (String.ofList secret) := by
    have hcredentials : (Config.ofConnectionString (secretText secret)).toOption.map Config.credentials =
        some (.federated .directoryServicePrincipal "app" (String.ofList secret)) := by
      rcases List.mem_pair.mp h with rfl | rfl <;> decide +kernel
    rw [hc] at hcredentials
    exact Option.some.inj hcredentials
  refine ⟨hdiffer, ?_⟩
  rcases secrets_hidden hdiffer with ⟨e, he, -⟩ | ⟨c, c', hc, hc', hconfig, htext, -⟩
  · have hok : (Config.ofConnectionString (secretText ['x'])).isOk = true := by decide +kernel
    rw [he] at hok
    cases hok
  · refine ⟨c, c', hc, hc', ?_, hconfig, htext⟩
    rw [hsecret hc (by decide), hsecret hc' (by decide)]
    decide

end TdsSession
