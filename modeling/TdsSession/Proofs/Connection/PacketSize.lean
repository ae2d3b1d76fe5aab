import TdsSession.Options.Builder
import TdsSession.Proofs.Connection.Recovery
import TdsSession.Proofs.Login.Gathered

/-!
# Packet sizes

Options ask for a packet size within limits: a connection string that names
another one is refused, and a call that does is brought to the nearest there is
(`Config.inLimits_of_calls`). So every login asks for such a size. The one that
a server names in its response is taken as it is, and the last of them is the
packet size of the session (`LoginStart.packetSize_of_login`). It is within the
limits exactly if the server keeps to them (`packetSize_inLimits_iff`).
-/

namespace TdsSession

open Op (Keeps)

variable {σ : Type}

/-- A packet size that there is. -/
def InPacketLimits (size : Nat) : Prop := Config.minPacketSize ≤ size ∧ size ≤ Config.maxPacketSize

instance (size : Nat) : Decidable (InPacketLimits size) := inferInstanceAs (Decidable (_ ∧ _))

/-! ## Options -/

namespace Setting

/-- If the setting is a packet size, there is that size. -/
def Allowed : Setting → Prop
  | .packetSize size => InPacketLimits size
  | _ => True

theorem inLimits_of_parsePacketSize {key : String} {value : List Char} {size : Nat}
    (h : parsePacketSize key value = .ok size) : InPacketLimits size := by
  obtain ⟨size', -, h⟩ := Op.except_bind_eq_ok.mp h
  split at h
  · cases h
    assumption
  · cases h

theorem allowed_of_ofKey {key : String} {value : List Char} {k : SettingKey} {setting : Setting}
    (h : ofKey key value k = .ok setting) : setting.Allowed := by
  have of_map {α : Type} {m : Except Error α} {f : α → Setting} (h : f <$> m = .ok setting)
      (hf : ∀ a, m = .ok a → (f a).Allowed) : setting.Allowed := by
    cases m with
    | error e => cases h
    | ok a =>
      cases h
      exact hf a rfl
  cases k with
  | packetSize => exact of_map h fun size hsize => inLimits_of_parsePacketSize hsize
  | partner =>
    simp only [ofKey] at h
    split at h
    · cases h
      trivial
    · exact of_map h fun _ _ => trivial
  | method =>
    simp only [ofKey] at h
    split at h <;> cases h
    trivial
  | database | user | password | language | application | workstation | serverSpn =>
    cases h
    trivial
  | _ =>
    simp only [ofKey] at h
    exact of_map h fun _ _ => trivial

theorem allowed_of_ofPart {part : List Char} {setting : Setting} (h : ofPart part = .ok (some setting)) :
    setting.Allowed := by
  unfold ofPart at h
  dsimp only at h
  split at h
  · cases h
  split at h
  · cases h
  split at h
  · cases h
  · rename_i k hk
    rcases hsetting : ofKey _ _ k with e | setting' <;> rw [hsetting] at h <;> cases h
    exact allowed_of_ofKey hsetting

end Setting

namespace ConfigDraft

theorem inLimits_apply {d : ConfigDraft} {setting : Setting} (hd : InPacketLimits d.config.packetSize)
    (h : setting.Allowed) : InPacketLimits (d.apply setting).config.packetSize := by
  cases setting with
  | packetSize size => exact h
  | _ => exact hd

theorem inLimits_foldl {settings : List Setting} (h : ∀ setting ∈ settings, setting.Allowed) {d : ConfigDraft}
    (hd : InPacketLimits d.config.packetSize) : InPacketLimits (settings.foldl apply d).config.packetSize := by
  induction settings generalizing d with
  | nil => exact hd
  | cons setting rest ih =>
    obtain ⟨hsetting, hrest⟩ := List.forall_mem_cons.mp h
    exact ih hrest (inLimits_apply hd hsetting)

end ConfigDraft

namespace Config

theorem inLimits_withPacketSize (c : Config) (size : Nat) : InPacketLimits (c.withPacketSize size).packetSize := by
  unfold InPacketLimits withPacketSize minPacketSize maxPacketSize
  dsimp only
  omega

/-- A connection string names a packet size that there is, or none. -/
theorem inLimits_of_connectionString {text : List Char} {c : Config} (h : ofConnectionString text = .ok c) :
    InPacketLimits c.packetSize := by
  obtain ⟨settings, hsettings, h⟩ := Op.except_bind_eq_ok.mp h
  obtain ⟨credentials, -, h⟩ := Op.except_bind_eq_ok.mp h
  cases h
  refine ConfigDraft.inLimits_foldl (fun setting hsetting => ?_) (by decide)
  rw [List.mem_filterMap] at hsetting
  obtain ⟨_, hmem, rfl⟩ := hsetting
  obtain ⟨part, -, hpart⟩ := Op.exists_of_mem_mapM hsettings hmem
  exact Setting.allowed_of_ofPart hpart

/-- A call leaves a packet size that there is, whatever it asks for. -/
theorem inLimits_call {c : Config} (hc : InPacketLimits c.packetSize) (call : ConfigCall) :
    InPacketLimits (c.call call).packetSize := by
  cases call with
  | packetSize size => exact c.inLimits_withPacketSize size.toNat
  | _ => exact hc

/-- Options from a connection string, changed by any calls, ask for a packet size that there is. -/
theorem inLimits_of_calls {text : List Char} {c : Config} (h : ofConnectionString text = .ok c)
    (changes : List ConfigCall) : InPacketLimits (c.calls changes).packetSize := by
  have hc := inLimits_of_connectionString h
  clear h
  unfold calls
  induction changes generalizing c with
  | nil => exact hc
  | cons change rest ih => exact ih (inLimits_call hc change)

end Config

/-! ## What is asked for -/

/-- From `run` to `run'` the options have stayed, and all logins have asked for the packet size that they name. -/
structure ConnectionRun.AsksForSize (run run' : ConnectionRun σ) : Prop where
  config : run'.connection.config = run.connection.config
  asks : ∃ added, run'.world.trace = added ++ run.world.trace ∧
    ∀ t n q sent, (t, .login n q sent) ∈ added → q.packetSize = run.connection.config.packetSize

instance : IsTrans (ConnectionRun σ) ConnectionRun.AsksForSize where
  trans _ _ _ h h' := by
    obtain ⟨first, hfirst, hasked⟩ := h.asks
    obtain ⟨second, hsecond, hasked'⟩ := h'.asks
    refine ⟨h'.config.trans h.config, second ++ first, ?_, fun t n q sent hlogin => ?_⟩
    · rw [hsecond, hfirst, List.append_assoc]
    · rcases List.mem_append.mp hlogin with hlogin | hlogin
      · rw [hasked' t n q sent hlogin, h.config]
      · exact hasked t n q sent hlogin

/-- A login asks for the packet size that its options name. -/
theorem LoginStart.login_packetSize (server : Server σ) (attempts : Nat) (s : LoginStart) (w : World σ) :
    ∃ added, (login server attempts s w).2.world.trace = added ++ w.trace ∧
      ∀ t n q sent, (t, .login n q sent) ∈ added → q.packetSize = s.config.packetSize := by
  obtain ⟨added, htrace⟩ : w.trace <:+ (login server attempts s w).2.world.trace :=
    (List.suffix_cons ..).trans (login_grows server attempts s w).suffix
  refine ⟨added, htrace.symm, fun t n q sent hlogin => ?_⟩
  obtain ⟨newer, older, rfl⟩ := List.append_of_mem hlogin
  have hsuffix : (t, .login n q sent) :: (older ++ w.trace) <:+ (login server attempts s w).2.world.trace := by
    rw [← htrace, List.append_assoc]
    exact List.suffix_append ..
  obtain ⟨target, -, rfl⟩ := login_of_event hsuffix (List.suffix_append ..)
  rfl

namespace ConnectionM

variable {server : Server σ} {attempts : Nat} {run run' : ConnectionRun σ}

theorem relogin_packetSize (server : Server σ) (attempts : Nat) (previous : SessionState) :
    Keeps ConnectionRun.AsksForSize (relogin server attempts previous) := by
  intro run
  rcases h : relogin server attempts previous run with ⟨res, run'⟩
  obtain ⟨hconfig, s, hs, -, after, hlogin, hworld⟩ := relogin_login h
  obtain ⟨added, htrace, hasks⟩ := s.login_packetSize server attempts run.world
  rw [hlogin, ← hworld] at htrace
  rw [hs] at hasks
  exact ⟨hconfig, added, htrace, hasks⟩

/-- All logins of a recovery ask for the packet size that the options name. -/
theorem recover_packetSize {res : Except Stop Unit} (h : recover server attempts run = (res, run')) :
    run.AsksForSize run' := by
  refine recover_keeps_of (fun run run' h => ?_) (relogin_packetSize server attempts _) h
  obtain ⟨added, htrace, hquiet⟩ := h.trace
  exact ⟨h.config, added, htrace, fun t n q sent hlogin => (hquiet _ hlogin).elim⟩

end ConnectionM

/-! ## What a server names -/

/-- The packet size that a record names which is received. -/
def Event.packetSize? (e : Event) : Option Nat := e.record?.bind Record.packetSize?

/-- The packet size that a server has named last. -/
def namedPacketSize? (events : List (Moment × Event)) : Option Nat := events.findSome? fun e => e.2.packetSize?

theorem namedPacketSize?_eq (events : List (Moment × Event)) :
    namedPacketSize? events = (received events).reverse.findSome? Record.packetSize? := by
  unfold namedPacketSize? received shown
  rw [List.filterMap_reverse, List.reverse_reverse, ← List.head?_filterMap, ← List.head?_filterMap,
    List.filterMap_filterMap]
  rfl

/-- The packet size of a session is the last one that the server has named over its transport, or else the one that
the options name. -/
theorem LoginStart.packetSize_of_login {server : Server σ} {attempts : Nat} {s : LoginStart} {w : World σ}
    {e : Established} (h : (login server attempts s w).1 = .ok e) :
    e.packetSize =
      (namedPacketSize? (sinceConnected (login server attempts s w).2.world.trace)).getD s.config.packetSize := by
  obtain ⟨target, ack, response, -, -, -, -, hresponse, hcomes⟩ := comesOf_of_login h
  have hgathers := (Response.gathers_of_advanceAll hresponse).packetSize?
  rw [← namedPacketSize?_eq] at hgathers
  rw [hcomes.packetSize, hgathers]
  exact congrArg (Option.getD · _) Option.or_none

/-- While a transport is closed, no record is received. -/
theorem received_of_closing {old new : List (Moment × Event)} (h : Grows Event.ofClosing old new) :
    received (sinceConnected new) = received (sinceConnected old) := by
  obtain ⟨closing, rfl, hclosing⟩ := h
  have hsince : sinceConnected (closing ++ old) = closing ++ sinceConnected old := by
    refine List.takeWhile_append_of_pos fun e he => ?_
    obtain ⟨t, e⟩ := e
    have hclose := hclosing _ he
    cases e <;> first | rfl | exact hclose.elim
  rw [hsince, received_append, received_eq_nil fun e he => (hclosing e he).readsNothing, List.append_nil]

/-- The packet size of a session that a recovery has opened. -/
theorem ConnectionM.packetSize_of_recover {server : Server σ} {attempts : Nat} {run run' : ConnectionRun σ}
    (h : recover server attempts run = (.ok (), run')) :
    run'.connection.session.packetSize =
      (namedPacketSize? (sinceConnected run'.world.trace)).getD run.connection.config.packetSize := by
  obtain ⟨s, w, e, hrecovers⟩ := recover_eq_ok h
  rw [hrecovers.session, namedPacketSize?_eq, received_of_closing hrecovers.trace, ← namedPacketSize?_eq,
    ← hrecovers.config]
  exact LoginStart.packetSize_of_login hrecovers.login

/-- A packet size that a server has named, or else one within the limits, is within the limits exactly if the server
has kept to them. -/
theorem inLimits_getD_iff {named : Option Nat} {size : Nat} (h : InPacketLimits size) :
    InPacketLimits (named.getD size) ↔ ∀ size ∈ named, InPacketLimits size := by
  cases named with
  | none => exact ⟨fun _ => nofun, fun _ => h⟩
  | some size' => exact ⟨fun h _ hsize => Option.some.inj hsize ▸ h, fun h => h size' rfl⟩

/-- Let options come from a connection string and have been changed by any calls. Then every login that is sent with
them, to open a session or to recover one, asks for a packet size within the limits. The packet size of a session that
is opened or recovered with them is within the limits exactly if the one is that the server has named last over its
transport, if it has named one at all. -/
theorem packetSize_inLimits_iff {text : List Char} {c : Config} (hc : Config.ofConnectionString text = .ok c)
    (changes : List ConfigCall) (server : Server σ) (attempts : Nat) :
    (∀ s w, s.config = c.calls changes →
      (∃ added, (login server attempts s w).2.world.trace = added ++ w.trace ∧
        ∀ t n q sent, (t, .login n q sent) ∈ added → InPacketLimits q.packetSize) ∧
      ∀ e, (login server attempts s w).1 = .ok e →
        (InPacketLimits e.packetSize ↔
          ∀ size ∈ namedPacketSize? (sinceConnected (login server attempts s w).2.world.trace),
            InPacketLimits size)) ∧
    ∀ run res run', run.connection.config = c.calls changes →
      ConnectionM.recover server attempts run = (res, run') →
      (∃ added, run'.world.trace = added ++ run.world.trace ∧
        ∀ t n q sent, (t, .login n q sent) ∈ added → InPacketLimits q.packetSize) ∧
      (res = .ok () →
        (InPacketLimits run'.connection.session.packetSize ↔
          ∀ size ∈ namedPacketSize? (sinceConnected run'.world.trace), InPacketLimits size)) := by
  have hlimits := Config.inLimits_of_calls hc changes
  refine ⟨fun s w hs => ⟨?_, fun e he => ?_⟩, fun run res run' hrun h => ⟨?_, fun hres => ?_⟩⟩
  · obtain ⟨added, htrace, hasks⟩ := s.login_packetSize server attempts w
    refine ⟨added, htrace, fun t n q sent hlogin => ?_⟩
    rw [hasks t n q sent hlogin, hs]
    exact hlimits
  · rw [LoginStart.packetSize_of_login he, hs]
    exact inLimits_getD_iff hlimits
  · obtain ⟨added, htrace, hasks⟩ := (ConnectionM.recover_packetSize h).asks
    refine ⟨added, htrace, fun t n q sent hlogin => ?_⟩
    rw [hasks t n q sent hlogin, hrun]
    exact hlimits
  · subst hres
    rw [ConnectionM.packetSize_of_recover h, hrun]
    exact inLimits_getD_iff hlimits

/-- The session that `slowRun` recovers has a packet size within the limits, since its options come from a connection
string and its server names none. So has a session whose server names one within the limits. -/
theorem slowRun_inLimits :
    Config.ofConnectionString "Server=primary".toList = .ok { server := .ofHost "primary" } ∧
      slowRun.connection.config =
        Config.calls { server := .ofHost "primary" } [.packetSize 8000, .retry { recoveries := 2 }] ∧
      (∀ t n q sent, (t, .login n q sent) ∈ (ConnectionM.recover (LineFaults.server {}) 20 slowRun).2.world.trace →
        InPacketLimits q.packetSize) ∧
      InPacketLimits (ConnectionM.recover (LineFaults.server {}) 20 slowRun).2.connection.session.packetSize ∧
      ∃ e, (login (LineFaults.server {}) 20 { config := slowRun.connection.config } openWorld).1 = .ok e ∧
        InPacketLimits e.packetSize := by
  have htext : Config.ofConnectionString "Server=primary".toList = .ok { server := .ofHost "primary" } := by
    decide +kernel
  have hconfig : slowRun.connection.config =
      Config.calls { server := .ofHost "primary" } [.packetSize 8000, .retry { recoveries := 2 }] := by decide
  have hok : (ConnectionM.recover (LineFaults.server {}) 20 slowRun).1 = .ok () := by decide +kernel
  have hnone : namedPacketSize?
      (sinceConnected (ConnectionM.recover (LineFaults.server {}) 20 slowRun).2.world.trace) = none := by
    decide +kernel
  have hopened : (login (LineFaults.server {}) 20 { config := slowRun.connection.config } openWorld).1.isOk := by
    decide +kernel
  have hnamed : namedPacketSize? (sinceConnected
      (login (LineFaults.server {}) 20 { config := slowRun.connection.config } openWorld).2.world.trace) =
        some 8192 := by decide +kernel
  obtain ⟨hlogins, hrecoveries⟩ := packetSize_inLimits_iff htext [.packetSize 8000, .retry { recoveries := 2 }]
    (LineFaults.server {}) 20
  refine ⟨htext, hconfig, ?_⟩
  rcases hend : ConnectionM.recover (LineFaults.server {}) 20 slowRun with ⟨res, run'⟩
  rw [hend] at hok hnone
  obtain ⟨⟨added, htrace, hasks⟩, hsize⟩ := hrecoveries slowRun res run' hconfig hend
  rw [show slowRun.world.trace = [] from rfl, List.append_nil] at htrace
  refine ⟨by rwa [htrace], (hsize hok).mpr (by rw [hnone]; nofun), ?_⟩
  rcases hlogin : (login (LineFaults.server {}) 20 { config := slowRun.connection.config } openWorld).1 with t | e
  · rw [hlogin] at hopened
    cases hopened
  · refine ⟨e, rfl, ((hlogins _ openWorld hconfig).2 e hlogin).mpr ?_⟩
    rw [hnamed]
    decide

/-- A server that lets everybody in and names a packet size. -/
def sizedWorld (size : String) : World LoginScript where
  server := { fallback := .success [.textChange .packetSize size "8000"] }

/-- A packet size that a server names is taken as it is, be it too small or too large. -/
theorem size_out_of_limits :
    Config.ofConnectionString "Server=primary".toList = .ok plainLogin.config ∧
      (∃ e, (login (LineFaults.server {}) 1 plainLogin (sizedWorld "100")).1 = .ok e ∧
        e.packetSize = 100 ∧ ¬ InPacketLimits e.packetSize) ∧
      ∃ e, (login (LineFaults.server {}) 1 plainLogin (sizedWorld "65536")).1 = .ok e ∧
        e.packetSize = 65536 ∧ ¬ InPacketLimits e.packetSize := by
  have opened {size : Nat} {w : World LoginScript}
      (h : (login (LineFaults.server {}) 1 plainLogin w).1.toOption.map (·.packetSize) = some size)
      (hsize : ¬ InPacketLimits size) :
      ∃ e, (login (LineFaults.server {}) 1 plainLogin w).1 = .ok e ∧ e.packetSize = size ∧
        ¬ InPacketLimits e.packetSize := by
    rcases hlogin : (login (LineFaults.server {}) 1 plainLogin w).1 with t | e <;> rw [hlogin] at h
    · cases h
    · cases h
      exact ⟨e, rfl, rfl, hsize⟩
  refine ⟨by decide +kernel, opened ?_ (by decide), opened ?_ (by decide)⟩ <;> decide +kernel

end TdsSession
