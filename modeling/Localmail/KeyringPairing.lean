/-
The stored token belongs to the stored server and user.  The slots are written
one at a time, and what a command writes rests on slots it read before its
exchange; the pairing survives exactly the writes that find the slots as their
command left or read them.
-/
import Localmail.KeyringPrograms

namespace Localmail

/-- The stored token was issued by the stored server, to the stored user. -/
structure Keyring.Paired (keyring : Keyring) : Prop where
  serverUrl : ∀ token ∈ keyring.bearerToken,
    keyring.serverUrl = some token.server.serverUrl
  certPin : ∀ token ∈ keyring.bearerToken,
    keyring.certPin = some token.server.certPin
  username : ∀ token ∈ keyring.bearerToken,
    ∀ name ∈ keyring.username, name = token.user

namespace GuiClient

/-- The keyring is paired, and empty of a token after a logout. -/
structure Consistent (client : GuiClient) : Prop where
  paired : client.keyring.Paired
  cleared : client.loggedOut = true → client.keyring.bearerToken = none

/-- Every token sent went to the server that issued it. -/
def SentHome (client : GuiClient) : Prop :=
  ∀ entry ∈ client.sent, entry.2.server = entry.1

end GuiClient

/-! ### The condition on a step -/

/-- The endpoint slots hold `endpoint`. -/
def Keyring.Holds (keyring : Keyring) (endpoint : Endpoint) : Prop :=
  keyring.serverUrl = some endpoint.serverUrl ∧
    keyring.certPin = some endpoint.certPin

instance Keyring.decidableHolds (keyring : Keyring) (endpoint : Endpoint) :
    Decidable (keyring.Holds endpoint) :=
  inferInstanceAs (Decidable (_ ∧ _))

/-- A write finds the slots it is coupled to as its command needs them: no
token beside a changed endpoint; the endpoint as read and no other user beside
a token, and for a refresh no logout since; no other user's token beside a
name. -/
def KeyringWrite.Meets (keyring : Keyring) (loggedOut : Bool) :
    KeyringWrite → Prop
  | .serverUrl url =>
      keyring.bearerToken = none ∨ keyring.serverUrl = some url
  | .certPin pin => keyring.bearerToken = none ∨ keyring.certPin = some pin
  | .username name => ∀ token ∈ keyring.bearerToken, name = token.user
  | .bearerToken writer endpoint token =>
      keyring.Holds endpoint ∧
        (∀ name ∈ keyring.username, name = token.user) ∧
        (writer = .refresh → loggedOut = false)
  | .noBearerToken | .noUsername => True

instance KeyringWrite.decidableMeets (keyring : Keyring) (loggedOut : Bool)
    (write : KeyringWrite) :
    Decidable (write.Meets keyring loggedOut) :=
  match write with
  | .serverUrl _ | .certPin _ => inferInstanceAs (Decidable (_ ∨ _))
  | .username _ => inferInstanceAs (Decidable (∀ _ ∈ _, _))
  | .bearerToken _ _ _ => inferInstanceAs (Decidable (_ ∧ _ ∧ _))
  | .noBearerToken | .noUsername => .isTrue trivial

namespace GuiProgram

/-- A write meets its condition, and a logout returns with no token stored
since its delete. -/
def WriteMeets (keyring : Keyring) (loggedOut : Bool) : GuiProgram → Prop
  | .put write _ => write.Meets keyring loggedOut
  | .done .loggedOut => keyring.bearerToken = none
  | _ => True

/-- A token is read beside the endpoint read before it. -/
def ReadMeets (keyring : Keyring) : GuiProgram → Prop
  | .getBearerToken endpoint _ =>
      keyring.bearerToken = none ∨ keyring.Holds endpoint
  | _ => True

instance decidableWriteMeets (keyring : Keyring) (loggedOut : Bool)
    (program : GuiProgram) :
    Decidable (program.WriteMeets keyring loggedOut) :=
  match program with
  | .put _ _ => inferInstanceAs (Decidable (KeyringWrite.Meets _ _ _))
  | .done .loggedOut => inferInstanceAs (Decidable (_ = none))
  | .done .ok | .done (.failed _) | .getServerUrl _ | .getCertPin _
  | .getUsername _ | .getBearerToken _ _ | .send _ _ _ | .await _ _ _ =>
      .isTrue trivial

instance decidableReadMeets (keyring : Keyring) (program : GuiProgram) :
    Decidable (program.ReadMeets keyring) :=
  match program with
  | .getBearerToken _ _ => inferInstanceAs (Decidable (_ ∨ _))
  | .put _ _ | .done _ | .getServerUrl _ | .getCertPin _
  | .getUsername _ | .send _ _ _ | .await _ _ _ => .isTrue trivial

end GuiProgram

namespace GuiClient

def WriteMeets (client : GuiClient) : GuiEvent → Prop
  | .proceed index => ∀ program ∈ client.running[index]?,
      program.WriteMeets client.keyring client.loggedOut
  | _ => True

def ReadMeets (client : GuiClient) : GuiEvent → Prop
  | .proceed index => ∀ program ∈ client.running[index]?,
      program.ReadMeets client.keyring
  | _ => True

def Meets (client : GuiClient) (event : GuiEvent) : Prop :=
  client.WriteMeets event ∧ client.ReadMeets event

instance decidableWriteMeets (client : GuiClient) (event : GuiEvent) :
    Decidable (client.WriteMeets event) :=
  match event with
  | .proceed _ => inferInstanceAs (Decidable (∀ _ ∈ _, _))
  | .start _ | .fail _ | .reply _ _ | .stop => .isTrue trivial

instance decidableReadMeets (client : GuiClient) (event : GuiEvent) :
    Decidable (client.ReadMeets event) :=
  match event with
  | .proceed _ => inferInstanceAs (Decidable (∀ _ ∈ _, _))
  | .start _ | .fail _ | .reply _ _ | .stop => .isTrue trivial

instance decidableMeets (client : GuiClient) (event : GuiEvent) :
    Decidable (client.Meets event) :=
  inferInstanceAs (Decidable (_ ∧ _))

end GuiClient

/-! ### What a command carries -/

/-- A token is written beside the endpoint that issued it, and sent to the
server that issued it if it was read beside that server. -/
def GuiProgram.Sound : GuiProgram → Prop
  | .getServerUrl next | .getCertPin next | .getUsername next =>
      ∀ value, (next value).Sound
  | .getBearerToken endpoint next =>
      (next none).Sound ∧
        ∀ token, token.server = endpoint → (next (some token)).Sound
  | .send endpoint request next =>
      (∀ token ∈ request.token, token.server = endpoint) ∧
        ∀ reply, request.Allows endpoint reply → (next reply).Sound
  | .await endpoint request next =>
      ∀ reply, request.Allows endpoint reply → (next reply).Sound
  | .put write next =>
      (∀ writer endpoint token, write = .bearerToken writer endpoint token →
        token.server = endpoint) ∧ next.Sound
  | .done _ => True

theorem sound_readEndpoint {next : Endpoint → GuiProgram}
    (hnext : ∀ endpoint, (next endpoint).Sound) : (readEndpoint next).Sound := by
  intro url
  cases url with
  | none => trivial
  | some url =>
      intro pin
      cases pin with
      | none => trivial
      | some pin => exact hnext ⟨url, pin⟩

theorem sound_loginCommand (username password : String) :
    (loginCommand username password).Sound := by
  apply sound_readEndpoint
  intro endpoint
  refine ⟨nofun, fun reply hreply => ?_⟩
  cases reply with
  | issued token =>
      refine ⟨fun writer read written hwrite => ?_, nofun, trivial⟩
      cases hwrite
      exact hreply.1
  | accepted => trivial
  | failed => trivial

theorem sound_clearLogin : clearLogin.Sound :=
  ⟨nofun, nofun, trivial⟩

theorem sound_logoutCommand : logoutCommand.Sound := by
  apply sound_readEndpoint
  intro endpoint
  refine ⟨sound_clearLogin, fun token hserver => ⟨?_, fun _ _ => sound_clearLogin⟩⟩
  intro sent hsent
  cases hsent
  exact hserver

theorem sound_refreshCommand : refreshCommand.Sound := by
  apply sound_readEndpoint
  intro endpoint
  refine ⟨trivial, fun token hserver name => ?_⟩
  cases name with
  | none => trivial
  | some name =>
      constructor
      · intro sent hsent
        cases hsent
        exact hserver
      · intro reply hreply
        cases reply with
        | issued fresh =>
            refine ⟨fun writer read written hwrite => ?_, trivial⟩
            cases hwrite
            exact hreply.2.1
        | accepted => trivial
        | failed => trivial

theorem sound_authenticatedCommand : authenticatedCommand.Sound := by
  unfold authenticatedCommand readAuthenticated
  apply sound_readEndpoint
  intro endpoint
  refine ⟨trivial, fun token hserver => ⟨?_, fun reply _ => ?_⟩⟩
  · intro sent hsent
    cases hsent
    exact hserver
  · cases reply <;> trivial

theorem sound_confirmTrust (parseUrl : String → Option String)
    (toLowercase : String → String) (url certSha256 : String) :
    (confirmTrust parseUrl toLowercase url certSha256).Sound := by
  unfold confirmTrust
  cases parseUrl url with
  | none => trivial
  | some parsed => exact ⟨nofun, nofun, nofun, trivial⟩

theorem sound_program (parseUrl : String → Option String)
    (toLowercase : String → String) (command : GuiCommand) :
    (GuiClient.program parseUrl toLowercase command).Sound := by
  cases command with
  | login username password => exact sound_loginCommand username password
  | logout => exact sound_logoutCommand
  | refresh => exact sound_refreshCommand
  | authenticated => exact sound_authenticatedCommand
  | confirmTrust url certSha256 => exact sound_confirmTrust _ _ url certSha256

/-! ### What a write keeps -/

/-- The next write of the token comes from the endpoint its command read. -/
def KeyringWrite.FromRead (write : KeyringWrite) : Prop :=
  ∀ writer endpoint token, write = .bearerToken writer endpoint token →
    token.server = endpoint

theorem KeyringWrite.consistent_iff {client : GuiClient} {write : KeyringWrite}
    (hclient : client.Consistent) (hread : write.FromRead) :
    (client.write write).Consistent ↔
      write.Meets client.keyring client.loggedOut := by
  obtain ⟨⟨hurl, hpin, hname⟩, hcleared⟩ := hclient
  cases write with
  | serverUrl url =>
      constructor
      · rintro ⟨⟨hurl', -, -⟩, -⟩
        cases htoken : client.keyring.bearerToken with
        | none => exact .inl htoken
        | some token =>
            have hwritten : some url = some token.server.serverUrl :=
              hurl' token htoken
            exact .inr ((hurl token htoken).trans hwritten.symm)
      · intro hmeets
        refine ⟨⟨fun token htoken => ?_, hpin, hname⟩, hcleared⟩
        rcases hmeets with hnone | hsame
        · cases hnone.symm.trans htoken
        · exact hsame.symm.trans (hurl token htoken)
  | certPin pin =>
      constructor
      · rintro ⟨⟨-, hpin', -⟩, -⟩
        cases htoken : client.keyring.bearerToken with
        | none => exact .inl htoken
        | some token =>
            have hwritten : some pin = some token.server.certPin :=
              hpin' token htoken
            exact .inr ((hpin token htoken).trans hwritten.symm)
      · intro hmeets
        refine ⟨⟨hurl, fun token htoken => ?_, hname⟩, hcleared⟩
        rcases hmeets with hnone | hsame
        · cases hnone.symm.trans htoken
        · exact hsame.symm.trans (hpin token htoken)
  | username name =>
      constructor
      · rintro ⟨⟨-, -, hname'⟩, -⟩ token htoken
        exact hname' token htoken name rfl
      · intro hmeets
        refine ⟨⟨hurl, hpin, fun token htoken stored hstored => ?_⟩, hcleared⟩
        cases hstored
        exact hmeets token htoken
  | bearerToken writer endpoint token =>
      cases hread writer endpoint token rfl
      constructor
      · rintro ⟨⟨hurl', hpin', hname'⟩, hcleared'⟩
        refine ⟨⟨hurl' token rfl, hpin' token rfl⟩, hname' token rfl, ?_⟩
        rintro rfl
        by_contra hout
        cases hcleared' ((Bool.not_eq_false _).mp hout)
      · rintro ⟨⟨hurl', hpin'⟩, hname', hwriter⟩
        refine ⟨⟨?_, ?_, ?_⟩, fun hout => ?_⟩
        · rintro stored hstored
          cases hstored
          exact hurl'
        · rintro stored hstored
          cases hstored
          exact hpin'
        · rintro stored hstored
          cases hstored
          exact hname'
        · cases writer with
          | login => cases hout
          | refresh => cases (hwriter rfl).symm.trans hout
  | noBearerToken =>
      exact iff_of_true ⟨⟨nofun, nofun, nofun⟩, fun _ => rfl⟩ trivial
  | noUsername =>
      exact iff_of_true ⟨⟨hurl, hpin, fun _ _ => nofun⟩, hcleared⟩ trivial

/-! ### Steps -/

namespace GuiClient

variable {parseUrl : String → Option String} {toLowercase : String → String}
  {client next : GuiClient} {event : GuiEvent}

/-- The keyring and the mark of the logout decide consistency. -/
theorem Consistent.of_eq (hclient : client.Consistent)
    (hkeyring : next.keyring = client.keyring)
    (hout : next.loggedOut = client.loggedOut) : next.Consistent where
  paired := hkeyring ▸ hclient.paired
  cleared hnext := by
    rw [hkeyring]
    exact hclient.cleared (hout.symm.trans hnext)

/-- What holds while commands run: each carries what it must, and every token
sent went home. -/
structure Running (client : GuiClient) : Prop where
  consistent : client.Consistent
  sound : ∀ program ∈ client.running, program.Sound
  sentHome : client.SentHome

theorem proceed_consistent_iff {index : Nat} {program : GuiProgram}
    (hclient : client.Consistent) (hsound : program.Sound)
    (hstep : client.proceed index program = some next) :
    next.Consistent ↔
      program.WriteMeets client.keyring client.loggedOut := by
  cases program with
  | getServerUrl _ | getCertPin _ | getUsername _ | getBearerToken _ _
  | send _ _ _ =>
      cases hstep
      exact iff_of_true (hclient.of_eq rfl rfl) trivial
  | await _ _ _ => cases hstep
  | put write rest =>
      cases hstep
      have hwritten := KeyringWrite.consistent_iff hclient hsound.1
      constructor
      · exact fun hnext => hwritten.mp (hnext.of_eq rfl rfl)
      · exact fun hmeets => (hwritten.mpr hmeets).of_eq rfl rfl
  | done result =>
      cases hstep
      cases result with
      | ok | failed _ =>
          exact iff_of_true (hclient.of_eq rfl (Bool.or_false _)) trivial
      | loggedOut =>
          constructor
          · exact fun hnext => hnext.cleared (Bool.or_true _)
          · exact fun hnone => ⟨hclient.paired, fun _ => hnone⟩

/-- A step keeps the keyring consistent exactly when its write meets its
condition. -/
theorem step_consistent_iff (hclient : client.Running)
    (hstep : step parseUrl toLowercase client event = some next) :
    next.Consistent ↔ client.WriteMeets event := by
  cases event with
  | start command =>
      cases hstep
      exact iff_of_true (hclient.consistent.of_eq rfl rfl) trivial
  | proceed index =>
      obtain ⟨program, hprogram, hproceed⟩ := Option.bind_eq_some_iff.mp hstep
      have hsound := hclient.sound program (List.mem_of_getElem? hprogram)
      rw [proceed_consistent_iff hclient.consistent hsound hproceed]
      simp [WriteMeets, hprogram]
  | fail index =>
      simp only [step] at hstep
      split at hstep
      · cases hstep
      · cases hstep
      · cases hstep
      · cases hstep
        exact iff_of_true (hclient.consistent.of_eq rfl rfl) trivial
  | reply index reply =>
      simp only [step] at hstep
      split at hstep
      · split at hstep
        · cases hstep
          exact iff_of_true (hclient.consistent.of_eq rfl rfl) trivial
        · cases hstep
      · cases hstep
  | stop =>
      cases hstep
      exact iff_of_true (hclient.consistent.of_eq rfl rfl) trivial

theorem sound_set {index : Nat} {program : GuiProgram}
    (hclient : ∀ program ∈ client.running, program.Sound)
    (hprogram : program.Sound) :
    ∀ kept ∈ client.running.set index program, kept.Sound := by
  intro kept hkept
  rcases List.mem_or_eq_of_mem_set hkept with hold | rfl
  · exact hclient kept hold
  · exact hprogram

/-- What is left of a command after an operation: a token read beside its
endpoint is that endpoint's. -/
theorem proceed_running {index : Nat} {program : GuiProgram}
    (hclient : client.Running) (hsound : program.Sound)
    (hread : program.ReadMeets client.keyring)
    (hstep : client.proceed index program = some next) :
    (∀ program ∈ next.running, program.Sound) ∧ next.SentHome := by
  cases program with
  | getServerUrl rest | getCertPin rest | getUsername rest =>
      cases hstep
      exact ⟨sound_set hclient.sound (hsound _), hclient.sentHome⟩
  | getBearerToken endpoint rest =>
      cases hstep
      refine ⟨sound_set hclient.sound ?_, hclient.sentHome⟩
      cases htoken : client.keyring.bearerToken with
      | none => exact hsound.1
      | some token =>
          have hpaired := hclient.consistent.paired
          have hholds := hread.resolve_left (by simp [htoken])
          have hurl := (hpaired.serverUrl token htoken).symm.trans hholds.1
          have hpin := (hpaired.certPin token htoken).symm.trans hholds.2
          refine hsound.2 token ?_
          calc token.server = ⟨token.server.serverUrl, token.server.certPin⟩ := rfl
            _ = endpoint := by rw [Option.some.inj hurl, Option.some.inj hpin]
  | send endpoint request rest =>
      cases hstep
      refine ⟨sound_set hclient.sound hsound.2, ?_⟩
      intro entry hentry
      rcases List.mem_append.mp hentry with hold | hnew
      · exact hclient.sentHome entry hold
      · obtain ⟨token, htoken, rfl⟩ := List.mem_map.mp hnew
        exact hsound.1 token (Option.mem_toList.mp htoken)
  | await _ _ _ => cases hstep
  | put write rest =>
      cases hstep
      exact ⟨sound_set hclient.sound hsound.2, hclient.sentHome⟩
  | done result =>
      cases hstep
      exact ⟨fun kept hkept => hclient.sound kept (List.mem_of_mem_eraseIdx hkept),
        hclient.sentHome⟩

theorem step_running (hclient : client.Running)
    (hmeets : client.Meets event)
    (hstep : step parseUrl toLowercase client event = some next) :
    next.Running := by
  have hconsistent := (step_consistent_iff hclient hstep).mpr hmeets.1
  cases event with
  | start command =>
      cases hstep
      refine ⟨hconsistent, fun kept hkept => ?_, hclient.sentHome⟩
      rcases List.mem_append.mp hkept with hold | hnew
      · exact hclient.sound kept hold
      · rw [List.mem_singleton.mp hnew]
        exact sound_program parseUrl toLowercase command
  | proceed index =>
      obtain ⟨program, hprogram, hproceed⟩ := Option.bind_eq_some_iff.mp hstep
      have hsound := hclient.sound program (List.mem_of_getElem? hprogram)
      obtain ⟨hrunning, hsent⟩ :=
        proceed_running hclient hsound (hmeets.2 program hprogram) hproceed
      exact ⟨hconsistent, hrunning, hsent⟩
  | fail index =>
      have herased : next.running = client.running.eraseIdx index ∧
          next.sent = client.sent := by
        simp only [step] at hstep
        split at hstep
        · cases hstep
        · cases hstep
        · cases hstep
        · cases hstep
          exact ⟨rfl, rfl⟩
      refine ⟨hconsistent, fun kept hkept => ?_, ?_⟩
      · rw [herased.1] at hkept
        exact hclient.sound kept (List.mem_of_mem_eraseIdx hkept)
      · unfold SentHome
        rw [herased.2]
        exact hclient.sentHome
  | reply index reply =>
      simp only [step] at hstep
      split at hstep
      · rename_i endpoint request rest hwaiting
        split at hstep
        · rename_i hallowed
          cases hstep
          have hsound := hclient.sound _ (List.mem_of_getElem? hwaiting)
          exact ⟨hconsistent, sound_set hclient.sound (hsound reply hallowed),
            hclient.sentHome⟩
        · cases hstep
      · cases hstep
  | stop =>
      cases hstep
      exact ⟨hconsistent, nofun, hclient.sentHome⟩

theorem fresh_running : fresh.Running where
  consistent := ⟨⟨nofun, nofun, nofun⟩, nofun⟩
  sound := nofun
  sentHome := nofun

/-- In every run whose steps meet the condition, the stored token belongs to
the stored server and user, none is stored after a logout, and every token was
sent to the server that issued it.  On a write the condition is exact. -/
theorem token_stays_paired (parseUrl : String → Option String)
    (toLowercase : String → String) {client : GuiClient}
    (hreach : GuardedReach (step parseUrl toLowercase) Meets fresh client) :
    client.Consistent ∧ client.SentHome ∧
      ∀ event next, step parseUrl toLowercase client event = some next →
        (next.Consistent ↔ client.WriteMeets event) := by
  have hrunning : client.Running :=
    hreach.invariant fresh_running fun _ _ _ hbefore hmeets hstep =>
      step_running hbefore hmeets hstep
  exact ⟨hrunning.consistent, hrunning.sentHome, fun _ _ hstep =>
    step_consistent_iff hrunning hstep⟩

end GuiClient

namespace KeyringWitness

/-- `Url::parse` on the addresses of these runs, and the case of their pins. -/
def parseUrl (url : String) : Option String := some url

def toLowercase (value : String) : String := value

def home : Endpoint := ⟨"https://home/", "aa"⟩

def other : Endpoint := ⟨"https://other/", "bb"⟩

def token (serial : Nat) : IssuedToken := ⟨home, "alice", serial⟩

def proceeds (count : Nat) : List GuiEvent :=
  List.replicate count (.proceed 0)

/-- The user trusts a server and logs in. -/
def signIn : List GuiEvent :=
  [.start (.confirmTrust home.serverUrl home.certPin)] ++ proceeds 4 ++
    [.start (.login "alice" "secret")] ++ proceeds 3 ++
    [.reply 0 (.issued (token 1))] ++ proceeds 3

/-- Another server is trusted, but the old token cannot be deleted; a request
follows. -/
def trustOther : List GuiEvent :=
  signIn ++ [.start (.confirmTrust other.serverUrl other.certPin)] ++
    proceeds 2 ++ [.fail 0, .start .authenticated] ++ proceeds 4

/-- The login is refreshed, used and ended. -/
def signOut : List GuiEvent :=
  signIn ++ [.start .refresh] ++ proceeds 5 ++
    [.reply 0 (.issued (token 2))] ++ proceeds 2 ++
    [.start .logout] ++ proceeds 4 ++ [.reply 0 .accepted] ++ proceeds 3

end KeyringWitness

open KeyringWitness GuiClient in
theorem token_sent_to_other_server :
    ∃ client, Reach (step parseUrl toLowercase) fresh client ∧
      ¬ client.Consistent ∧ (other, token 1) ∈ client.sent ∧
      ¬ client.SentHome := by
  refine ⟨_, GuardedReach.of_replay trustOther rfl, ?_, ?_, ?_⟩
  · intro hconsistent
    exact absurd (hconsistent.paired.serverUrl (token 1) rfl) (by decide)
  · exact List.mem_singleton.mpr rfl
  · intro hsent
    exact absurd (hsent (other, token 1) (List.mem_singleton.mpr rfl)) (by decide)

open KeyringWitness GuiClient in
theorem token_stays_paired_sign_out :
    ∃ client, GuardedReach (step parseUrl toLowercase) Meets fresh client ∧
      client.loggedOut = true ∧
      client.sent = [(home, token 1), (home, token 2)] ∧
      client.Consistent ∧ client.SentHome := by
  have hreach : GuardedReach (step parseUrl toLowercase) Meets fresh _ :=
    GuardedReach.of_replay signOut rfl
  have hpaired := token_stays_paired parseUrl toLowercase hreach
  exact ⟨_, hreach, rfl, rfl, hpaired.1, hpaired.2.1⟩

end Localmail
