/-
The desktop client's keyring and the commands that read and write it.  A
command is the keyring operations its source makes in order, with at most one
exchange with the server in between.  Any number of commands are under way at
a time, an operation can fail and the process can stop between any two.
-/
import Localmail.LabelledRun

namespace Localmail

/-- The server a command talks to: its address and the certificate pinned. -/
structure Endpoint where
  serverUrl : String
  certPin : String
deriving Repr, DecidableEq

/-- A bearer token, with the server that issued it and the user it was issued
to. -/
structure IssuedToken where
  server : Endpoint
  user : String
  serial : Nat
deriving Repr, DecidableEq

/-- `storage/keyring.rs`: one item a slot. -/
structure Keyring where
  serverUrl : Option String
  certPin : Option String
  username : Option String
  bearerToken : Option IssuedToken
deriving Repr, DecidableEq

def Keyring.empty : Keyring := ⟨none, none, none, none⟩

/-- The command that stores a token. -/
inductive TokenWriter where
  | login
  | refresh
deriving Repr, DecidableEq

/-- A write of one slot.  A token's write keeps which command makes it and the
endpoint that command has read. -/
inductive KeyringWrite where
  | serverUrl (url : String)
  | certPin (pin : String)
  | username (name : String)
  | bearerToken (writer : TokenWriter) (endpoint : Endpoint)
      (token : IssuedToken)
  | noBearerToken
  | noUsername
deriving Repr, DecidableEq

def KeyringWrite.apply (keyring : Keyring) : KeyringWrite → Keyring
  | .serverUrl url => { keyring with serverUrl := some url }
  | .certPin pin => { keyring with certPin := some pin }
  | .username name => { keyring with username := some name }
  | .bearerToken _ _ token => { keyring with bearerToken := some token }
  | .noBearerToken => { keyring with bearerToken := none }
  | .noUsername => { keyring with username := none }

/-! ### The exchange with the server -/

/-- What a command sends; `authenticated` stands for every request that only
carries the token. -/
inductive GuiRequest where
  | login (username password : String)
  | logout (token : IssuedToken)
  | refresh (token : IssuedToken)
  | authenticated (token : IssuedToken)
deriving Repr, DecidableEq

def GuiRequest.token : GuiRequest → Option IssuedToken
  | .login _ _ => none
  | .logout token | .refresh token | .authenticated token => some token

inductive GuiReply where
  | issued (token : IssuedToken)
  | accepted
  | failed
deriving Repr, DecidableEq

/-- The replies of the server at `endpoint`.  It issues a token to the user who
logs in, and on a refresh to the user of a token that is its own. -/
def GuiRequest.Allows (endpoint : Endpoint) :
    GuiRequest → GuiReply → Prop
  | _, .failed => True
  | .login username _, .issued token =>
      token.server = endpoint ∧ token.user = username
  | .refresh old, .issued token =>
      old.server = endpoint ∧ token.server = endpoint ∧ token.user = old.user
  | .logout _, .accepted | .authenticated _, .accepted => True
  | _, _ => False

instance GuiRequest.decidableAllows (endpoint : Endpoint)
    (request : GuiRequest) (reply : GuiReply) :
    Decidable (request.Allows endpoint reply) :=
  match request, reply with
  | _, .failed => .isTrue (by cases request <;> trivial)
  | .login _ _, .issued _ => inferInstanceAs (Decidable (_ ∧ _))
  | .refresh _, .issued _ => inferInstanceAs (Decidable (_ ∧ _ ∧ _))
  | .logout _, .accepted | .authenticated _, .accepted => .isTrue trivial
  | .logout _, .issued _ | .authenticated _, .issued _
  | .login _ _, .accepted | .refresh _, .accepted => .isFalse nofun

/-! ### Commands -/

inductive GuiError where
  | notConnected
  | notLoggedIn
  | http
  | badUrl
deriving Repr, DecidableEq

inductive GuiResult where
  | ok
  | loggedOut
  | failed (error : GuiError)
deriving Repr, DecidableEq

/-- What is left of a command.  Reading the token keeps the endpoint read
before; `await` is a request that has left and has no reply yet. -/
inductive GuiProgram where
  | getServerUrl (next : Option String → GuiProgram)
  | getCertPin (next : Option String → GuiProgram)
  | getUsername (next : Option String → GuiProgram)
  | getBearerToken (endpoint : Endpoint)
      (next : Option IssuedToken → GuiProgram)
  | send (endpoint : Endpoint) (request : GuiRequest)
      (next : GuiReply → GuiProgram)
  | await (endpoint : Endpoint) (request : GuiRequest)
      (next : GuiReply → GuiProgram)
  | put (write : KeyringWrite) (next : GuiProgram)
  | done (result : GuiResult)

/-- `session.rs`: both halves of the endpoint must be stored. -/
def readEndpoint (next : Endpoint → GuiProgram) : GuiProgram :=
  .getServerUrl fun
    | none => .done (.failed .notConnected)
    | some url =>
        .getCertPin fun
          | none => .done (.failed .notConnected)
          | some pin => next ⟨url, pin⟩

def readAuthenticated (next : Endpoint → IssuedToken → GuiProgram) :
    GuiProgram :=
  readEndpoint fun endpoint =>
    .getBearerToken endpoint fun
      | none => .done (.failed .notLoggedIn)
      | some token => next endpoint token

/-- `auth.rs`: the token is stored first. -/
def loginCommand (username password : String) : GuiProgram :=
  readEndpoint fun endpoint =>
    .send endpoint (.login username password) fun
      | .issued token =>
          .put (.bearerToken .login endpoint token)
            (.put (.username username) (.done .ok))
      | .accepted | .failed => .done (.failed .http)

def clearLogin : GuiProgram :=
  .put .noBearerToken (.put .noUsername (.done .loggedOut))

/-- Whatever the server replies, the slots are cleared. -/
def logoutCommand : GuiProgram :=
  readEndpoint fun endpoint =>
    .getBearerToken endpoint fun
      | some token => .send endpoint (.logout token) fun _ => clearLogin
      | none => clearLogin

def refreshCommand : GuiProgram :=
  readEndpoint fun endpoint =>
    .getBearerToken endpoint fun
      | none => .done (.failed .notLoggedIn)
      | some token =>
          .getUsername fun
            | none => .done (.failed .notLoggedIn)
            | some _ =>
                .send endpoint (.refresh token) fun
                  | .issued fresh =>
                      .put (.bearerToken .refresh endpoint fresh) (.done .ok)
                  | .accepted | .failed => .done (.failed .http)

/-- Every command that reads the token and sends one request with it. -/
def authenticatedCommand : GuiProgram :=
  readAuthenticated fun endpoint token =>
    .send endpoint (.authenticated token) fun
      | .failed => .done (.failed .http)
      | .issued _ | .accepted => .done .ok

def urlWithTrailingSlash (parsed : String) : String :=
  if parsed.toList.getLast? = some '/' then parsed else parsed ++ "/"

/-- `connect.rs`, with `Url::parse` and `str::to_lowercase` as parameters. -/
def confirmTrust (parseUrl : String → Option String)
    (toLowercase : String → String) (url certSha256 : String) : GuiProgram :=
  match parseUrl url with
  | none => .done (.failed .badUrl)
  | some parsed =>
      .put (.serverUrl (urlWithTrailingSlash parsed))
        (.put (.certPin (toLowercase certSha256))
          (.put .noBearerToken (.done .ok)))

inductive GuiCommand where
  | login (username password : String)
  | logout
  | refresh
  | authenticated
  | confirmTrust (url certSha256 : String)
deriving Repr, DecidableEq

/-! ### The process -/

/-- The keyring and the commands under way; whether a logout has completed with
no login storing a token since, and what was sent with a token. -/
structure GuiClient where
  keyring : Keyring
  running : List GuiProgram
  loggedOut : Bool
  sent : List (Endpoint × IssuedToken)

/-- A client that has never run. -/
def GuiClient.fresh : GuiClient := ⟨Keyring.empty, [], false, []⟩

inductive GuiEvent where
  | start (command : GuiCommand)
  | proceed (index : Nat)
  /-- A keyring operation fails, or no client can be built for the pin. -/
  | fail (index : Nat)
  | reply (index : Nat) (reply : GuiReply)
  /-- The process stops; the keyring stays. -/
  | stop
deriving Repr, DecidableEq

namespace GuiClient

def continueWith (client : GuiClient) (index : Nat) (program : GuiProgram) :
    GuiClient :=
  { client with running := client.running.set index program }

def write (client : GuiClient) (write : KeyringWrite) : GuiClient :=
  { client with
    keyring := write.apply client.keyring
    loggedOut :=
      match write with
      | .bearerToken .login _ _ => false
      | _ => client.loggedOut }

/-- The next operation of the command at `index` succeeds. -/
def proceed (client : GuiClient) (index : Nat) : GuiProgram → Option GuiClient
  | .getServerUrl next =>
      some (client.continueWith index (next client.keyring.serverUrl))
  | .getCertPin next =>
      some (client.continueWith index (next client.keyring.certPin))
  | .getUsername next =>
      some (client.continueWith index (next client.keyring.username))
  | .getBearerToken _ next =>
      some (client.continueWith index (next client.keyring.bearerToken))
  | .send endpoint request next =>
      some { client.continueWith index (.await endpoint request next) with
        sent := client.sent ++ request.token.toList.map (endpoint, ·) }
  | .await _ _ _ => none
  | .put write next => some ((client.write write).continueWith index next)
  | .done result =>
      some { client with
        running := client.running.eraseIdx index
        loggedOut := client.loggedOut || result = .loggedOut }

variable (parseUrl : String → Option String) (toLowercase : String → String)

def program : GuiCommand → GuiProgram
  | .login username password => loginCommand username password
  | .logout => logoutCommand
  | .refresh => refreshCommand
  | .authenticated => authenticatedCommand
  | .confirmTrust url certSha256 =>
      confirmTrust parseUrl toLowercase url certSha256

def step (client : GuiClient) : GuiEvent → Option GuiClient
  | .start command => some { client with
      running := client.running ++ [program parseUrl toLowercase command] }
  | .proceed index => client.running[index]?.bind (client.proceed index)
  | .fail index =>
      match client.running[index]? with
      | none | some (.await _ _ _) | some (.done _) => none
      | some _ => some { client with running := client.running.eraseIdx index }
  | .reply index reply =>
      match client.running[index]? with
      | some (.await endpoint request next) =>
          if request.Allows endpoint reply then
            some (client.continueWith index (next reply))
          else none
      | _ => none
  | .stop => some { client with running := [] }

end GuiClient

end Localmail
