import SmartParking.Auth.Accounts
import SmartParking.Rpc

namespace SmartParking.Gateway

open Async Auth

-- What the handlers of the auth routes call: the verifier, the network in both
-- directions, and the ports of auth-service behind it.
inductive Call where
  | verify (token : String)
  | send
  | receive
  | auth (call : Auth.Call)
  deriving DecidableEq

-- The breaker, a limit of requests or the network can stop a request, and the
-- network or the timeout of the client an answer.
@[reducible] def Answer : Call → Type
  | .verify _ => VerifiedToken
  | .send => Except RpcError Unit
  | .receive => Except RpcError Unit
  | .auth call => Auth.Answer call

inductive HttpError where
  | unauthorized (message : String)
  | forbidden (message : String)
  | exception (error : HttpException)
  | internal

abbrev Port (α : Type) := Program Call Answer Auth.Fault α

-- The answer to an HTTP request.
abbrev Reply (α : Type) := Except HttpError α

def ask (call : Call) : Port (Answer call) := Program.perform call

def remote {α : Type} (rpc : Auth.Port α) : Port α :=
  rpc.lift Call.auth fun (call : Auth.Call) (answer : Auth.Answer call) => answer

def callAuthRpc {α : Type} (rpc : Auth.Port α) : Port (Reply α) := do
  let sent ← ask .send
  match sent with
  | .error error => pure (.error (.exception (toHttpException error)))
  | .ok () =>
      let reply ← (remote rpc).settle
      let received ← ask .receive
      match received, reply with
      | .error error, _ => pure (.error (.exception (toHttpException error)))
      | .ok (), .error fault =>
          pure (.error (.exception (toHttpException (Auth.callUseCase fault))))
      | .ok (), .ok value => pure (.ok value)

-- The text after the scheme.
def bearer (authorization : Option String) : Option String :=
  authorization.bind fun header =>
    if "Bearer ".toList <+: header.toList then
      some (String.ofList (header.toList.drop "Bearer ".length))
    else none

-- JwtAuthGuard, and what it lets through.
def guarded {α : Type} (authorization : Option String) (handler : VerifiedToken → Port (Reply α)) :
    Port (Reply α) :=
  match bearer authorization with
  | none => pure (.error (.unauthorized "Token de autenticacion faltante."))
  | some token => do
      let verified ← (ask (.verify token)).settle
      match verified with
      | .error _ => pure (.error (.unauthorized "Token de autenticacion invalido."))
      | .ok user => handler user

-- A missing field of a message is the empty text.
def VerifiedToken.userId (user : VerifiedToken) : Id := user.sub.getD ""

def toLoginResult (reply : LoginReply) : Reply LoginUserResult :=
  match reply.fullSession, reply.mfaChallenge with
  | some (accessToken, user), _ => .ok (.session accessToken user)
  | none, some mfaToken => .ok (.mfaRequired mfaToken)
  | none, none => .error .internal

def loginResult (reply : Reply LoginReply) : Reply LoginUserResult :=
  reply.bind toLoginResult

-- What the browser gets of its own user.
structure AuthUser extends AuthenticatedUserSummary where
  mfaEnabled : Bool
  deriving DecidableEq

namespace AuthController

def register (dto : RegisterUserInput) : Port (Reply UserReply) :=
  callAuthRpc (AuthGrpcController.register dto)

def login (dto : LoginUserInput) : Port (Reply LoginUserResult) :=
  loginResult <$> callAuthRpc (AuthGrpcController.login dto)

def loginWithGoogleProvider (dto : LoginWithGoogleInput) : Port (Reply LoginUserResult) :=
  loginResult <$> callAuthRpc (AuthGrpcController.loginWithGoogleRpc dto)

def loginWithFacebookProvider (dto : LoginWithFacebookInput) : Port (Reply LoginUserResult) :=
  loginResult <$> callAuthRpc (AuthGrpcController.loginWithFacebookRpc dto)

def verifyMfaCode (env : Environment) (dto : VerifyMfaInput) : Port (Reply LoginUserResult) :=
  loginResult <$> callAuthRpc (AuthGrpcController.verifyMfaRpc env dto)

def setupMfaSecret (authorization : Option String) : Port (Reply SetupMfaResult) :=
  guarded authorization fun user =>
    callAuthRpc (AuthGrpcController.setupMfaRpc { userId := VerifiedToken.userId user })

def confirmMfaSetup (authorization : Option String) (code : String) : Port (Reply ConfirmMfaResult) :=
  guarded authorization fun user =>
    callAuthRpc (AuthGrpcController.confirmMfaRpc { userId := VerifiedToken.userId user, code })

def disableMfaFactor (authorization : Option String) (code : String) : Port (Reply Unit) :=
  guarded authorization fun user =>
    callAuthRpc (AuthGrpcController.disableMfaRpc { userId := VerifiedToken.userId user, code })

end AuthController

def UsersController.me (authorization : Option String) : Port (Reply AuthUser) :=
  guarded authorization fun user =>
    (Except.map fun reply => { reply with }) <$>
      callAuthRpc (AuthGrpcController.getUserByIdRpc (VerifiedToken.userId user))

-- One HTTP request to the auth routes, as a value.
inductive HttpRequest where
  | register (dto : RegisterUserInput)
  | login (dto : LoginUserInput)
  | google (dto : LoginWithGoogleInput)
  | facebook (dto : LoginWithFacebookInput)
  | mfaVerify (dto : VerifyMfaInput)
  | mfaSetup (authorization : Option String)
  | mfaConfirm (authorization : Option String) (code : String)
  | mfaDisable (authorization : Option String) (code : String)
  | me (authorization : Option String)
  deriving DecidableEq

inductive Body where
  | registered (reply : UserReply)
  | loggedIn (result : LoginUserResult)
  | configured (result : SetupMfaResult)
  | confirmed (result : ConfirmMfaResult)
  | noContent
  | user (user : AuthUser)
  deriving DecidableEq

def HttpRequest.handle (env : Environment) : HttpRequest → Port (Reply Body)
  | .register dto => Except.map .registered <$> AuthController.register dto
  | .login dto => Except.map .loggedIn <$> AuthController.login dto
  | .google dto => Except.map .loggedIn <$> AuthController.loginWithGoogleProvider dto
  | .facebook dto => Except.map .loggedIn <$> AuthController.loginWithFacebookProvider dto
  | .mfaVerify dto => Except.map .loggedIn <$> AuthController.verifyMfaCode env dto
  | .mfaSetup authorization => Except.map .configured <$> AuthController.setupMfaSecret authorization
  | .mfaConfirm authorization code =>
      Except.map .confirmed <$> AuthController.confirmMfaSetup authorization code
  | .mfaDisable authorization code =>
      Except.map (fun _ => .noContent) <$> AuthController.disableMfaFactor authorization code
  | .me authorization => Except.map .user <$> UsersController.me authorization

-- What the ports of auth-service draw, and whether the network carries a message.
structure Choice where
  auth : Auth.Choice
  delivered : Except RpcError Unit

def serve (env : Environment) : Server Choice Auth.World Call Answer Auth.Fault := fun choice world call =>
  let now := world.clock + choice.auth.elapsed
  match call with
  | .verify token => (Rs256PublicKeyVerifier.verify env now token, { world with clock := now })
  | .send => (.ok choice.delivered, { world with clock := now })
  | .receive => (.ok choice.delivered, { world with clock := now })
  | .auth call => Auth.serve env choice.auth world call

-- Requests handled at the same time.
abbrev Requests (Tid : Type) := Pool Tid Auth.World Call Answer Auth.Fault (Reply Body)

def Requests.start {Tid : Type} (env : Environment) (world : Auth.World)
    (requests : Tid → HttpRequest) : Requests Tid :=
  Pool.start world fun thread => (requests thread).handle env

abbrev History (Tid : Type) := List (Event Tid Call Answer Auth.Fault)

abbrev CallGuard (Tid : Type) := Pool.Guard Tid Choice Auth.World Call Answer Auth.Fault

end SmartParking.Gateway
