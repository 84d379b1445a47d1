import SmartParking.Machine
import SmartParking.Auth.Operations

namespace SmartParking.Auth

open Async

-- What a call shows: a token that was signed, a secret that was generated or
-- decrypted, the credentials that were found, the step or the hash of a code.
inductive Visible where
  | session (sub : Id)
  | challenge (sub : Id) (token : String)
  | generated (secret : String)
  | decrypted (totpSecretEnc secret : String)
  | looked (userId : Id) (found : MfaCredentials)
  | matched (step : ℤ)
  | equal (hash : String)
  deriving DecidableEq

def visible : (call : Call) → Except Fault (Answer call) → Option Visible
  | .sign payload, .ok _ => some (.session payload.sub)
  | .signMfaChallenge userId, .ok token => some (.challenge userId token)
  | .generateSecret, .ok secret => some (.generated secret)
  | .decrypt totpSecretEnc, .ok secret => some (.decrypted totpSecretEnc secret)
  | .findMfaCredentials userId, .ok (some found) => some (.looked userId found)
  | .totpVerify _ _, .ok (some step) => some (.matched step)
  | .compare _ hash, .ok true => some (.equal hash)
  | _, _ => none

-- The ports, with what they have shown, the latest first.
def watched (env : Environment) : Server Choice (World × List Visible) Call Answer Fault :=
  fun choice (world, seen) call =>
    ((serve env choice world call).1,
      ((serve env choice world call).2,
        (visible call (serve env choice world call).1).toList ++ seen))

-- A request that was executed to completion.
structure Done where
  operation : Operation
  before : Database
  after : Database
  seen : List Visible
  result : Except Fault Outcome

structure Turn where
  operation : Operation
  choices : ℕ → Choice

-- The service, and the requests it has executed, the latest first.
structure Service where
  world : World
  past : List Done

namespace Service

def start (world : World) : Service where
  world
  past := []

def done (env : Environment) (service : Service) (turn : Turn) : World × Done :=
  let (result, world, seen) :=
    (turn.operation.execute env).run (watched env) turn.choices (service.world, [])
  (world, {
    operation := turn.operation
    before := service.world.db
    after := world.db
    seen
    result })

def step (env : Environment) (service : Service) (turn : Turn) : Service where
  world := (service.done env turn).1
  past := (service.done env turn).2 :: service.past

end Service

def Operation.IsLogin : Operation → Prop
  | .LoginUser _ | .LoginWithGoogle _ | .LoginWithFacebook _ => True
  | _ => False

namespace Done

def user (done : Done) : Option Id :=
  done.seen.findSome? fun
    | .looked userId _ => some userId
    | _ => none

-- A code that was accepted as the one of a step, on an encrypted secret of a user.
def acceptance (done : Done) : Option (Id × String × ℤ) :=
  if done.result.isOk then do
    let userId ← done.user
    let totpSecretEnc ← done.seen.findSome? fun
      | .decrypted totpSecretEnc _ => some totpSecretEnc
      | _ => none
    let step ← done.seen.findSome? fun
      | .matched step => some step
      | _ => none
    some (userId, totpSecretEnc, step)
  else none

-- A code that was accepted as the one of a stored hash.
def consumption (done : Done) : Option (Id × String) :=
  if done.result.isOk then do
    let userId ← done.user
    let hash ← done.seen.findSome? fun
      | .equal hash => some hash
      | _ => none
    some (userId, hash)
  else none

-- The hashes that a ConfirmMfa has stored.
def stored (done : Done) : List (Id × String) :=
  match done.operation with
  | .ConfirmMfa input =>
      if done.result.isOk then
        (credentials done.after input.userId).backupCodeHashes.map fun hash => (input.userId, hash)
      else []
  | _ => []

-- The second factor that was presented cannot be presented again.
def Consumed (done : Done) (userId : Id) : Prop :=
  (∃ totpSecretEnc step, done.acceptance = some (userId, totpSecretEnc, step) ∧
    (credentials done.after userId).lastStep = some step) ∨
  ∃ hash, done.consumption = some (userId, hash) ∧
    (credentials done.before userId).backupCodeHashes.Perm
      (hash :: (credentials done.after userId).backupCodeHashes)

end Done

def consumedCount (userId : Id) (hash : String) (past : List Done) : ℕ :=
  (past.filterMap Done.consumption).count (userId, hash)

def storedCount (initial : Database) (userId : Id) (hash : String) (past : List Done) : ℕ :=
  (credentials initial userId).backupCodeHashes.count hash +
    (past.flatMap Done.stored).count (userId, hash)

-- The gate, at one request after others.
structure Gated (initial : Database) (past : List Done) (done : Done) : Prop where
  issued : ∀ sub, .session sub ∈ done.seen →
    (done.operation.IsLogin ∧ (credentials done.before sub).enabled = false) ∨
      ∃ input, done.operation = .VerifyMfa input ∧ done.Consumed sub ∧
        ∃ earlier ∈ past, earlier.operation.IsLogin ∧ .challenge sub input.mfaToken ∈ earlier.seen
  increasing : ∀ userId totpSecretEnc step,
    done.acceptance = some (userId, totpSecretEnc, step) → ∀ earlier ∈ past, ∀ step',
      earlier.acceptance = some (userId, totpSecretEnc, step') → step' < step
  single : ∀ userId hash,
    consumedCount userId hash (done :: past) ≤ storedCount initial userId hash (done :: past)
  on : ∀ userId, (credentials done.before userId).enabled = false →
    (credentials done.after userId).enabled = true →
      ∃ code, done.operation = .ConfirmMfa { userId, code }
  off : ∀ userId, (credentials done.before userId).enabled = true →
    (credentials done.after userId).enabled = false →
      ∃ code totpSecretEnc step, done.operation = .DisableMfa { userId, code } ∧
        (credentials done.before userId).totpSecretEnc = some totpSecretEnc ∧
          done.acceptance = some (userId, totpSecretEnc, step) ∧
            ∀ earlier ∈ past, earlier.acceptance ≠ some (userId, totpSecretEnc, step)

-- A challenge that verifies is one that was signed, and a secret that is generated
-- is none that was in use before.
structure Ideal (env : Environment) (past : List Done) (done : Done) : Prop where
  unforgeable : ∀ input now claims, done.operation = .VerifyMfa input →
    env.jwtVerify .mfaSecret now input.mfaToken = some claims →
      ∃ earlier ∈ past, ∃ userId issuedAt, .challenge userId input.mfaToken ∈ earlier.seen ∧
        claims = JwtTokenAdapter.challengeClaims env issuedAt userId
  fresh : ∀ secret, .generated secret ∈ done.seen → ∀ earlier ∈ past, ∀ totpSecretEnc,
    .decrypted totpSecretEnc secret ∉ earlier.seen

-- How a code of a user is accepted: what it writes and shows.
inductive Factor (env : Environment) (userId : Id) (db : Database) :
    Database → List Visible → Prop
  | totp {totpSecretEnc secret step db'}
      (hsecret : (credentials db userId).totpSecretEnc = some totpSecretEnc)
      (hdecrypt : env.decrypt totpSecretEnc = .ok secret)
      (hused : used (credentials db userId).lastStep step = false)
      (hdb : ∀ other, credentials db' other = if other = userId then
        (credentials db userId).patch { lastStep := some (some step) } else credentials db other) :
      Factor env userId db db' [.matched step, .decrypted totpSecretEnc secret]
  | backup {index hash db'}
      (hhash : (credentials db userId).backupCodeHashes[index]? = some hash)
      (hdb : ∀ other, credentials db' other = if other = userId then
        (credentials db userId).patch {
          backupCodeHashes := some ((credentials db userId).backupCodeHashes.eraseIdx index) }
        else credentials db other) :
      Factor env userId db db' [.equal hash]

-- Everything that one request can do.
inductive Effect (env : Environment) (db : Database) :
    Operation → Except Fault Outcome → Database → List Visible → Prop
  | refused {operation err seen} (hsession : ∀ sub, .session sub ∉ seen)
      (hchallenge : ∀ sub token, .challenge sub token ∉ seen) :
      Effect env db operation (.error err) db seen
  | login {operation outcome db' seen} (hop : operation.IsLogin)
      (hdb : ∀ userId, credentials db' userId = credentials db userId)
      (hsession : ∀ sub, .session sub ∈ seen → (credentials db sub).enabled = false)
      (hlooked : ∀ userId found, .looked userId found ∉ seen) :
      Effect env db operation (.ok outcome) db' seen
  | setup {userId secret iv outcome db'} (hoff : (credentials db userId).enabled = false)
      (hdb : ∀ other, credentials db' other = if other = userId then
        (credentials db userId).patch {
          enabled := some false, totpSecretEnc := some (some (env.encrypt iv secret)),
          lastStep := some none, backupCodeHashes := some [] } else credentials db other) :
      Effect env db (.SetupMfa { userId }) (.ok outcome) db' [.generated secret]
  | confirm {userId code totpSecretEnc secret step hashes outcome db'}
      (hoff : (credentials db userId).enabled = false)
      (hsecret : (credentials db userId).totpSecretEnc = some totpSecretEnc)
      (hdecrypt : env.decrypt totpSecretEnc = .ok secret)
      (hdb : ∀ other, credentials db' other = if other = userId then
        (credentials db userId).patch {
          enabled := some true, lastStep := some (some step), backupCodeHashes := some hashes }
        else credentials db other) :
      Effect env db (.ConfirmMfa { userId, code }) (.ok outcome) db'
        [.matched step, .decrypted totpSecretEnc secret, .looked userId (credentials db userId)]
  | verify {input now claims userId shown outcome db'}
      (hclaims : env.jwtVerify .mfaSecret now input.mfaToken = some claims)
      (hsub : claims.sub = some userId)
      (hon : (credentials db userId).enabled = true)
      (hfactor : Factor env userId db db' shown) :
      Effect env db (.VerifyMfa input) (.ok outcome) db'
        (.session userId :: shown ++ [.looked userId (credentials db userId)])
  | disable {userId code totpSecretEnc secret step outcome db'}
      (hsecret : (credentials db userId).totpSecretEnc = some totpSecretEnc)
      (hon : (credentials db userId).enabled = true)
      (hdecrypt : env.decrypt totpSecretEnc = .ok secret)
      (hused : used (credentials db userId).lastStep step = false)
      (hdb : ∀ other, credentials db' other = if other = userId then
        (credentials db userId).patch {
          enabled := some false, totpSecretEnc := some none, lastStep := some none,
          backupCodeHashes := some [] } else credentials db other) :
      Effect env db (.DisableMfa { userId, code }) (.ok outcome) db'
        [.matched step, .decrypted totpSecretEnc secret, .looked userId (credentials db userId)]

abbrev Done.Effect (env : Environment) (done : Done) : Prop :=
  Auth.Effect env done.before done.operation done.result done.after done.seen

-- The same, seen from one user.
inductive Change (env : Environment) (done : Done) (userId : Id) : Prop
  | same (hsame : credentials done.after userId = credentials done.before userId)
      (hconsume : ∀ hash, done.consumption ≠ some (userId, hash))
  | setup {secret iv} (hoff : (credentials done.before userId).enabled = false)
      (hgenerated : .generated secret ∈ done.seen)
      (hconsume : ∀ hash, done.consumption ≠ some (userId, hash))
      (hafter : credentials done.after userId = (credentials done.before userId).patch {
        enabled := some false, totpSecretEnc := some (some (env.encrypt iv secret)),
        lastStep := some none, backupCodeHashes := some [] })
  | confirm {code step hashes} (hoff : (credentials done.before userId).enabled = false)
      (hop : done.operation = .ConfirmMfa { userId, code }) (hok : done.result.isOk = true)
      (hconsume : ∀ hash, done.consumption ≠ some (userId, hash))
      (hafter : credentials done.after userId = (credentials done.before userId).patch {
        enabled := some true, lastStep := some (some step), backupCodeHashes := some hashes })
  | totp {step} (hon : (credentials done.before userId).enabled = true)
      (hused : used (credentials done.before userId).lastStep step = false)
      (hconsume : ∀ hash, done.consumption ≠ some (userId, hash))
      (hafter : credentials done.after userId =
        (credentials done.before userId).patch { lastStep := some (some step) })
  | backup {index hash} (hon : (credentials done.before userId).enabled = true)
      (hhash : (credentials done.before userId).backupCodeHashes[index]? = some hash)
      (hconsume : done.consumption = some (userId, hash))
      (hafter : credentials done.after userId = (credentials done.before userId).patch {
        backupCodeHashes :=
          some ((credentials done.before userId).backupCodeHashes.eraseIdx index) })
  | disable {code totpSecretEnc step}
      (hsecret : (credentials done.before userId).totpSecretEnc = some totpSecretEnc)
      (hop : done.operation = .DisableMfa { userId, code })
      (hacc : done.acceptance = some (userId, totpSecretEnc, step))
      (hconsume : ∀ hash, done.consumption ≠ some (userId, hash))
      (hafter : credentials done.after userId = (credentials done.before userId).patch {
        enabled := some false, totpSecretEnc := some none, lastStep := some none,
        backupCodeHashes := some [] })

-- The invariant between the requests.
structure Kept (env : Environment) (initial : Database) (db : Database) (past : List Done) :
    Prop where
  accepted : ∀ earlier ∈ past, ∀ userId totpSecretEnc step,
    earlier.acceptance = some (userId, totpSecretEnc, step) →
      (credentials db userId).totpSecretEnc = some totpSecretEnc →
        (credentials db userId).enabled = true ∧ used (credentials db userId).lastStep step = true
  opened : ∀ earlier ∈ past, ∀ userId totpSecretEnc step,
    earlier.acceptance = some (userId, totpSecretEnc, step) →
      ∃ secret, .decrypted totpSecretEnc secret ∈ earlier.seen ∧
        env.decrypt totpSecretEnc = .ok secret
  challenged : ∀ earlier ∈ past, ∀ sub token, .challenge sub token ∈ earlier.seen →
    earlier.operation.IsLogin
  counted : ∀ userId hash, consumedCount userId hash past +
    (credentials db userId).backupCodeHashes.count hash ≤ storedCount initial userId hash past

-- A cipher that gives every text back, and the challenges of one login.
namespace Demo

def sealed : Environment := { env with
  encrypt iv plainText := String.ofList (iv.toList.filter (· ≠ '.') ++ '.' :: plainText.toList)
  jwtVerify _ now token :=
    if token = "u1" ∧ now < 3300000 then
      some (JwtTokenAdapter.challengeClaims env 3000000 "u1")
    else none }

def turns : List Turn :=
  let quick (_ : ℕ) : Choice := choice "iv"
  let slow (_ : ℕ) : Choice := { choice "iv" with elapsed := 20000 }
  [{ operation := .SetupMfa { userId := "u1" }, choices := quick },
    { operation := .ConfirmMfa { userId := "u1", code := "000000" }, choices := quick },
    { operation := .LoginUser { email := "ana@parking.com", password := "clave" }, choices := quick },
    { operation := .VerifyMfa { mfaToken := "u1", code := "000000" }, choices := slow },
    { operation := .DisableMfa { userId := "u1", code := "000000" }, choices := slow }]

end Demo

end SmartParking.Auth
