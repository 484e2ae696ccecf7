import CarbonChain.Misc.Outcome
import CarbonChain.Misc.Signature

/-!
# The authentication service

`AuthService` of `api/src/auth/auth.service.ts` implements the challenge and the token
endpoint of SEP-10. A challenge is a transaction of the server's admin account with one
operation on behalf of the client; the server signs it, the client signs it, and the
service exchanges it for a token. Of a base64 string the model keeps what it decodes to,
and of a key pair the account, which is the encoding of its public key. The hash of a
transaction is taken to be injective, so what is signed is the hashed payload itself.
-/

namespace CarbonChain.Auth

/-- What the service uses of the Stellar SDK: `StrKey.isValidEd25519PublicKey`, what
`Operation.manageData` throws for a name, and the passphrases `Networks.PUBLIC` and
`Networks.TESTNET`. -/
structure Sdk where
  isValidEd25519PublicKey : String → Bool
  dataNameError : String → Option String
  publicNetwork : String
  testnet : String

/-- The exceptions of the endpoints; an `Error` that is not caught is an internal one. -/
inductive HttpException where
  | badRequest (message : String)
  | unauthorized (message : String)
  | internal (message : String)
  deriving DecidableEq, Repr

abbrev Result (α : Type) := Outcome HttpException α

/-! ## Transactions -/

/-- An operation of a transaction; of any other kind than `manageData` with its bytes. -/
inductive Operation where
  | manageData (name : String) (value source : Option String)
  | other (body : List Nat) (source : Option String)
  deriving DecidableEq, Repr

/-- `op.type === 'manageData'`. -/
def Operation.isManageData : Operation → Bool
  | .manageData _ _ _ => true
  | .other _ _ => false

/-- `op.source`, which is absent where the source is that of the transaction. -/
def Operation.source : Operation → Option String
  | .manageData _ _ source | .other _ source => source

/-- `tx.timeBounds`, in seconds. -/
structure TimeBounds where
  minTime : Nat
  maxTime : Nat
  deriving DecidableEq, Repr

/-- A transaction without its signatures. `rest` is what else the hash covers, the memo and
further preconditions, in bytes. -/
structure Transaction where
  source : String
  fee : Nat
  sequence : Int
  timeBounds : Option TimeBounds
  operations : List Operation
  rest : List Nat
  deriving DecidableEq, Repr

/-- What the hash of a transaction is taken of. -/
structure Payload where
  networkPassphrase : String
  transaction : Transaction
  deriving DecidableEq, Repr

/-- A signature of a transaction. -/
abbrev TxSignature := Signature String Payload

/-- What a base64 string decodes to. -/
inductive Xdr where
  | envelope (transaction : Transaction) (signatures : List TxSignature)
  | malformed
  deriving DecidableEq

/-- The signatures that a string carries. -/
def Xdr.signatures : Xdr → List TxSignature
  | .envelope _ signatures => signatures
  | .malformed => []

/-! ## The service -/

/-- The service (21-30) with its configuration and the account of its admin key pair, if that
is loaded. -/
structure AuthService where
  sdk : Sdk
  networkPassphrase : String
  serverHomeDomain : String
  adminKeypair : Option String

namespace AuthService

/-- The constructor (26-41); `config` is `ConfigService.get` without its default. -/
def ofConfig (sdk : Sdk) (config : String → Option String) (adminKeypair : Option String) :
    AuthService where
  sdk := sdk
  networkPassphrase :=
    if (config "STELLAR_NETWORK").getD "TESTNET" = "PUBLIC" then sdk.publicNetwork
    else sdk.testnet
  serverHomeDomain := (config "HOME_DOMAIN").getD "localhost"
  adminKeypair := adminKeypair

variable (service : AuthService)

/-- `getAdminKeypair` (`stellar-keypair.service.ts:33-40`). -/
def getAdminKeypair : Result String :=
  okOr service.adminKeypair
    (.internal "Admin keypair is not initialized. Check ADMIN_SECRET_KEY in .env")

/-- The name of the operation of a challenge (71). -/
def challengeName : String := service.serverHomeDomain ++ " auth"

/-- `Operation.manageData`. -/
def manageData (name : String) (value source : Option String) : Result Operation :=
  match service.sdk.dataNameError name with
  | some message => .error (.error (.internal message))
  | none => .ok (.manageData name value source)

/-- The transaction built (65-77) from the server's account at sequence number -1, with the fee
of one operation and a timeout of 300 seconds. -/
def buildChallenge (server : String) (operation : Operation) (now : Nat) : Transaction where
  source := server
  fee := 100
  -- the builder takes the next sequence number
  sequence := -1 + 1
  timeBounds := some ⟨0, now + 300⟩
  operations := [operation]
  rest := []

/-- `generateChallenge` (48-85) for `clientAccount` with a random `nonce`, at the time `now` in
seconds: the transaction and the passphrase of its network. -/
def generateChallenge (clientAccount nonce : String) (now : Nat) : Result (Xdr × String) := do
  rejectIf (clientAccount.isEmpty ∨ !service.sdk.isValidEd25519PublicKey clientAccount)
    (.badRequest "Invalid Stellar account address")
  let server ← service.getAdminKeypair
  let operation ← service.manageData service.challengeName (some nonce) (some clientAccount)
  let transaction := buildChallenge server operation now
  let signature := Signature.sign server ⟨service.networkPassphrase, transaction⟩
  return (.envelope transaction [signature], service.networkPassphrase)

/-- The time bounds are there and hold at `now` (102-113), both ends included. -/
def withinTimeBounds (timeBounds : Option TimeBounds) (now : Nat) : Bool :=
  timeBounds.any fun bounds => bounds.minTime ≤ now && now ≤ bounds.maxTime

/-- The source of the first `manageData` operation (116-122); an empty string is none. -/
def clientOf (operations : List Operation) : Option String :=
  ((operations.find? Operation.isManageData).bind Operation.source).filter (!·.isEmpty)

/-- `verifyAndIssueToken` (94-158): the account that the token is issued for. Each of the two
signatures is looked for among all signatures of the transaction. -/
def verifyAndIssueToken (signedTransactionXdr : Xdr) (now : Nat) : Result String :=
  match signedTransactionXdr with
  | .malformed => .error (.error (.badRequest "Invalid transaction XDR"))
  | .envelope tx signatures => do
      rejectIf (!withinTimeBounds tx.timeBounds now)
        (.unauthorized "Challenge transaction has expired or is not yet valid")
      let clientAccount ← okOr (clientOf tx.operations)
        (.badRequest "Challenge transaction missing manageData operation")
      rejectIf (!service.sdk.isValidEd25519PublicKey clientAccount)
        (.badRequest "Invalid client account in challenge")
      let server ← service.getAdminKeypair
      let txHash : Payload := ⟨service.networkPassphrase, tx⟩
      rejectIf (!signatures.any (Signature.verify server txHash))
        (.unauthorized "Server signature missing or invalid")
      rejectIf (!signatures.any (Signature.verify clientAccount txHash))
        (.unauthorized "Client signature missing or invalid")
      return clientAccount

end AuthService

end CarbonChain.Auth
