import CarbonChain.Frontend.CreditStore
import CarbonChain.Misc.Keyed
import Mathlib.Data.List.Sublists

/-!
# Sessions

`AuthService.login` (`frontend/src/app/core/services/auth.service.ts:29-56`) connects the
wallet, has a challenge signed and exchanges it for a token; `StellarWalletService.connect`
(`stellar-wallet.service.ts:37-64`) is also called by the dashboard. Both await Freighter
and the API, so that their flows overlap. The buttons follow the signals: one logs in
unless a session is there or on its way, logs out of a session, and connects the dashboard
unless the wallet is connected or connecting. `RetireComponent.submit`
(`retire.component.ts:128-150`) sends what the signals hold.
-/

namespace CarbonChain.Frontend

open Positions

/-- `WalletState` of the wallet service. -/
inductive WalletState where
  | disconnected
  | connecting
  | connected
  | error
  deriving DecidableEq, Repr

/-- `AuthState` of the auth service. -/
inductive AuthState where
  | unauthenticated
  | authenticating
  | authenticated
  | error
  deriving DecidableEq, Repr

/-- A call of `login`, or of `connectWallet` on the dashboard. -/
inductive Purpose where
  | login
  | dashboard
  deriving DecidableEq, Repr

/-- What a flow awaits: `isConnected`, `getPublicKey`, and for a login `getChallenge`,
`signTransaction` and `getToken`. -/
inductive Phase where
  | connecting
  | keying
  | challenging (publicKey : String)
  | signing (publicKey : String)
  | exchanging (publicKey : String)
  | ended
  deriving DecidableEq, Repr

/-- A call under way. -/
structure Flow where
  purpose : Purpose
  phase : Phase
  deriving DecidableEq, Repr

/-- The body of `POST /retirement`; the account is `null` without a wallet. -/
structure RetireBody where
  buyerPublicKey : Option String
  creditId : String
  tonnes : String
  reason : String
  deriving DecidableEq, Repr

/-- What is asked of the API and of Freighter. -/
inductive Ask where
  | getChallenge (account : String)
  | signTransaction (xdr networkPassphrase : String)
  | getToken (signedTransaction : String)
  | retireCredit (body : RetireBody) (token : Option String)
  deriving DecidableEq, Repr

/-- What a flow is answered. -/
inductive Reply where
  | isConnected (connected : Bool)
  | publicKey (publicKey : String)
  | challenge (transaction networkPassphrase : String)
  | signed (signedXdr : String)
  | token (accessToken : String)
  | rejected (rejection : Rejection)
  deriving DecidableEq, Repr

/-- The signals of the two services and the flows in the order in which they were started. -/
structure Session where
  publicKey : Option String
  walletState : WalletState
  walletError : Option String
  token : Option String
  authState : AuthState
  authError : Option String
  flows : List Flow

namespace Session

/-- A new page. -/
def init : Session := ⟨none, .disconnected, none, none, .unauthenticated, none, []⟩

variable (s : Session)

/-- A flow stands at the phase. -/
def move (i : Nat) (flow : Flow) (phase : Phase) : Session :=
  { s with flows := s.flows.set i { flow with phase } }

/-- `connect` (37-64) starts: it awaits `isConnected`, or throws without the extension. -/
def connect (isFreighterInstalled : Bool) (purpose : Purpose) : Session :=
  if isFreighterInstalled then
    { s with
      walletState := .connecting
      walletError := none
      flows := s.flows ++ [⟨purpose, .connecting⟩] }
  else
    { s with
      walletError := some "Freighter wallet extension is not installed."
      walletState := .error
      flows := s.flows ++ [⟨purpose, .ended⟩] }

/-- `login` catches an error. -/
def failLogin (message : String) : Session :=
  { s with authError := some message, authState := .error }

/-- `login` (29-56) up to what `connect` awaits. -/
def login (isFreighterInstalled : Bool) : Session :=
  let s := { s with authState := .authenticating, authError := none }
  let s := s.connect isFreighterInstalled .login
  if isFreighterInstalled then s
  else s.failLogin "Freighter wallet extension is not installed."

/-- `logout` (58-63), with `disconnect` of the wallet. -/
def logout : Session :=
  { s with
    token := none
    authState := .unauthenticated
    authError := none
    publicKey := none
    walletState := .disconnected
    walletError := none }

/-- A flow ends with an error, which a login catches; `connectWallet` lets it pass. -/
def throw (i : Nat) (flow : Flow) (message : String) : Session :=
  let s := s.move i flow .ended
  match flow.purpose with
  | .login => s.failLogin message
  | .dashboard => s

/-- `connect` catches an error and throws it on. -/
def throwConnect (i : Nat) (flow : Flow) (rejection : Rejection) : Session :=
  let s := { s with
    walletError := some (rejection.messageOr "Failed to connect to Freighter.")
    walletState := .error }
  s.throw i flow (rejection.messageOr "Authentication failed.")

/-- `signTransaction` catches an error and throws it on. -/
def throwSign (i : Nat) (flow : Flow) (rejection : Rejection) : Session :=
  let s := { s with walletError := some (rejection.messageOr "Transaction signing failed.") }
  s.throw i flow (rejection.messageOr "Authentication failed.")

/-- A flow goes on with what it awaited, and asks for more. -/
def resume (i : Nat) (flow : Flow) : Phase → Reply → Option (Option Ask × Session)
  | .connecting, .isConnected true => some (none, s.move i flow .keying)
  | .connecting, .isConnected false =>
      some (none, s.throwConnect i flow
        (.error "Freighter is not connected. Please unlock your wallet."))
  | .keying, .publicKey publicKey =>
      let s := { s with publicKey := some publicKey, walletState := .connected }
      match flow.purpose with
      | .login => some (some (.getChallenge publicKey), s.move i flow (.challenging publicKey))
      | .dashboard => some (none, s.move i flow .ended)
  | .challenging publicKey, .challenge transaction networkPassphrase =>
      if s.walletState = .connected then
        some (some (.signTransaction transaction networkPassphrase),
          s.move i flow (.signing publicKey))
      else some (none, s.throw i flow "Wallet is not connected. Call connect() first.")
  | .signing publicKey, .signed signedXdr =>
      some (some (.getToken signedXdr), s.move i flow (.exchanging publicKey))
  | .exchanging _, .token accessToken =>
      some (none, { s.move i flow .ended with
        token := some accessToken, authState := .authenticated })
  | .connecting, .rejected rejection | .keying, .rejected rejection =>
      some (none, s.throwConnect i flow rejection)
  | .signing _, .rejected rejection => some (none, s.throwSign i flow rejection)
  | .challenging _, .rejected rejection | .exchanging _, .rejected rejection =>
      some (none, s.throw i flow (rejection.messageOr "Authentication failed."))
  | _, _ => none

/-- `authGuard` lets a session pass. -/
def authGuard : Bool := s.authState = .authenticated

end Session

/-- A button is clicked, or the `i`-th flow is answered. Those that connect the wallet read at the
click whether the extension is installed. -/
inductive UiStep where
  | login (isFreighterInstalled : Bool)
  | connectWallet (isFreighterInstalled : Bool)
  | logout
  | reply (i : Nat) (reply : Reply)
  | submit (creditId tonnes reason : String)
  deriving DecidableEq

/-- A button that is not shown or disabled does nothing. -/
def Session.exec (s : Session) : UiStep → Except Unit (Option Ask × Session)
  | .login isFreighterInstalled =>
      if s.authState = .authenticated ∨ s.authState = .authenticating then .error ()
      else .ok (none, s.login isFreighterInstalled)
  | .connectWallet isFreighterInstalled =>
      if s.walletState = .connected ∨ s.walletState = .connecting then .error ()
      else .ok (none, s.connect isFreighterInstalled .dashboard)
  | .logout => if s.authState = .authenticated then .ok (none, s.logout) else .error ()
  | .reply i reply =>
      match s.flows[i]? with
      | none => .error ()
      | some flow =>
          match s.resume i flow flow.phase reply with
          | none => .error ()
          | some result => .ok result
  | .submit creditId tonnes reason =>
      if s.authState = .authenticated then
        .ok (some (.retireCredit ⟨s.publicKey, creditId, tonnes, reason⟩ s.token), s)
      else .error ()

/-- The page with a new wallet and no session. -/
def sessions : Machine Session UiStep (Option Ask) Unit where
  init := Session.init
  exec := Session.exec

abbrev UiEvent := Event Session UiStep (Option Ask)

/-! ## What a step does -/

/-- The key that a login goes on with. -/
def Phase.key : Phase → Option String
  | .challenging publicKey | .signing publicKey | .exchanging publicKey => some publicKey
  | .connecting | .keying | .ended => none

/-- A login that has not ended. -/
def Flow.Pending (flow : Flow) : Prop := flow.purpose = .login ∧ flow.phase ≠ .ended

/-- What a step does to the token, the key and the flows. -/
inductive Change (s s' : Session) : UiStep → Option Ask → Prop where
  | login (installed : Bool) (phase : Phase)
      (idle : s.authState ≠ .authenticated ∧ s.authState ≠ .authenticating)
      (keyless : phase.key = none) (flows : s'.flows = s.flows ++ [⟨.login, phase⟩])
      (state : s'.authState = if phase = .ended then .error else .authenticating)
      (token : s'.token = s.token) (key : s'.publicKey = s.publicKey) :
      Change s s' (.login installed) none
  | connectWallet (installed : Bool) (phase : Phase) (keyless : phase.key = none)
      (flows : s'.flows = s.flows ++ [⟨.dashboard, phase⟩]) (state : s'.authState = s.authState)
      (token : s'.token = s.token) (key : s'.publicKey = s.publicKey) :
      Change s s' (.connectWallet installed) none
  | logout (session : s.authState = .authenticated) (flows : s'.flows = s.flows)
      (state : s'.authState = .unauthenticated) (token : s'.token = none)
      (key : s'.publicKey = none) : Change s s' .logout none
  | turns (i : Nat) (reply : Reply) (flow : Flow) (phase : Phase) (ask : Option Ask)
      (started : s.flows[i]? = some flow) (open_ : flow.phase ≠ .ended)
      (kept : phase.key = flow.phase.key) (live : phase ≠ .ended)
      (flows : s'.flows = s.flows.set i { flow with phase })
      (asks : (∃ publicKey transaction networkPassphrase, flow.phase = .challenging publicKey ∧
            phase = .signing publicKey ∧ reply = .challenge transaction networkPassphrase ∧
            ask = some (.signTransaction transaction networkPassphrase)) ∨
          (∃ publicKey signedXdr, flow.phase = .signing publicKey ∧
            phase = .exchanging publicKey ∧ reply = .signed signedXdr ∧
            ask = some (.getToken signedXdr)) ∨ phase = .keying ∧ ask = none)
      (state : s'.authState = s.authState) (token : s'.token = s.token)
      (key : s'.publicKey = s.publicKey) : Change s s' (.reply i reply) ask
  | fails (i : Nat) (reply : Reply) (flow : Flow) (started : s.flows[i]? = some flow)
      (open_ : flow.phase ≠ .ended) (flows : s'.flows = s.flows.set i { flow with phase := .ended })
      (state : s'.authState = if flow.purpose = .login then .error else s.authState)
      (token : s'.token = s.token) (key : s'.publicKey = s.publicKey) :
      Change s s' (.reply i reply) none
  | keyed (i : Nat) (publicKey : String) (flow : Flow) (phase : Phase) (ask : Option Ask)
      (started : s.flows[i]? = some flow) (open_ : flow.phase = .keying)
      (flows : s'.flows = s.flows.set i { flow with phase })
      (asks : flow.purpose = .login ∧ phase = .challenging publicKey ∧
          ask = some (.getChallenge publicKey) ∨
        flow.purpose = .dashboard ∧ phase = .ended ∧ ask = none)
      (state : s'.authState = s.authState) (token : s'.token = s.token)
      (key : s'.publicKey = some publicKey) :
      Change s s' (.reply i (.publicKey publicKey)) ask
  | issued (i : Nat) (accessToken publicKey : String) (flow : Flow)
      (started : s.flows[i]? = some flow) (open_ : flow.phase = .exchanging publicKey)
      (flows : s'.flows = s.flows.set i { flow with phase := .ended })
      (state : s'.authState = .authenticated) (token : s'.token = some accessToken)
      (key : s'.publicKey = s.publicKey) : Change s s' (.reply i (.token accessToken)) none
  | submit (creditId tonnes reason : String) (session : s.authState = .authenticated)
      (same : s' = s) : Change s s' (.submit creditId tonnes reason)
        (some (.retireCredit ⟨s.publicKey, creditId, tonnes, reason⟩ s.token))

/-- An error ends the flow; what else was written is neither the token, the key nor a flow. -/
theorem throw_change {s written : Session} {i : Nat} {flow : Flow} (message : String)
    (reply : Reply) (started : s.flows[i]? = some flow) (open_ : flow.phase ≠ .ended)
    (flows : written.flows = s.flows) (state : written.authState = s.authState)
    (token : written.token = s.token) (key : written.publicKey = s.publicKey) :
    Change s (written.throw i flow message) (.reply i reply) none := by
  obtain ⟨purpose, phase⟩ := flow
  cases purpose with
  | login => exact .fails i reply _ started open_ (by rw [← flows]; rfl) rfl token key
  | dashboard => exact .fails i reply _ started open_ (by rw [← flows]; rfl) state token key

theorem resume_change {s s' : Session} {i : Nat} {flow : Flow} {reply : Reply}
    {ask : Option Ask} (started : s.flows[i]? = some flow)
    (h : s.resume i flow flow.phase reply = some (ask, s')) : Change s s' (.reply i reply) ask := by
  obtain ⟨purpose, phase⟩ := flow
  dsimp only at h
  cases phase with
  | connecting =>
      cases reply with
      | isConnected connected =>
          cases connected with
          | true =>
              cases h
              exact .turns i _ _ .keying none started nofun rfl nofun rfl (.inr (.inr ⟨rfl, rfl⟩))
                rfl rfl rfl
          | false =>
              cases h
              exact throw_change _ _ started nofun rfl rfl rfl rfl
      | rejected rejection =>
          cases h
          exact throw_change _ _ started nofun rfl rfl rfl rfl
      | _ => cases h
  | keying =>
      cases reply with
      | publicKey publicKey =>
          cases purpose with
          | login =>
              cases h
              exact .keyed i publicKey _ _ _ started rfl rfl (.inl ⟨rfl, rfl, rfl⟩) rfl rfl rfl
          | dashboard =>
              cases h
              exact .keyed i publicKey _ _ _ started rfl rfl (.inr ⟨rfl, rfl, rfl⟩) rfl rfl rfl
      | rejected rejection =>
          cases h
          exact throw_change _ _ started nofun rfl rfl rfl rfl
      | _ => cases h
  | challenging publicKey =>
      cases reply with
      | challenge transaction networkPassphrase =>
          simp only [Session.resume] at h
          split at h
          · cases h
            exact .turns i _ _ (.signing publicKey) _ started nofun rfl nofun rfl
              (.inl ⟨publicKey, transaction, networkPassphrase, rfl, rfl, rfl, rfl⟩) rfl rfl rfl
          · cases h
            exact throw_change _ _ started nofun rfl rfl rfl rfl
      | rejected rejection =>
          cases h
          exact throw_change _ _ started nofun rfl rfl rfl rfl
      | _ => cases h
  | signing publicKey =>
      cases reply with
      | signed signedXdr =>
          cases h
          exact .turns i _ _ (.exchanging publicKey) _ started nofun rfl nofun rfl
            (.inr (.inl ⟨publicKey, signedXdr, rfl, rfl, rfl, rfl⟩)) rfl rfl rfl
      | rejected rejection =>
          cases h
          exact throw_change _ _ started nofun rfl rfl rfl rfl
      | _ => cases h
  | exchanging publicKey =>
      cases reply with
      | token accessToken =>
          cases h
          exact .issued i accessToken publicKey _ started rfl rfl rfl rfl rfl
      | rejected rejection =>
          cases h
          exact throw_change _ _ started nofun rfl rfl rfl rfl
      | _ => cases h
  | ended => cases h

theorem change_of_exec {s s' : Session} {step : UiStep} {ask : Option Ask}
    (h : s.exec step = .ok (ask, s')) : Change s s' step ask := by
  cases step with
  | login installed =>
      simp only [Session.exec] at h
      split at h
      · cases h
      · next idle =>
          rw [not_or] at idle
          cases h
          cases installed with
          | true => exact .login true .connecting idle rfl rfl rfl rfl rfl
          | false => exact .login false .ended idle rfl rfl rfl rfl rfl
  | connectWallet installed =>
      simp only [Session.exec] at h
      split at h
      · cases h
      · cases h
        cases installed with
        | true => exact .connectWallet true .connecting rfl rfl rfl rfl rfl
        | false => exact .connectWallet false .ended rfl rfl rfl rfl rfl
  | logout =>
      simp only [Session.exec] at h
      split at h
      · next session =>
          cases h
          exact .logout session rfl rfl rfl rfl
      · cases h
  | reply i reply =>
      simp only [Session.exec] at h
      split at h
      · cases h
      · next flow started =>
          split at h
          · cases h
          · next result resumed =>
              cases h
              exact resume_change started resumed
  | submit creditId tonnes reason =>
      simp only [Session.exec] at h
      split at h
      · next session =>
          cases h
          exact .submit creditId tonnes reason session rfl
      · cases h

/-! ## Where a token comes from -/

/-- Freighter gives the `i`-th flow a key, for which it asks for a challenge. -/
def Keyed (event : UiEvent) (i : Nat) (publicKey : String) : Prop :=
  event.input = .reply i (.publicKey publicKey) ∧ event.output = some (.getChallenge publicKey)

/-- The API gives the flow a challenge, which it asks Freighter to sign. -/
def Challenged (event : UiEvent) (i : Nat) : Prop :=
  ∃ transaction networkPassphrase,
    event.input = .reply i (.challenge transaction networkPassphrase) ∧
    event.output = some (.signTransaction transaction networkPassphrase)

/-- Freighter gives the flow a signed transaction, for which it asks for a token. -/
def Signed (event : UiEvent) (i : Nat) : Prop :=
  ∃ signedXdr, event.input = .reply i (.signed signedXdr) ∧
    event.output = some (.getToken signedXdr)

/-- What has led a flow to its phase. -/
def Reached (log : List UiEvent) (i : Nat) : Phase → Prop
  | .challenging publicKey => ∃ keyed, [keyed].Sublist log ∧ Keyed keyed i publicKey
  | .signing publicKey => ∃ keyed challenged, [keyed, challenged].Sublist log ∧
      Keyed keyed i publicKey ∧ Challenged challenged i
  | .exchanging publicKey => ∃ keyed challenged signed,
      [keyed, challenged, signed].Sublist log ∧ Keyed keyed i publicKey ∧
        Challenged challenged i ∧ Signed signed i
  | .connecting | .keying | .ended => True

/-- The token was given to the `i`-th flow, which had the key, a challenge for it and the signed
transaction, one after the other. -/
def IssuedTo (log : List UiEvent) (i : Nat) (publicKey token : String) : Prop :=
  ∃ keyed challenged signed issued, [keyed, challenged, signed, issued].Sublist log ∧
    Keyed keyed i publicKey ∧ Challenged challenged i ∧ Signed signed i ∧
    issued.input = .reply i (.token token)

/-- The key that the wallet shows is that of the `i`-th flow, unless Freighter gave the
dashboard another one since. -/
def Shows (log : List UiEvent) (i : Nat) (publicKey : String) (shown : Option String) : Prop :=
  shown = some publicKey ∨ ∃ keyed switched j other, [keyed, switched].Sublist log ∧
    Keyed keyed i publicKey ∧ switched.input = .reply j (.publicKey other) ∧
    switched.output = none ∧ shown = some other

section

variable {log : List UiEvent} {event : UiEvent} {i : Nat} {publicKey token : String}

theorem sublist_snoc {events : List UiEvent} (listed : events.Sublist log) :
    events.Sublist (log ++ [event]) :=
  listed.trans (List.sublist_append_left log [event])

theorem sublist_snoc_last {events : List UiEvent} (listed : events.Sublist log) :
    (events ++ [event]).Sublist (log ++ [event]) :=
  listed.append (List.Sublist.refl [event])

theorem Reached.snoc {phase : Phase} (reached : Reached log i phase) :
    Reached (log ++ [event]) i phase := by
  cases phase with
  | challenging publicKey =>
      obtain ⟨keyed, listed, facts⟩ := reached
      exact ⟨keyed, sublist_snoc listed, facts⟩
  | signing publicKey =>
      obtain ⟨keyed, challenged, listed, facts⟩ := reached
      exact ⟨keyed, challenged, sublist_snoc listed, facts⟩
  | exchanging publicKey =>
      obtain ⟨keyed, challenged, signed, listed, facts⟩ := reached
      exact ⟨keyed, challenged, signed, sublist_snoc listed, facts⟩
  | _ => trivial

theorem Reached.keyed {phase : Phase} (reached : Reached log i phase)
    (key : phase.key = some publicKey) : ∃ keyed ∈ log, Keyed keyed i publicKey := by
  cases phase with
  | challenging publicKey =>
      cases key
      obtain ⟨keyed, listed, is⟩ := reached
      exact ⟨keyed, listed.subset (by simp), is⟩
  | signing publicKey =>
      cases key
      obtain ⟨keyed, challenged, listed, is, -⟩ := reached
      exact ⟨keyed, listed.subset (by simp), is⟩
  | exchanging publicKey =>
      cases key
      obtain ⟨keyed, challenged, signed, listed, is, -⟩ := reached
      exact ⟨keyed, listed.subset (by simp), is⟩
  | _ => cases key

theorem IssuedTo.snoc (issued : IssuedTo log i publicKey token) :
    IssuedTo (log ++ [event]) i publicKey token := by
  obtain ⟨keyed, challenged, signed, issued, listed, facts⟩ := issued
  exact ⟨keyed, challenged, signed, issued, sublist_snoc listed, facts⟩

theorem IssuedTo.keyed (issued : IssuedTo log i publicKey token) :
    ∃ keyed ∈ log, Keyed keyed i publicKey := by
  obtain ⟨keyed, challenged, signed, issued, listed, is, -⟩ := issued
  exact ⟨keyed, listed.subset (by simp), is⟩

theorem Shows.snoc {shown : Option String} (shows_ : Shows log i publicKey shown) :
    Shows (log ++ [event]) i publicKey shown := by
  rcases shows_ with own | ⟨keyed, switched, j, other, listed, facts⟩
  · exact .inl own
  · exact .inr ⟨keyed, switched, j, other, sublist_snoc listed, facts⟩

/-- The dashboard is given a key after the flow was. -/
theorem Shows.switch {j : Nat} {other : String} (before : ∃ keyed ∈ log, Keyed keyed i publicKey)
    (input : event.input = .reply j (.publicKey other)) (output : event.output = none) :
    Shows (log ++ [event]) i publicKey (some other) := by
  obtain ⟨keyed, logged, is⟩ := before
  exact .inr ⟨keyed, event, j, other, sublist_snoc_last (List.singleton_sublist.mpr logged), is,
    input, output, rfl⟩

end

/-! ## Runs -/

/-- Only one login is pending, while the session is on its way; a session has its token from a
login, and the wallet shows the key of that login or one that the dashboard was given since. -/
structure Consistent (log : List UiEvent) (s : Session) : Prop where
  pending : ∀ (i : Nat) (flow : Flow), s.flows[i]? = some flow → flow.Pending →
    s.authState = .authenticating ∧
      ∀ (j : Nat) (other : Flow), s.flows[j]? = some other → other.Pending → j = i
  reached : ∀ (i : Nat) (flow : Flow), s.flows[i]? = some flow → Reached log i flow.phase
  keys : ∀ (i : Nat) (flow : Flow) publicKey, s.flows[i]? = some flow →
    flow.phase.key = some publicKey → flow.purpose = .login ∧ Shows log i publicKey s.publicKey
  session : ∀ token, s.token = some token → s.authState = .authenticated ∧
    ∃ i publicKey, IssuedTo log i publicKey token ∧ Shows log i publicKey s.publicKey
  tokened : s.authState = .authenticated → s.token ≠ none

theorem pending_of_key {flow : Flow} {publicKey : String} (login : flow.purpose = .login)
    (key : flow.phase.key = some publicKey) : flow.Pending := by
  refine ⟨login, ?_⟩
  intro ended
  rw [ended] at key
  cases key

section

variable {log : List UiEvent} {event : UiEvent} {s s' : Session}

/-- Outside of a login on its way no login is pending. -/
theorem Consistent.idle (consistent : Consistent log s) (idle : s.authState ≠ .authenticating)
    {i : Nat} {flow : Flow} (found : s.flows[i]? = some flow) : ¬ flow.Pending :=
  fun pending => idle (consistent.pending i flow found pending).1

/-- A step that adds a flow without a key. -/
theorem Consistent.add (consistent : Consistent log s) {new : Flow} (keyless : new.phase.key = none)
    (flows : s'.flows = s.flows ++ [new]) (key : s'.publicKey = s.publicKey)
    (token : s'.token = s.token)
    (pending : ∀ (i : Nat) (flow : Flow), s'.flows[i]? = some flow → flow.Pending →
      s'.authState = .authenticating ∧
        ∀ (j : Nat) (other : Flow), s'.flows[j]? = some other → other.Pending → j = i)
    (state : s'.authState = .authenticated ↔ s.authState = .authenticated) :
    Consistent (log ++ [event]) s' where
  pending := pending
  reached i flow found := by
    rw [flows] at found
    rcases getElem?_of_snoc found with before | ⟨-, rfl⟩
    · exact (consistent.reached i flow before).snoc
    · cases phase : flow.phase <;> rw [phase] at keyless <;> trivial
  keys i flow publicKey found held := by
    rw [flows] at found
    rw [key]
    rcases getElem?_of_snoc found with before | ⟨-, rfl⟩
    · obtain ⟨login, shows_⟩ := consistent.keys i flow publicKey before held
      exact ⟨login, shows_.snoc⟩
    · rw [keyless] at held
      cases held
  session given held := by
    rw [token] at held
    obtain ⟨session, i, publicKey, issued, shows_⟩ := consistent.session given held
    rw [key]
    exact ⟨state.mpr session, i, publicKey, issued.snoc, shows_.snoc⟩
  tokened session := by
    rw [token]
    exact consistent.tokened (state.mp session)

theorem Consistent.pending_move (consistent : Consistent log s) {i : Nat} {flow new : Flow}
    (started : s.flows[i]? = some flow) (flows : s'.flows = s.flows.set i new)
    (was : new.Pending → flow.Pending)
    (still : ∀ (j : Nat) (other : Flow), s'.flows[j]? = some other → other.Pending →
      s'.authState = .authenticating) (j : Nat) (other : Flow)
    (found : s'.flows[j]? = some other) (pending : other.Pending) :
    s'.authState = .authenticating ∧
      ∀ (k : Nat) (third : Flow), s'.flows[k]? = some third → third.Pending → k = j := by
  have before : ∀ (j : Nat) (other : Flow), s'.flows[j]? = some other → other.Pending →
      ∃ old, s.flows[j]? = some old ∧ old.Pending := by
    intro j other found pending
    rw [flows] at found
    rcases getElem?_of_set found with ⟨-, same⟩ | ⟨rfl, rfl⟩
    · exact ⟨other, same, pending⟩
    · exact ⟨flow, started, was pending⟩
  refine ⟨still j other found pending, ?_⟩
  intro k third found' pending'
  obtain ⟨old, there, held⟩ := before j other found pending
  obtain ⟨old', there', held'⟩ := before k third found' pending'
  exact (consistent.pending j old there held).2 k old' there' held'

theorem Consistent.reached_move (consistent : Consistent log s) {i : Nat} {new : Flow}
    (flows : s'.flows = s.flows.set i new) (reached : Reached (log ++ [event]) i new.phase)
    (j : Nat) (other : Flow) (found : s'.flows[j]? = some other) :
    Reached (log ++ [event]) j other.phase := by
  rw [flows] at found
  rcases getElem?_of_set found with ⟨-, same⟩ | ⟨rfl, rfl⟩
  · exact (consistent.reached j other same).snoc
  · exact reached

/-- The keys of the other flows and of the new phase. -/
theorem Consistent.keys_move (consistent : Consistent log s) {i : Nat} {new : Flow}
    (flows : s'.flows = s.flows.set i new)
    (own : ∀ publicKey : String, new.phase.key = some publicKey →
      new.purpose = .login ∧ Shows (log ++ [event]) i publicKey s'.publicKey)
    (others : ∀ (j : Nat) (publicKey : String), j ≠ i → (∃ keyed ∈ log, Keyed keyed j publicKey) →
      (∃ other, s.flows[j]? = some other ∧ other.Pending) → Shows log j publicKey s.publicKey →
        Shows (log ++ [event]) j publicKey s'.publicKey)
    (j : Nat) (other : Flow) (publicKey : String) (found : s'.flows[j]? = some other)
    (held : other.phase.key = some publicKey) :
    other.purpose = .login ∧ Shows (log ++ [event]) j publicKey s'.publicKey := by
  rw [flows] at found
  rcases getElem?_of_set found with ⟨apart, same⟩ | ⟨rfl, rfl⟩
  · obtain ⟨login, shows_⟩ := consistent.keys j other publicKey same held
    exact ⟨login, others j publicKey apart ((consistent.reached j other same).keyed held)
      ⟨other, same, pending_of_key login held⟩ shows_⟩
  · exact own publicKey held

theorem Consistent.session_snoc (consistent : Consistent log s) (token : s'.token = s.token)
    (state : s.authState = .authenticated → s'.authState = .authenticated)
    (shown : ∀ i publicKey, s.authState = .authenticated →
      (∃ keyed ∈ log, Keyed keyed i publicKey) → Shows log i publicKey s.publicKey →
        Shows (log ++ [event]) i publicKey s'.publicKey)
    (given : String) (held : s'.token = some given) :
    s'.authState = .authenticated ∧ ∃ i publicKey, IssuedTo (log ++ [event]) i publicKey given ∧
      Shows (log ++ [event]) i publicKey s'.publicKey := by
  rw [token] at held
  obtain ⟨session, i, publicKey, issued, shows_⟩ := consistent.session given held
  exact ⟨state session, i, publicKey, issued.snoc, shown i publicKey session issued.keyed shows_⟩

end

theorem Consistent.step {log : List UiEvent} {event : UiEvent}
    (consistent : Consistent log event.pre)
    (change : Change event.pre event.post event.input event.output) :
    Consistent (log ++ [event]) event.post := by
  obtain ⟨s, step, ask, s'⟩ := event
  dsimp only at consistent change ⊢
  cases change with
  | login installed phase idle keyless flows state token key =>
      have none_pending : ∀ (i : Nat) (flow : Flow), s.flows[i]? = some flow → ¬ flow.Pending :=
        fun _ _ found => consistent.idle idle.2 found
      refine consistent.add keyless flows key token ?_ ?_
      · intro i flow found pending
        rw [flows] at found
        rcases getElem?_of_snoc found with before | ⟨rfl, rfl⟩
        · exact absurd pending (none_pending i flow before)
        · refine ⟨by rw [state, if_neg pending.2], ?_⟩
          intro j other found' pending'
          rw [flows] at found'
          rcases getElem?_of_snoc found' with before | ⟨rfl, -⟩
          · exact absurd pending' (none_pending j other before)
          · rfl
      · rw [state]
        have := idle.1
        split <;> simp [this]
  | connectWallet installed phase keyless flows state token key =>
      refine consistent.add keyless flows key token ?_ (by rw [state])
      intro i flow found pending
      rw [flows] at found
      rcases getElem?_of_snoc found with before | ⟨-, rfl⟩
      · rw [state]
        refine ⟨(consistent.pending i flow before pending).1, ?_⟩
        intro j other found' pending'
        rw [flows] at found'
        rcases getElem?_of_snoc found' with before' | ⟨-, rfl⟩
        · exact (consistent.pending i flow before pending).2 j other before' pending'
        · cases pending'.1
      · cases pending.1
  | logout session flows state token key =>
      have none_pending : ∀ (i : Nat) (flow : Flow), s.flows[i]? = some flow → ¬ flow.Pending :=
        fun _ _ found => consistent.idle (by rw [session]; decide) found
      refine ⟨?_, ?_, ?_, ?_, ?_⟩
      · intro i flow found pending
        rw [flows] at found
        exact absurd pending (none_pending i flow found)
      · intro i flow found
        rw [flows] at found
        exact (consistent.reached i flow found).snoc
      · intro i flow publicKey found held
        rw [flows] at found
        have login := (consistent.keys i flow publicKey found held).1
        exact absurd (pending_of_key login held) (none_pending i flow found)
      · intro given held
        rw [token] at held
        cases held
      · rw [state]
        nofun
  | turns i reply flow phase ask started open_ kept live flows asks state token key =>
      refine ⟨?_, ?_, ?_, ?_, ?_⟩
      · refine consistent.pending_move started flows (fun pending => ⟨pending.1, open_⟩) ?_
        intro j other found pending
        rw [state]
        rw [flows] at found
        rcases getElem?_of_set found with ⟨-, same⟩ | ⟨-, rfl⟩
        · exact (consistent.pending j other same pending).1
        · exact (consistent.pending i flow started ⟨pending.1, open_⟩).1
      · refine consistent.reached_move flows ?_
        have before := consistent.reached i flow started
        rcases asks with ⟨publicKey, transaction, networkPassphrase, was, rfl, rfl, rfl⟩ |
          ⟨publicKey, signedXdr, was, rfl, rfl, rfl⟩ | ⟨rfl, rfl⟩
        · rw [was] at before
          obtain ⟨keyed, listed, is⟩ := before
          exact ⟨keyed, _, sublist_snoc_last listed, is, transaction, networkPassphrase, rfl, rfl⟩
        · rw [was] at before
          obtain ⟨keyed, challenged, listed, is, challenges⟩ := before
          exact ⟨keyed, challenged, _, sublist_snoc_last listed, is, challenges, signedXdr, rfl,
            rfl⟩
        · trivial
      · refine consistent.keys_move flows ?_ ?_
        · intro publicKey held
          have held : flow.phase.key = some publicKey := kept.symm.trans held
          obtain ⟨login, shows_⟩ := consistent.keys i flow publicKey started held
          rw [key]
          exact ⟨login, shows_.snoc⟩
        · intro j publicKey _ _ _ shows_
          rw [key]
          exact shows_.snoc
      · refine consistent.session_snoc token (fun session => state.trans session) ?_
        intro j publicKey _ _ shows_
        rw [key]
        exact shows_.snoc
      · rw [state, token]
        exact consistent.tokened
  | fails i reply flow started open_ flows state token key =>
      have unless_login : s.authState = .authenticated → flow.purpose ≠ .login := by
        intro session login
        have pending := (consistent.pending i flow started ⟨login, open_⟩).1
        rw [session] at pending
        cases pending
      refine ⟨?_, ?_, ?_, ?_, ?_⟩
      · refine consistent.pending_move started flows (fun pending => absurd rfl pending.2) ?_
        intro j other found pending
        rw [flows] at found
        rcases getElem?_of_set found with ⟨apart, same⟩ | ⟨-, rfl⟩
        · have held := consistent.pending j other same pending
          have dashboard : flow.purpose ≠ .login :=
            fun login => apart (held.2 i flow started ⟨login, open_⟩).symm
          rw [state, if_neg dashboard]
          exact held.1
        · exact absurd rfl pending.2
      · exact consistent.reached_move flows trivial
      · refine consistent.keys_move flows nofun ?_
        intro j publicKey _ _ _ shows_
        rw [key]
        exact shows_.snoc
      · refine consistent.session_snoc token ?_ ?_
        · intro session
          rw [state, if_neg (unless_login session)]
          exact session
        · intro j publicKey _ _ shows_
          rw [key]
          exact shows_.snoc
      · rw [state, token]
        split
        · nofun
        · exact consistent.tokened
  | keyed i publicKey flow phase ask started open_ flows asks state token key =>
      have unended : flow.phase ≠ .ended := by rw [open_]; decide
      rcases asks with ⟨login, rfl, rfl⟩ | ⟨dashboard, rfl, rfl⟩
      · have pending : flow.Pending := ⟨login, unended⟩
        obtain ⟨authenticating, alone⟩ := consistent.pending i flow started pending
        have own : Keyed ⟨s, .reply i (.publicKey publicKey), some (.getChallenge publicKey), s'⟩ i
            publicKey := ⟨rfl, rfl⟩
        refine ⟨?_, ?_, ?_, ?_, ?_⟩
        · refine consistent.pending_move started flows (fun _ => pending) ?_
          intro _ _ _ _
          rw [state]
          exact authenticating
        · refine consistent.reached_move flows ?_
          exact ⟨_, sublist_snoc_last (List.nil_sublist log), own⟩
        · refine consistent.keys_move flows ?_ ?_
          · intro given held
            cases held
            exact ⟨login, .inl key⟩
          · rintro j given apart - ⟨other, found, pending'⟩ -
            exact absurd (alone j other found pending') apart
        · refine consistent.session_snoc token (fun session => state.trans session) ?_
          intro _ _ session
          rw [authenticating] at session
          cases session
        · rw [state, authenticating]
          nofun
      · refine ⟨?_, ?_, ?_, ?_, ?_⟩
        · refine consistent.pending_move started flows (fun pending => absurd rfl pending.2) ?_
          intro j other found pending
          rw [state]
          rw [flows] at found
          rcases getElem?_of_set found with ⟨-, same⟩ | ⟨-, rfl⟩
          · exact (consistent.pending j other same pending).1
          · exact absurd rfl pending.2
        · exact consistent.reached_move flows trivial
        · refine consistent.keys_move flows nofun ?_
          intro j given _ before _ _
          rw [key]
          exact Shows.switch before rfl rfl
        · refine consistent.session_snoc token (fun session => state.trans session) ?_
          intro j given _ before _
          rw [key]
          exact Shows.switch before rfl rfl
        · rw [state, token]
          exact consistent.tokened
  | issued i accessToken publicKey flow started open_ flows state token key =>
      have held : flow.phase.key = some publicKey := by rw [open_]; rfl
      obtain ⟨login, shows_⟩ := consistent.keys i flow publicKey started held
      have pending := pending_of_key login held
      obtain ⟨-, alone⟩ := consistent.pending i flow started pending
      refine ⟨?_, ?_, ?_, ?_, ?_⟩
      · intro j other found pending'
        rw [flows] at found
        rcases getElem?_of_set found with ⟨apart, same⟩ | ⟨-, rfl⟩
        · exact absurd (alone j other same pending') apart
        · exact absurd rfl pending'.2
      · exact consistent.reached_move flows trivial
      · refine consistent.keys_move flows nofun ?_
        rintro j given apart - ⟨other, found, pending'⟩ -
        exact absurd (alone j other found pending') apart
      · intro given held
        rw [token] at held
        cases held
        have before := consistent.reached i flow started
        rw [open_] at before
        obtain ⟨keyed, challenged, signed, listed, is, challenges, signs⟩ := before
        rw [key]
        exact ⟨state, i, publicKey, ⟨keyed, challenged, signed, _, sublist_snoc_last listed, is,
          challenges, signs, rfl⟩, shows_.snoc⟩
      · rw [token]
        nofun
  | submit creditId tonnes reason session same =>
      subst same
      refine ⟨consistent.pending, ?_, ?_, ?_, consistent.tokened⟩
      · intro i flow found
        exact (consistent.reached i flow found).snoc
      · intro i flow publicKey found held
        obtain ⟨login, shows_⟩ := consistent.keys i flow publicKey found held
        exact ⟨login, shows_.snoc⟩
      · exact consistent.session_snoc rfl id fun _ _ _ _ shows_ => shows_.snoc

theorem consistent_init : Consistent [] Session.init :=
  ⟨nofun, nofun, nofun, nofun, nofun⟩

theorem consistent_run (inputs : List UiStep) :
    Consistent (sessions.log inputs) (sessions.state inputs) :=
  sessions.run_induct Consistent consistent_init
    (fun _ _ consistent commits => consistent.step (change_of_exec commits)) inputs

/-- However the flows overlap, a session is there exactly as long as its token. A retirement is
requested with a token of a login that had a key, a challenge for it and that challenge signed;
it names the account of that key, or one that Freighter gave the dashboard after it. -/
theorem retirements_from_logins (inputs : List UiStep) :
    ((sessions.state inputs).authGuard = true ↔ (sessions.state inputs).token.isSome) ∧
    ∀ before event after, sessions.log inputs = before ++ event :: after →
      ∀ body token, event.output = some (.retireCredit body token) →
        ∃ i publicKey accessToken, token = some accessToken ∧
          IssuedTo before i publicKey accessToken ∧
          Shows before i publicKey body.buyerPublicKey := by
  refine ⟨?_, ?_⟩
  · have consistent := consistent_run inputs
    rw [Session.authGuard, decide_eq_true_iff, Option.isSome_iff_exists]
    constructor
    · intro session
      exact Option.ne_none_iff_exists'.mp (consistent.tokened session)
    · rintro ⟨token, held⟩
      exact (consistent.session token held).1
  · intro before event after split body token asked
    obtain ⟨earlier, later, -, logged, reached, commits⟩ := sessions.log_split split
    have consistent : Consistent before event.pre := by
      rw [← logged, ← reached]
      exact consistent_run earlier
    obtain ⟨s, step, ask, s'⟩ := event
    dsimp only at asked consistent
    have change : Change s s' step ask := change_of_exec commits
    cases change with
    | submit creditId tonnes reason session same =>
        cases asked
        obtain ⟨accessToken, held⟩ := Option.ne_none_iff_exists'.mp (consistent.tokened session)
        obtain ⟨-, i, publicKey, issued, shows_⟩ := consistent.session accessToken held
        exact ⟨i, publicKey, accessToken, held, issued, shows_⟩
    | turns _ _ _ _ _ _ _ _ _ _ asks =>
        rcases asks with ⟨_, _, _, -, -, -, is⟩ | ⟨_, _, -, -, -, is⟩ | ⟨-, is⟩ <;>
          cases is.symm.trans asked
    | keyed _ _ _ _ _ _ _ _ asks =>
        rcases asks with ⟨-, -, is⟩ | ⟨-, -, is⟩ <;> cases is.symm.trans asked
    | _ => cases asked

namespace Sample

/-- A user logs in and retires a credit. -/
def loginAndRetire : List UiStep :=
  [.login true, .reply 0 (.isConnected true), .reply 0 (.publicKey "GABC"),
   .reply 0 (.challenge "AAAA" "Test SDF Network ; September 2015"), .reply 0 (.signed "BBBB"),
   .reply 0 (.token "x.y.z"), .submit "C-1" "1000000" "2024 Scope 3 offset"]

end Sample

/-- The retirement names the account that logged in. -/
theorem loginAndRetire_from_login : ∃ before event,
    sessions.log Sample.loginAndRetire = before ++ [event] ∧
      ∃ i publicKey, IssuedTo before i publicKey "x.y.z" ∧
        Shows before i publicKey (some "GABC") := by
  obtain ⟨before, event, split, asked⟩ : ∃ before event,
      sessions.log Sample.loginAndRetire = before ++ event :: [] ∧
        event.output = some (.retireCredit
          ⟨some "GABC", "C-1", "1000000", "2024 Scope 3 offset"⟩ (some "x.y.z")) :=
    ⟨sessions.log Sample.loginAndRetire.dropLast, _, rfl, rfl⟩
  obtain ⟨i, publicKey, accessToken, same, issued, shows_⟩ :=
    (retirements_from_logins Sample.loginAndRetire).2 before event [] split _ _ asked
  cases same
  exact ⟨before, event, split, i, publicKey, issued, shows_⟩

end CarbonChain.Frontend
