import NodeConnect.Client.Permissions
import NodeConnect.Lib.Pool
import NodeConnect.Lib.Run

/-! The calls that a mobile app makes. Every namespace has a client, which `InitLNC` makes and
later calls look up. `ConnectServer` and `InvokeRPC` return at once and go on in goroutines, which
find the client, and what is in it, only when they get there. The mutex of a client makes every
access one step. -/
namespace NodeConnect.Client.Mobile
open Lib

inductive Callback where
  | localPrivCreate
  | remoteKeyReceive
  | authData
  deriving DecidableEq, Repr

structure Macaroon where
  id : Bytes
  caveats : List Bytes := []
  deriving DecidableEq, Repr

/-- `callbacks` says which of the callbacks are registered; to call one that is not, panics. Connections have
numbers. -/
structure MobileClient where
  lndConn : Option Nat := none
  statusChecker : Bool := false
  mac : Option Macaroon := none
  callbacks : Callback → Bool := fun _ => false

def newMobileClient : MobileClient := {}

namespace MobileClient

def Registered (mc : MobileClient) : Prop :=
  mc.callbacks .localPrivCreate = true ∧ mc.callbacks .remoteKeyReceive = true ∧ mc.callbacks .authData = true

instance registered_decidable (mc : MobileClient) : Decidable mc.Registered := inferInstanceAs (Decidable (_ ∧ _ ∧ _))

theorem registered_iff (mc : MobileClient) : mc.Registered ↔ ∀ callback, mc.callbacks callback = true := by
  constructor
  · rintro ⟨created,key,auth⟩ callback
    cases callback with
    | localPrivCreate => exact created
    | remoteKeyReceive => exact key
    | authData => exact auth
  · intro all
    exact ⟨all _,all _,all _⟩

end MobileClient

/-- Where the goroutine of `ConnectServer` is. It creates the mailbox client after it has looked up
its own, and its handshakes begin in `lndConnect`. -/
inductive ConnectPlace where
  | begun
  | creating (client : Nat)
  | dialing (client : Nat)
  | dialled (client conn : Nat)
  | stored (client conn : Nat)
  | failed
  deriving DecidableEq, Repr

def ConnectPlace.client : ConnectPlace → Option Nat
  | .creating client | .dialing client | .dialled client _ | .stored client _ => some client
  | .begun | .failed => none

structure Connect where
  nameSpace : String
  place : ConnectPlace := .begun
  deriving DecidableEq, Repr

/-- The goroutine of an `InvokeRPC`; `ran` is the connection that it has made the call with, and `callback` whether
it was given one. -/
structure Call where
  client : Nat
  callback : Bool
  ran : Option Nat := none
  deriving DecidableEq, Repr

/-- The variables of the package that the calls read, and what `ExpiryTime` finds in the caveats, in seconds. -/
structure Globals extends Environment where
  registry : List String
  expiryTime : List Bytes → Option Int

/-- `clients`, `connects`, `conns` and `calls` list all of them that were ever made; a connection is `true` while
it is open. -/
structure App where
  m : String → Option Nat := fun _ => none
  clients : List MobileClient := []
  connects : List Connect := []
  conns : List Bool := []
  calls : List Call := []
  panicked : Bool := false

inductive AppEvent where
  /-- `setupError` is the error of making the globals, the interceptor or the loggers, if there is one. -/
  | initLNC (nameSpace : String) (setupError : Option String)
  /-- A callback that is not `given` is nil. -/
  | register (nameSpace : String) (callback : Callback) (given : Bool)
  /-- `parseError` is the error of parsing the keys, if there is one. -/
  | connectServer (nameSpace mailboxServer localStatic remoteStatic : String) (parseError : Option String)
  | disconnect (nameSpace : String)
  | invokeRPC (nameSpace rpcName requestJSON : String) (given : Bool)
  | isConnected (nameSpace : String)
  /-- `current` is what the status checker returns, if it is called. -/
  | status (nameSpace current : String)
  | getExpiry (nameSpace : String)
  | isReadOnly (nameSpace : String)
  | hasPermissions (nameSpace permission : String)
  | getsClient (connect : Nat)
  | creates (connect : Nat)
  | createFails (connect : Nat)
  | dials (connect : Nat)
  | dialFails (connect : Nat)
  | stores (connect : Nat)
  /-- A handshake has read the key of the server. -/
  | remoteKey (connect : Nat)
  /-- A handshake has read the auth data, in which `mac` was found. -/
  | authData (connect : Nat) (mac : Option Macaroon)
  | callRuns (call : Nat)
  deriving DecidableEq, Repr

/-- What a call returns: an answer, or for most calls the state that they leave. -/
inductive Reply (α : Type) where
  | done (result : α)
  | error (text : String)
  | panics

namespace App

def getClient (s : App) (nameSpace : String) : Except String (Nat × MobileClient) :=
  match s.m nameSpace with
  | none => .error ("unknown namespace: " ++ nameSpace)
  | some i =>
    match s.clients[i]? with
    | none => .error ("unknown namespace: " ++ nameSpace)
    | some mc => .ok (i,mc)

def setClient (s : App) (i : Nat) (mc : MobileClient) : App := {s with clients := s.clients.set i mc}

/-- The calls that start with a look-up of the client. -/
def withClient {α : Type} (s : App) (nameSpace : String) (body : Nat → MobileClient → Reply α) : Reply α :=
  match s.getClient nameSpace with
  | .error text => .error ("error getting client: " ++ text)
  | .ok (i,mc) => body i mc

def addClient (s : App) (nameSpace : String) : App :=
  {s with clients := s.clients ++ [newMobileClient], m := Function.update s.m nameSpace (some s.clients.length)}

def initLNC (s : App) (nameSpace : String) (setupError : Option String) : Reply App :=
  if nameSpace = "" then .error "no namespace specified"
  else
    match setupError with
    | some text => .error text
    | none => .done (s.addClient nameSpace)

def register (callback : Callback) (s : App) (nameSpace : String) (given : Bool) : Reply App :=
  s.withClient nameSpace fun i mc =>
    .done (s.setClient i {mc with callbacks := Function.update mc.callbacks callback given})

def registerLocalPrivCreateCallback : App → String → Bool → Reply App := register .localPrivCreate

def registerRemoteKeyReceiveCallback : App → String → Bool → Reply App := register .remoteKeyReceive

def registerAuthDataCallback : App → String → Bool → Reply App := register .authData

def validateArgs (mailboxServer localPrivKey remotePubKey : String) : Option String :=
  if mailboxServer = "" then some "invalid use of ConnectServer, need parameter mailboxServer"
  else if remotePubKey ≠ "" ∧ localPrivKey = "" then some "cannot set remote pub key if local priv key is not also set"
  else none

/-- `parseKeys` creates a key if it gets none, and hands it to a callback. -/
def parseKeys (s : App) (nameSpace localPrivKey remotePubKey : String) (parseError : Option String) : Reply App :=
  s.withClient nameSpace fun _ mc =>
    if localPrivKey = "" ∧ remotePubKey = "" then
      if mc.callbacks .localPrivCreate then .done s else .panics
    else
      match parseError with
      | some text => .error text
      | none => .done s

def connectServer (s : App) (nameSpace mailboxServer localStatic remoteStatic : String) (parseError : Option String) :
    Reply App :=
  match validateArgs mailboxServer localStatic remoteStatic with
  | some text => .error text
  | none =>
    match s.parseKeys nameSpace localStatic remoteStatic parseError with
    | .done s => .done {s with connects := s.connects ++ [{nameSpace := nameSpace}]}
    | .error text => .error text
    | .panics => .panics

def disconnect (s : App) (nameSpace : String) : Reply App :=
  s.withClient nameSpace fun i mc =>
    match mc.lndConn with
    | none => .done s
    | some conn => .done {s.setClient i {mc with lndConn := none} with conns := s.conns.set conn false}

def invokeRPC (globals : Globals) (s : App) (nameSpace rpcName requestJSON : String) (given : Bool) : Reply App :=
  s.withClient nameSpace fun i mc =>
    if rpcName = "" then .error "param rpcName required"
    else if requestJSON = "" then .error "param requestJSON required"
    else if mc.lndConn = none then .error "RPC connection not ready"
    else if rpcName ∉ globals.registry then .error ("rpc with name " ++ rpcName ++ " not found")
    else .done {s with calls := s.calls ++ [{client := i, callback := given}]}

def isConnected (s : App) (nameSpace : String) : Reply Bool :=
  s.withClient nameSpace fun _ mc => .done mc.lndConn.isSome

def status (s : App) (nameSpace current : String) : Reply String :=
  s.withClient nameSpace fun _ mc => .done (if mc.statusChecker then current else "")

/-- The integer becomes a rune and then a character, which is not what its digits are. -/
def runeString (n : Int) : String :=
  let r := n.bmod (2 ^ 32)
  if 0 ≤ r ∧ r.toNat.isValidChar then String.singleton (Char.ofNat r.toNat) else "\uFFFD"

def getExpiry (globals : Globals) (s : App) (nameSpace : String) : Reply String :=
  s.withClient nameSpace fun _ mc =>
    match mc.mac with
    | none => .error "macaroon not obtained yet. GetExpiryshould only be called once the connection iscomplete"
    | some mac =>
      match globals.expiryTime mac.caveats with
      | none => .error "expiry not found"
      | some unix => .done (runeString unix)

def isReadOnly (globals : Globals) (s : App) (nameSpace : String) : Reply Bool :=
  s.withClient nameSpace fun _ mc =>
    match mc.mac with
    | none => .done false
    | some mac =>
      match extractMacaroonOps globals.unmarshal mac.id with
      | .error .indexOutOfRange => .panics
      | .error _ => .done false
      | .ok macOps => .done (Client.isReadOnly macOps)

def hasPermissions (globals : Globals) (s : App) (nameSpace permission : String) : Reply Bool :=
  s.withClient nameSpace fun _ mc =>
    match Mobile.HasPermissions globals.toEnvironment (mc.mac.map Macaroon.id) permission with
    | none => .panics
    | some result => .done result

def setConnect (s : App) (i : Nat) (connect : Connect) : App := {s with connects := s.connects.set i connect}

/-- The client whose callbacks the handshakes of the goroutine call. They run until the connection is closed. -/
def shaking (s : App) (i : Nat) : Option Nat :=
  match s.connects[i]?.map Connect.place with
  | some (.dialing client) => some client
  | some (.dialled client _) => some client
  | some (.stored client conn) => if s.conns[conn]? = some true then some client else none
  | _ => none

def ofReply (s : App) : Reply App → App
  | .done after => after
  | .error _ => s
  | .panics => {s with panicked := true}

/-- The state after a call that only reads. -/
def ofAnswer {α : Type} (s : App) : Reply α → App
  | .done _ | .error _ => s
  | .panics => {s with panicked := true}

def step (globals : Globals) (s : App) (event : AppEvent) : Option App :=
  if s.panicked then none
  else
    match event with
    | .initLNC nameSpace setupError => some (s.ofReply (s.initLNC nameSpace setupError))
    | .register nameSpace .localPrivCreate given => some (s.ofReply (s.registerLocalPrivCreateCallback nameSpace given))
    | .register nameSpace .remoteKeyReceive given => some (s.ofReply (s.registerRemoteKeyReceiveCallback nameSpace given))
    | .register nameSpace .authData given => some (s.ofReply (s.registerAuthDataCallback nameSpace given))
    | .connectServer nameSpace mailboxServer localStatic remoteStatic parseError =>
      some (s.ofReply (s.connectServer nameSpace mailboxServer localStatic remoteStatic parseError))
    | .disconnect nameSpace => some (s.ofReply (s.disconnect nameSpace))
    | .invokeRPC nameSpace rpcName requestJSON given =>
      some (s.ofReply (s.invokeRPC globals nameSpace rpcName requestJSON given))
    | .isConnected nameSpace => some (s.ofAnswer (s.isConnected nameSpace))
    | .status nameSpace current => some (s.ofAnswer (s.status nameSpace current))
    | .getExpiry nameSpace => some (s.ofAnswer (s.getExpiry globals nameSpace))
    | .isReadOnly nameSpace => some (s.ofAnswer (s.isReadOnly globals nameSpace))
    | .hasPermissions nameSpace permission => some (s.ofAnswer (s.hasPermissions globals nameSpace permission))
    | .getsClient i =>
      match s.connects[i]? with
      | some ⟨nameSpace,.begun⟩ =>
        match s.getClient nameSpace with
        | .error _ => some (s.setConnect i ⟨nameSpace,.failed⟩)
        | .ok (client,_) => some (s.setConnect i ⟨nameSpace,.creating client⟩)
      | _ => none
    | .creates i =>
      match s.connects[i]? with
      | some ⟨nameSpace,.creating client⟩ =>
        match s.clients[client]? with
        | none => none
        | some mc => some ((s.setClient client {mc with statusChecker := true}).setConnect i ⟨nameSpace,.dialing client⟩)
      | _ => none
    | .createFails i =>
      match s.connects[i]? with
      | some ⟨nameSpace,.creating _⟩ => some (s.setConnect i ⟨nameSpace,.failed⟩)
      | _ => none
    | .dials i =>
      match s.connects[i]? with
      | some ⟨nameSpace,.dialing client⟩ =>
        some {s.setConnect i ⟨nameSpace,.dialled client s.conns.length⟩ with conns := s.conns ++ [true]}
      | _ => none
    | .dialFails i =>
      match s.connects[i]? with
      | some ⟨nameSpace,.dialing _⟩ => some (s.setConnect i ⟨nameSpace,.failed⟩)
      | _ => none
    | .stores i =>
      match s.connects[i]? with
      | some ⟨nameSpace,.dialled client conn⟩ =>
        match s.clients[client]? with
        | none => none
        | some mc => some ((s.setClient client {mc with lndConn := some conn}).setConnect i ⟨nameSpace,.stored client conn⟩)
      | _ => none
    | .remoteKey i =>
      match (s.shaking i).bind (s.clients[·]?) with
      | none => none
      | some mc => some (if mc.callbacks .remoteKeyReceive then s else {s with panicked := true})
    | .authData i mac =>
      match (s.shaking i).bind fun client => (s.clients[client]?).map (client,·), mac with
      | none, _ => none
      | some _, none => some s
      | some (client,mc), some mac =>
        let s := s.setClient client {mc with mac := some mac}
        some (if mc.callbacks .authData then s else {s with panicked := true})
    | .callRuns j =>
      match s.calls[j]? with
      | some ⟨client,callback,none⟩ =>
        match (s.clients[client]?).bind MobileClient.lndConn with
        -- The generated client calls a method of the connection, which is nil.
        | none => some {s with panicked := true}
        | some conn =>
          -- It hands the result, or the error, to the callback.
          let s := {s with calls := s.calls.set j ⟨client,callback,some conn⟩}
          some (if callback then s else {s with panicked := true})
      | _ => none

/-! ### What a step does -/

variable {globals : Globals} {s s' : App} {event : AppEvent}

/-- The client that the namespace has now. -/
def Has (s : App) (nameSpace : String) (i : Nat) (mc : MobileClient) : Prop :=
  s.m nameSpace = some i ∧ s.clients[i]? = some mc

theorem getClient_ok {nameSpace : String} {i : Nat} {mc : MobileClient} (found : s.getClient nameSpace = .ok (i,mc)) :
    s.Has nameSpace i mc := by
  unfold getClient at found
  split at found
  · contradiction
  · rename_i j known
    split at found
    · contradiction
    · rename_i client at_
      cases found
      exact ⟨known,at_⟩

inductive Change (s : App) : AppEvent → App → Prop
  /-- An error, or nothing to be changed. -/
  | none (event : AppEvent) : Change s event s
  | inits (nameSpace : String) (setupError : Option String) :
    Change s (.initLNC nameSpace setupError) (s.addClient nameSpace)
  | registers {nameSpace : String} (callback : Callback) (given : Bool) {i : Nat} {mc : MobileClient}
    (has : s.Has nameSpace i mc) :
    Change s (.register nameSpace callback given)
      (s.setClient i {mc with callbacks := Function.update mc.callbacks callback given})
  | connects {nameSpace mailboxServer localStatic remoteStatic : String} {parseError : Option String} {i : Nat}
    {mc : MobileClient}
    (has : s.Has nameSpace i mc) :
    Change s (.connectServer nameSpace mailboxServer localStatic remoteStatic parseError)
      {s with connects := s.connects ++ [{nameSpace := nameSpace}]}
  | connectPanics {nameSpace mailboxServer : String} {parseError : Option String} {i : Nat} {mc : MobileClient}
    (has : s.Has nameSpace i mc) (missing : mc.callbacks .localPrivCreate = false) :
    Change s (.connectServer nameSpace mailboxServer "" "" parseError) {s with panicked := true}
  | disconnects {nameSpace : String} {i conn : Nat} {mc : MobileClient} (has : s.Has nameSpace i mc)
    (stored : mc.lndConn = some conn) :
    Change s (.disconnect nameSpace) {s.setClient i {mc with lndConn := Option.none} with conns := s.conns.set conn false}
  | invokes {nameSpace rpcName requestJSON : String} {given : Bool} {i : Nat} {mc : MobileClient}
    (has : s.Has nameSpace i mc) (connected : mc.lndConn ≠ Option.none) :
    Change s (.invokeRPC nameSpace rpcName requestJSON given)
      {s with calls := s.calls ++ [{client := i, callback := given}]}
  | asksPanics {event : AppEvent} {i : Nat} {mc : MobileClient} {mac : Macaroon} (at_ : s.clients[i]? = some mc)
    (obtained : mc.mac = some mac) (empty : mac.id = []) : Change s event {s with panicked := true}
  | gets {j : Nat} {nameSpace : String} {i : Nat} {mc : MobileClient} (found : s.connects[j]? = some ⟨nameSpace,.begun⟩)
    (has : s.Has nameSpace i mc) : Change s (.getsClient j) (s.setConnect j ⟨nameSpace,.creating i⟩)
  | creates {j : Nat} {nameSpace : String} {i : Nat} {mc : MobileClient}
    (found : s.connects[j]? = some ⟨nameSpace,.creating i⟩) (at_ : s.clients[i]? = some mc) :
    Change s (.creates j) ((s.setClient i {mc with statusChecker := true}).setConnect j ⟨nameSpace,.dialing i⟩)
  | createFails {j : Nat} {nameSpace : String} {i : Nat} (found : s.connects[j]? = some ⟨nameSpace,.creating i⟩) :
    Change s (.createFails j) (s.setConnect j ⟨nameSpace,.failed⟩)
  | getFails {j : Nat} {nameSpace : String} (found : s.connects[j]? = some ⟨nameSpace,.begun⟩) :
    Change s (.getsClient j) (s.setConnect j ⟨nameSpace,.failed⟩)
  | dials {j : Nat} {nameSpace : String} {i : Nat} (found : s.connects[j]? = some ⟨nameSpace,.dialing i⟩) :
    Change s (.dials j) {s.setConnect j ⟨nameSpace,.dialled i s.conns.length⟩ with conns := s.conns ++ [true]}
  | dialFails {j : Nat} {nameSpace : String} {i : Nat} (found : s.connects[j]? = some ⟨nameSpace,.dialing i⟩) :
    Change s (.dialFails j) (s.setConnect j ⟨nameSpace,.failed⟩)
  | stores {j : Nat} {nameSpace : String} {i conn : Nat} {mc : MobileClient}
    (found : s.connects[j]? = some ⟨nameSpace,.dialled i conn⟩) (at_ : s.clients[i]? = some mc) :
    Change s (.stores j) ((s.setClient i {mc with lndConn := some conn}).setConnect j ⟨nameSpace,.stored i conn⟩)
  | keyPanics {j i : Nat} {mc : MobileClient} (shaking : s.shaking j = some i) (at_ : s.clients[i]? = some mc)
    (missing : mc.callbacks .remoteKeyReceive = false) : Change s (.remoteKey j) {s with panicked := true}
  | auths {j i : Nat} {mc : MobileClient} {mac : Macaroon} (shaking : s.shaking j = some i) (at_ : s.clients[i]? = some mc) :
    Change s (.authData j (some mac)) (s.setClient i {mc with mac := some mac})
  | authPanics {j i : Nat} {mc : MobileClient} {mac : Macaroon} (shaking : s.shaking j = some i)
    (at_ : s.clients[i]? = some mc) (missing : mc.callbacks .authData = false) :
    Change s (.authData j (some mac)) {s.setClient i {mc with mac := some mac} with panicked := true}
  | runs {j i conn : Nat} {callback : Bool} (found : s.calls[j]? = some ⟨i,callback,Option.none⟩) :
    Change s (.callRuns j) {s with calls := s.calls.set j ⟨i,callback,some conn⟩}
  | resultPanics {j i conn : Nat} (found : s.calls[j]? = some ⟨i,false,Option.none⟩) :
    Change s (.callRuns j) {s with calls := s.calls.set j ⟨i,false,some conn⟩, panicked := true}
  | runPanics {j i : Nat} {callback : Bool} (found : s.calls[j]? = some ⟨i,callback,Option.none⟩)
    (unconnected : (s.clients[i]?).bind MobileClient.lndConn = Option.none) : Change s (.callRuns j) {s with panicked := true}

/-- What the calls that look up the client can do. -/
theorem change_withClient {nameSpace : String} {body : Nat → MobileClient → Reply App}
    (changes : ∀ i mc, s.Has nameSpace i mc → s.Change event (s.ofReply (body i mc))) :
    s.Change event (s.ofReply (s.withClient nameSpace body)) := by
  unfold withClient
  split
  · exact .none _
  · rename_i i mc found
    exact changes i mc (getClient_ok found)

theorem asks_change {α : Type} {nameSpace : String} {body : Nat → MobileClient → Reply α}
    (panics : ∀ i mc, body i mc = .panics → ∃ mac, mc.mac = some mac ∧ mac.id = []) :
    s.Change event (s.ofAnswer (s.withClient nameSpace body)) := by
  unfold withClient
  split
  · exact .none _
  · rename_i i mc found
    cases answer : body i mc with
    | done result => exact .none _
    | error text => exact .none _
    | panics =>
      obtain ⟨mac,obtained,empty⟩ := panics i mc answer
      exact .asksPanics (getClient_ok found).2 obtained empty

theorem connectServer_change {nameSpace mailboxServer localStatic remoteStatic : String} {parseError : Option String} :
    s.Change (.connectServer nameSpace mailboxServer localStatic remoteStatic parseError)
      (s.ofReply (s.connectServer nameSpace mailboxServer localStatic remoteStatic parseError)) := by
  unfold connectServer parseKeys withClient
  split
  · exact .none _
  · cases found : s.getClient nameSpace with
    | error text => exact .none _
    | ok result =>
      have has := getClient_ok found
      dsimp only
      by_cases fresh : localStatic = "" ∧ remoteStatic = ""
      · obtain ⟨rfl,rfl⟩ := fresh
        cases registered : result.2.callbacks .localPrivCreate with
        | true => exact .connects has
        | false => exact .connectPanics has registered
      · rw [if_neg fresh]
        cases parseError with
        | none => exact .connects has
        | some text => exact .none _

theorem step_change (stepped : step globals s event = some s') : s.panicked = false ∧ s.Change event s' := by
  obtain ⟨running,stepped⟩ := Option.ite_none_left_eq_some.mp stepped
  refine ⟨by simpa using running,?_⟩
  cases event with
  | initLNC nameSpace setupError =>
    cases stepped
    unfold initLNC
    split
    · exact .none _
    · split
      · exact .none _
      · exact .inits nameSpace _
  | register nameSpace callback given =>
    cases callback with
    | localPrivCreate | remoteKeyReceive | authData =>
      cases stepped
      exact change_withClient fun i mc has => .registers _ given has
  | connectServer =>
    cases stepped
    exact connectServer_change
  | disconnect nameSpace =>
    cases stepped
    refine change_withClient fun i mc has => ?_
    split
    · exact .none _
    · rename_i conn stored
      exact .disconnects has stored
  | invokeRPC nameSpace rpcName requestJSON given =>
    cases stepped
    refine change_withClient fun i mc has => ?_
    split_ifs with _ _ unconnected
    · exact .none _
    · exact .none _
    · exact .none _
    · exact .invokes has unconnected
    · exact .none _
  | isConnected | status =>
    cases stepped
    exact asks_change fun i mc panics => by cases panics
  | getExpiry nameSpace =>
    cases stepped
    refine asks_change fun i mc panics => ?_
    split at panics
    · cases panics
    · split at panics <;> cases panics
  | isReadOnly nameSpace =>
    cases stepped
    refine asks_change fun i mc panics => ?_
    split at panics
    · cases panics
    · rename_i mac obtained
      split at panics
      · rename_i extracted
        exact ⟨mac,obtained,extractMacaroonOps_panics extracted⟩
      · cases panics
      · cases panics
  | hasPermissions nameSpace permission =>
    cases stepped
    refine asks_change fun i mc panics => ?_
    split at panics
    · rename_i asked
      obtain ⟨mac,obtained,empty⟩ := Option.map_eq_some_iff.mp (Mobile.HasPermissions_panics asked)
      exact ⟨mac,obtained,empty⟩
    · cases panics
  | getsClient j =>
    dsimp only at stepped
    split at stepped
    · rename_i nameSpace found
      split at stepped
      · cases stepped
        exact .getFails found
      · rename_i i mc got
        cases stepped
        exact .gets found (getClient_ok got)
    · contradiction
  | creates j =>
    dsimp only at stepped
    split at stepped
    · rename_i nameSpace i found
      split at stepped
      · contradiction
      · rename_i mc at_
        cases stepped
        exact .creates found at_
    · contradiction
  | createFails j =>
    dsimp only at stepped
    split at stepped
    · rename_i nameSpace i found
      cases stepped
      exact .createFails found
    · contradiction
  | dials j =>
    dsimp only at stepped
    split at stepped
    · rename_i nameSpace i found
      cases stepped
      exact .dials found
    · contradiction
  | dialFails j =>
    dsimp only at stepped
    split at stepped
    · rename_i nameSpace i found
      cases stepped
      exact .dialFails found
    · contradiction
  | stores j =>
    dsimp only at stepped
    split at stepped
    · rename_i nameSpace i conn found
      split at stepped
      · contradiction
      · rename_i mc at_
        cases stepped
        exact .stores found at_
    · contradiction
  | remoteKey j =>
    dsimp only at stepped
    split at stepped
    · contradiction
    · rename_i mc bound
      obtain ⟨i,shaking,at_⟩ := Option.bind_eq_some_iff.mp bound
      cases stepped
      cases registered : mc.callbacks .remoteKeyReceive with
      | true => exact .none _
      | false => exact .keyPanics shaking at_ registered
  | authData j mac =>
    dsimp only at stepped
    split at stepped
    · contradiction
    · cases stepped
      exact .none _
    · rename_i i mc mac bound _
      obtain ⟨_,shaking,mapped⟩ := Option.bind_eq_some_iff.mp bound
      obtain ⟨_,at_,⟨⟩⟩ := Option.map_eq_some_iff.mp mapped
      cases stepped
      cases registered : mc.callbacks .authData with
      | true => exact .auths shaking at_
      | false => exact .authPanics shaking at_ registered
  | callRuns j =>
    dsimp only at stepped
    split at stepped
    · rename_i i callback found
      split at stepped
      · rename_i unconnected
        cases stepped
        exact .runPanics found unconnected
      · cases stepped
        cases callback with
        | true => exact .runs found
        | false => exact .resultPanics found
    · contradiction

/-! ### Panics -/

variable {i : Nat} {mc : MobileClient}

/-- A namespace is initialised once. No callback is nil, and they are registered before the first `ConnectServer`. No
`Disconnect` comes between an `InvokeRPC` and the goroutine that it starts, and no macaroon comes with an empty ID. -/
def Prepared (s : App) : AppEvent → Prop
  | .initLNC nameSpace _ => s.m nameSpace = none
  | .register _ _ given | .invokeRPC _ _ _ given => given = true
  | .authData _ mac => ∀ found ∈ mac, found.id ≠ []
  | .connectServer nameSpace _ _ _ _ => ∀ mc ∈ (s.m nameSpace).bind (s.clients[·]?), mc.Registered
  | .disconnect nameSpace => ∀ call ∈ s.calls, s.m nameSpace = some call.client → call.ran ≠ none
  | _ => True

instance prepared_decidable (s : App) : (event : AppEvent) → Decidable (s.Prepared event)
  | .initLNC _ _ | .register _ _ _ | .invokeRPC _ _ _ _ | .authData _ _ | .connectServer _ _ _ _ _ | .disconnect _ => by
    unfold Prepared; infer_instance
  | .isConnected _ | .status _ _ | .getExpiry _ | .isReadOnly _ | .hasPermissions _ _ | .getsClient _ | .creates _
  | .createFails _ | .dials _ | .dialFails _ | .stores _ | .remoteKey _ | .callRuns _ => isTrue trivial

/-- The goroutine works for the client that its namespace has, and all callbacks of that client are registered. -/
def Served (s : App) (a : Connect) : Prop :=
  ∃ i mc, s.Has a.nameSpace i mc ∧ mc.Registered ∧ ∀ client, a.place.client = some client → client = i

/-- The client of a call that has not run yet has a connection. -/
def Waits (s : App) (call : Call) : Prop :=
  call.ran = none → ∃ mc, s.clients[call.client]? = some mc ∧ mc.lndConn ≠ none

def MobileClient.Identified (mc : MobileClient) : Prop := ∀ mac, mc.mac = some mac → mac.id ≠ []

structure Safe (s : App) : Prop where
  running : s.panicked = false
  identified : ∀ mc ∈ s.clients, MobileClient.Identified mc
  served : ∀ a ∈ s.connects, s.Served a
  called : ∀ call ∈ s.calls, call.callback = true
  waiting : ∀ call ∈ s.calls, s.Waits call

/-- What a goroutine works for stays, where one client of the namespace changes without losing a callback. -/
theorem Served.setClient {a : Connect} (served : s.Served a) (at_ : s.clients[i]? = some mc) {moved : MobileClient}
    (kept : mc.Registered → moved.Registered) : (s.setClient i moved).Served a := by
  obtain ⟨j,mc',has,registered,works⟩ := served
  by_cases same : j = i
  · subst same
    cases Option.some.inj (at_.symm.trans has.2)
    exact ⟨j,moved,⟨has.1,Pool.getElem?_moved at_ moved⟩,kept registered,works⟩
  · exact ⟨j,mc',⟨has.1,Pool.getElem?_unmoved has.2 same moved⟩,registered,works⟩

theorem Waits.setClient {call : Call} (waits : s.Waits call) (at_ : s.clients[i]? = some mc) {moved : MobileClient}
    (kept : mc.lndConn ≠ none → moved.lndConn ≠ none) : (s.setClient i moved).Waits call := by
  intro unrun
  obtain ⟨mc',found,connected⟩ := waits unrun
  by_cases same : call.client = i
  · subst same
    cases Option.some.inj (at_.symm.trans found)
    exact ⟨moved,Pool.getElem?_moved at_ moved,kept connected⟩
  · exact ⟨mc',Pool.getElem?_unmoved found same moved,connected⟩

theorem Safe.setClient (safe : s.Safe) (at_ : s.clients[i]? = some mc) {moved : MobileClient}
    (identified : MobileClient.Identified mc → MobileClient.Identified moved)
    (registered : mc.Registered → moved.Registered) (connected : mc.lndConn ≠ none → moved.lndConn ≠ none) :
    (s.setClient i moved).Safe where
  running := safe.running
  identified := Pool.forall_move safe.identified i (identified (safe.identified mc (List.mem_of_getElem? at_)))
  served a member := (safe.served a member).setClient at_ registered
  called := safe.called
  waiting call member := (safe.waiting call member).setClient at_ connected

/-- A goroutine moves on, with the client that its namespace has. -/
theorem Safe.setConnect (safe : s.Safe) (j : Nat) {a : Connect} (served : s.Served a) : (s.setConnect j a).Safe :=
  {safe with served := Pool.forall_move safe.served j served}

theorem Served.place {nameSpace : String} {place place' : ConnectPlace} (served : s.Served ⟨nameSpace,place⟩)
    (same : ∀ client, place'.client = some client → place.client = some client) : s.Served ⟨nameSpace,place'⟩ := by
  obtain ⟨i,mc,has,registered,works⟩ := served
  exact ⟨i,mc,has,registered,fun client at_ => works client (same client at_)⟩

theorem Safe.addClient (safe : s.Safe) {nameSpace : String} (fresh : s.m nameSpace = none) : (s.addClient nameSpace).Safe := by
  refine ⟨safe.running,?_,?_,safe.called,?_⟩
  · intro mc member
    rcases List.mem_append.mp member with before | new
    · exact safe.identified mc before
    · rw [List.mem_singleton.mp new]
      exact fun mac obtained => by cases obtained
  · intro a member
    obtain ⟨i,mc,⟨known,at_⟩,registered,works⟩ := safe.served a member
    have apart : a.nameSpace ≠ nameSpace := by
      intro same
      rw [same,fresh] at known
      contradiction
    refine ⟨i,mc,⟨?_,Pool.getElem?_start at_ _⟩,registered,works⟩
    simpa [App.addClient,Function.update_of_ne apart] using known
  · intro call member unrun
    obtain ⟨mc,at_,connected⟩ := safe.waiting call member unrun
    exact ⟨mc,Pool.getElem?_start at_ _,connected⟩

theorem client_of_shaking {j : Nat} (shaking : s.shaking j = some i) : ∃ a ∈ s.connects, a.place.client = some i := by
  unfold App.shaking at shaking
  cases found : s.connects[j]? with
  | none => simp [found] at shaking
  | some a =>
    refine ⟨a,List.mem_of_getElem? found,?_⟩
    cases place : a.place with
    | begun | failed => simp [found,place] at shaking
    | creating client => simp [found,place] at shaking
    | dialing client | dialled client => simpa [found,place,ConnectPlace.client] using shaking
    | stored client conn =>
      simp only [found,place,Option.map_some] at shaking
      exact (Option.ite_none_right_eq_some.mp shaking).2

/-- Every handshake calls the callbacks of a client that has them. -/
theorem Safe.callback (safe : s.Safe) {j : Nat} (shaking : s.shaking j = some i) (at_ : s.clients[i]? = some mc)
    (callback : Callback) : mc.callbacks callback = true := by
  obtain ⟨a,member,client⟩ := client_of_shaking shaking
  obtain ⟨j,mc',has,registered,works⟩ := safe.served a member
  cases works i client
  cases Option.some.inj (at_.symm.trans has.2)
  exact (mc.registered_iff.mp registered) callback

theorem Safe.change (safe : s.Safe) (prepared : s.Prepared event) (change : s.Change event s') : s'.Safe := by
  cases change with
  | none => exact safe
  | inits nameSpace => exact safe.addClient prepared
  | registers callback given has =>
    obtain rfl : given = true := prepared
    refine safe.setClient has.2 id (fun registered => ?_) id
    rw [MobileClient.registered_iff] at registered ⊢
    intro other
    by_cases same : other = callback
    · simp [same]
    · simp [Function.update_of_ne same,registered other]
  | @connects nameSpace _ _ _ _ i mc has =>
    have registered : mc.Registered := prepared mc (Option.bind_eq_some_iff.mpr ⟨i,has⟩)
    refine {safe with served := ?_}
    intro a member
    rcases List.mem_append.mp member with before | new
    · exact safe.served a before
    · rw [List.mem_singleton.mp new]
      exact ⟨i,mc,has,registered,by simp [ConnectPlace.client]⟩
  | @connectPanics nameSpace _ _ i mc has missing =>
    have registered : mc.Registered := prepared mc (Option.bind_eq_some_iff.mpr ⟨i,has⟩)
    rw [mc.registered_iff.mp registered] at missing
    contradiction
  | @disconnects nameSpace i conn mc has stored =>
    have client := safe.identified mc (List.mem_of_getElem? has.2)
    refine ⟨safe.running,Pool.forall_move safe.identified i client,
      fun a member => (safe.served a member).setClient has.2 id,safe.called,?_⟩
    intro call member unrun
    obtain ⟨mc',at_,connected⟩ := safe.waiting call member unrun
    have apart : call.client ≠ i := by
      intro same
      exact prepared call member (same ▸ has.1) unrun
    exact ⟨mc',Pool.getElem?_unmoved at_ apart _,connected⟩
  | invokes has connected =>
    refine {safe with called := ?_, waiting := ?_}
    · intro call member
      rcases List.mem_append.mp member with before | new
      · exact safe.called call before
      · rw [List.mem_singleton.mp new]
        exact prepared
    · intro call member
      rcases List.mem_append.mp member with before | new
      · exact safe.waiting call before
      · rw [List.mem_singleton.mp new]
        exact fun _ => ⟨_,has.2,connected⟩
  | asksPanics at_ obtained empty => exact absurd empty (safe.identified _ (List.mem_of_getElem? at_) _ obtained)
  | gets found has =>
    obtain ⟨j,mc',has',registered,_⟩ := safe.served _ (List.mem_of_getElem? found)
    refine safe.setConnect _ ⟨j,mc',has',registered,?_⟩
    rintro client ⟨⟩
    exact Option.some.inj (has.1.symm.trans has'.1)
  | getFails found | createFails found | dialFails found =>
    exact safe.setConnect _ ((safe.served _ (List.mem_of_getElem? found)).place (by simp [ConnectPlace.client]))
  | @creates j nameSpace i mc found at_ =>
    have after : (s.setClient i {mc with statusChecker := true}).Safe := safe.setClient at_ id id id
    exact after.setConnect j ((after.served _ (List.mem_of_getElem? found)).place (by simp [ConnectPlace.client]))
  | @dials j nameSpace i found =>
    have after : (s.setConnect j ⟨nameSpace,.dialled i s.conns.length⟩).Safe :=
      safe.setConnect j ((safe.served _ (List.mem_of_getElem? found)).place (by simp [ConnectPlace.client]))
    exact {after with}
  | @stores j nameSpace i conn mc found at_ =>
    have after : (s.setClient i {mc with lndConn := some conn}).Safe := safe.setClient at_ id id (by simp)
    exact after.setConnect j ((after.served _ (List.mem_of_getElem? found)).place (by simp [ConnectPlace.client]))
  | keyPanics shaking at_ missing =>
    rw [safe.callback shaking at_] at missing
    contradiction
  | auths _ at_ =>
    refine safe.setClient at_ (fun _ => ?_) id id
    rintro mac ⟨⟩
    exact prepared _ rfl
  | authPanics shaking at_ missing =>
    rw [safe.callback shaking at_] at missing
    contradiction
  | runs found =>
    have called := safe.called _ (List.mem_of_getElem? found)
    refine {safe with called := Pool.forall_move safe.called _ called, waiting := Pool.forall_move safe.waiting _ ?_}
    simp [Waits]
  | resultPanics found => exact absurd (safe.called _ (List.mem_of_getElem? found)) Bool.false_ne_true
  | runPanics found unconnected =>
    obtain ⟨mc,at_,connected⟩ := safe.waiting _ (List.mem_of_getElem? found) rfl
    simp [at_,connected] at unconnected

/-- An app that initialises each namespace once, registers the callbacks before it connects, does not disconnect
between an RPC and the goroutine of that RPC, and gets no macaroon with an empty ID, never panics, however the
goroutines interleave. -/
theorem never_panics {events : List AppEvent} (reached : run (step globals) {} events = some s)
    (prepared : Along (step globals) Prepared {} events) : s.panicked = false := by
  have safe := along_invariant (step globals) Prepared Safe
    (fun _ _ _ safe prepared stepped => safe.change prepared (step_change stepped).2) events {} s
    ⟨rfl,by simp,by simp,by simp,by simp⟩ prepared reached
  exact safe.running

/-- The package with one RPC and one URI, where every macaroon permits to read. -/
def plainGlobals : Globals where
  unmarshal _ := some [⟨"info",["read"]⟩]
  jsonCBRegex := id
  uriPermissions uri := if uri = "lnrpc.State.GetState" then some [⟨"info","read"⟩] else none
  registry := ["lnrpc.State.GetState"]
  expiryTime _ := some 1700000000

def registersAll : List AppEvent :=
  [.register "lnc" .localPrivCreate true,.register "lnc" .remoteKeyReceive true,.register "lnc" .authData true]

/-- A first session: the key is made, the handshake calls both callbacks, the app asks about the macaroon, and an RPC is
made before the end. -/
def firstSession : List AppEvent :=
  List.flatten [[.initLNC "lnc" none],registersAll,[.connectServer "lnc" "mailbox" "" "" none,.getsClient 0,.creates 0],
    [.remoteKey 0,.authData 0 (some ⟨[3],[]⟩),.dials 0,.stores 0,.isConnected "lnc",.status "lnc" "Connected",
      .getExpiry "lnc"],
    [.isReadOnly "lnc",.hasPermissions "lnc" "lnrpc.State.GetState"],
    [.invokeRPC "lnc" "lnrpc.State.GetState" "x" true,.callRuns 0,.disconnect "lnc"]]

theorem never_panics_session : ∃ s, run (step plainGlobals) {} firstSession = some s ∧
    s.conns = [false] ∧ s.panicked = false := by
  have prepared : Along (step plainGlobals) Prepared {} firstSession := by decide +kernel
  have found : ∃ s ∈ run (step plainGlobals) {} firstSession, s.conns = [false] := by decide +kernel
  obtain ⟨s,reached,closed⟩ := found
  exact ⟨s,reached,closed,never_panics reached prepared⟩

-- A `Disconnect` before the goroutine of an RPC has started.
example : (run (step plainGlobals) {} (List.flatten [[.initLNC "lnc" none,.connectServer "lnc" "mailbox" "01" "" none],
    [.getsClient 0,.creates 0,.dials 0,.stores 0,.invokeRPC "lnc" "lnrpc.State.GetState" "x" true,.disconnect "lnc"],
    [.callRuns 0]])).map App.panicked = some true := by
  decide +kernel

-- A server sends a macaroon with an empty ID.
example : (run (step plainGlobals) {} (List.flatten [[.initLNC "lnc" none],registersAll,
    [.connectServer "lnc" "mailbox" "01" "" none,.getsClient 0,.creates 0,.authData 0 (some ⟨[],[]⟩),.isReadOnly "lnc"]])).map
      App.panicked = some true := by
  decide +kernel

end App

end NodeConnect.Client.Mobile
