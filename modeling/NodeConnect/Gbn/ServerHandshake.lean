import NodeConnect.Gbn.ArbitraryPeer

/-! The server's handshake, from the first SYN to the call of `setN`. The packets are
whatever arrives, a timeout may fire whenever the server waits for a SYNACK, and the
context is not cancelled. The window is the `N` of the last SYN, for any byte. -/
namespace NodeConnect.Gbn
open Lib

inductive HandshakeError where
  /-- `io.EOF`, from the parser or for a message that is not expected. -/
  | eof
  | sendToStream
  | recvFromStream
  deriving DecidableEq, Repr

inductive HandshakePlace where
  | waitSYN
  | waitSYNACK
  | complete
  | failed (err : HandshakeError)
  deriving DecidableEq, Repr

structure ServerHandshake where
  n : UInt8
  resent : Bool
  place : HandshakePlace
  sent : List Bytes
  deriving DecidableEq, Repr

inductive HandshakeEvent where
  /-- `sendOk` is what a send in answer to the packet comes back with. -/
  | packet (bytes : Bytes) (sendOk : Bool)
  | timeout
  | recvError
  deriving DecidableEq, Repr

namespace ServerHandshake

def start : ServerHandshake := ⟨0,false,.waitSYN,[]⟩

def recvClientSYN (h : ServerHandshake) (n : UInt8) (sendOk : Bool) : ServerHandshake :=
  if sendOk then {h with n := n, place := .waitSYNACK, sent := h.sent ++ [serialize (.syn n)]}
  else {h with n := n, place := .failed .sendToStream}

def step (h : ServerHandshake) (event : HandshakeEvent) : Option ServerHandshake :=
  match h.place, event with
  | .waitSYN, .packet bytes sendOk =>
    match deserialize bytes with
    | .error _ => some {h with place := .failed .eof}
    | .ok (.syn n) => some (h.recvClientSYN n sendOk)
    | .ok (.synack) | .ok (.data _) => if h.resent then some {h with place := .complete} else some h
    | .ok _ => some h
  | .waitSYNACK, .packet bytes sendOk =>
    match deserialize bytes with
    | .error _ => some {h with place := .failed .eof}
    | .ok (.synack) => some {h with place := .complete}
    | .ok (.syn n) => some ({h with resent := true}.recvClientSYN n sendOk)
    | .ok _ => some {h with place := .failed .eof}
  | .waitSYNACK, .timeout => some {h with resent := true, place := .waitSYN}
  -- The wait for a SYN does not look at `errChan`.
  | .waitSYNACK, .recvError => some {h with place := .failed .recvFromStream}
  | _, _ => none

end ServerHandshake

def DefaultN : UInt8 := 20

def Endpoint.setN (e : Endpoint) (n : UInt8) : Endpoint :=
  {e with n := n, s := n + 1, recvDataChan := [], queue := newQueue (n + 1)}

/-- The connection that `NewServerConn` starts, once its handshake is complete. -/
def serverHandshake (events : List HandshakeEvent) : Option Endpoint := do
  let h ← run ServerHandshake.step .start events
  if h.place = .complete then return (newEndpoint DefaultN).setN h.n else none

def HandshakeEvent.syn : HandshakeEvent → Option UInt8
  | .packet bytes _ =>
    match deserialize bytes with
    | .ok (.syn n) => some n
    | _ => none
  | _ => none

def lastSYN (events : List HandshakeEvent) : Option UInt8 := (events.filterMap HandshakeEvent.syn).getLast?

namespace ServerHandshake

def Heard (h : ServerHandshake) : Prop := h.resent = true ∨ h.place = .waitSYNACK ∨ h.place = .complete

theorem recvClientSYN_n (h : ServerHandshake) (n : UInt8) (sendOk : Bool) : (h.recvClientSYN n sendOk).n = n := by
  unfold recvClientSYN
  split <;> rfl

theorem step_n (h next : ServerHandshake) (event : HandshakeEvent) (stepped : h.step event = some next) :
    next.n = event.syn.getD h.n ∧ (next.Heard → h.Heard ∨ event.syn.isSome) := by
  unfold step at stepped
  split at stepped
  next bytes sendOk waiting =>
    cases parsed : deserialize bytes with
    | error fault =>
      simp only [parsed,Option.some.injEq] at stepped
      subst stepped
      simp +contextual [HandshakeEvent.syn,parsed,Heard]
    | ok message =>
      cases message <;> simp only [parsed] at stepped
      case syn n =>
        cases stepped
        simp [HandshakeEvent.syn,parsed,recvClientSYN_n]
      all_goals
        first
        | split at stepped <;> cases stepped <;> simp_all [HandshakeEvent.syn,Heard]
        | cases stepped; simp_all [HandshakeEvent.syn,Heard]
  next bytes sendOk waiting =>
    have heard : h.Heard := .inr (.inl waiting)
    cases parsed : deserialize bytes with
    | error fault =>
      simp only [parsed,Option.some.injEq] at stepped
      subst stepped
      simp [HandshakeEvent.syn,parsed,heard]
    | ok message =>
      cases message <;> simp only [parsed,Option.some.injEq] at stepped <;> subst stepped <;>
        simp [HandshakeEvent.syn,parsed,heard,recvClientSYN_n]
  next waiting =>
    cases stepped
    exact ⟨rfl,fun _ => .inl (.inr (.inl waiting))⟩
  next waiting =>
    cases stepped
    exact ⟨rfl,fun _ => .inl (.inr (.inl waiting))⟩
  next => contradiction

theorem run_n (events : List HandshakeEvent) (h final : ServerHandshake)
    (reached : run step h events = some final) :
    final.n = (lastSYN events).getD h.n ∧ (final.Heard → h.Heard ∨ (lastSYN events).isSome) := by
  induction events generalizing h with
  | nil =>
    cases Option.some.inj reached
    exact ⟨rfl,.inl⟩
  | cons event events ih =>
    obtain ⟨next,stepped,rest⟩ := (run_cons _ _ _ _ _).mp reached
    obtain ⟨value,origin⟩ := step_n h next event stepped
    obtain ⟨last,earlier⟩ := ih next rest
    unfold lastSYN at last earlier ⊢
    cases syn : event.syn with
    | none =>
      rw [syn] at value origin
      rw [List.filterMap_cons_none syn]
      refine ⟨by rw [last,value]; rfl,fun heard => (earlier heard).imp_left fun before => ?_⟩
      simpa using origin before
    | some n =>
      rw [syn] at value
      rw [List.filterMap_cons_some syn,List.getLast?_cons]
      exact ⟨by rw [last,value]; rfl,fun _ => .inr rfl⟩

end ServerHandshake

theorem setN_intact (n : UInt8) (lower : 1 ≤ n.toNat) (upper : n.toNat ≤ 254) :
    ((newEndpoint DefaultN).setN n).Intact := by
  have cycle : (n + 1).toNat = n.toNat + 1 := toNat_succ n (by omega)
  have valid := Queue.newQueue_valid (n + 1) (by omega)
  refine ⟨cycle,rfl,valid,?_,?_,trivial,trivial⟩
  · change (0 : UInt8).toNat < (n + 1).toNat
    rw [cycle]
    exact Nat.succ_pos _
  · intro _
    have empty : (newQueue (n + 1)).size = 0 := by simp [newQueue,Queue.size]
    change (newQueue (n + 1)).size.toNat < n.toNat
    rw [empty]
    exact lower

def Endpoint.WellSized (conn : Endpoint) : Prop :=
  1 ≤ conn.n.toNat ∧ conn.s.toNat = conn.n.toNat + 1 ∧ conn.queue.s = conn.s ∧
    conn.queue.content.length = conn.s.toNat

/-- For every handshake that completes, the parameters are valid and every later run
without a harmful label is free of faults exactly when the last SYN was in range. -/
theorem serverHandshake_wellSized_iff (events : List HandshakeEvent) (conn : Endpoint)
    (completed : serverHandshake events = some conn) :
    (conn.WellSized ∧ ∀ later after, Along Endpoint.step Endpoint.Harmless conn later →
        run Endpoint.step conn later = some after → ¬ after.Crashed) ↔
      ∃ n, lastSYN events = some n ∧ 1 ≤ n.toNat ∧ n.toNat ≤ 254 := by
  obtain ⟨h,reached,finished⟩ := Option.bind_eq_some_iff.mp completed
  split at finished
  next complete =>
    cases finished
    obtain ⟨value,heard⟩ := ServerHandshake.run_n events _ h reached
    have seen : (lastSYN events).isSome := by
      refine (heard (.inr (.inr complete))).resolve_left ?_
      simp [ServerHandshake.Heard,ServerHandshake.start]
    obtain ⟨n,last⟩ := Option.isSome_iff_exists.mp seen
    rw [last] at value
    have same : h.n = n := value
    rw [last,same]
    constructor
    · rintro ⟨⟨lower,cycle,_⟩,_⟩
      have bound := (n + 1).toNat_lt
      change (n + 1).toNat = n.toNat + 1 at cycle
      exact ⟨n,rfl,lower,by omega⟩
    · rintro ⟨other,found,lower,upper⟩
      cases Option.some.inj found
      have intact := setN_intact n lower upper
      refine ⟨⟨lower,intact.cycle,rfl,intact.valid.slots⟩,?_⟩
      intro later after harmless ran
      exact (intact.along later harmless after ran).not_crashed
  next => contradiction

/-- The client asks for 30 and then for 2; the server restarts, and data completes the handshake. -/
def restartedHandshake : List HandshakeEvent :=
  [.packet [SYNACK] true,.packet [SYN,30] true,.packet [SYN,2] true,.timeout,.packet [DATA,0,1,0] true]

theorem serverHandshake_wellSized_restarted : ∃ conn, serverHandshake restartedHandshake = some conn ∧
    conn.WellSized ∧ ∀ later after, Along Endpoint.step Endpoint.Harmless conn later →
      run Endpoint.step conn later = some after → ¬ after.Crashed :=
  have completed : serverHandshake restartedHandshake = some ((newEndpoint DefaultN).setN 2) := by decide
  ⟨_,completed,(serverHandshake_wellSized_iff _ _ completed).mpr ⟨2,by decide⟩⟩

/-- A SYN with 255 wraps `s` to zero, and the first packet divides by it. -/
theorem serverHandshake_wraps : ∃ conn, serverHandshake [.packet [SYN,255] true,.packet [SYNACK] true] = some conn ∧
    conn.s = 0 ∧ conn.queue.content = [] ∧ ¬ conn.WellSized ∧
    (run Endpoint.step conn [.deliver [DATA,0,1,0] false,.receive]).map (·.receiveLoop) =
      some (.crashed .divideByZero) := by
  refine ⟨(newEndpoint DefaultN).setN 255,by decide,by decide,by decide,?_,by decide⟩
  rintro ⟨_,cycle,_⟩
  exact absurd cycle (by decide)

end NodeConnect.Gbn
