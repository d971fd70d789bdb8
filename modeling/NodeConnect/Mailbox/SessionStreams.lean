import NodeConnect.Mailbox.Sessions

/-! The streams of the connections of a session. On either side the connections follow one another,
so that no two are live at the same time, and the live ones of both sides meet on their streams
exactly if the two sides have looked up the same stream ID. -/
namespace NodeConnect.Mailbox
open Lib

def AcceptPlace.stage : AcceptPlace → Stage
  | .idle | .wait => .resting
  | .compare | .stop .. | .stopped _ => .ended
  | .make i => .making i

def ServerConn.member (c : ServerConn) : Member (Bytes × Bytes) := ⟨(c.receiveSID,c.sendSID),c.place⟩

namespace Server

/-- The connections of the server as a succession, with the streams that they receive from and send to. -/
def succession (s : Server) : Succession (Bytes × Bytes) where
  key := (getSID s.sid false,getSID s.sid true)
  kept := s.mailboxConn
  stage := s.accept.stage
  members := s.conns.map ServerConn.member

variable {s s' : Server} {i : Nat} {c : ServerConn}

theorem member_at (found : s.conns[i]? = some c) : s.succession.members[i]? = some c.member := by
  simp [succession,found]

theorem succession_setConn (s : Server) (i : Nat) (c : ServerConn) :
    (s.setConn i c).succession = {s.succession with members := s.succession.members.set i c.member} := by
  simp [succession,setConn]

/-! ### What a step does -/

/-- How a call that creates a box for `sid` leaves the connection and the boxes. -/
structure Creates (s : Server) (c : ServerConn) (sid : Bytes) (marked : ServerConn) (boxes : Finset Bytes) : Prop where
  member : marked.member = c.member
  ctx : marked.ctx = c.ctx
  receive : c.receiveBoxCreated = true → marked.receiveBoxCreated = true
  send : c.sendBoxCreated = true → marked.sendBoxCreated = true
  grows : s.boxes ⊆ boxes
  within : boxes ⊆ insert sid s.boxes
  ended : s.ctxDone = true → boxes = s.boxes

theorem createBox_creates {receive : Bool} {outcome : BoxOutcome} (found : s.conns[i]? = some c)
    (created : s.createBox i c receive outcome = some s') :
    ∃ marked boxes, s' = {s.setConn i marked with boxes} ∧
      s.Creates c (if receive then c.receiveSID else c.sendSID) marked boxes := by
  have unmarked : s.setConn i c = s := by rw [setConn,Pool.set_same found]
  have dead (alive : s.ctxAlive c = true) (ended : s.ctxDone = true) : False := by simp [ctxAlive,ended] at alive
  unfold createBox at created
  cases outcome with
  | failed applied =>
    refine ⟨c,s'.boxes,?_⟩
    rw [unmarked]
    cases applied with
    | false =>
      cases created
      exact ⟨rfl,rfl,rfl,id,id,subset_rfl,Finset.subset_insert _ _,fun _ => rfl⟩
    | true =>
      obtain ⟨alive,⟨⟩⟩ := Option.ite_none_right_eq_some.mp created
      exact ⟨rfl,rfl,rfl,id,id,Finset.subset_insert _ _,subset_rfl,fun ended => (dead alive ended).elim⟩
  | created =>
    obtain ⟨⟨alive,_⟩,⟨⟩⟩ := Option.ite_none_right_eq_some.mp created
    refine ⟨_,_,rfl,?_,?_,?_,?_,Finset.subset_insert _ _,subset_rfl,fun ended => (dead alive ended).elim⟩ <;>
      cases receive <;> simp [ServerConn.member]
  | alreadyExists =>
    obtain ⟨⟨alive,_⟩,⟨⟩⟩ := Option.ite_none_right_eq_some.mp created
    refine ⟨_,_,rfl,?_,?_,?_,?_,subset_rfl,Finset.subset_insert _ _,fun _ => rfl⟩ <;>
      cases receive <;> simp [ServerConn.member]

/-- How a call of `delCipherBox` for `sid` leaves the boxes. -/
structure Deletes (s : Server) (isCreated : Bool) (sid : Bytes) (deletes : Bool) (boxes : Finset Bytes) : Prop where
  erased : isCreated = true → deletes = true → boxes = s.boxes.erase sid
  ended : s.ctxDone = true → boxes = s.boxes

theorem delBox_deletes {isCreated deletes : Bool} {sid : Bytes} (deleted : s.delBox c isCreated sid deletes = some s') :
    ∃ boxes, s' = {s with boxes} ∧ s.Deletes isCreated sid deletes boxes := by
  unfold delBox at deleted
  split at deleted
  · rename_i unmarked
    cases deleted
    exact ⟨_,rfl,by simp [unmarked],fun _ => rfl⟩
  · split at deleted
    · rename_i failed
      cases deleted
      exact ⟨_,rfl,by simp [failed],fun _ => rfl⟩
    · obtain ⟨alive,⟨⟩⟩ := Option.ite_none_right_eq_some.mp deleted
      exact ⟨_,rfl,fun _ _ => rfl,fun ended => by simp [ctxAlive,ended] at alive⟩

/-- A move of `Stop` of the connection `i`: where it is, and where it goes. -/
inductive Stops (s : Server) (i : Nat) (deletes : Bool) : StopPlace → Server → Option StopPlace → Prop
  | closing {c : ServerConn} (found : s.conns[i]? = some c) (running : c.place = .running) :
    Stops s i deletes .close (s.setConn i {c with place := .closing}) (some .close)
  | closed {c : ServerConn} (found : s.conns[i]? = some c) (closed : c.place = .closed) :
    Stops s i deletes .close s (some .delReceive)
  | delReceive {c : ServerConn} {boxes : Finset Bytes} (found : s.conns[i]? = some c)
    (deleted : s.Deletes c.receiveBoxCreated c.receiveSID deletes boxes) :
    Stops s i deletes .delReceive {s with boxes} (some .delSend)
  | delSend {c : ServerConn} {boxes : Finset Bytes} (found : s.conns[i]? = some c)
    (deleted : s.Deletes c.sendBoxCreated c.sendSID deletes boxes) :
    Stops s i deletes .delSend {s with boxes} (some .cancel)
  | cancel {c : ServerConn} (found : s.conns[i]? = some c) :
    Stops s i deletes .cancel {s with cancelled := insert c.ctx s.cancelled} none

theorem stopMove_stops {place : StopPlace} {deletes : Bool} {next : Option StopPlace}
    (stopped : s.stopMove i place deletes = some (s',next)) : s.Stops i deletes place s' next := by
  unfold stopMove at stopped
  split at stopped
  · contradiction
  · rename_i c found
    cases place with
    | close =>
      dsimp only at stopped
      split at stopped
      · rename_i running
        cases stopped
        exact .closing found running
      · rename_i closed
        cases stopped
        exact .closed found closed
      · contradiction
    | delReceive =>
      obtain ⟨after,deleted,⟨⟩⟩ := Option.map_eq_some_iff.mp stopped
      obtain ⟨boxes,rfl,deletes⟩ := delBox_deletes deleted
      exact .delReceive found deletes
    | delSend =>
      obtain ⟨after,deleted,⟨⟩⟩ := Option.map_eq_some_iff.mp stopped
      obtain ⟨boxes,rfl,deletes⟩ := delBox_deletes deleted
      exact .delSend found deletes
    | cancel =>
      cases stopped
      exact .cancel found

/-- The next connection is begun with a context of its own, and the last one is forgotten. -/
def begins (s : Server) (sid : Bytes) : Server :=
  {s with
    sid := sid, mailboxConn := none, accept := .make s.conns.length
    conns := s.conns ++ [{receiveSID := getSID sid false, sendSID := getSID sid true, ctx := s.contexts}]
    contexts := s.contexts + 1}

/-- The next connection takes over what the last one, `old`, has. -/
def refreshes (s : Server) (old : ServerConn) : Server :=
  {s with accept := .make s.conns.length, conns := s.conns ++ [{old with place := .making}]}

inductive Moves (s : Server) : ServerEvent → Server → Prop
  | refused : Moves s .accept s
  | first (idle : s.accept = .idle) (unmade : s.mailboxConn = none) : Moves s .accept {s with accept := .compare}
  | waits (idle : s.accept = .idle) : Moves s .accept {s with accept := .wait}
  | quits (waiting : s.accept = .wait) : Moves s .acceptQuits {s with accept := .idle}
  | done {i : Nat} {c : ServerConn} (waiting : s.accept = .wait) (kept : s.mailboxConn = some i) (found : s.conns[i]? = some c)
    (closed : c.place = .closed) : Moves s .acceptDone {s with accept := .compare}
  | unknown (comparing : s.accept = .compare) : Moves s .compare {s with accept := .idle}
  | changed {sid : Bytes} {i : Nat} (comparing : s.accept = .compare) (read : s.connSID = some sid)
    (kept : s.mailboxConn = some i) : Moves s .compare {s with accept := .stop sid i .close}
  | begins {sid : Bytes} (comparing : s.accept = .compare) (read : s.connSID = some sid) (unmade : s.mailboxConn = none) :
    Moves s .compare (s.begins sid)
  | refreshes {i : Nat} {old : ServerConn} (comparing : s.accept = .compare) (kept : s.mailboxConn = some i)
    (found : s.conns[i]? = some old) : Moves s .compare (s.refreshes old)
  | stops {sid : Bytes} {i : Nat} {place next : StopPlace} {deletes : Bool} {after : Server}
    (stopping : s.accept = .stop sid i place) (moved : s.Stops i deletes place after (some next)) :
    Moves s (.acceptStops deletes) {after with accept := .stop sid i next}
  | stopped {sid : Bytes} {i : Nat} {place : StopPlace} {deletes : Bool} {after : Server}
    (stopping : s.accept = .stop sid i place) (moved : s.Stops i deletes place after none) :
    Moves s (.acceptStops deletes) {after with accept := .stopped sid}
  | replaces {sid : Bytes} (stopped : s.accept = .stopped sid) : Moves s .acceptReplaces (s.begins sid)
  | made {i : Nat} {c : ServerConn} (making : s.accept = .make i) (found : s.conns[i]? = some c)
    (shaken : c.receiveBoxCreated = true ∧ c.sendBoxCreated = true ∨ s.ctxAlive c = false) :
    Moves s .made {s.setConn i {c with place := .running} with mailboxConn := some i, accept := .idle}
  | fails {i : Nat} {c : ServerConn} (making : s.accept = .make i) (found : s.conns[i]? = some c) :
    Moves s .makeFails {s.setConn i {c with place := .failed} with accept := .idle}
  | creates {i : Nat} {receive : Bool} {outcome : BoxOutcome} {c marked : ServerConn} {boxes : Finset Bytes}
    (found : s.conns[i]? = some c) (unclosed : c.place ≠ .closed)
    (created : s.Creates c (if receive then c.receiveSID else c.sendSID) marked boxes) :
    Moves s (.creates i receive outcome) {s.setConn i marked with boxes}
  | connCloses {i : Nat} {c : ServerConn} (found : s.conns[i]? = some c) (running : c.place = .running) :
    Moves s (.connCloses i) (s.setConn i {c with place := .closing})
  | connClosed {i : Nat} {c : ServerConn} (found : s.conns[i]? = some c) (closing : c.place = .closing) :
    Moves s (.connClosed i) (s.setConn i {c with place := .closed})
  | rekeys {sid : Option Bytes} (kept : s.mailboxConn ≠ none) : Moves s (.rekeys sid) {s with connSID := sid}
  | close (idle : s.close = .idle) : Moves s .close {s with quit := true, close := .read}
  | finds {i : Nat} (reading : s.close = .read) (kept : s.mailboxConn = some i) :
    Moves s .closeReads {s with close := .found}
  | calls {i : Nat} (found : s.close = .found) (kept : s.mailboxConn = some i) :
    Moves s .closeCalls {s with close := .stop i .close}
  | callPanics (found : s.close = .found) (unmade : s.mailboxConn = none) : Moves s .closeCalls {s with panicked := true}
  | readsNone (reading : s.close = .read) (unmade : s.mailboxConn = none) :
    Moves s .closeReads {s with close := .cancel none}
  | closeStops {i : Nat} {place next : StopPlace} {deletes : Bool} {after : Server} (stopping : s.close = .stop i place)
    (moved : s.Stops i deletes place after (some next)) :
    Moves s (.closeStops deletes) {after with close := .stop i next}
  | closeStopped {i : Nat} {place : StopPlace} {deletes : Bool} {after : Server} (stopping : s.close = .stop i place)
    (moved : s.Stops i deletes place after none) :
    Moves s (.closeStops deletes) {after with close := .cancel (some i)}
  | cancels {stopped : Option Nat} (cancelling : s.close = .cancel stopped) :
    Moves s .closeCancels {s with ctxDone := true, close := .returned stopped}

theorem kept_found (sound : s.succession.Sound) (kept : s.mailboxConn = some i) :
    ∃ c, s.conns[i]? = some c ∧ c.receiveSID = getSID s.sid false ∧ c.sendSID = getSID s.sid true := by
  obtain ⟨m,found,_,key⟩ := sound.kept i kept
  obtain ⟨c,at_,rfl⟩ : ∃ c, s.conns[i]? = some c ∧ c.member = m := by simpa [succession] using found
  exact ⟨c,at_,Prod.mk.inj key⟩

theorem step_moves {event : ServerEvent} (sound : s.succession.Sound) (stepped : s.step event = some s') :
    s.Moves event s' := by
  obtain ⟨_,stepped⟩ := Option.ite_none_left_eq_some.mp stepped
  cases event with
  | accept =>
    obtain ⟨idle,stepped⟩ := Option.ite_none_right_eq_some.mp stepped
    split at stepped
    · cases stepped
      exact .refused
    · cases stepped
      by_cases unmade : s.mailboxConn = none
      · rw [if_pos unmade]
        exact .first idle unmade
      · rw [if_neg unmade]
        exact .waits idle
  | acceptQuits =>
    obtain ⟨⟨waiting,_⟩,⟨⟩⟩ := Option.ite_none_right_eq_some.mp stepped
    exact .quits waiting
  | acceptDone =>
    simp only [move] at stepped
    split at stepped
    · rename_i c waiting last
      obtain ⟨closed,⟨⟩⟩ := Option.ite_none_right_eq_some.mp stepped
      obtain ⟨i,kept,found⟩ := Option.bind_eq_some_iff.mp last
      exact .done waiting kept found closed
    · contradiction
  | compare =>
    obtain ⟨comparing,stepped⟩ := Option.ite_none_right_eq_some.mp stepped
    split at stepped
    · cases stepped
      exact .unknown comparing
    · rename_i sid i read kept
      split at stepped
      · cases stepped
        exact .changed comparing read kept
      · rename_i same
        cases stepped
        obtain ⟨old,found,_⟩ := kept_found sound kept
        have refreshed : s.makes sid = s.refreshes old := by simp [makes,Server.refreshes,kept,found,← not_not.mp same]
        exact refreshed ▸ .refreshes comparing kept found
    · rename_i sid read unmade
      cases stepped
      have begun : s.makes sid = s.begins sid := by simp [makes,Server.begins,unmade]
      exact begun ▸ .begins comparing read unmade
  | acceptStops deletes =>
    simp only [move] at stepped
    split at stepped
    · rename_i sid i place stopping
      split at stepped
      · contradiction
      · rename_i after next moved
        cases stepped
        exact .stops stopping (stopMove_stops moved)
      · rename_i after moved
        cases stepped
        exact .stopped stopping (stopMove_stops moved)
    · contradiction
  | acceptReplaces =>
    simp only [move] at stepped
    split at stepped
    · rename_i sid stopped
      cases stepped
      exact .replaces stopped
    · contradiction
  | made =>
    simp only [move] at stepped
    split at stepped
    · rename_i i making
      split at stepped
      · contradiction
      · rename_i c found
        obtain ⟨shaken,⟨⟩⟩ := Option.ite_none_right_eq_some.mp stepped
        exact .made making found (by simpa using shaken)
    · contradiction
  | makeFails =>
    simp only [move] at stepped
    split at stepped
    · rename_i i making
      split at stepped
      · contradiction
      · rename_i c found
        cases stepped
        exact .fails making found
    · contradiction
  | creates i receive outcome =>
    simp only [move] at stepped
    split at stepped
    · contradiction
    · rename_i c found
      obtain ⟨unclosed,created⟩ := Option.ite_none_left_eq_some.mp stepped
      obtain ⟨marked,boxes,rfl,creates⟩ := createBox_creates found created
      exact .creates found unclosed creates
  | connCloses i =>
    simp only [move] at stepped
    split at stepped
    · contradiction
    · rename_i c found
      obtain ⟨running,⟨⟩⟩ := Option.ite_none_right_eq_some.mp stepped
      exact .connCloses found running
  | connClosed i =>
    simp only [move] at stepped
    split at stepped
    · contradiction
    · rename_i c found
      obtain ⟨closing,⟨⟩⟩ := Option.ite_none_right_eq_some.mp stepped
      exact .connClosed found closing
  | rekeys sid =>
    obtain ⟨kept,⟨⟩⟩ := Option.ite_none_left_eq_some.mp stepped
    exact .rekeys kept
  | close =>
    obtain ⟨idle,⟨⟩⟩ := Option.ite_none_right_eq_some.mp stepped
    exact .close idle
  | closeReads =>
    obtain ⟨reading,⟨⟩⟩ := Option.ite_none_right_eq_some.mp stepped
    split
    · rename_i unmade
      exact .readsNone reading unmade
    · rename_i i kept
      exact .finds reading kept
  | closeCalls =>
    obtain ⟨found,stepped⟩ := Option.ite_none_right_eq_some.mp stepped
    split at stepped
    · rename_i unmade
      cases stepped
      exact .callPanics found unmade
    · rename_i i kept
      cases stepped
      exact .calls found kept
  | closeStops deletes =>
    simp only [move] at stepped
    split at stepped
    · rename_i i place stopping
      split at stepped
      · contradiction
      · rename_i after next moved
        cases stepped
        exact .closeStops stopping (stopMove_stops moved)
      · rename_i after moved
        cases stepped
        exact .closeStopped stopping (stopMove_stops moved)
    · contradiction
  | closeCancels =>
    simp only [move] at stepped
    split at stepped
    · rename_i stopped cancelling
      cases stepped
      exact .cancels cancelling
    · contradiction

/-! ### The connections follow one another -/

theorem still (same : s'.succession = s.succession) : s.succession.Step s'.succession := same ▸ .still

/-- A move of `Accept` that leaves it in the same stage. -/
theorem succession_accept (s : Server) (place : AcceptPlace) (same : place.stage = s.accept.stage) :
    ({s with accept := place} : Server).succession = s.succession := by
  simp [succession,same]

theorem Stops.succession {place : StopPlace} {deletes : Bool} {next : Option StopPlace}
    (moved : s.Stops i deletes place s' next) : s.succession.Step s'.succession := by
  cases moved with
  | closing found running => exact succession_setConn s i _ ▸ .closing (member_at found) running
  | closed | delReceive | delSend | cancel => exact .still

theorem Stops.accept {place : StopPlace} {deletes : Bool} {next : Option StopPlace}
    (moved : s.Stops i deletes place s' next) : s'.accept = s.accept := by
  cases moved <;> rfl

theorem Stops.close {place : StopPlace} {deletes : Bool} {next : Option StopPlace}
    (moved : s.Stops i deletes place s' next) : s'.close = s.close := by
  cases moved <;> rfl

theorem begins_succession (past : s.accept.stage = .ended) (sid : Bytes) :
    s.succession.Step (s.begins sid).succession := by
  have begun : (s.begins sid).succession =
      ⟨(getSID sid false,getSID sid true),none,.making s.succession.members.length,
        s.succession.members ++ [⟨(getSID sid false,getSID sid true),.making⟩]⟩ := by
    simp [begins,succession,AcceptPlace.stage,ServerConn.member]
  exact begun ▸ .begins past _

/-- A refreshed connection has the streams of the last. -/
theorem refreshes_succession (past : s.accept.stage = .ended) (kept : s.mailboxConn = some i) (found : s.conns[i]? = some c) :
    s.succession.Step (s.refreshes c).succession := by
  have begun : (s.refreshes c).succession = {s.succession with
      stage := .making s.succession.members.length
      members := s.succession.members ++ [⟨c.member.key,.making⟩]} := by
    simp [refreshes,succession,AcceptPlace.stage,ServerConn.member]
  exact begun ▸ .refreshes past kept (member_at found)

theorem Moves.succession {event : ServerEvent} (moves : s.Moves event s') : s.succession.Step s'.succession := by
  cases moves with
  | refused | rekeys | close | finds | calls | callPanics | readsNone | cancels => exact .still
  | first idle unmade =>
    exact .ends (fun i m kept => by simp [Server.succession,unmade] at kept) (by simp [Server.succession,idle,AcceptPlace.stage])
  | waits idle => exact still (succession_accept s .wait (by rw [idle]; rfl))
  | quits waiting => exact still (succession_accept s .idle (by rw [waiting]; rfl))
  | done waiting kept found closed =>
    refine .ends ?_ (by simp [Server.succession,waiting,AcceptPlace.stage])
    intro j m keptAt foundAt
    cases Option.some.inj (kept.symm.trans keptAt)
    cases Option.some.inj ((member_at found).symm.trans foundAt)
    exact closed
  | unknown comparing => exact .rests (by simp [Server.succession,comparing,AcceptPlace.stage])
  | changed comparing => exact still (succession_accept s _ (by rw [comparing]; rfl))
  | begins comparing => exact begins_succession (by rw [comparing]; rfl) _
  | refreshes comparing kept found => exact refreshes_succession (by rw [comparing]; rfl) kept found
  | replaces stopped => exact begins_succession (by rw [stopped]; rfl) _
  | @stops sid i _ next _ after stopping moved =>
    rw [succession_accept after (.stop sid i next) (by rw [moved.accept,stopping]; rfl)]
    exact moved.succession
  | @stopped sid _ _ _ after stopping moved =>
    rw [succession_accept after (.stopped sid) (by rw [moved.accept,stopping]; rfl)]
    exact moved.succession
  | closeStops _ moved | closeStopped _ moved => exact moved.succession
  | made making found =>
    have step := Succession.Step.makes (by simp [Server.succession,making,AcceptPlace.stage]) (member_at found)
    simpa [Server.succession,setConn,ServerConn.member,AcceptPlace.stage] using step
  | fails making found =>
    have step := Succession.Step.fails (by simp [Server.succession,making,AcceptPlace.stage]) (member_at found)
    simpa [Server.succession,setConn,ServerConn.member,AcceptPlace.stage] using step
  | @creates i _ _ c marked _ found _ created =>
    have marks : (s.setConn i marked).succession = s.succession := by
      rw [succession_setConn,created.member,Pool.set_same (member_at found)]
    exact still marks
  | connCloses found running => exact succession_setConn s _ _ ▸ .closing (member_at found) running
  | connClosed found closing => exact succession_setConn s _ _ ▸ .closes (member_at found) closing

end Server

def DialPlace.stage : DialPlace → Stage
  | .idle | .wait => .resting
  | .compare => .ended
  | .make i => .making i

def ClientConn.member (conn : ClientConn) : Member (Bytes × Bytes) := ⟨(conn.receiveSID,conn.sendSID),conn.place⟩

namespace Client

def succession (c : Client) : Succession (Bytes × Bytes) where
  key := (getSID c.sid true,getSID c.sid false)
  kept := c.mailboxConn
  stage := c.dial.stage
  members := c.conns.map ClientConn.member

variable {c c' : Client} {i : Nat} {conn : ClientConn}

theorem member_at (found : c.conns[i]? = some conn) : c.succession.members[i]? = some conn.member := by
  simp [succession,found]

theorem succession_setConn (c : Client) (i : Nat) (conn : ClientConn) :
    (c.setConn i conn).succession = {c.succession with members := c.succession.members.set i conn.member} := by
  simp [succession,setConn]

theorem makes_new (past : c.dial.stage = .ended) (sid : Bytes) :
    c.succession.Step (makes {c with mailboxConn := none} sid).succession := by
  have begun : (makes {c with mailboxConn := none} sid).succession =
      ⟨(getSID sid true,getSID sid false),none,.making c.succession.members.length,
        c.succession.members ++ [⟨(getSID sid true,getSID sid false),.making⟩]⟩ := by
    simp [makes,succession,DialPlace.stage,ClientConn.member]
  rw [begun]
  exact .begins past _

theorem makes_refreshed (sound : c.succession.Sound) (past : c.dial.stage = .ended) (kept : c.mailboxConn = some i) :
    c.succession.Step (c.makes c.sid).succession := by
  obtain ⟨m,foundMember,_⟩ := sound.kept i kept
  obtain ⟨old,found,rfl⟩ : ∃ old, c.conns[i]? = some old ∧ old.member = m := by
    simpa [succession] using foundMember
  have begun : (c.makes c.sid).succession = {c.succession with
      stage := .making c.succession.members.length
      members := c.succession.members ++ [⟨old.member.key,.making⟩]} := by
    simp [makes,succession,kept,found,DialPlace.stage,ClientConn.member]
  rw [begun]
  exact .refreshes past kept foundMember

theorem step_succession {event : ClientEvent} (sound : c.succession.Sound) (stepped : c.step event = some c') :
    c.succession.Step c'.succession := by
  cases event with
  | dial =>
    obtain ⟨idle,⟨⟩⟩ := Option.ite_none_right_eq_some.mp stepped
    by_cases none_ : c.mailboxConn = none
    · rw [if_pos none_]
      exact .ends (fun i m kept => by simp [succession,none_] at kept) (by simp [succession,idle,DialPlace.stage])
    · rw [if_neg none_]
      have same : ({c with dial := .wait} : Client).succession = c.succession := by simp [succession,idle,DialPlace.stage]
      exact same ▸ .still
  | dialDone =>
    simp only [step] at stepped
    split at stepped
    · rename_i conn waiting kept
      obtain ⟨closed,⟨⟩⟩ := Option.ite_none_right_eq_some.mp stepped
      obtain ⟨i,mailboxConn,found⟩ := Option.bind_eq_some_iff.mp kept
      refine .ends ?_ (by simp [succession,waiting,DialPlace.stage])
      intro j m keptAt foundAt
      cases Option.some.inj (mailboxConn.symm.trans keptAt)
      cases Option.some.inj ((member_at found).symm.trans foundAt)
      exact closed
    · contradiction
  | compare =>
    obtain ⟨place,stepped⟩ := Option.ite_none_right_eq_some.mp stepped
    have past : c.dial.stage = .ended := by rw [place]; rfl
    split at stepped
    · cases stepped
      exact .rests past
    · rename_i sid _
      cases stepped
      split
      · exact makes_new past sid
      · rename_i same
        rw [← not_not.mp same]
        cases kept : c.mailboxConn with
        | none =>
          have forgotten : ({c with mailboxConn := none} : Client) = c := by rw [← kept]
          exact forgotten ▸ makes_new past c.sid
        | some i => exact makes_refreshed sound past kept
  | made =>
    simp only [step] at stepped
    split at stepped
    · rename_i i making
      split at stepped
      · contradiction
      · rename_i conn found
        cases stepped
        have step := Succession.Step.makes (by simp [succession,making,DialPlace.stage]) (member_at found)
        simpa [succession,setConn,ClientConn.member,DialPlace.stage] using step
    · contradiction
  | makeFails =>
    simp only [step] at stepped
    split at stepped
    · rename_i i making
      split at stepped
      · contradiction
      · rename_i conn found
        cases stepped
        have step := Succession.Step.fails (by simp [succession,making,DialPlace.stage]) (member_at found)
        simpa [succession,setConn,ClientConn.member,DialPlace.stage] using step
    · contradiction
  | connCloses i =>
    simp only [step] at stepped
    split at stepped
    · contradiction
    · rename_i conn found
      obtain ⟨running,⟨⟩⟩ := Option.ite_none_right_eq_some.mp stepped
      rw [succession_setConn]
      exact .closing (member_at found) running
  | connClosed i =>
    simp only [step] at stepped
    split at stepped
    · contradiction
    · rename_i conn found
      obtain ⟨closing,⟨⟩⟩ := Option.ite_none_right_eq_some.mp stepped
      rw [succession_setConn]
      exact .closes (member_at found) closing
  | rekeys sid =>
    obtain ⟨_,⟨⟩⟩ := Option.ite_none_left_eq_some.mp stepped
    exact .still

end Client

theorem Server.run_sound {sid : Bytes} {events : List ServerEvent} {s : Server}
    (reached : run Server.step (Server.newServer sid) events = some s) : s.succession.Sound :=
  run_invariant Server.step (fun s => s.succession.Sound)
    (fun _ _ _ sound stepped => sound.step (step_moves sound stepped).succession)
    events _ s (Succession.sound_empty _) reached

theorem Client.run_sound {sid : Bytes} {events : List ClientEvent} {c : Client}
    (reached : run Client.step (Client.newClient sid) events = some c) : c.succession.Sound :=
  run_invariant Client.step (fun c => c.succession.Sound) (fun _ _ _ sound stepped => sound.step (step_succession sound stepped))
    events _ c (Succession.sound_empty _) reached

theorem getSID_getSID (sid : Bytes) : getSID (getSID sid false) false = sid := by
  have twice : ((· ^^^ 0x01) ∘ (· ^^^ 0x01) : UInt8 → UInt8) = id := by
    funext byte
    simp only [Function.comp_apply,UInt8.xor_assoc,UInt8.xor_self,UInt8.xor_zero,id]
  simp only [getSID,Bool.false_eq_true,if_false,List.modify_modify_eq,twice,List.modify_id]

theorem getSID_injective (direction : Bool) {first second : Bytes} :
    getSID first direction = getSID second direction ↔ first = second := by
  refine ⟨fun same => ?_,congrArg (getSID · direction)⟩
  cases direction with
  | true => exact same
  | false => rw [← getSID_getSID first,same,getSID_getSID]

/-- The streams of the two directions are different ones. -/
theorem getSID_apart {sid : Bytes} (size : sid.length = 64) : getSID sid false ≠ getSID sid true := by
  intro same
  have inside : 63 < sid.length := by omega
  have last := congrArg (·[63]?) same
  simp only [getSID,Bool.false_eq_true,if_false,if_true,List.getElem?_modify_eq,List.getElem?_eq_getElem inside,
    Option.map_eq_map,Option.map_some,Option.some.injEq] at last
  have one := congrArg (fun byte : UInt8 => sid[63] ^^^ byte) last
  simp only [← UInt8.xor_assoc,UInt8.xor_self,UInt8.zero_xor] at one
  exact absurd one (by decide)

/-- At any time at most one connection of each side is live. The live ones of the two sides meet on the
stream of either direction exactly if the two sides have looked up the same ID, and the two directions
have different streams. -/
theorem live_connections_meet {sid sid' : Bytes} {clientEvents : List ClientEvent} {serverEvents : List ServerEvent}
    {client : Client} {server : Server} (clientReached : run Client.step (Client.newClient sid) clientEvents = some client)
    (serverReached : run Server.step (Server.newServer sid') serverEvents = some server) :
    (∀ (i j : Nat) (c d : ClientConn), client.conns[i]? = some c → client.conns[j]? = some d →
      c.place.live = true → d.place.live = true → i = j) ∧
    (∀ (i j : Nat) (c d : ServerConn), server.conns[i]? = some c → server.conns[j]? = some d →
      c.place.live = true → d.place.live = true → i = j) ∧
    ∀ (i j : Nat) (c : ClientConn) (d : ServerConn), client.conns[i]? = some c → server.conns[j]? = some d →
      c.place.live = true → d.place.live = true →
      (c.sendSID = d.receiveSID ↔ client.sid = server.sid) ∧ (c.receiveSID = d.sendSID ↔ client.sid = server.sid) ∧
      (client.sid.length = 64 → c.sendSID ≠ c.receiveSID) ∧ (server.sid.length = 64 → d.sendSID ≠ d.receiveSID) := by
  have clientSound := Client.run_sound clientReached
  have serverSound := Server.run_sound serverReached
  refine ⟨?_,?_,?_⟩
  · intro i j c d foundC foundD
    exact clientSound.only.unique (Client.member_at foundC) (Client.member_at foundD)
  · intro i j c d foundC foundD
    exact serverSound.only.unique (Server.member_at foundC) (Server.member_at foundD)
  · intro i j c d foundC foundD liveC liveD
    have keyC := clientSound.live (Client.member_at foundC) liveC
    have keyD := serverSound.live (Server.member_at foundD) liveD
    obtain ⟨receiveC,sendC⟩ : c.receiveSID = getSID client.sid true ∧ c.sendSID = getSID client.sid false :=
      Prod.mk.inj keyC
    obtain ⟨receiveD,sendD⟩ : d.receiveSID = getSID server.sid false ∧ d.sendSID = getSID server.sid true :=
      Prod.mk.inj keyD
    rw [receiveC,sendC,receiveD,sendD]
    exact ⟨getSID_injective false,getSID_injective true,getSID_apart,fun size => (getSID_apart size).symm⟩

/-- A client and a server that pair, lose the connection, and meet again under the new ID. -/
def dialsAgain (sid : Bytes) : List ClientEvent :=
  [.dial,.compare,.made,.rekeys (some sid),.connCloses 0,.connClosed 0,.dial,.dialDone,.compare,.made]

def servesAgain (sid : Bytes) : List ServerEvent :=
  List.flatten [[.accept,.compare,.creates 0 true .created,.creates 0 false .created,.made,.accept,.rekeys (some sid)],
    [.connCloses 0,.connClosed 0,.acceptDone,.compare],List.replicate 4 (.acceptStops true),
    [.acceptReplaces,.creates 1 true .created,.creates 1 false .created,.made]]

theorem live_connections_meet_again : ∃ client server,
    run Client.step (Client.newClient (List.replicate 64 7)) (dialsAgain (List.replicate 64 9)) = some client ∧
    run Server.step (Server.newServer (List.replicate 64 7)) (servesAgain (List.replicate 64 9)) = some server ∧
    ∃ c d, client.conns[1]? = some c ∧ server.conns[1]? = some d ∧ c.place = .running ∧ d.place = .running ∧
      c.sendSID = d.receiveSID ∧ c.receiveSID = d.sendSID := by
  have foundC : ∃ client ∈ run Client.step (Client.newClient (List.replicate 64 7)) (dialsAgain (List.replicate 64 9)),
      client.sid = List.replicate 64 9 ∧ ∃ c ∈ client.conns[1]?, c.place = .running := by decide +kernel
  have foundS : ∃ server ∈ run Server.step (Server.newServer (List.replicate 64 7)) (servesAgain (List.replicate 64 9)),
      server.sid = List.replicate 64 9 ∧ ∃ d ∈ server.conns[1]?, d.place = .running := by decide +kernel
  obtain ⟨client,clientReached,sidC,c,atC,runningC⟩ := foundC
  obtain ⟨server,serverReached,sidS,d,atD,runningD⟩ := foundS
  obtain ⟨_,_,meet⟩ := live_connections_meet clientReached serverReached
  obtain ⟨send,receive,_⟩ := meet 1 1 c d atC atD (by rw [runningC]; rfl) (by rw [runningD]; rfl)
  exact ⟨client,server,clientReached,serverReached,c,d,atC,atD,runningC,runningD,send.mpr (sidC.trans sidS.symm),
    receive.mpr (sidC.trans sidS.symm)⟩

end NodeConnect.Mailbox
