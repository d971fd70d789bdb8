import NodeConnect.Mailbox.SessionStreams

/-! The mailboxes of a server. Only `Stop` of a connection deletes them, and it can do so only while
the context of that connection lives. When the server is closed between two connections, nothing of
it stays on the mailbox server. When it is closed while it waits for its first client, it has no
connection yet that `Close` could stop, and the mailboxes stay for ever. -/
namespace NodeConnect.Mailbox
open Lib

namespace Server

variable {s s' : Server} {i : Nat} {c : ServerConn} {event : ServerEvent}

/-! ### The contexts of the connections -/

def ctxs (s : Server) : List Nat := s.conns.map (·.ctx)

theorem ctxs_setConn (found : s.conns[i]? = some c) {moved : ServerConn} (same : moved.ctx = c.ctx) :
    (s.setConn i moved).ctxs = s.ctxs := by
  have at_ : s.ctxs[i]? = some c.ctx := by simp [ctxs,found]
  simpa [ctxs,setConn,same] using Pool.set_same at_

/-- As long as the server is not closed, only the context of a connection that is replaced is cancelled. -/
structure Tracked (s : Server) : Prop where
  begun : s.close ≠ .idle → s.quit = true
  undone : s.ctxDone = true → s.quit = true
  stopping : ∀ sid i place, s.accept = .stop sid i place → s.mailboxConn = some i
  stopped : ∀ sid, s.accept = .stopped sid → s.mailboxConn ≠ none
  below : ∀ n ∈ s.cancelled, n < s.contexts
  numbered : ∀ n ∈ s.ctxs, n < s.contexts
  unended : s.quit = false → (∀ sid, s.accept ≠ .stopped sid) →
    ∀ (i n : Nat), s.mailboxConn = some i ∨ s.accept = .make i →
    s.ctxs[i]? = some n → n ∉ s.cancelled

theorem tracked_newServer (sid : Bytes) : (newServer sid).Tracked := by
  constructor <;> simp [newServer,ctxs]

/-- `Accept` goes on to a place where it makes no connection. -/
theorem Tracked.accept (tracked : s.Tracked) {place : AcceptPlace} (unstopped : ∀ sid, s.accept ≠ .stopped sid)
    (unstopped' : ∀ sid, place ≠ .stopped sid) (unmaking : ∀ i, place ≠ .make i)
    (stopping : ∀ sid i stopPlace, place = .stop sid i stopPlace → s.mailboxConn = some i) :
    Tracked {s with accept := place} := by
  refine {tracked with stopping, stopped := ?_, unended := ?_}
  · intro sid stopped
    exact absurd stopped (unstopped' sid)
  · rintro open_ _ i n (kept | making)
    · exact tracked.unended open_ unstopped i n (.inl kept)
    · exact absurd making (unmaking i)

theorem ctxs_begins (s : Server) (sid : Bytes) : (s.begins sid).ctxs = s.ctxs ++ [s.contexts] := by simp [ctxs,begins]

theorem Tracked.begins (tracked : s.Tracked) (sid : Bytes) : (s.begins sid).Tracked := by
  refine ⟨tracked.begun,tracked.undone,by simp [Server.begins],by simp [Server.begins],?_,?_,?_⟩
  · intro n cancelled
    exact Nat.lt_succ_of_lt (tracked.below n cancelled)
  · intro n member
    rw [ctxs_begins,List.mem_append,List.mem_singleton] at member
    rcases member with old | rfl
    · exact Nat.lt_succ_of_lt (tracked.numbered n old)
    · exact Nat.lt_succ_self _
  · rintro _ _ i n (kept | making) found cancelled
    · simp [Server.begins] at kept
    · obtain rfl : s.ctxs.length = i := by simpa [Server.begins,ctxs] using making
      rw [ctxs_begins,List.getElem?_concat_length] at found
      cases found
      exact Nat.lt_irrefl _ (tracked.below _ cancelled)

theorem ctxs_refreshes (s : Server) (old : ServerConn) : (s.refreshes old).ctxs = s.ctxs ++ [old.ctx] := by
  simp [ctxs,refreshes]

theorem ctx_at (found : s.conns[i]? = some c) : s.ctxs[i]? = some c.ctx := by simp [ctxs,found]

theorem Tracked.refreshes (tracked : s.Tracked) (comparing : s.accept = .compare) (kept : s.mailboxConn = some i)
    (found : s.conns[i]? = some c) : (s.refreshes c).Tracked := by
  refine ⟨tracked.begun,tracked.undone,by simp [Server.refreshes],by simp [Server.refreshes],tracked.below,?_,?_⟩
  · intro n member
    rw [ctxs_refreshes,List.mem_append,List.mem_singleton] at member
    rcases member with old | rfl
    · exact tracked.numbered n old
    · exact tracked.numbered _ (List.mem_of_getElem? (ctx_at found))
  · intro open_ _ j n which foundAt
    have last := tracked.unended open_ (by simp [comparing]) i _ (.inl kept) (ctx_at found)
    rw [ctxs_refreshes] at foundAt
    rcases which with keptAt | making
    · cases Option.some.inj (kept.symm.trans keptAt)
      rw [Pool.getElem?_start (ctx_at found)] at foundAt
      cases foundAt
      exact last
    · obtain rfl : s.ctxs.length = j := by simpa [Server.refreshes,ctxs] using making
      rw [List.getElem?_concat_length] at foundAt
      cases foundAt
      exact last

/-- A connection moves or is marked, and keeps its context. -/
theorem Tracked.setConn (tracked : s.Tracked) (found : s.conns[i]? = some c) {moved : ServerConn} (same : moved.ctx = c.ctx) :
    (s.setConn i moved).Tracked := by
  have kept := ctxs_setConn found same
  exact ⟨tracked.begun,tracked.undone,tracked.stopping,tracked.stopped,tracked.below,kept ▸ tracked.numbered,
    kept ▸ tracked.unended⟩

theorem Tracked.below_insert (tracked : s.Tracked) (found : s.conns[i]? = some c) :
    ∀ n ∈ insert c.ctx s.cancelled, n < s.contexts := by
  intro n member
  rcases Finset.mem_insert.mp member with rfl | before
  · exact tracked.numbered _ (List.mem_of_getElem? (ctx_at found))
  · exact tracked.below n before

theorem Tracked.stops (tracked : s.Tracked) {deletes : Bool} {place next : StopPlace}
    (moved : s.Stops i deletes place s' (some next)) : s'.Tracked := by
  cases moved with
  | closing found => exact tracked.setConn found rfl
  | closed => exact tracked
  | delReceive | delSend => exact {tracked with}

theorem Tracked.moves (tracked : s.Tracked) (moves : s.Moves event s') : s'.Tracked := by
  cases moves with
  | refused => exact tracked
  | first idle | waits idle => exact tracked.accept (by simp [idle]) (by simp) (by simp) (by simp)
  | quits waiting | done waiting => exact tracked.accept (by simp [waiting]) (by simp) (by simp) (by simp)
  | unknown comparing => exact tracked.accept (by simp [comparing]) (by simp) (by simp) (by simp)
  | changed comparing _ kept => exact tracked.accept (by simp [comparing]) (by simp) (by simp) (by simp [kept])
  | begins => exact tracked.begins _
  | replaces => exact tracked.begins _
  | refreshes comparing kept found => exact tracked.refreshes comparing kept found
  | stops stopping moved =>
    have after := tracked.stops moved
    have place := moved.accept.trans stopping
    exact after.accept (by simp [place]) (by simp) (by simp) (by simp [after.stopping _ _ _ place])
  | stopped stopping moved =>
    cases moved with
    | cancel found =>
      refine {tracked with stopping := by simp, stopped := ?_, below := tracked.below_insert found, unended := by simp}
      intro _ _ unmade
      rw [tracked.stopping _ _ _ stopping] at unmade
      contradiction
  | @made i c making found =>
    refine {(tracked.setConn found rfl : (s.setConn i {c with place := .running}).Tracked) with
      stopping := by simp, stopped := by simp, unended := ?_}
    rintro open_ _ j n (⟨⟨⟩⟩ | ⟨⟨⟩⟩) foundAt
    refine tracked.unended open_ (by simp [making]) i n (.inr making) ?_
    rwa [← ctxs_setConn found (rfl : ({c with place := .running} : ServerConn).ctx = c.ctx)]
  | @fails i c making found =>
    have failed : (s.setConn i {c with place := .failed}).Tracked := tracked.setConn found rfl
    exact failed.accept (by simp [Server.setConn,making]) (by simp) (by simp) (by simp)
  | creates found _ created => exact {tracked.setConn found created.ctx with}
  | connCloses found | connClosed found => exact tracked.setConn found rfl
  | rekeys => exact {tracked with}
  | close => exact {tracked with begun := by simp, undone := by simp, unended := by simp}
  | finds place | calls place | readsNone place => exact {tracked with begun := fun _ => tracked.begun (by simp [place])}
  | callPanics => exact {tracked with}
  | closeStops stopping moved =>
    have after := tracked.stops moved
    exact {after with begun := fun _ => after.begun (by simp [moved.close,stopping])}
  | closeStopped stopping moved =>
    have closed := tracked.begun (by simp [stopping])
    cases moved with
    | cancel found =>
      exact {tracked with begun := fun _ => closed, below := tracked.below_insert found, unended := by simp [closed]}
  | cancels cancelling =>
    have closed := tracked.begun (by simp [cancelling])
    exact {tracked with begun := fun _ => closed, undone := fun _ => closed}

theorem run_tracked {sid : Bytes} {events : List ServerEvent} (reached : run step (newServer sid) events = some s) :
    s.succession.Sound ∧ s.Tracked :=
  run_invariant step (fun s => s.succession.Sound ∧ s.Tracked)
    (fun _ _ _ holds stepped =>
      have moves := step_moves holds.1 stepped
      ⟨holds.1.step moves.succession,holds.2.moves moves⟩)
    events _ s ⟨Succession.sound_empty _,tracked_newServer sid⟩ reached

/-! ### What stays when there is no connection to stop -/

/-- No call of `Stop` is under way, and there is no connection that one could be made for. -/
structure Unserved (s : Server) : Prop where
  unmade : s.mailboxConn = none
  accept : ∀ sid i place, s.accept ≠ .stop sid i place
  stopped : ∀ sid, s.accept ≠ .stopped sid
  close : ∀ i place, s.close ≠ .stop i place

theorem Stops.ended {deletes : Bool} {place : StopPlace} {next : Option StopPlace} (moved : s.Stops i deletes place s' next)
    (done : s.ctxDone = true) : s'.ctxDone = true ∧ s'.boxes = s.boxes := by
  cases moved with
  | closing | closed | cancel => exact ⟨done,rfl⟩
  | delReceive _ deleted | delSend _ deleted => exact ⟨done,deleted.ended done⟩

/-- When the context has ended, nothing on the mailbox server changes any more. -/
theorem Moves.ended (moves : s.Moves event s') (done : s.ctxDone = true) : s'.ctxDone = true ∧ s'.boxes = s.boxes := by
  cases moves with
  | stops _ moved | stopped _ moved | closeStops _ moved | closeStopped _ moved => exact moved.ended done
  | creates _ _ created => exact ⟨done,created.ended done⟩
  | cancels => exact ⟨rfl,rfl⟩
  | _ => exact ⟨done,rfl⟩

/-- Until a connection is made, the boxes only become more. -/
theorem Unserved.moves (unserved : s.Unserved) (moves : s.Moves event s') (unmade : event ≠ .made) :
    s'.Unserved ∧ s.boxes ⊆ s'.boxes := by
  have none_ := unserved.unmade
  cases moves with
  | stops stopping | stopped stopping => exact absurd stopping (unserved.accept _ _ _)
  | closeStops stopping | closeStopped stopping => exact absurd stopping (unserved.close _ _)
  | replaces stopped => exact absurd stopped (unserved.stopped _)
  | made => exact absurd rfl unmade
  | changed _ _ kept | refreshes _ kept | finds _ kept | calls _ kept | done _ kept =>
    rw [none_] at kept
    contradiction
  | rekeys kept => exact absurd none_ kept
  | creates _ _ created => exact ⟨{unserved with},created.grows⟩
  | refused | connCloses | connClosed | callPanics => exact ⟨{unserved with},subset_rfl⟩
  | first | waits | quits | unknown => exact ⟨{unserved with accept := by simp, stopped := by simp},subset_rfl⟩
  | fails => exact ⟨{unserved with accept := by simp, stopped := by simp},subset_rfl⟩
  | begins => exact ⟨⟨rfl,by simp [Server.begins],by simp [Server.begins],unserved.close⟩,subset_rfl⟩
  | close | readsNone | cancels => exact ⟨{unserved with close := by simp},subset_rfl⟩

end Server

open Server in
/-- When `Close` finds no connection, as the first one is still waited for, and none is made until the context of
the server has ended, then no mailbox that is there now is ever deleted, whatever happens later. -/
theorem close_leaves_boxes {sid : Bytes} {events later : List ServerEvent} {s final : Server}
    (reached : run Server.step (newServer sid) events = some s) (closing : s.close = .read) (unmade : s.mailboxConn = none)
    (unanswered : Along Server.step (fun s event => event = .made → s.ctxDone = true) s later)
    (continued : run Server.step s later = some final) : s.boxes ⊆ final.boxes := by
  obtain ⟨sound,tracked⟩ := run_tracked reached
  have start : s.Unserved := by
    refine ⟨unmade,?_,?_,by simp [closing]⟩
    · intro newSid i place stopping
      rw [tracked.stopping newSid i place stopping] at unmade
      contradiction
    · intro newSid stopped
      exact tracked.stopped newSid stopped unmade
  have kept := along_invariant Server.step (fun s event => event = .made → s.ctxDone = true)
    (fun now => now.succession.Sound ∧ (now.ctxDone = true ∨ now.Unserved) ∧ s.boxes ⊆ now.boxes)
    (fun now event next holds good stepped => ?_) later s final ⟨sound,.inr start,subset_rfl⟩ unanswered continued
  · exact kept.2.2
  · obtain ⟨sound,state,within⟩ := holds
    have moves := step_moves sound stepped
    refine ⟨sound.step moves.succession,?_⟩
    rcases Bool.eq_false_or_eq_true now.ctxDone with done | alive
    · obtain ⟨still,same⟩ := moves.ended done
      exact ⟨.inl still,same ▸ within⟩
    · have unserved := state.resolve_left (by simp [alive])
      obtain ⟨next,grows⟩ := unserved.moves moves fun made => by simp [good made] at alive
      exact ⟨.inr next,within.trans grows⟩

def closesUnserved : List ServerEvent := [.accept,.compare,.creates 0 true .created,.creates 0 false .created,.close]

def endsLate : List ServerEvent := [.closeReads,.closeCancels,.made,.accept,.connCloses 0,.connClosed 0]

theorem close_leaves_boxes_early : ∃ s final,
    run Server.step (Server.newServer (List.replicate 64 7)) closesUnserved = some s ∧
    run Server.step s endsLate = some final ∧ final.close = .returned none ∧
    s.boxes = {getSID (List.replicate 64 7) false,getSID (List.replicate 64 7) true} ∧ s.boxes ⊆ final.boxes := by
  have found : ∃ s ∈ run Server.step (Server.newServer (List.replicate 64 7)) closesUnserved,
      s.close = .read ∧ s.mailboxConn = none ∧
        s.boxes = {getSID (List.replicate 64 7) false,getSID (List.replicate 64 7) true} ∧
        Along Server.step (fun s event => event = .made → s.ctxDone = true) s endsLate ∧
        ∃ final ∈ run Server.step s endsLate, final.close = .returned none := by
    decide +kernel
  obtain ⟨s,reached,closing,unmade,both,unanswered,final,continued,returned⟩ := found
  exact ⟨s,final,reached,continued,returned,both,close_leaves_boxes reached closing unmade unanswered continued⟩

/-! ### What `Close` deletes -/

/-- The streams whose boxes `Stop` has not deleted yet. -/
def StopPlace.leaves (receive send : Bytes) : StopPlace → Finset Bytes
  | .close | .delReceive => {receive,send}
  | .delSend => {send}
  | .cancel => ∅

def AcceptPlace.leaves (receive send : Bytes) : AcceptPlace → Finset Bytes
  | .stop _ _ place => place.leaves receive send
  | .stopped _ => ∅
  | .idle | .wait | .compare | .make _ => {receive,send}

theorem StopPlace.leaves_subset (receive send : Bytes) (place : StopPlace) : place.leaves receive send ⊆ {receive,send} := by
  cases place <;> simp [StopPlace.leaves]

theorem AcceptPlace.leaves_subset (receive send : Bytes) (place : AcceptPlace) :
    place.leaves receive send ⊆ {receive,send} := by
  cases place with
  | stop _ _ place => exact place.leaves_subset receive send
  | stopped => exact Finset.empty_subset _
  | idle | wait | compare | make => exact subset_rfl

/-- The ID for which `Accept` replaces the last connection. -/
def AcceptPlace.replaces : AcceptPlace → Option Bytes
  | .stop sid _ _ | .stopped sid => some sid
  | .idle | .wait | .compare | .make _ => none

def ServerClosePlace.stops : ServerClosePlace → Option Nat
  | .stop i _ => some i
  | .cancel stopped | .returned stopped => stopped
  | .idle | .read | .found => none

def ServerClosePlace.closed : ServerClosePlace → Option Nat
  | .stop _ .close => none
  | .stop i .delReceive | .stop i .delSend | .stop i .cancel => some i
  | .cancel stopped | .returned stopped => stopped
  | .idle | .read | .found => none

namespace Server

variable {s s' : Server} {i : Nat} {c : ServerConn} {event : ServerEvent}

/-- The boxes that can be there. -/
def leaves (s : Server) : Finset Bytes :=
  match s.close with
  | .stop _ place => place.leaves (getSID s.sid false) (getSID s.sid true)
  | .cancel (some _) | .returned (some _) => ∅
  | .idle | .read | .found | .cancel none | .returned none => s.accept.leaves (getSID s.sid false) (getSID s.sid true)

/-- Every deletion succeeds. A connection whose handshake has failed creates no box. The key of the client does not
change while a connection is replaced because of the last change. The server is closed while `Accept` is not called
or waits for the end of the last connection, and no connection is made after that. -/
def Careful (s : Server) : ServerEvent → Prop
  | .acceptStops deletes | .closeStops deletes => deletes = true
  | .creates i _ _ => ∀ c ∈ s.conns[i]?, c.place ≠ .failed
  | .rekeys _ => s.accept.replaces = none
  | .close => s.accept = .idle ∨ s.accept = .wait
  | .accept | .acceptDone => s.quit = false
  | _ => True

structure Tidy (s : Server) : Prop where
  calm : s.quit = true → s.accept = .idle ∨ s.accept = .wait
  asked : ∀ sid, s.accept.replaces = some sid → s.connSID = some sid
  unasked : s.mailboxConn = none → ∀ sid, s.connSID = some sid → sid = s.sid
  marked : ∀ i c, s.mailboxConn = some i → s.conns[i]? = some c → c.receiveBoxCreated = true ∧ c.sendBoxCreated = true
  stops : ∀ i, s.close.stops = some i → s.mailboxConn = some i
  closed : ∀ i c, s.close.closed = some i → s.conns[i]? = some c → c.place = .closed
  within : s.boxes ⊆ s.leaves
  found : s.close = .found → s.mailboxConn ≠ none
  running : s.panicked = false

theorem making_place (sound : s.succession.Sound) (making : s.accept = .make i) (found : s.conns[i]? = some c) :
    c.place = .making := by
  obtain ⟨m,foundMember,isMaking,_⟩ := sound.making i (by simp [succession,making,AcceptPlace.stage])
  cases Option.some.inj ((member_at found).symm.trans foundMember)
  exact isMaking

theorem Tidy.open_ (tidy : s.Tidy) (idle : s.accept ≠ .idle) (wait : s.accept ≠ .wait) : s.quit = false := by
  by_contra closed
  exact (tidy.calm (by simpa using closed)).elim idle wait

theorem Tracked.unclosed (tracked : s.Tracked) (open_ : s.quit = false) : s.close = .idle := by
  by_contra begun
  simp [tracked.begun begun] at open_

/-- `Accept` goes on, and deletes nothing. -/
theorem Tidy.accept (tidy : s.Tidy) {place : AcceptPlace} (calm : s.quit = true → place = .idle ∨ place = .wait)
    (asked : ∀ sid, place.replaces = some sid → s.connSID = some sid)
    (same : ∀ receive send, place.leaves receive send = s.accept.leaves receive send) : Tidy {s with accept := place} := by
  have leaves : leaves {s with accept := place} = s.leaves := by simp only [Server.leaves,same]
  exact {tidy with calm, asked, within := leaves ▸ tidy.within}

/-- A connection moves or is marked. -/
theorem Tidy.setConn (tidy : s.Tidy) (found : s.conns[i]? = some c) {moved : ServerConn}
    (receive : c.receiveBoxCreated = true → moved.receiveBoxCreated = true)
    (send : c.sendBoxCreated = true → moved.sendBoxCreated = true) (closed : c.place = .closed → moved.place = .closed) :
    (s.setConn i moved).Tidy := by
  refine {tidy with marked := ?_, closed := ?_}
  · intro j d kept foundAt
    rcases Pool.getElem?_move foundAt with ⟨rfl,rfl⟩ | ⟨_,before⟩
    · exact (tidy.marked j c kept found).imp receive send
    · exact tidy.marked j d kept before
  · intro j d shut foundAt
    rcases Pool.getElem?_move foundAt with ⟨rfl,rfl⟩ | ⟨_,before⟩
    · exact closed (tidy.closed j c shut found)
    · exact tidy.closed j d shut before

theorem Tidy.begins (tidy : s.Tidy) (open_ : s.quit = false) (idle : s.close = .idle) {sid : Bytes}
    (read : s.connSID = some sid) (within : s.boxes ⊆ {getSID sid false,getSID sid true}) : (s.begins sid).Tidy := by
  refine ⟨?_,?_,?_,?_,?_,?_,?_,by simp [Server.begins,idle],tidy.running⟩
  · simp [Server.begins,open_]
  · simp [Server.begins,AcceptPlace.replaces]
  · simp [Server.begins,read]
  · simp [Server.begins]
  · simp [Server.begins,idle,ServerClosePlace.stops]
  · simp [Server.begins,idle,ServerClosePlace.closed]
  · simpa [Server.begins,Server.leaves,idle,AcceptPlace.leaves] using within

theorem Tidy.refreshes (tidy : s.Tidy) (open_ : s.quit = false) (idle : s.close = .idle) (comparing : s.accept = .compare)
    (kept : s.mailboxConn = some i) (found : s.conns[i]? = some c) : (s.refreshes c).Tidy := by
  refine ⟨?_,?_,tidy.unasked,?_,?_,?_,?_,by simp [Server.refreshes,idle],tidy.running⟩
  · simp [Server.refreshes,open_]
  · simp [Server.refreshes,AcceptPlace.replaces]
  · intro j d keptAt foundAt
    cases Option.some.inj (kept.symm.trans keptAt)
    cases Option.some.inj ((Pool.getElem?_start found _).symm.trans foundAt)
    exact tidy.marked i c kept found
  · simp [Server.refreshes,idle,ServerClosePlace.stops]
  · simp [Server.refreshes,idle,ServerClosePlace.closed]
  · simpa [Server.refreshes,Server.leaves,idle,comparing,AcceptPlace.leaves] using tidy.within

/-- Where a connection is live, no call of `Stop` has gone on to the boxes. -/
theorem Tidy.leaves_live (tidy : s.Tidy) (sound : s.succession.Sound) (tracked : s.Tracked) (found : s.conns[i]? = some c)
    (live : c.place.live = true) : s.leaves = {getSID s.sid false,getSID s.sid true} := by
  have current : s.succession.current = some i := sound.only i c.member (member_at found) live
  have dead (closed : c.place = .closed) : False := by simp [closed,Phase.live] at live
  rcases Bool.eq_false_or_eq_true s.quit with closing | open_
  · -- `Accept` makes no connection, so the live one is the one that `Close` stops.
    have accept := tidy.calm closing
    have resting : s.accept.stage = .resting := by rcases accept with idle | wait <;> simp [*,AcceptPlace.stage]
    have both : s.accept.leaves (getSID s.sid false) (getSID s.sid true) = {getSID s.sid false,getSID s.sid true} := by
      rcases accept with idle | wait <;> simp [*,AcceptPlace.leaves]
    have kept : s.mailboxConn = some i := by simpa [Succession.current,succession,resting] using current
    have only (j : Nat) (stops : s.close.stops = some j) (closed : s.close.closed = some j) : False := by
      cases Option.some.inj ((tidy.stops j stops).symm.trans kept)
      exact dead (tidy.closed _ c closed found)
    unfold Server.leaves
    cases place : s.close with
    | idle | read | found => exact both
    | stop j stopPlace =>
      cases stopPlace with
      | close => rfl
      | delReceive | delSend | cancel =>
        exact (only j (by simp [place,ServerClosePlace.stops]) (by simp [place,ServerClosePlace.closed])).elim
    | cancel stopped | returned stopped =>
      cases stopped with
      | none => exact both
      | some j => exact (only j (by simp [place,ServerClosePlace.stops]) (by simp [place,ServerClosePlace.closed])).elim
  · have idle := tracked.unclosed open_
    have spent (ended : s.accept.stage = .ended) : False := by
      have kept : s.mailboxConn = some i := by simpa [Succession.current,succession,ended] using current
      exact dead (sound.spent (by simp [succession,ended]) i c.member kept (member_at found))
    unfold Server.leaves
    rw [idle]
    cases place : s.accept with
    | idle | wait | compare | make => rfl
    | stop | stopped => exact (spent (by simp [place,AcceptPlace.stage])).elim

/-- What a move of `Stop` of the recorded connection leaves, if every deletion succeeds. -/
theorem Stops.leaves {place : StopPlace} {next : Option StopPlace} (moved : s.Stops i true place s' next) (tidy : s.Tidy)
    (sound : s.succession.Sound) (kept : s.mailboxConn = some i)
    (within : s.boxes ⊆ place.leaves (getSID s.sid false) (getSID s.sid true)) :
    s'.boxes ⊆ match next with | some next => next.leaves (getSID s.sid false) (getSID s.sid true) | none => ∅ := by
  cases moved with
  | closing | closed | cancel => exact within
  | delReceive found deleted =>
    obtain ⟨c,foundAt,receive,_⟩ := kept_found sound kept
    cases Option.some.inj (found.symm.trans foundAt)
    dsimp only
    rw [deleted.erased (tidy.marked i _ kept found).1 rfl,receive]
    exact (Finset.erase_subset_erase _ within).trans (Finset.erase_insert_subset _ _)
  | delSend found deleted =>
    obtain ⟨c,foundAt,_,send⟩ := kept_found sound kept
    cases Option.some.inj (found.symm.trans foundAt)
    dsimp only
    rw [deleted.erased (tidy.marked i _ kept found).2 rfl,send]
    exact (Finset.erase_subset_erase _ within).trans (by simp [StopPlace.leaves])

/-- A move of the `Stop` in `Accept`. -/
theorem Tidy.acceptStops (tidy : s.Tidy) (sound : s.succession.Sound) (tracked : s.Tracked) {sid : Bytes}
    {place next : StopPlace} {after : Server} (stopping : s.accept = .stop sid i place)
    (moved : s.Stops i true place after (some next)) : Tidy {after with accept := .stop sid i next} := by
  have open_ := tidy.open_ (by simp [stopping]) (by simp [stopping])
  have idle := tracked.unclosed open_
  have asked := tidy.asked sid (by simp [stopping,AcceptPlace.replaces])
  have left := moved.leaves tidy sound (tracked.stopping sid i place stopping)
    (by simpa [Server.leaves,idle,stopping,AcceptPlace.leaves] using tidy.within)
  cases moved with
  | @closing c found running =>
    have closing : (s.setConn i {c with place := .closing}).Tidy := tidy.setConn found id id (by simp [running])
    exact closing.accept (by simp [Server.setConn,open_]) (by simp [Server.setConn,AcceptPlace.replaces,asked])
      (by simp [Server.setConn,stopping])
  | closed =>
    exact tidy.accept (by simp [open_]) (by simp [AcceptPlace.replaces,asked])
      (by simp [stopping,AcceptPlace.leaves,StopPlace.leaves])
  | delReceive | delSend =>
    refine {tidy with calm := by simp [open_], asked := by simp [AcceptPlace.replaces,asked], within := ?_}
    simpa [Server.leaves,idle,AcceptPlace.leaves] using left

theorem Tidy.acceptStopped (tidy : s.Tidy) (tracked : s.Tracked) {sid : Bytes} {place : StopPlace} {after : Server}
    (stopping : s.accept = .stop sid i place) (moved : s.Stops i true place after none) :
    Tidy {after with accept := .stopped sid} := by
  have open_ := tidy.open_ (by simp [stopping]) (by simp [stopping])
  have idle := tracked.unclosed open_
  have asked := tidy.asked sid (by simp [stopping,AcceptPlace.replaces])
  cases moved with
  | cancel =>
    refine {tidy with calm := by simp [open_], asked := by simp [AcceptPlace.replaces,asked], within := ?_}
    simpa [Server.leaves,idle,stopping,AcceptPlace.leaves,StopPlace.leaves] using tidy.within

/-- The context of a connection that is being made lives, so both of its boxes were created. -/
theorem Tidy.made (tidy : s.Tidy) (tracked : s.Tracked) (making : s.accept = .make i) (found : s.conns[i]? = some c)
    (shaken : c.receiveBoxCreated = true ∧ c.sendBoxCreated = true ∨ s.ctxAlive c = false) :
    Tidy {s.setConn i {c with place := .running} with mailboxConn := some i, accept := .idle} := by
  have open_ := tidy.open_ (by simp [making]) (by simp [making])
  have idle := tracked.unclosed open_
  have undone : s.ctxDone = false := by
    by_contra done
    simp [tracked.undone (by simpa using done)] at open_
  have alive : s.ctxAlive c = true := by
    simpa [ctxAlive,undone] using tracked.unended open_ (by simp [making]) i c.ctx (.inr making) (ctx_at found)
  have marked := shaken.resolve_right (by simp [alive])
  refine ⟨by simp,by simp [AcceptPlace.replaces],by simp,?_,?_,?_,?_,by simp,tidy.running⟩
  · rintro j d ⟨⟩ foundAt
    cases Option.some.inj ((Pool.getElem?_moved found _).symm.trans foundAt)
    exact marked
  · simp [Server.setConn,idle,ServerClosePlace.stops]
  · simp [Server.setConn,idle,ServerClosePlace.closed]
  · simpa [Server.leaves,Server.setConn,idle,making,AcceptPlace.leaves] using tidy.within

/-- A live connection creates the boxes of the ID that is used. -/
theorem Tidy.creates (tidy : s.Tidy) (sound : s.succession.Sound) (tracked : s.Tracked) {receive : Bool}
    {marked : ServerConn} {boxes : Finset Bytes} (found : s.conns[i]? = some c) (live : c.place.live = true)
    (created : s.Creates c (if receive then c.receiveSID else c.sendSID) marked boxes) :
    Tidy {s.setConn i marked with boxes} := by
  have leaves := tidy.leaves_live sound tracked found live
  obtain ⟨receiveSID,sendSID⟩ := Prod.mk.inj (sound.live (member_at found) live)
  have same : marked.place = c.place := congrArg Member.phase created.member
  refine {tidy.setConn found created.receive created.send (by simp [same]) with within := ?_}
  show boxes ⊆ s.leaves
  refine created.within.trans (Finset.insert_subset ?_ tidy.within)
  rw [leaves]
  cases receive with
  | true => exact Finset.mem_insert.mpr (.inl receiveSID)
  | false => exact Finset.mem_insert_of_mem (Finset.mem_singleton.mpr sendSID)

/-- A move of the `Stop` in `Close`. -/
theorem Tidy.closeStops (tidy : s.Tidy) (sound : s.succession.Sound) {place next : StopPlace} {after : Server}
    (stopping : s.close = .stop i place) (moved : s.Stops i true place after (some next)) :
    Tidy {after with close := .stop i next} := by
  have kept := tidy.stops i (by simp [stopping,ServerClosePlace.stops])
  have left := moved.leaves tidy sound kept (by simpa [Server.leaves,stopping] using tidy.within)
  cases moved with
  | @closing c found running =>
    have closing : (s.setConn i {c with place := .closing}).Tidy := tidy.setConn found id id (by simp [running])
    refine {closing with stops := ?_, closed := by simp [ServerClosePlace.closed], within := left, found := by simp}
    simp [ServerClosePlace.stops,Server.setConn,kept]
  | closed found closed =>
    refine {tidy with stops := by simp [ServerClosePlace.stops,kept], closed := ?_, within := left, found := by simp}
    rintro j d ⟨⟩ foundAt
    cases Option.some.inj (found.symm.trans foundAt)
    exact closed
  | delReceive | delSend =>
    refine {tidy with stops := by simp [ServerClosePlace.stops,kept], closed := ?_, within := left, found := by simp}
    intro j d shut
    exact tidy.closed j d (by simpa [stopping,ServerClosePlace.closed] using shut)

theorem Tidy.closeStopped (tidy : s.Tidy) {place : StopPlace} {after : Server} (stopping : s.close = .stop i place)
    (moved : s.Stops i true place after none) : Tidy {after with close := .cancel (some i)} := by
  have kept := tidy.stops i (by simp [stopping,ServerClosePlace.stops])
  cases moved with
  | cancel =>
    refine {tidy with stops := by simp [ServerClosePlace.stops,kept], closed := ?_, within := ?_, found := by simp}
    · intro j d shut
      exact tidy.closed j d (by simpa [stopping,ServerClosePlace.closed] using shut)
    · simpa [Server.leaves,stopping,StopPlace.leaves] using tidy.within

theorem Tidy.moves (tidy : s.Tidy) (sound : s.succession.Sound) (tracked : s.Tracked) (careful : s.Careful event)
    (moves : s.Moves event s') : s'.Tidy := by
  cases moves with
  | refused => exact tidy
  | first idle | waits idle =>
    have open_ : s.quit = false := careful
    exact tidy.accept (by simp [open_]) (by simp [AcceptPlace.replaces]) (by simp [idle,AcceptPlace.leaves])
  | quits waiting => exact tidy.accept (by simp) (by simp [AcceptPlace.replaces]) (by simp [waiting,AcceptPlace.leaves])
  | done waiting =>
    have open_ : s.quit = false := careful
    exact tidy.accept (by simp [open_]) (by simp [AcceptPlace.replaces]) (by simp [waiting,AcceptPlace.leaves])
  | unknown comparing =>
    exact tidy.accept (by simp) (by simp [AcceptPlace.replaces]) (by simp [comparing,AcceptPlace.leaves])
  | changed comparing read =>
    have open_ := tidy.open_ (by simp [comparing]) (by simp [comparing])
    exact tidy.accept (by simp [open_]) (by simp [AcceptPlace.replaces,read])
      (by simp [comparing,AcceptPlace.leaves,StopPlace.leaves])
  | begins comparing read unmade =>
    have open_ := tidy.open_ (by simp [comparing]) (by simp [comparing])
    have idle := tracked.unclosed open_
    refine tidy.begins open_ idle read ?_
    rw [tidy.unasked unmade _ read]
    simpa [Server.leaves,idle,comparing,AcceptPlace.leaves] using tidy.within
  | replaces stopped =>
    have open_ := tidy.open_ (by simp [stopped]) (by simp [stopped])
    have idle := tracked.unclosed open_
    refine tidy.begins open_ idle (tidy.asked _ (by rw [stopped]; rfl)) ?_
    have empty : s.boxes = ∅ := by simpa [Server.leaves,idle,stopped,AcceptPlace.leaves] using tidy.within
    simp [empty]
  | refreshes comparing kept found =>
    have open_ := tidy.open_ (by simp [comparing]) (by simp [comparing])
    exact tidy.refreshes open_ (tracked.unclosed open_) comparing kept found
  | @stops _ _ _ _ deletes _ stopping moved =>
    obtain rfl : deletes = true := careful
    exact tidy.acceptStops sound tracked stopping moved
  | @stopped _ _ _ deletes _ stopping moved =>
    obtain rfl : deletes = true := careful
    exact tidy.acceptStopped tracked stopping moved
  | made making found shaken => exact tidy.made tracked making found shaken
  | @fails i c making found =>
    have failed : (s.setConn i {c with place := .failed}).Tidy :=
      tidy.setConn found id id (by simp [making_place sound making found])
    exact failed.accept (by simp) (by simp [AcceptPlace.replaces]) (by simp [Server.setConn,making,AcceptPlace.leaves])
  | @creates i receive _ c _ _ found unclosed created =>
    have unfailed : c.place ≠ .failed := careful c found
    have live : c.place.live = true := by cases place : c.place <;> simp_all [Phase.live]
    exact tidy.creates sound tracked found live created
  | connCloses found running => exact tidy.setConn found id id (by simp [running])
  | connClosed found closing => exact tidy.setConn found id id (by simp [closing])
  | rekeys kept =>
    have steady : s.accept.replaces = none := careful
    exact {tidy with asked := by simp [steady], unasked := fun unmade => absurd unmade kept}
  | close idle =>
    refine {tidy with
      calm := fun _ => careful, stops := by simp [ServerClosePlace.stops], closed := by simp [ServerClosePlace.closed]
      within := ?_, found := by simp}
    simpa [Server.leaves,idle] using tidy.within
  | finds reading kept =>
    refine {tidy with
      stops := by simp [ServerClosePlace.stops], closed := by simp [ServerClosePlace.closed], within := ?_
      found := by simp [kept]}
    simpa [Server.leaves,reading] using tidy.within
  | calls found kept =>
    have accept := tidy.calm (tracked.begun (by simp [found]))
    refine {tidy with
      stops := by simp [ServerClosePlace.stops,kept], closed := by simp [ServerClosePlace.closed], within := ?_
      found := by simp}
    have within := tidy.within
    rcases accept with idle | wait <;> simpa [*,Server.leaves,StopPlace.leaves,AcceptPlace.leaves] using within
  | callPanics found unmade => exact absurd unmade (tidy.found found)
  | readsNone reading unmade =>
    refine {tidy with
      stops := by simp [ServerClosePlace.stops], closed := by simp [ServerClosePlace.closed], within := ?_
      found := by simp}
    simpa [Server.leaves,reading] using tidy.within
  | @closeStops _ _ _ deletes _ stopping moved =>
    obtain rfl : deletes = true := careful
    exact tidy.closeStops sound stopping moved
  | @closeStopped _ _ deletes _ stopping moved =>
    obtain rfl : deletes = true := careful
    exact tidy.closeStopped stopping moved
  | @cancels stopped cancelling =>
    refine {tidy with stops := ?_, closed := ?_, within := ?_, found := by simp}
    · intro j stops
      exact tidy.stops j (by simpa [cancelling,ServerClosePlace.stops] using stops)
    · intro j d shut
      exact tidy.closed j d (by simpa [cancelling,ServerClosePlace.closed] using shut)
    · cases stopped <;> simpa [Server.leaves,cancelling] using tidy.within

theorem leaves_subset (s : Server) : s.leaves ⊆ {getSID s.sid false,getSID s.sid true} := by
  unfold Server.leaves
  cases s.close with
  | stop i place => exact place.leaves_subset _ _
  | idle | read | found => exact s.accept.leaves_subset _ _
  | cancel stopped | returned stopped =>
    cases stopped with
    | none => exact s.accept.leaves_subset _ _
    | some => exact Finset.empty_subset _

instance careful_decidable (s : Server) : (event : ServerEvent) → Decidable (s.Careful event)
  | .acceptStops _ | .closeStops _ | .rekeys _ | .close | .accept | .acceptDone | .creates _ _ _ =>
    by unfold Careful; infer_instance
  | .acceptQuits | .compare | .acceptReplaces | .made | .makeFails | .connCloses _ | .connClosed _ | .closeReads
  | .closeCalls | .closeCancels => isTrue trivial

end Server

-- The server is closed while `Accept` replaces the connection, which it has forgotten when `Close` stops it.
example : (run Server.step (Server.newServer (List.replicate 64 7)) (List.flatten
    [[.accept,.compare,.creates 0 true .created,.creates 0 false .created,.made,.accept,.rekeys (some (List.replicate 64 9))],
      [.connCloses 0,.connClosed 0,.acceptDone,.compare,.close,.closeReads],List.replicate 4 (.acceptStops true),
      [.acceptReplaces,.closeCalls]])).map Server.panicked = some true := by
  decide +kernel

end NodeConnect.Mailbox
