import NodeConnect.Client.Namespaces

/-! The connections of a mobile app. A client forgets its connection when a second one is stored,
and a namespace forgets its client when it is initialised again; a connection that is forgotten so
stays open for ever. An app that keeps to one connection at a time forgets none. -/
namespace NodeConnect.Client.Mobile
open Lib

def ConnectPlace.conn : ConnectPlace → Option Nat
  | .dialled _ conn | .stored _ conn => some conn
  | .begun | .creating _ | .dialing _ | .failed => none

def ConnectPlace.active : ConnectPlace → Bool
  | .begun | .creating _ | .dialing _ | .dialled _ _ => true
  | .stored _ _ | .failed => false

namespace App

variable {globals : Globals} {s s' : App} {event : AppEvent} {i conn : Nat} {mc : MobileClient}

/-! ### Connections that no call can close -/

theorem lt_of_has {nameSpace : String} (has : s.Has nameSpace i mc) : i < s.clients.length :=
  (List.getElem?_eq_some_iff.mp has.2).1

theorem m_addClient {nameSpace other : String} (known : (s.addClient nameSpace).m other = some i) :
    other = nameSpace ∧ i = s.clients.length ∨ other ≠ nameSpace ∧ s.m other = some i := by
  by_cases same : other = nameSpace
  · subst same
    simp only [addClient,Function.update_self,Option.some.injEq] at known
    exact .inl ⟨rfl,known.symm⟩
  · simp only [addClient,Function.update_of_ne same] at known
    exact .inr ⟨same,known⟩

theorem clients_addClient {nameSpace : String} (at_ : (s.addClient nameSpace).clients[i]? = some mc) :
    mc = newMobileClient ∨ s.clients[i]? = some mc := by
  rcases Pool.getElem?_started at_ with before | ⟨_,new⟩
  · exact .inr before
  · exact .inl new

/-- Where the clients and the connections come from: a client is of one namespace, and the connection that it has was
stored by the goroutine that made it. -/
structure Traced (s : App) : Prop where
  owned : ∀ first second i, s.m first = some i → s.m second = some i → first = second
  known : ∀ nameSpace i, s.m nameSpace = some i → i < s.clients.length
  placed : ∀ a ∈ s.connects, ∀ i, a.place.client = some i → i < s.clients.length
  held : ∀ i mc conn, s.clients[i]? = some mc → mc.lndConn = some conn → ∃ a ∈ s.connects, a.place = .stored i conn
  made : ∀ a ∈ s.connects, ∀ conn, a.place.conn = some conn → conn < s.conns.length
  distinct : Pool.Distinct (fun a => Connect.place a |>.conn) s.connects

theorem Traced.setClient (traced : s.Traced) (at_ : s.clients[i]? = some mc) {moved : MobileClient}
    (kept : ∀ conn, moved.lndConn = some conn → mc.lndConn = some conn) : (s.setClient i moved).Traced := by
  refine {traced with known := ?_, placed := ?_, held := ?_}
  · simpa [App.setClient] using traced.known
  · simpa [App.setClient] using traced.placed
  · intro j d conn found has
    rcases Pool.getElem?_move found with ⟨rfl,rfl⟩ | ⟨_,before⟩
    · exact traced.held j mc conn at_ (kept conn has)
    · exact traced.held j d conn before has

/-- A goroutine moves on that has no connection. -/
theorem Traced.setConnect (traced : s.Traced) {j : Nat} {a a' : Connect} (found : s.connects[j]? = some a)
    (unmade : a.place.conn = none) (idle : a'.place.conn = none)
    (placed : ∀ i, a'.place.client = some i → i < s.clients.length) : (s.setConnect j a').Traced := by
  refine {traced with placed := Pool.forall_move traced.placed j placed, held := ?_, made := ?_, distinct := ?_}
  · intro i mc conn at_ has
    obtain ⟨b,member,stored⟩ := traced.held i mc conn at_ has
    refine ⟨b,Pool.mem_unmoved found member ?_ a',stored⟩
    rintro rfl
    simp [stored,ConnectPlace.conn] at unmade
  · exact Pool.forall_move traced.made j (by simp [idle])
  · exact traced.distinct.move found (by simp [idle])

theorem Traced.addClient (traced : s.Traced) (nameSpace : String) : (s.addClient nameSpace).Traced := by
  have longer : (s.addClient nameSpace).clients.length = s.clients.length + 1 := by simp [App.addClient]
  refine {traced with owned := ?_, known := ?_, placed := ?_, held := ?_}
  · intro first second i knownFirst knownSecond
    rcases m_addClient knownFirst with ⟨rfl,new⟩ | ⟨_,first⟩ <;>
      rcases m_addClient knownSecond with ⟨rfl,new'⟩ | ⟨_,second⟩
    · rfl
    · exact absurd (traced.known _ i second) (by omega)
    · exact absurd (traced.known _ i first) (by omega)
    · exact traced.owned _ _ i first second
  · intro other i known
    rcases m_addClient known with ⟨_,rfl⟩ | ⟨_,before⟩
    · omega
    · have := traced.known other i before
      omega
  · intro a member i at_
    have := traced.placed a member i at_
    omega
  · intro i mc conn at_ has
    rcases clients_addClient at_ with rfl | before
    · cases has
    · exact traced.held i mc conn before has

theorem Traced.dials (traced : s.Traced) {j : Nat} {nameSpace : String}
    (found : s.connects[j]? = some ⟨nameSpace,.dialing i⟩) :
    Traced {s.setConnect j ⟨nameSpace,.dialled i s.conns.length⟩ with conns := s.conns ++ [true]} := by
  have longer : s.conns.length < (s.conns ++ [true]).length := by simp
  refine {traced with placed := ?_, held := ?_, made := ?_, distinct := ?_}
  · refine Pool.forall_move traced.placed j ?_
    rintro _ ⟨⟩
    exact traced.placed _ (List.mem_of_getElem? found) i rfl
  · intro k mc conn at_ has
    obtain ⟨b,member,stored⟩ := traced.held k mc conn at_ has
    refine ⟨b,Pool.mem_unmoved found member ?_ _,stored⟩
    rintro rfl
    cases stored
  · refine Pool.forall_move (fun b member conn isConn => ?_) j ?_
    · exact Nat.lt_trans (traced.made b member conn isConn) longer
    · rintro _ ⟨⟩
      exact longer
  · refine traced.distinct.move found ?_
    rintro _ ⟨⟩
    exact .inr fun b member isConn => Nat.lt_irrefl _ (traced.made b member _ isConn)

theorem Traced.stores (traced : s.Traced) {j : Nat} {nameSpace : String}
    (found : s.connects[j]? = some ⟨nameSpace,.dialled i conn⟩) (at_ : s.clients[i]? = some mc) :
    ((s.setClient i {mc with lndConn := some conn}).setConnect j ⟨nameSpace,.stored i conn⟩).Traced := by
  have same : (s.clients.set i {mc with lndConn := some conn}).length = s.clients.length := List.length_set
  refine ⟨traced.owned,fun other k known => same ▸ traced.known other k known,?_,?_,?_,?_⟩
  · refine Pool.forall_move (fun b member k isClient => same ▸ traced.placed b member k isClient) j ?_
    rintro _ ⟨⟩
    exact same ▸ traced.placed _ (List.mem_of_getElem? found) i rfl
  · intro k d other at_ has
    rcases Pool.getElem?_move at_ with ⟨rfl,rfl⟩ | ⟨_,before⟩
    · cases has
      exact ⟨_,List.mem_of_getElem? (Pool.getElem?_moved found _),rfl⟩
    · obtain ⟨b,member,stored⟩ := traced.held k d other before has
      refine ⟨b,Pool.mem_unmoved found member ?_ _,stored⟩
      rintro rfl
      cases stored
  · refine Pool.forall_move traced.made j ?_
    rintro _ ⟨⟩
    exact traced.made _ (List.mem_of_getElem? found) conn rfl
  · exact traced.distinct.move found fun _ isConn => .inl isConn

theorem Traced.change (traced : s.Traced) (change : s.Change event s') : s'.Traced := by
  cases change with
  | none => exact traced
  | connectPanics | invokes | asksPanics | keyPanics | runs | resultPanics | runPanics => exact {traced with}
  | inits nameSpace => exact traced.addClient nameSpace
  | registers _ _ has => exact traced.setClient has.2 fun _ => id
  | connects =>
    refine {traced with placed := ?_, held := ?_, made := ?_, distinct := traced.distinct.start rfl}
    · exact Pool.forall_start traced.placed (by simp [ConnectPlace.client])
    · intro i mc conn at_ has
      obtain ⟨a,member,stored⟩ := traced.held i mc conn at_ has
      exact ⟨a,List.mem_append_left _ member,stored⟩
    · exact Pool.forall_start traced.made (by simp [ConnectPlace.conn])
  | @disconnects nameSpace i conn mc has stored =>
    have after : (s.setClient i {mc with lndConn := none}).Traced := traced.setClient has.2 (by simp)
    refine {after with made := fun a member other isConn => ?_}
    rw [List.length_set]
    exact traced.made a member other isConn
  | gets found has =>
    refine traced.setConnect found rfl rfl ?_
    rintro _ ⟨⟩
    exact lt_of_has has
  | getFails found | createFails found | dialFails found =>
    exact traced.setConnect found rfl rfl (by simp [ConnectPlace.client])
  | @creates j nameSpace i mc found at_ =>
    have after : (s.setClient i {mc with statusChecker := true}).Traced := traced.setClient at_ fun _ => id
    refine after.setConnect found rfl rfl ?_
    rintro _ ⟨⟩
    exact after.placed _ (List.mem_of_getElem? found) i rfl
  | dials found => exact traced.dials found
  | stores found at_ => exact traced.stores found at_
  | auths _ at_ => exact traced.setClient at_ fun _ => id
  | @authPanics j i mc mac _ at_ =>
    have after : (s.setClient i {mc with mac := some mac}).Traced := traced.setClient at_ fun _ => id
    exact {after with}

theorem traced_start : Traced {} := ⟨by simp,by simp,by simp,by simp,by simp,by simp [Pool.Distinct]⟩

theorem run_traced {events : List AppEvent} (reached : run (step globals) {} events = some s) : s.Traced :=
  run_invariant (step globals) Traced (fun _ _ _ traced stepped => traced.change (step_change stepped).2) events {} s
    traced_start reached

/-- The connection is open, no client that a call can look up has it, and none will get it. -/
structure Lost (s : App) (conn : Nat) : Prop where
  isOpen : s.conns[conn]? = some true
  unheld : ∀ nameSpace i mc, s.Has nameSpace i mc → mc.lndConn ≠ some conn
  unawaited : ∀ nameSpace i, s.m nameSpace = some i → ∀ a ∈ s.connects, a.place ≠ .dialled i conn

theorem Lost.setClient (lost : s.Lost conn) {moved : MobileClient}
    (unheld : ∀ nameSpace, s.m nameSpace = some i → moved.lndConn ≠ some conn) : (s.setClient i moved).Lost conn := by
  refine ⟨lost.isOpen,?_,lost.unawaited⟩
  rintro nameSpace j mc ⟨known,at_⟩
  rcases Pool.getElem?_move at_ with ⟨rfl,rfl⟩ | ⟨_,before⟩
  · exact unheld nameSpace known
  · exact lost.unheld nameSpace j mc ⟨known,before⟩

/-- A client changes, but not its connection. -/
theorem Lost.setClient_same (lost : s.Lost conn) (at_ : s.clients[i]? = some mc) {moved : MobileClient}
    (same : moved.lndConn = mc.lndConn) : (s.setClient i moved).Lost conn :=
  lost.setClient fun nameSpace known => same ▸ lost.unheld nameSpace i mc ⟨known,at_⟩

theorem Lost.setConnect (lost : s.Lost conn) (j : Nat) {a : Connect} (unawaited : ∀ i, a.place ≠ .dialled i conn) :
    (s.setConnect j a).Lost conn :=
  ⟨lost.isOpen,lost.unheld,fun nameSpace i known => Pool.forall_move (lost.unawaited nameSpace i known) j (unawaited i)⟩

theorem Lost.addClient (lost : s.Lost conn) (traced : s.Traced) (nameSpace : String) : (s.addClient nameSpace).Lost conn := by
  refine ⟨lost.isOpen,?_,?_⟩
  · rintro other i mc ⟨known,at_⟩
    rcases clients_addClient at_ with rfl | before
    · simp [newMobileClient]
    · rcases m_addClient known with ⟨_,rfl⟩ | ⟨_,known⟩
      · simp at before
      · exact lost.unheld other i mc ⟨known,before⟩
  · intro other i known a member awaits
    rcases m_addClient known with ⟨_,rfl⟩ | ⟨_,known⟩
    · exact Nat.lt_irrefl _ (traced.placed a member _ (by simp [awaits,ConnectPlace.client]))
    · exact lost.unawaited other i known a member awaits

theorem Lost.change (lost : s.Lost conn) (traced : s.Traced) (change : s.Change event s') : s'.Lost conn := by
  cases change with
  | none => exact lost
  | connectPanics | invokes | asksPanics | keyPanics | runs | resultPanics | runPanics => exact {lost with}
  | inits nameSpace => exact lost.addClient traced nameSpace
  | registers _ _ has => exact lost.setClient_same has.2 rfl
  | connects =>
    refine {lost with unawaited := ?_}
    intro nameSpace i known a member
    rcases List.mem_append.mp member with before | new
    · exact lost.unawaited nameSpace i known a before
    · simp [List.mem_singleton.mp new]
  | @disconnects nameSpace i other mc has stored =>
    have apart : other ≠ conn := by
      rintro rfl
      exact lost.unheld nameSpace i mc has stored
    have after : (s.setClient i {mc with lndConn := none}).Lost conn := lost.setClient (by simp)
    exact {after with isOpen := Pool.getElem?_unmoved lost.isOpen apart.symm false}
  | gets | getFails | createFails | dialFails => exact lost.setConnect _ (by simp)
  | @creates j nameSpace i mc found at_ =>
    have after : (s.setClient i {mc with statusChecker := true}).Lost conn := lost.setClient_same at_ rfl
    exact after.setConnect j (by simp)
  | @dials j nameSpace i found =>
    have inside : conn < s.conns.length := (List.getElem?_eq_some_iff.mp lost.isOpen).1
    have after : (s.setConnect j ⟨nameSpace,.dialled i s.conns.length⟩).Lost conn :=
      lost.setConnect j fun _ same => by
        cases same
        exact Nat.lt_irrefl _ inside
    exact {after with isOpen := Pool.getElem?_start lost.isOpen true}
  | @stores j nameSpace i other mc found at_ =>
    -- The client may get the connection, but then no call looks that client up.
    have after : (s.setClient i {mc with lndConn := some other}).Lost conn := lost.setClient fun known isKnown same => by
      cases same
      exact lost.unawaited known i isKnown _ (List.mem_of_getElem? found) rfl
    exact after.setConnect j (by simp)
  | auths _ at_ => exact lost.setClient_same at_ rfl
  | @authPanics j i mc mac _ at_ =>
    have after : (s.setClient i {mc with mac := some mac}).Lost conn := lost.setClient_same at_ rfl
    exact {after with}

/-- The goroutine of a `ConnectServer` stores its connection in a client that has one. -/
theorem Traced.stores_lost (traced : s.Traced) {j new : Nat} {nameSpace : String}
    (found : s.connects[j]? = some ⟨nameSpace,.dialled i new⟩) (at_ : s.clients[i]? = some mc)
    (had : mc.lndConn = some conn) (isOpen : s.conns[conn]? = some true) :
    ((s.setClient i {mc with lndConn := some new}).setConnect j ⟨nameSpace,.stored i new⟩).Lost conn := by
  obtain ⟨a,member,stored⟩ := traced.held i mc conn at_ had
  have isConn : a.place.conn = some conn := by rw [stored]; rfl
  have other : new ≠ conn := by
    rintro rfl
    cases traced.distinct.eq member (List.mem_of_getElem? found) isConn rfl
    cases stored
  refine ⟨isOpen,?_,?_⟩
  · rintro known k d ⟨_,atk⟩ holds
    rcases Pool.getElem?_move atk with ⟨rfl,rfl⟩ | ⟨apart,before⟩
    · exact other (Option.some.inj holds)
    · obtain ⟨b,memberB,storedB⟩ := traced.held k d conn before holds
      cases traced.distinct.eq member memberB isConn (by rw [storedB]; rfl)
      cases stored.symm.trans storedB
      exact apart rfl
  · intro known k _
    refine Pool.forall_move (fun b memberB awaits => ?_) j (by simp)
    cases traced.distinct.eq member memberB isConn (by rw [awaits]; rfl)
    cases stored.symm.trans awaits

/-- The client that has the connection, or will have it, is replaced. -/
theorem Traced.inits_lost (traced : s.Traced) {nameSpace : String} {a : Connect} (is : s.m nameSpace = some i)
    (member : a ∈ s.connects) (place : a.place = .stored i conn ∨ a.place = .dialled i conn)
    (isOpen : s.conns[conn]? = some true) : (s.addClient nameSpace).Lost conn := by
  have isConn : a.place.conn = some conn := by rcases place with place | place <;> rw [place] <;> rfl
  have isClient : a.place.client = some i := by rcases place with place | place <;> rw [place] <;> rfl
  -- Another goroutine with this connection is the same one, and so it has the client that is replaced.
  have elsewhere {other : String} {k : Nat} {b : Connect} (known : (s.addClient nameSpace).m other = some k)
      (memberB : b ∈ s.connects) (connB : b.place.conn = some conn) (clientB : b.place.client = some k) : False := by
    cases traced.distinct.eq member memberB isConn connB
    cases isClient.symm.trans clientB
    rcases m_addClient known with ⟨_,rfl⟩ | ⟨apart,known⟩
    · exact Nat.lt_irrefl _ (traced.known nameSpace _ is)
    · exact apart (traced.owned _ _ _ known is)
  refine ⟨isOpen,?_,?_⟩
  · rintro other k d ⟨known,at_⟩ holds
    rcases clients_addClient at_ with rfl | before
    · cases holds
    · obtain ⟨b,memberB,storedB⟩ := traced.held k d conn before holds
      exact elsewhere known memberB (by rw [storedB]; rfl) (by rw [storedB]; rfl)
  · intro other k known b memberB awaits
    exact elsewhere known memberB (by rw [awaits]; rfl) (by rw [awaits]; rfl)

theorem run_lost {later : List AppEvent} {final : App} (traced : s.Traced) (lost : s.Lost conn)
    (continued : run (step globals) s later = some final) : final.Lost conn := by
  have kept := run_invariant (step globals) (fun s => s.Traced ∧ s.Lost conn)
    (fun _ _ _ holds stepped =>
      have change := (step_change stepped).2
      ⟨holds.1.change change,holds.2.change holds.1 change⟩)
    later s final ⟨traced,lost⟩ continued
  exact kept.2

/-- A connection is lost when the goroutine of another `ConnectServer` stores its own in the client that has it, and when
`InitLNC` replaces the client that has it or is about to get it. It is then never closed, whatever is called. -/
theorem lost_stays_open {events : List AppEvent} (reached : run (step globals) {} events = some s) :
    (∀ j nameSpace i new mc s', s.connects[j]? = some ⟨nameSpace,.dialled i new⟩ → s.clients[i]? = some mc →
      mc.lndConn = some conn → s.conns[conn]? = some true → step globals s (.stores j) = some s' → s'.Lost conn) ∧
    (∀ nameSpace i mc s', nameSpace ≠ "" → s.Has nameSpace i mc →
      (mc.lndConn = some conn ∨ ∃ a ∈ s.connects, a.place = .dialled i conn) → s.conns[conn]? = some true →
      step globals s (.initLNC nameSpace none) = some s' → s'.Lost conn) ∧
    (s.Lost conn → ∀ later final, run (step globals) s later = some final →
      final.Lost conn ∧ final.conns[conn]? = some true) := by
  have traced := run_traced reached
  refine ⟨?_,?_,?_⟩
  · intro j nameSpace i new mc s' found at_ had isOpen stepped
    obtain ⟨_,stepped⟩ := Option.ite_none_left_eq_some.mp stepped
    simp only [found,at_,Option.some.injEq] at stepped
    subst stepped
    exact traced.stores_lost found at_ had isOpen
  · intro nameSpace i mc s' named has held isOpen stepped
    obtain ⟨_,stepped⟩ := Option.ite_none_left_eq_some.mp stepped
    simp only [initLNC,if_neg named,ofReply,Option.some.injEq] at stepped
    subst stepped
    rcases held with had | ⟨a,member,place⟩
    · obtain ⟨a,member,place⟩ := traced.held i mc conn has.2 had
      exact traced.inits_lost has.1 member (.inl place) isOpen
    · exact traced.inits_lost has.1 member (.inr place) isOpen
  · intro lost later final continued
    have kept := run_lost traced lost continued
    exact ⟨kept,kept.isOpen⟩

/-- Two calls of `ConnectServer` for one namespace both get a connection; the second one is about to be stored. -/
def connectsTwice : List AppEvent :=
  [.initLNC "lnc" none,.connectServer "lnc" "mailbox" "01" "" none,.connectServer "lnc" "mailbox" "01" "" none,
    .getsClient 0,.getsClient 1,.creates 0,.creates 1,.dials 0,.dials 1,.stores 0]

/-- The first connection is lost when the second one is stored, and the second one when the namespace is initialised
again; no call closes them. -/
theorem lost_stays_open_twice : ∃ s s' s'' final, run (step plainGlobals) {} connectsTwice = some s ∧
    step plainGlobals s (.stores 1) = some s' ∧ s'.Lost 0 ∧ step plainGlobals s' (.initLNC "lnc" none) = some s'' ∧
    s''.Lost 1 ∧ run (step plainGlobals) s'' [.disconnect "lnc"] = some final ∧ final.conns[0]? = some true ∧
    final.conns[1]? = some true := by
  have found : ∃ s ∈ run (step plainGlobals) {} connectsTwice, s.connects[1]? = some ⟨"lnc",.dialled 0 1⟩ ∧
      (∃ mc ∈ s.clients[0]?, mc.lndConn = some 0) ∧ s.conns[0]? = some true ∧
      ∃ s' ∈ step plainGlobals s (.stores 1), s'.m "lnc" = some 0 ∧ (∃ mc ∈ s'.clients[0]?, mc.lndConn = some 1) ∧
      s'.conns[1]? = some true ∧ ∃ s'' ∈ step plainGlobals s' (.initLNC "lnc" none),
      (run (step plainGlobals) s'' [.disconnect "lnc"]).isSome := by
    decide +kernel
  obtain ⟨s,reached,dialled,⟨mc,at_,had⟩,isOpen,s',stored,known,⟨mc',at',had'⟩,isOpen',s'',inited,ends⟩ := found
  obtain ⟨final,continued⟩ := Option.isSome_iff_exists.mp ends
  have reached' := run_concat reached stored
  have reached'' := run_concat reached' inited
  have first : s'.Lost 0 := (lost_stays_open reached).1 1 "lnc" 0 1 mc s' dialled at_ had isOpen stored
  have second : s''.Lost 1 :=
    (lost_stays_open reached').2.1 "lnc" 0 mc' s'' (by decide) ⟨known,at'⟩ (.inl had') isOpen' inited
  have kept := (lost_stays_open reached').2.2 first _ final ((run_cons _ _ _ _ _).mpr ⟨s'',inited,continued⟩)
  have kept' := (lost_stays_open reached'').2.2 second _ final continued
  exact ⟨s,s',s'',final,reached,stored,first,inited,second,continued,kept.2,kept'.2⟩

/-! ### Connections that are accounted for -/

/-- A namespace is initialised once, and connects only when it has no connection and is not connecting. -/
def Orderly (s : App) : AppEvent → Prop
  | .initLNC nameSpace _ => s.m nameSpace = none
  | .connectServer nameSpace _ _ _ _ =>
    (∀ mc ∈ (s.m nameSpace).bind (s.clients[·]?), mc.lndConn = none) ∧
      ∀ a ∈ s.connects, a.nameSpace = nameSpace → a.place.active = false
  | _ => True

instance orderly_decidable (s : App) : (event : AppEvent) → Decidable (s.Orderly event)
  | .initLNC _ _ | .connectServer _ _ _ _ _ => by unfold Orderly; infer_instance
  | .register _ _ _ | .disconnect _ | .invokeRPC _ _ _ _ | .isConnected _ | .status _ _ | .getExpiry _ | .isReadOnly _
  | .hasPermissions _ _ | .getsClient _ | .creates _ | .createFails _ | .dials _ | .dialFails _ | .stores _ | .remoteKey _
  | .authData _ _ | .callRuns _ => isTrue trivial

/-- The goroutine works for the client that its namespace has. That client has no connection while it is under way, and
keeps the connection that it has stored until that is closed. -/
structure Keeps (s : App) (a : Connect) (i : Nat) (mc : MobileClient) : Prop where
  has : s.Has a.nameSpace i mc
  works : ∀ client, a.place.client = some client → client = i
  unconnected : a.place.active = true → mc.lndConn = none
  stored : ∀ conn, a.place = .stored i conn → s.conns[conn]? = some true → mc.lndConn = some conn

structure Accounted (s : App) : Prop where
  keeps : ∀ a ∈ s.connects, ∃ i mc, s.Keeps a i mc
  single : ∀ (j k : Nat) (a b : Connect), s.connects[j]? = some a → s.connects[k]? = some b → a.nameSpace = b.nameSpace →
    a.place.active = true → b.place.active = true → j = k
  conns : ∀ conn, s.conns[conn]? = some true → ∃ a ∈ s.connects, a.place.conn = some conn

theorem Accounted.open_held (accounted : s.Accounted) (isOpen : s.conns[conn]? = some true) :
    ∃ nameSpace i mc, s.Has nameSpace i mc ∧
      (mc.lndConn = some conn ∨ ∃ a ∈ s.connects, a.nameSpace = nameSpace ∧ a.place = .dialled i conn) := by
  obtain ⟨a,member,isConn⟩ := accounted.conns conn isOpen
  obtain ⟨i,mc,keeps⟩ := accounted.keeps a member
  refine ⟨a.nameSpace,i,mc,keeps.has,?_⟩
  cases place : a.place with
  | begun | creating | dialing | failed => simp [place,ConnectPlace.conn] at isConn
  | dialled client other =>
    simp only [place,ConnectPlace.conn,Option.some.injEq] at isConn
    obtain rfl := keeps.works client (by rw [place]; rfl)
    exact .inr ⟨a,member,rfl,isConn ▸ place⟩
  | stored client other =>
    simp only [place,ConnectPlace.conn,Option.some.injEq] at isConn
    obtain rfl := keeps.works client (by rw [place]; rfl)
    exact .inl (keeps.stored conn (isConn ▸ place) isOpen)

theorem Has.unique {nameSpace : String} {j : Nat} {other : MobileClient} (has : s.Has nameSpace i mc)
    (again : s.Has nameSpace j other) : j = i ∧ other = mc := by
  cases Option.some.inj (has.1.symm.trans again.1)
  exact ⟨rfl,Option.some.inj (again.2.symm.trans has.2)⟩

/-- A goroutine moves on, and what is changed with it leaves the others what they keep. -/
theorem Accounted.moved (accounted : s.Accounted) {j : Nat} {a a' : Connect} (found : s.connects[j]? = some a)
    (connects : s'.connects = s.connects.set j a') (name : a'.nameSpace = a.nameSpace)
    (active : a'.place.active = true → a.place.active = true)
    (keeps : ∃ i mc, s'.Keeps a' i mc)
    (others : ∀ (k : Nat) (b : Connect), k ≠ j → s.connects[k]? = some b → ∃ i mc, s'.Keeps b i mc)
    (conns : ∀ conn, s'.conns[conn]? = some true → a'.place.conn = some conn ∨
      s.conns[conn]? = some true ∧ a.place.conn ≠ some conn) : s'.Accounted := by
  refine ⟨?_,?_,?_⟩
  · intro b member
    rw [connects] at member
    obtain ⟨k,at_⟩ := List.getElem?_of_mem member
    rcases Pool.getElem?_move at_ with ⟨rfl,rfl⟩ | ⟨apart,before⟩
    · exact keeps
    · exact others k b apart before
  · intro x y b c atB atC same activeB activeC
    rw [connects] at atB atC
    rcases Pool.getElem?_move atB with ⟨rfl,rfl⟩ | ⟨_,beforeB⟩ <;>
      rcases Pool.getElem?_move atC with ⟨rfl,rfl⟩ | ⟨_,beforeC⟩
    · rfl
    · exact accounted.single _ _ _ _ found beforeC (name.symm.trans same) (active activeB) activeC
    · exact accounted.single _ _ _ _ beforeB found (same.trans name) activeB (active activeC)
    · exact accounted.single _ _ _ _ beforeB beforeC same activeB activeC
  · intro conn isOpen
    rcases conns conn isOpen with here | ⟨before,elsewhere⟩
    · exact ⟨a',connects ▸ List.mem_of_getElem? (Pool.getElem?_moved found a'),here⟩
    · obtain ⟨b,member,isConn⟩ := accounted.conns conn before
      obtain ⟨k,at_⟩ := List.getElem?_of_mem member
      have apart : k ≠ j := by
        rintro rfl
        cases Option.some.inj (found.symm.trans at_)
        exact elsewhere isConn
      exact ⟨b,connects ▸ List.mem_of_getElem? (Pool.getElem?_unmoved at_ apart a'),isConn⟩

/-- A goroutine moves on that has no connection. -/
theorem Accounted.setConnect (accounted : s.Accounted) {j : Nat} {a a' : Connect} (found : s.connects[j]? = some a)
    (name : a'.nameSpace = a.nameSpace) (active : a'.place.active = true → a.place.active = true)
    (keeps : ∃ i mc, s.Keeps a' i mc) (unmade : a.place.conn = none) : (s.setConnect j a').Accounted := by
  refine accounted.moved found rfl name active ?_ ?_ ?_
  · obtain ⟨i,mc,keeps⟩ := keeps
    exact ⟨i,mc,{keeps with}⟩
  · intro k b _ at_
    obtain ⟨i,mc,keeps⟩ := accounted.keeps b (List.mem_of_getElem? at_)
    exact ⟨i,mc,{keeps with}⟩
  · intro conn isOpen
    exact .inr ⟨isOpen,by simp [unmade]⟩

theorem Accounted.setClient (accounted : s.Accounted) (at_ : s.clients[i]? = some mc) {moved : MobileClient}
    (same : moved.lndConn = mc.lndConn) : (s.setClient i moved).Accounted := by
  refine {accounted with keeps := fun a member => ?_}
  obtain ⟨j,d,keeps⟩ := accounted.keeps a member
  by_cases here : j = i
  · subst here
    cases Option.some.inj (at_.symm.trans keeps.has.2)
    exact ⟨j,moved,⟨keeps.has.1,Pool.getElem?_moved at_ moved⟩,keeps.works,fun active => same ▸ keeps.unconnected active,
      fun conn stored isOpen => same ▸ keeps.stored conn stored isOpen⟩
  · exact ⟨j,d,{keeps with has := ⟨keeps.has.1,Pool.getElem?_unmoved keeps.has.2 here moved⟩}⟩

theorem Accounted.addClient (accounted : s.Accounted) {nameSpace : String} (fresh : s.m nameSpace = none) :
    (s.addClient nameSpace).Accounted := by
  refine {accounted with keeps := fun a member => ?_}
  obtain ⟨i,mc,keeps⟩ := accounted.keeps a member
  have apart : a.nameSpace ≠ nameSpace := by
    intro same
    have known := keeps.has.1
    rw [same,fresh] at known
    contradiction
  refine ⟨i,mc,{keeps with has := ⟨?_,Pool.getElem?_start keeps.has.2 _⟩}⟩
  simpa [App.addClient,Function.update_of_ne apart] using keeps.has.1

theorem Accounted.disconnects (accounted : s.Accounted) {nameSpace : String} (has : s.Has nameSpace i mc)
    (stored : mc.lndConn = some conn) :
    Accounted {s.setClient i {mc with lndConn := none} with conns := s.conns.set conn false} := by
  have open_of {other : Nat} (isOpen : (s.conns.set conn false)[other]? = some true) :
      s.conns[other]? = some true ∧ other ≠ conn := by
    rcases Pool.getElem?_move isOpen with ⟨_,shut⟩ | ⟨apart,before⟩
    · contradiction
    · exact ⟨before,apart⟩
  refine {accounted with
    keeps := fun a member => ?_, conns := fun other isOpen => accounted.conns other (open_of isOpen).1}
  obtain ⟨j,d,keeps⟩ := accounted.keeps a member
  by_cases here : j = i
  · subst here
    cases Option.some.inj (has.2.symm.trans keeps.has.2)
    refine ⟨j,_,⟨keeps.has.1,Pool.getElem?_moved has.2 _⟩,keeps.works,fun _ => rfl,?_⟩
    intro other isStored isOpen
    have last := keeps.stored other isStored (open_of isOpen).1
    exact absurd (Option.some.inj (last.symm.trans stored)) (open_of isOpen).2
  · exact ⟨j,d,⟨keeps.has.1,Pool.getElem?_unmoved keeps.has.2 here _⟩,keeps.works,keeps.unconnected,
      fun other isStored isOpen => keeps.stored other isStored (open_of isOpen).1⟩

theorem Accounted.dials (accounted : s.Accounted) (traced : s.Traced) {j : Nat} {nameSpace : String}
    (found : s.connects[j]? = some ⟨nameSpace,.dialing i⟩) :
    Accounted {s.setConnect j ⟨nameSpace,.dialled i s.conns.length⟩ with conns := s.conns ++ [true]} := by
  refine accounted.moved found rfl rfl (fun _ => rfl) ?_ ?_ ?_
  · obtain ⟨k,mc,keeps⟩ := accounted.keeps _ (List.mem_of_getElem? found)
    obtain rfl := keeps.works i rfl
    exact ⟨i,mc,keeps.has,by simp [ConnectPlace.client],fun _ => keeps.unconnected rfl,by simp⟩
  · intro k b _ at_
    have member := List.mem_of_getElem? at_
    obtain ⟨x,mc,keeps⟩ := accounted.keeps b member
    refine ⟨x,mc,{keeps with stored := fun other isStored isOpen => ?_}⟩
    rcases Pool.getElem?_started isOpen with before | ⟨rfl,_⟩
    · exact keeps.stored other isStored before
    · exact absurd (traced.made b member _ (by rw [isStored]; rfl)) (Nat.lt_irrefl _)
  · intro other isOpen
    rcases Pool.getElem?_started isOpen with before | ⟨rfl,_⟩
    · exact .inr ⟨before,by simp [ConnectPlace.conn]⟩
    · exact .inl rfl

/-- The client had no connection, so storing one forgets none. -/
theorem Accounted.stores (accounted : s.Accounted) (traced : s.Traced) {j : Nat} {nameSpace : String}
    (found : s.connects[j]? = some ⟨nameSpace,.dialled i conn⟩) (at_ : s.clients[i]? = some mc) :
    ((s.setClient i {mc with lndConn := some conn}).setConnect j ⟨nameSpace,.stored i conn⟩).Accounted := by
  obtain ⟨own,d,keepsOwn⟩ := accounted.keeps _ (List.mem_of_getElem? found)
  obtain rfl := keepsOwn.works i rfl
  cases Option.some.inj (at_.symm.trans keepsOwn.has.2)
  have unconnected := keepsOwn.unconnected rfl
  refine accounted.moved found rfl rfl (by simp [ConnectPlace.active]) ?_ ?_ ?_
  · refine ⟨i,_,⟨keepsOwn.has.1,Pool.getElem?_moved at_ _⟩,by simp [ConnectPlace.client],
      by simp [ConnectPlace.active],?_⟩
    rintro other ⟨⟩ _
    rfl
  · intro k b apart atB
    obtain ⟨x,e,keeps⟩ := accounted.keeps b (List.mem_of_getElem? atB)
    by_cases here : x = i
    · subst here
      cases Option.some.inj (at_.symm.trans keeps.has.2)
      have name : b.nameSpace = nameSpace := traced.owned _ _ x keeps.has.1 keepsOwn.has.1
      refine ⟨x,_,⟨keeps.has.1,Pool.getElem?_moved at_ _⟩,keeps.works,?_,?_⟩
      · intro active
        exact absurd (accounted.single k j b _ atB found name active rfl) apart
      · intro other isStored isOpen
        rw [keeps.stored other isStored isOpen] at unconnected
        contradiction
    · exact ⟨x,e,{keeps with has := ⟨keeps.has.1,Pool.getElem?_unmoved keeps.has.2 here _⟩}⟩
  · intro other isOpen
    by_cases same : conn = other
    · exact .inl (by simp [ConnectPlace.conn,same])
    · exact .inr ⟨isOpen,by simpa [ConnectPlace.conn] using same⟩

theorem Accounted.connects (accounted : s.Accounted) {nameSpace : String} (has : s.Has nameSpace i mc)
    (unconnected : mc.lndConn = none) (idle : ∀ a ∈ s.connects, a.nameSpace = nameSpace → a.place.active = false) :
    Accounted {s with connects := s.connects ++ [{nameSpace := nameSpace}]} := by
  have idleAt {k : Nat} {b : Connect} (at_ : s.connects[k]? = some b) (name : b.nameSpace = nameSpace)
      (active : b.place.active = true) : False := by
    rw [idle b (List.mem_of_getElem? at_) name] at active
    contradiction
  refine {accounted with keeps := ?_, single := ?_, conns := ?_}
  · intro a member
    rcases List.mem_append.mp member with before | new
    · obtain ⟨j,d,keeps⟩ := accounted.keeps a before
      exact ⟨j,d,{keeps with}⟩
    · rw [List.mem_singleton.mp new]
      exact ⟨i,mc,has,by simp [ConnectPlace.client],fun _ => unconnected,by simp⟩
  · intro x y a b atA atB same activeA activeB
    rcases Pool.getElem?_started atA with beforeA | ⟨lastA,rfl⟩ <;>
      rcases Pool.getElem?_started atB with beforeB | ⟨lastB,rfl⟩
    · exact accounted.single x y a b beforeA beforeB same activeA activeB
    · exact (idleAt beforeA same activeA).elim
    · exact (idleAt beforeB same.symm activeB).elim
    · exact lastA.trans lastB.symm
  · intro conn isOpen
    obtain ⟨a,member,isConn⟩ := accounted.conns conn isOpen
    exact ⟨a,List.mem_append_left _ member,isConn⟩

theorem Accounted.change (accounted : s.Accounted) (traced : s.Traced) (orderly : s.Orderly event)
    (change : s.Change event s') : s'.Accounted := by
  cases change with
  | none => exact accounted
  | connectPanics | invokes | asksPanics | keyPanics | runs | resultPanics | runPanics =>
    refine {accounted with keeps := ?_}
    intro a member
    obtain ⟨i,mc,keeps⟩ := accounted.keeps a member
    exact ⟨i,mc,{keeps with}⟩
  | inits => exact accounted.addClient orderly
  | registers _ _ has => exact accounted.setClient has.2 rfl
  | connects has => exact accounted.connects has (orderly.1 _ (Option.bind_eq_some_iff.mpr ⟨_,has⟩)) orderly.2
  | disconnects has stored => exact accounted.disconnects has stored
  | gets found has =>
    refine accounted.setConnect found rfl (fun _ => rfl) ?_ rfl
    obtain ⟨j,d,keeps⟩ := accounted.keeps _ (List.mem_of_getElem? found)
    obtain ⟨rfl,rfl⟩ := has.unique keeps.has
    exact ⟨_,_,has,by simp [ConnectPlace.client],fun _ => keeps.unconnected rfl,by simp⟩
  | getFails found | createFails found | dialFails found =>
    refine accounted.setConnect found rfl (by simp [ConnectPlace.active]) ?_ rfl
    obtain ⟨j,d,keeps⟩ := accounted.keeps _ (List.mem_of_getElem? found)
    exact ⟨j,d,keeps.has,by simp [ConnectPlace.client],by simp [ConnectPlace.active],by simp⟩
  | @creates j nameSpace i mc found at_ =>
    have after : (s.setClient i {mc with statusChecker := true}).Accounted := accounted.setClient at_ rfl
    refine after.setConnect found rfl (fun _ => rfl) ?_ rfl
    obtain ⟨k,d,keeps⟩ := after.keeps _ (List.mem_of_getElem? found)
    obtain rfl := keeps.works i rfl
    exact ⟨i,d,keeps.has,by simp [ConnectPlace.client],fun _ => keeps.unconnected rfl,by simp⟩
  | dials found => exact accounted.dials traced found
  | stores found at_ => exact accounted.stores traced found at_
  | auths _ at_ => exact accounted.setClient at_ rfl
  | @authPanics j i mc mac _ at_ =>
    have after : (s.setClient i {mc with mac := some mac}).Accounted := accounted.setClient at_ rfl
    refine {after with keeps := ?_}
    intro a member
    obtain ⟨k,d,keeps⟩ := after.keeps a member
    exact ⟨k,d,{keeps with}⟩

/-- In an app that initialises each namespace once, and connects only when that namespace has no connection and is not
connecting, some namespace has every connection that is open, or is about to get it. -/
theorem connections_accounted {events : List AppEvent} (reached : run (step globals) {} events = some s)
    (orderly : Along (step globals) Orderly {} events) (isOpen : s.conns[conn]? = some true) :
    ∃ nameSpace i mc, s.Has nameSpace i mc ∧
      (mc.lndConn = some conn ∨ ∃ a ∈ s.connects, a.nameSpace = nameSpace ∧ a.place = .dialled i conn) := by
  have both := along_invariant (step globals) Orderly (fun s => s.Traced ∧ s.Accounted)
    (fun _ _ _ holds orderly stepped =>
      have change := (step_change stepped).2
      ⟨holds.1.change change,holds.2.change holds.1 orderly change⟩)
    events {} s ⟨traced_start,by simp,by simp,by simp⟩ orderly reached
  exact both.2.open_held isOpen

/-- It connects, disconnects too early, and connects again after the connection has come and was closed. -/
def reconnects : List AppEvent :=
  List.flatten [[.initLNC "lnc" none,.connectServer "lnc" "mailbox" "01" "" none,.getsClient 0,.creates 0,.dials 0],
    [.disconnect "lnc",.stores 0,.disconnect "lnc",.connectServer "lnc" "mailbox" "01" "" none],
    [.getsClient 1,.creates 1,.dials 1]]

theorem connections_accounted_again : ∃ s, run (step plainGlobals) {} reconnects = some s ∧ s.conns = [false,true] ∧
    ∃ nameSpace i mc, s.Has nameSpace i mc ∧
      (mc.lndConn = some 1 ∨ ∃ a ∈ s.connects, a.nameSpace = nameSpace ∧ a.place = .dialled i 1) := by
  have orderly : Along (step plainGlobals) Orderly {} reconnects := by decide +kernel
  have found : ∃ s ∈ run (step plainGlobals) {} reconnects, s.conns = [false,true] := by decide +kernel
  obtain ⟨s,reached,conns⟩ := found
  exact ⟨s,reached,conns,connections_accounted reached orderly (by simp [conns])⟩

end App

end NodeConnect.Client.Mobile
