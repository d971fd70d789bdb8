import NodeConnect.Gbn.Queue
import NodeConnect.Lib.Run

/-! What the queue keeps under every sequence of operations. The labels of
acknowledgements come from the peer unchecked, so every step is stated for
arbitrary bytes; only the ones a wrapped window mistakes for its own matter. -/
namespace NodeConnect.Gbn
open Lib

theorem modulo_ok (a b : UInt8) (positive : 0 < b.toNat) : modulo a b = .ok (a % b) := by
  have nonzero : b ≠ 0 := by
    intro zero
    rw [zero] at positive
    exact absurd positive (by decide)
  simp [modulo,nonzero]

theorem toNat_succ (a : UInt8) (small : a.toNat < 255) : (a + 1).toNat = a.toNat + 1 := by
  rw [UInt8.toNat_add]
  simp only [UInt8.reduceToNat]
  exact Nat.mod_eq_of_lt (by omega)

theorem modulo_succ (a s : UInt8) (inside : a.toNat < s.toNat) :
    ∃ next, modulo (a + 1) s = .ok next ∧ next.toNat = (a.toNat + 1) % s.toNat := by
  refine ⟨(a + 1) % s,modulo_ok _ _ (by omega),?_⟩
  have bound := s.toNat_lt
  rw [UInt8.toNat_mod,toNat_succ a (by omega)]

theorem containsSequence_iff (s : Nat) (base top seq : UInt8) (baseLt : base.toNat < s)
    (topLt : top.toNat < s) (seqLt : seq.toNat < s) :
    containsSequence base top seq = true ↔
      ahead s base.toNat seq.toNat < ahead s base.toNat top.toNat := by
  simp only [containsSequence,ahead,UInt8.le_iff_toNat_le,UInt8.lt_iff_toNat_lt,← UInt8.toNat_inj]
  split_ifs <;> simp <;> omega

namespace Queue

def packetsAt (q : Queue) (slots : List Nat) : List PacketData :=
  slots.filterMap fun slot => q.content[slot]?.join

structure Valid (q : Queue) : Prop where
  cycle : 2 ≤ q.s.toNat
  slots : q.content.length = q.s.toNat
  base : q.sequenceBase.toNat < q.s.toNat
  top : q.sequenceTop.toNat < q.s.toNat
  syncer : q.syncer.s = q.s
  filled : ∀ label ∈ q.window, ∃ packet, q.content[label]? = some (some packet)

theorem size_toNat (q : Queue) (base : q.sequenceBase.toNat < q.s.toNat) :
    q.size.toNat = ahead q.s.toNat q.sequenceBase.toNat q.sequenceTop.toNat := by
  have bound := q.s.toNat_lt
  unfold size ahead
  by_cases order : q.sequenceBase ≤ q.sequenceTop
  · rw [if_pos order,if_pos (UInt8.le_iff_toNat_le.mp order),UInt8.toNat_sub_of_le _ _ order]
  · have wrapped : ¬ q.sequenceBase.toNat ≤ q.sequenceTop.toNat :=
      fun order' => order (UInt8.le_iff_toNat_le.mpr order')
    rw [if_neg order,if_neg wrapped,UInt8.toNat_add,
      UInt8.toNat_sub_of_le _ _ (UInt8.le_iff_toNat_le.mpr (by omega)),
      Nat.mod_eq_of_lt (by omega)]
    omega

theorem Valid.size {q : Queue} (valid : q.Valid) :
    q.size.toNat = ahead q.s.toNat q.sequenceBase.toNat q.sequenceTop.toNat :=
  size_toNat q valid.base

theorem newQueue_valid (s : UInt8) (cycle : 2 ≤ s.toNat) : (newQueue s).Valid := by
  refine ⟨cycle,?_,?_,?_,rfl,?_⟩
  · simp [newQueue]
  · simp only [newQueue,UInt8.reduceToNat]
    omega
  · simp only [newQueue,UInt8.reduceToNat]
    omega
  · intro label inside
    simp [newQueue,window,Queue.size,labels] at inside

theorem Valid.rebase {q : Queue} (valid : q.Valid) (base : UInt8) (syncer : Syncer)
    (cycle : syncer.s = q.s) (baseLt : base.toNat < q.s.toNat)
    (inside : ahead q.s.toNat q.sequenceBase.toNat base.toNat ≤
      ahead q.s.toNat q.sequenceBase.toNat q.sequenceTop.toNat) :
    Valid {q with sequenceBase := base, syncer := syncer} ∧
      window {q with sequenceBase := base, syncer := syncer} <:+ q.window := by
  have oldBase := valid.base
  have oldTop := valid.top
  have target : (q.sequenceBase.toNat + ahead q.s.toNat q.sequenceBase.toNat base.toNat) % q.s.toNat =
      base.toNat := by
    rw [mod_add_of_lt _ _ _ (ahead_lt _ _ _ oldBase baseLt),Nat.mod_eq_of_lt oldBase]
    unfold ahead
    split <;> split <;> omega
  have remaining : ahead q.s.toNat base.toNat q.sequenceTop.toNat =
      ahead q.s.toNat q.sequenceBase.toNat q.sequenceTop.toNat -
        ahead q.s.toNat q.sequenceBase.toNat base.toNat := by
    unfold ahead at inside ⊢
    split_ifs at inside ⊢ <;> omega
  have suffix : window {q with sequenceBase := base, syncer := syncer} <:+ q.window := by
    have moved := labels_suffix q.s.toNat q.sequenceBase.toNat _ _ inside
    rw [target,← remaining] at moved
    unfold window
    rw [valid.size,size_toNat {q with sequenceBase := base, syncer := syncer} baseLt]
    exact moved
  exact ⟨⟨valid.cycle,valid.slots,baseLt,oldTop,cycle,
    fun label member => valid.filled label (suffix.subset member)⟩,suffix⟩

theorem Valid.addPacket {q : Queue} (valid : q.Valid) (packet : PacketData)
    (room : q.size.toNat + 1 < q.s.toNat) :
    ∃ next, q.addPacket packet = .ok next ∧ next.Valid ∧ next.s = q.s ∧
      next.sequenceBase = q.sequenceBase ∧
      next.sequenceTop.toNat = (q.sequenceTop.toNat + 1) % q.s.toNat ∧
      next.content = q.content.set q.sequenceTop.toNat (some {packet with seq := q.sequenceTop}) ∧
      next.window = q.window ++ [q.sequenceTop.toNat] ∧ q.sequenceTop.toNat ∉ q.window := by
  have base := valid.base
  have top := valid.top
  have slots := valid.slots
  have size := valid.size
  obtain ⟨successor,computed,value⟩ := modulo_succ q.sequenceTop q.s top
  let content := q.content.set q.sequenceTop.toNat (some {packet with seq := q.sequenceTop})
  have successorLt : successor.toNat < q.s.toNat := by
    rw [value]
    exact Nat.mod_lt _ (by omega)
  have grown : ahead q.s.toNat q.sequenceBase.toNat successor.toNat = q.size.toNat + 1 := by
    rw [size] at room ⊢
    rw [value,mod_add_of_lt _ _ _ (by omega),Nat.mod_eq_of_lt top]
    unfold ahead at room ⊢
    split_ifs at room ⊢ <;> omega
  have last : (q.sequenceBase.toNat + q.size.toNat) % q.s.toNat = q.sequenceTop.toNat := by
    rw [mod_add_of_lt _ _ _ (by omega),Nat.mod_eq_of_lt base,size]
    unfold ahead
    split_ifs <;> omega
  have window : window {q with content := content, sequenceTop := successor} =
      q.window ++ [q.sequenceTop.toNat] := by
    unfold Queue.window
    rw [size_toNat {q with content := content, sequenceTop := successor} base]
    change labels q.s.toNat q.sequenceBase.toNat (ahead q.s.toNat q.sequenceBase.toNat successor.toNat) = _
    rw [grown,labels_add]
    simp [labels,last]
  have fresh : q.sequenceTop.toNat ∉ q.window := by
    unfold Queue.window
    rw [mem_labels _ _ _ _ base (by omega),size]
    exact fun inside => Nat.lt_irrefl _ inside.2
  refine ⟨{q with content := content, sequenceTop := successor},?_,?_,rfl,rfl,value,rfl,window,fresh⟩
  · simp [Queue.addPacket,slots,top,computed,content,bind,Except.bind,pure,Except.pure]
  · refine ⟨valid.cycle,by simpa [content] using slots,base,successorLt,valid.syncer,?_⟩
    intro label member
    rw [window] at member
    rcases List.mem_append.mp member with old | new
    · obtain ⟨held,found⟩ := valid.filled label old
      have different : q.sequenceTop.toNat ≠ label := fun same => fresh (same ▸ old)
      exact ⟨held,by simpa [content,List.getElem?_set_ne different] using found⟩
    · have same : label = q.sequenceTop.toNat := by simpa using new
      exact ⟨{packet with seq := q.sequenceTop},by simp [content,same,slots,top]⟩

theorem labels_step (s base top : UInt8) (baseLt : base.toNat < s.toNat) (topLt : top.toNat < s.toNat)
    (apart : base ≠ top) :
    ∃ next, modulo (base + 1) s = .ok next ∧ next.toNat < s.toNat ∧
      ahead s.toNat base.toNat top.toNat = ahead s.toNat next.toNat top.toNat + 1 ∧
      labels s.toNat base.toNat (ahead s.toNat base.toNat top.toNat) =
        base.toNat :: labels s.toNat next.toNat (ahead s.toNat next.toNat top.toNat) := by
  obtain ⟨next,computed,value⟩ := modulo_succ base s baseLt
  have different : base.toNat ≠ top.toNat := fun same => apart (UInt8.toNat_inj.mp same)
  have wrap := mod_add_of_lt s.toNat base.toNat 1 (by omega)
  rw [Nat.mod_eq_of_lt baseLt] at wrap
  have closer : ahead s.toNat base.toNat top.toNat = 1 + ahead s.toNat next.toNat top.toNat := by
    rw [value,wrap]
    unfold ahead
    split_ifs <;> omega
  refine ⟨next,computed,?_,by omega,?_⟩
  · rw [value]
    exact Nat.mod_lt _ (by omega)
  · rw [closer,labels_add,value,labels_mod]
    simp [labels,Nat.mod_eq_of_lt baseLt]

theorem resendLoop_ok (q : Queue) (top : UInt8)
    (topLt : top.toNat < q.s.toNat) (fuel : Nat) (sendPkt : List Bool) (base : UInt8)
    (baseLt : base.toNat < q.s.toNat) (enough : ahead q.s.toNat base.toNat top.toNat < fuel)
    (filled : ∀ label ∈ labels q.s.toNat base.toNat (ahead q.s.toNat base.toNat top.toNat),
      ∃ packet, q.content[label]? = some (some packet)) :
    ∃ sent, q.resendLoop top fuel sendPkt base = .ok sent ∧
      sent.packets <+: q.packetsAt (labels q.s.toNat base.toNat (ahead q.s.toNat base.toNat top.toNat)) ∧
      (sent.failed = false → sent.packets =
        q.packetsAt (labels q.s.toNat base.toNat (ahead q.s.toNat base.toNat top.toNat))) ∧
      ((∀ outcome ∈ sendPkt, outcome = true) → sent.failed = false) := by
  -- Each round takes one label off the window between the index and the top.
  induction fuel generalizing sendPkt base with
  | zero => omega
  | succ fuel ih =>
    by_cases done : base = top
    · subst done
      refine ⟨⟨[],false⟩,by simp [resendLoop],?_⟩
      simp [ahead_self,labels,packetsAt]
    · obtain ⟨next,computed,nextLt,closer,split⟩ := labels_step q.s base top baseLt topLt done
      obtain ⟨packet,held⟩ := filled base.toNat (by rw [split]; simp)
      have fetched : q.resendNext base = .ok (packet,next) := by
        simp [resendNext,held,computed,bind,Except.bind,pure,Except.pure]
      have packets : q.packetsAt (labels q.s.toNat base.toNat (ahead q.s.toNat base.toNat top.toNat)) =
          packet :: q.packetsAt (labels q.s.toNat next.toNat (ahead q.s.toNat next.toNat top.toNat)) := by
        simp [packetsAt,split,held]
      obtain ⟨rest,continued,front,whole,succeeds⟩ := ih sendPkt.tail next nextLt (by omega)
        (fun label member => filled label (by rw [split]; exact List.mem_cons_of_mem _ member))
      have accepted (ok : sendPkt.head? ≠ some false) :
          q.resendLoop top (fuel + 1) sendPkt base = .ok {rest with packets := packet :: rest.packets} := by
        rcases sendPkt with _ | ⟨outcome,later⟩
        · have continued' : q.resendLoop top fuel [] next = .ok rest := continued
          simp [resendLoop,done,fetched,continued',bind,Except.bind,pure,Except.pure]
        · cases outcome with
          | false => simp at ok
          | true =>
            have continued' : q.resendLoop top fuel later next = .ok rest := continued
            simp [resendLoop,done,fetched,continued',bind,Except.bind,pure,Except.pure]
      by_cases refused : sendPkt.head? = some false
      · obtain ⟨later,rfl⟩ : ∃ later, sendPkt = false :: later := by
          rcases sendPkt with _ | ⟨outcome,later⟩
          · simp at refused
          · exact ⟨later,by simpa using refused⟩
        refine ⟨⟨[],true⟩,?_,by simp,by simp,by simp⟩
        simp [resendLoop,done,fetched,bind,Except.bind,pure,Except.pure]
      · refine ⟨_,accepted refused,?_,?_,?_⟩
        · rw [packets]
          exact (List.cons_prefix_cons).mpr ⟨rfl,front⟩
        · intro finished
          rw [packets]
          exact congrArg (packet :: ·) (whole finished)
        · intro all
          exact succeeds fun outcome member => all outcome (List.mem_of_mem_tail member)

/-- The calls made on a queue. `resend` carries what its environment answers. -/
inductive Op where
  | addPacket (packet : PacketData)
  | processACK (seq : UInt8)
  | processNACK (seq : UInt8)
  | resend (recent : Bool) (sendPkt : List Bool)
  deriving DecidableEq, Repr

def apply (q : Queue) : Op → Except Fault Queue
  | .addPacket packet => q.addPacket packet
  | .processACK seq => (q.processACK seq).map (·.2)
  | .processNACK seq => .ok (q.processNACK seq).2
  | .resend recent sendPkt => (q.resend recent sendPkt).map (·.1)

def step (q : Queue) (op : Op) : Option Queue := (q.apply op).toOption

/-- The send loop adds a packet only below the window size. -/
def Guarded (q : Queue) : Op → Prop
  | .addPacket _ => q.size.toNat < q.s.toNat - 1
  | _ => True

def InRange (q : Queue) : Prop :=
  q.sequenceBase.toNat < q.s.toNat ∧ q.sequenceTop.toNat < q.s.toNat

/-- The call panics nowhere and leaves the indices in range, an acknowledgement only
shrinks the window from its old end, and every slot a resend reads holds a packet. -/
def Survives (q : Queue) (op : Op) : Prop :=
  q.InRange ∧ ∃ next, q.apply op = .ok next ∧ next.InRange ∧
    match op with
    | .addPacket _ => True
    | .processACK _ | .processNACK _ => next.window <:+ q.window
    | .resend _ _ => ∀ label ∈ q.window, ∃ packet, q.content[label]? = some (some packet)

/-- A label that no packet can carry is met with a wrapped window, which takes it for
its own; for an ACK the base it leads to must lie outside the window as well. -/
def Harmful (q : Queue) : Op → Prop
  | .processACK seq => q.s ≤ seq ∧ q.sequenceTop < q.sequenceBase ∧
      q.sequenceTop < (seq + 1) % q.s ∧ (seq + 1) % q.s < q.sequenceBase
  | .processNACK seq => q.s ≤ seq ∧ q.sequenceTop < q.sequenceBase
  | _ => False

theorem processACK_syncer (c : Syncer) (seq : UInt8) : (c.processACK seq).s = c.s := by
  unfold Syncer.processACK
  split_ifs <;> rfl

theorem processNACK_syncer (c : Syncer) (seq : UInt8) : (c.processNACK seq).s = c.s := by
  unfold Syncer.processNACK Syncer.reset
  split_ifs <;> rfl

theorem proceedAfterTime_syncer (c : Syncer) : c.proceedAfterTime.s = c.s := by
  dsimp only [Syncer.proceedAfterTime,Syncer.reset]
  split_ifs <;> rfl

theorem Valid.inRange {q : Queue} (valid : q.Valid) : q.InRange := ⟨valid.base,valid.top⟩

theorem Valid.resync {q : Queue} (valid : q.Valid) (syncer : Syncer) (cycle : syncer.s = q.s) :
    Valid {q with syncer := syncer} :=
  ⟨valid.cycle,valid.slots,valid.base,valid.top,cycle,valid.filled⟩

/-- The base an acknowledged label leads to, in range whatever the label is. -/
theorem Valid.after_lt {q : Queue} (valid : q.Valid) (seq : UInt8) :
    ((seq + 1) % q.s).toNat < q.s.toNat := by
  have cycle := valid.cycle
  rw [UInt8.toNat_mod]
  exact Nat.mod_lt _ (by omega)

theorem Valid.after_inside {q : Queue} (valid : q.Valid) (seq : UInt8)
    (found : containsSequence q.sequenceBase q.sequenceTop seq = true)
    (harmless : ¬ q.Harmful (.processACK seq)) :
    ahead q.s.toNat q.sequenceBase.toNat ((seq + 1) % q.s).toNat ≤
      ahead q.s.toNat q.sequenceBase.toNat q.sequenceTop.toNat := by
  have base := valid.base
  have top := valid.top
  have target := valid.after_lt seq
  by_cases small : seq.toNat < q.s.toNat
  · have inside := (containsSequence_iff q.s.toNat _ _ _ base top small).mp found
    have bound := q.s.toNat_lt
    have value : ((seq + 1) % q.s).toNat = (seq.toNat + 1) % q.s.toNat := by
      rw [UInt8.toNat_mod,toNat_succ seq (by omega)]
    rw [value,mod_add_of_lt _ _ _ (by have := valid.cycle; omega),Nat.mod_eq_of_lt small]
    unfold ahead at inside ⊢
    split_ifs at inside ⊢ <;> omega
  · -- Only a wrapped window takes such a label, and then the label is not harmful.
    simp only [Harmful,UInt8.le_iff_toNat_le,UInt8.lt_iff_toNat_lt] at harmless
    simp only [containsSequence,UInt8.le_iff_toNat_le,UInt8.lt_iff_toNat_lt,← UInt8.toNat_inj] at found
    unfold ahead
    split_ifs at found <;> split_ifs <;> omega

theorem Valid.processACK {q : Queue} (valid : q.Valid) (seq : UInt8)
    (harmless : ¬ q.Harmful (.processACK seq)) :
    ∃ answer next, q.processACK seq = .ok (answer,next) ∧ next.Valid ∧ next.window <:+ q.window := by
  unfold Queue.processACK
  by_cases empty : q.size = 0
  · exact ⟨false,q,by simp [empty],valid,List.suffix_refl _⟩
  · rw [if_neg empty]
    have positive : 0 < q.s.toNat := by have := valid.cycle; omega
    have cycle : (q.syncer.processACK seq).s = q.s := (processACK_syncer _ _).trans valid.syncer
    have advance (found : containsSequence q.sequenceBase q.sequenceTop seq = true) :=
      valid.rebase ((seq + 1) % q.s) (q.syncer.processACK seq) cycle (valid.after_lt seq)
        (valid.after_inside seq found harmless)
    by_cases expected : seq = q.sequenceBase
    · have found : containsSequence q.sequenceBase q.sequenceTop seq = true := by
        rw [containsSequence_iff q.s.toNat _ _ _ valid.base valid.top (expected ▸ valid.base),expected,
          ahead_self,← valid.size]
        exact Nat.pos_of_ne_zero fun zero => empty (UInt8.toNat_inj.mp zero)
      refine ⟨true,_,?_,advance found⟩
      simp [processACKLocked,expected,modulo_ok _ _ positive,bind,Except.bind,pure,Except.pure]
    · by_cases found : containsSequence q.sequenceBase q.sequenceTop seq = true
      · refine ⟨true,_,?_,advance found⟩
        simp [processACKLocked,expected,found,modulo_ok _ _ positive,bind,Except.bind,pure,Except.pure]
      · refine ⟨false,{q with syncer := q.syncer.processACK seq},?_,valid.resync _ cycle,
          List.suffix_refl _⟩
        simp [processACKLocked,expected,found,pure,Except.pure]

theorem Valid.processNACK {q : Queue} (valid : q.Valid) (seq : UInt8)
    (harmless : ¬ q.Harmful (.processNACK seq)) :
    (q.processNACK seq).2.Valid ∧ (q.processNACK seq).2.window <:+ q.window := by
  have base := valid.base
  have top := valid.top
  have cycle : (q.syncer.processNACK seq).s = q.s := (processNACK_syncer _ _).trans valid.syncer
  by_cases last : seq = q.sequenceTop
  · have moved := valid.rebase q.sequenceTop (q.syncer.processNACK seq) cycle top (Nat.le_refl _)
    simpa [Queue.processNACK,last] using moved
  · by_cases found : containsSequence q.sequenceBase q.sequenceTop seq = true
    · have small : seq.toNat < q.s.toNat := by
        simp only [Harmful,UInt8.le_iff_toNat_le,UInt8.lt_iff_toNat_lt] at harmless
        simp only [containsSequence,UInt8.le_iff_toNat_le,UInt8.lt_iff_toNat_lt,← UInt8.toNat_inj] at found
        split_ifs at found <;> omega
      have inside := (containsSequence_iff q.s.toNat _ _ _ base top small).mp found
      have moved := valid.rebase seq (q.syncer.processNACK seq) cycle small (by omega)
      simpa [Queue.processNACK,last,found] using moved
    · have unchanged : (q.processNACK seq).2 = {q with syncer := q.syncer.processNACK seq} := by
        simp [Queue.processNACK,last,found]
      rw [unchanged]
      exact ⟨valid.resync _ cycle,List.suffix_refl _⟩

theorem resend_starts (q : Queue) (syncer : q.syncer.s = q.s) (positive : 0 < q.s.toNat) :
    ∃ started, q.syncer.initResendUpTo q.sequenceTop = .ok started ∧ started.s = q.s := by
  let expected := (q.s + q.sequenceTop - 1) % q.s
  refine ⟨{q.syncer with state := .resending, expectedACK := expected, expectedNACK := q.sequenceTop},?_,syncer⟩
  simp [expected,Syncer.initResendUpTo,syncer,modulo_ok _ _ positive,bind,Except.bind,pure,Except.pure]

/-- What a resend puts out: nothing if the last one was too recent, and otherwise the packets of
the window up to the first send that fails. -/
theorem Valid.resend_sent {q : Queue} (valid : q.Valid) (recent : Bool) (sendPkt : List Bool) :
    ∃ syncer sent, q.resend recent sendPkt = .ok ({q with syncer := syncer},sent) ∧
      Valid {q with syncer := syncer} ∧ (recent = true → sent = ⟨[],false⟩) ∧
      (recent = false → sent.packets <+: q.packetsAt q.window ∧
        ((∀ outcome ∈ sendPkt, outcome = true) → sent = ⟨q.packetsAt q.window,false⟩)) := by
  unfold Queue.resend
  by_cases idle : recent = true ∨ q.size = 0 ∨ q.sequenceBase = q.sequenceTop
  · have empty (now : recent = false) : q.packetsAt q.window = [] := by
      have size : q.size.toNat = 0 := by
        rcases idle with late | none_ | same
        · rw [now] at late
          cases late
        · rw [none_]
          rfl
        · rw [valid.size,same,ahead_self]
      simp [window,size,labels,packetsAt]
    refine ⟨q.syncer,⟨[],false⟩,?_,valid,fun _ => rfl,fun now => ?_⟩
    · split_ifs <;> first | rfl | simp_all
    · rw [empty now]
      exact ⟨List.prefix_rfl,fun _ => rfl⟩
  · simp only [not_or] at idle
    rw [if_neg idle.1,if_neg idle.2.1,if_neg idle.2.2]
    have positive := valid.cycle
    obtain ⟨syncer,started,cycle⟩ := q.resend_starts valid.syncer (by omega)
    have resumed := valid.resync syncer cycle
    have short : ahead q.s.toNat q.sequenceBase.toNat q.sequenceTop.toNat < 257 := by
      have close := ahead_lt _ _ _ valid.base valid.top
      have bound := q.s.toNat_lt
      omega
    have window : labels q.s.toNat q.sequenceBase.toNat
        (ahead q.s.toNat q.sequenceBase.toNat q.sequenceTop.toNat) = q.window := by
      rw [← valid.size]
      rfl
    obtain ⟨sent,looped,front,whole,succeeds⟩ := resendLoop_ok {q with syncer := syncer} q.sequenceTop valid.top 257
      sendPkt q.sequenceBase valid.base short (window ▸ valid.filled)
    rw [window] at front whole
    have all (succeed : ∀ outcome ∈ sendPkt, outcome = true) : sent = ⟨q.packetsAt q.window,false⟩ := by
      have failed := succeeds succeed
      rw [← failed,← show sent.packets = q.packetsAt q.window from whole failed]
    refine ⟨if sent.failed then syncer else syncer.reset,sent,?_,?_,fun late => absurd late idle.1,fun _ => ⟨front,all⟩⟩
    · cases failed : sent.failed with
      | true => simp [started,looped,failed,bind,Except.bind,pure,Except.pure]
      | false => simp [started,looped,failed,bind,Except.bind,pure,Except.pure]
    · split_ifs
      · exact resumed
      · exact valid.resync _ cycle

theorem Valid.resend {q : Queue} (valid : q.Valid) (recent : Bool) (sendPkt : List Bool) :
    ∃ syncer sent, q.resend recent sendPkt = .ok ({q with syncer := syncer},sent) ∧
      Valid {q with syncer := syncer} := by
  obtain ⟨syncer,sent,resent,kept,_⟩ := valid.resend_sent recent sendPkt
  exact ⟨syncer,sent,resent,kept⟩

theorem Valid.survives {q : Queue} (valid : q.Valid) (op : Op) (guarded : q.Guarded op)
    (harmless : ¬ q.Harmful op) :
    q.Survives op ∧ ∀ next, q.step op = some next → next.Valid := by
  have kept (next : Queue) (nextValid : next.Valid) (applied : q.apply op = .ok next) :
      ∀ other, q.step op = some other → other.Valid := by
    intro other stepped
    simp only [step,applied,Except.toOption,Option.some.injEq] at stepped
    exact stepped ▸ nextValid
  cases op with
  | addPacket packet =>
    obtain ⟨next,applied,nextValid,_⟩ := valid.addPacket packet (by simp only [Guarded] at guarded; omega)
    exact ⟨⟨valid.inRange,next,applied,nextValid.inRange,trivial⟩,kept next nextValid applied⟩
  | processACK seq =>
    obtain ⟨answer,next,processed,nextValid,suffix⟩ := valid.processACK seq harmless
    have applied : q.apply (.processACK seq) = .ok next := by simp [apply,processed,Except.map]
    exact ⟨⟨valid.inRange,next,applied,nextValid.inRange,suffix⟩,kept next nextValid applied⟩
  | processNACK seq =>
    obtain ⟨nextValid,suffix⟩ := valid.processNACK seq harmless
    exact ⟨⟨valid.inRange,_,rfl,nextValid.inRange,suffix⟩,kept _ nextValid rfl⟩
  | resend recent sendPkt =>
    obtain ⟨syncer,sent,resent,nextValid⟩ := valid.resend recent sendPkt
    have applied : q.apply (.resend recent sendPkt) = .ok {q with syncer := syncer} := by
      simp [apply,resent,Except.map]
    exact ⟨⟨valid.inRange,_,applied,nextValid.inRange,valid.filled⟩,kept _ nextValid applied⟩

theorem Valid.contains_stray {q : Queue} (valid : q.Valid) (seq : UInt8) (large : q.s ≤ seq)
    (wrapped : q.sequenceTop < q.sequenceBase) : containsSequence q.sequenceBase q.sequenceTop seq = true := by
  have base := valid.base
  simp only [containsSequence,UInt8.le_iff_toNat_le,UInt8.lt_iff_toNat_lt,← UInt8.toNat_inj] at large wrapped ⊢
  split_ifs <;> first | omega | rfl

theorem Valid.stray_ack {q next : Queue} (valid : q.Valid) (seq : UInt8) (harmful : q.Harmful (.processACK seq))
    (applied : q.apply (.processACK seq) = .ok next) : q.window.length < next.window.length := by
  have base := valid.base
  obtain ⟨large,wrapped,above,below⟩ := harmful
  have found := valid.contains_stray seq large wrapped
  have positive : 0 < q.s.toNat := by omega
  simp only [UInt8.le_iff_toNat_le,UInt8.lt_iff_toNat_lt] at large wrapped above below
  have empty : q.size ≠ 0 := by
    intro zero
    have size := valid.size
    rw [zero] at size
    unfold ahead at size
    split_ifs at size <;> simp only [UInt8.reduceToNat] at size <;> omega
  have other : seq ≠ q.sequenceBase := by
    rintro rfl
    omega
  have result : next = {q with sequenceBase := (seq + 1) % q.s, syncer := q.syncer.processACK seq} := by
    simpa [apply,Queue.processACK,empty,processACKLocked,other,found,modulo_ok _ _ positive,
      bind,Except.bind,pure,Except.pure,Except.map,eq_comm] using applied
  -- The new base lies between the top and the old base, so the window reaches further back.
  unfold window
  rw [labels_length,labels_length,valid.size,result,
    size_toNat {q with sequenceBase := (seq + 1) % q.s, syncer := q.syncer.processACK seq} (valid.after_lt seq)]
  change ahead q.s.toNat q.sequenceBase.toNat q.sequenceTop.toNat <
    ahead q.s.toNat ((seq + 1) % q.s).toNat q.sequenceTop.toNat
  unfold ahead
  split_ifs <;> omega

theorem Valid.harmful {q : Queue} (valid : q.Valid) (op : Op) (harmful : q.Harmful op) :
    ¬ q.Survives op := by
  rintro ⟨_,next,applied,inRange,kept⟩
  cases op with
  | addPacket packet => exact harmful
  | resend recent sendPkt => exact harmful
  | processACK seq =>
    have longer := valid.stray_ack seq harmful applied
    exact absurd (List.IsSuffix.length_le kept) (by omega)
  | processNACK seq =>
    obtain ⟨large,wrapped⟩ := harmful
    have found := valid.contains_stray seq large wrapped
    have top := valid.top
    simp only [UInt8.le_iff_toNat_le] at large
    have other : seq ≠ q.sequenceTop := by
      rintro rfl
      omega
    have result : next = {q with sequenceBase := seq, syncer := q.syncer.processNACK seq} := by
      simpa [apply,Queue.processNACK,other,found,eq_comm] using applied
    have inside := inRange.1
    rw [result] at inside
    change seq.toNat < q.s.toNat at inside
    omega

theorem Valid.along {q : Queue} (valid : q.Valid) (ops : List Op) (guarded : Along step Guarded q ops) :
    Along step Survives q ops ↔ Along step (fun q op => ¬ q.Harmful op) q ops := by
  induction ops generalizing q with
  | nil => exact Iff.rfl
  | cons op ops ih =>
    obtain ⟨allowed,later⟩ := guarded
    constructor
    · rintro ⟨survived,rest⟩
      have harmless : ¬ q.Harmful op := fun harmful => valid.harmful op harmful survived
      have kept := (valid.survives op allowed harmless).2
      exact ⟨harmless,fun next stepped => (ih (kept next stepped) (later next stepped)).mp (rest next stepped)⟩
    · rintro ⟨harmless,rest⟩
      obtain ⟨survived,kept⟩ := valid.survives op allowed harmless
      exact ⟨survived,fun next stepped => (ih (kept next stepped) (later next stepped)).mpr (rest next stepped)⟩

instance (q : Queue) : (op : Op) → Decidable (q.Guarded op)
  | .addPacket _ => inferInstanceAs (Decidable (_ < _))
  | .processACK _ | .processNACK _ | .resend _ _ => isTrue trivial

instance (q : Queue) : (op : Op) → Decidable (q.Harmful op)
  | .processACK _ => inferInstanceAs (Decidable (_ ∧ _ ∧ _ ∧ _))
  | .processNACK _ => inferInstanceAs (Decidable (_ ∧ _))
  | .addPacket _ | .resend _ _ => isFalse id

/-- A parsed label is any byte. For every cycle length and every sequence of guarded
calls with arbitrary labels, all calls survive exactly when none of them is harmful. -/
theorem survive_iff_harmless (s : UInt8) (cycle : 2 ≤ s) (ops : List Op)
    (guarded : Along step Guarded (newQueue s) ops) :
    (∀ seq, deserialize [ACK,seq] = .ok (.ack seq) ∧ deserialize [NACK,seq] = .ok (.nack seq)) ∧
      (Along step Survives (newQueue s) ops ↔
        Along step (fun q op => ¬ q.Harmful op) (newQueue s) ops) :=
  ⟨deserialize_any_label,(newQueue_valid s (UInt8.le_iff_toNat_le.mp cycle)).along ops guarded⟩

/-- A window of size two that wraps around, and then a NACK for label 200. -/
def wrappedThenStray : List Op :=
  [.addPacket {},.addPacket {},.processACK 0,.addPacket {},.processNACK 200]

theorem survive_wrapped_resend :
    (2 : UInt8) ≤ 3 ∧ Along step Guarded (newQueue 3) (wrappedThenStray.dropLast ++ [.resend false []]) ∧
      Along step Survives (newQueue 3) (wrappedThenStray.dropLast ++ [.resend false []]) :=
  have guarded : Along step Guarded (newQueue 3) (wrappedThenStray.dropLast ++ [.resend false []]) := by
    decide
  ⟨by decide,guarded,(survive_iff_harmless 3 (by decide) _ guarded).2.mpr (by decide)⟩

/-- The stray label becomes the base, and the next resend indexes outside the slots. -/
theorem stray_label_panics :
    Along step Guarded (newQueue 3) wrappedThenStray ∧
      ¬ Along step Survives (newQueue 3) wrappedThenStray ∧
      (run step (newQueue 3) wrappedThenStray).map (·.apply (.resend false [])) =
        some (.error .indexOutOfRange) := by
  have guarded : Along step Guarded (newQueue 3) wrappedThenStray := by decide
  refine ⟨guarded,?_,by decide⟩
  intro survived
  exact absurd (((newQueue_valid 3 (by decide)).along _ guarded).mp survived) (by decide)

end Queue

end NodeConnect.Gbn
