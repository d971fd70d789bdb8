import NodeConnect.Lib.Pool

/-! Connections that follow one another. Each has a key, which names the streams it uses. The next
one is begun only when the last one that was made is closed; it takes over the key, unless the last
one is forgotten. So no two of them are ever live at the same time. -/
namespace NodeConnect.Lib

inductive Phase where
  | making
  | running
  | closing
  | closed
  | failed
  deriving DecidableEq, Repr

namespace Phase

def live : Phase → Bool
  | making | running | closing => true
  | closed | failed => false

/-- It has been made, and did not fail before. -/
def made : Phase → Bool
  | running | closing | closed => true
  | making | failed => false

end Phase

structure Member (Key : Type) where
  key : Key
  phase : Phase := .making

/-- Whether the next connection can be begun, as the last one is over, or is being made. -/
inductive Stage where
  | resting
  | ended
  | making (i : Nat)
  deriving DecidableEq, Repr

/-- The members in the order in which they were begun, and which one was made last and is not forgotten. -/
structure Succession (Key : Type) where
  key : Key
  kept : Option Nat
  stage : Stage
  members : List (Member Key)

namespace Succession

variable {Key : Type}

inductive Step (s : Succession Key) : Succession Key → Prop
  | still : Step s s
  | rests (past : s.stage = .ended) : Step s {s with stage := .resting}
  | ends (closed : ∀ i m, s.kept = some i → s.members[i]? = some m → m.phase = .closed) (resting : s.stage = .resting) :
    Step s {s with stage := .ended}
  | begins (past : s.stage = .ended) (key : Key) :
    Step s ⟨key,none,.making s.members.length,s.members ++ [⟨key,.making⟩]⟩
  | refreshes (past : s.stage = .ended) {i : Nat} {m : Member Key} (kept : s.kept = some i) (found : s.members[i]? = some m) :
    Step s {s with stage := .making s.members.length, members := s.members ++ [⟨m.key,.making⟩]}
  | makes {i : Nat} {m : Member Key} (making : s.stage = .making i) (found : s.members[i]? = some m) :
    Step s {s with kept := some i, stage := .resting, members := s.members.set i {m with phase := .running}}
  | fails {i : Nat} {m : Member Key} (making : s.stage = .making i) (found : s.members[i]? = some m) :
    Step s {s with stage := .resting, members := s.members.set i {m with phase := .failed}}
  | closing {i : Nat} {m : Member Key} (found : s.members[i]? = some m) (running : m.phase = .running) :
    Step s {s with members := s.members.set i {m with phase := .closing}}
  | closes {i : Nat} {m : Member Key} (found : s.members[i]? = some m) (closing : m.phase = .closing) :
    Step s {s with members := s.members.set i {m with phase := .closed}}

/-- The only member that can be live. -/
def current (s : Succession Key) : Option Nat :=
  match s.stage with
  | .making i => some i
  | .resting | .ended => s.kept

structure Sound (s : Succession Key) : Prop where
  only : Pool.Only (fun m => m.phase.live) s.members s.current
  kept : ∀ i, s.kept = some i → ∃ m, s.members[i]? = some m ∧ m.phase.made = true ∧ m.key = s.key
  making : ∀ i, s.stage = .making i → ∃ m, s.members[i]? = some m ∧ m.phase = .making ∧ m.key = s.key
  spent : s.stage ≠ .resting → ∀ i m, s.kept = some i → s.members[i]? = some m → m.phase = .closed

variable {s s' : Succession Key}

theorem sound_empty (key : Key) : Sound ⟨key,none,.resting,[]⟩ :=
  ⟨by simp [Pool.Only],by simp,by simp,by simp⟩

/-- Nothing is live when the last connection is over. -/
theorem Sound.start (sound : s.Sound) (past : s.stage = .ended) (new : Member Key) :
    Pool.Only (fun m => m.phase.live) (s.members ++ [new]) (some s.members.length) := by
  refine sound.only.start ?_ new
  intro i m current found
  have kept : s.kept = some i := by simpa [Succession.current,past] using current
  rw [sound.spent (by simp [past]) i m kept found]
  rfl

/-- A connection that has been made moves on to its end. -/
theorem Sound.move (sound : s.Sound) {i : Nat} {m : Member Key} {phase : Phase} (found : s.members[i]? = some m)
    (live : m.phase.live = true) (made : m.phase.made = true) (made' : phase.made = true) :
    Sound {s with members := s.members.set i {m with phase}} := by
  have current : s.current = some i := sound.only i m found live
  refine ⟨sound.only.move fun _ => current,?_,?_,?_⟩
  · intro j kept
    obtain ⟨m',found',isMade,key⟩ := sound.kept j kept
    by_cases same : j = i
    · subst same
      cases Option.some.inj (found.symm.trans found')
      exact ⟨_,Pool.getElem?_moved found _,made',key⟩
    · exact ⟨m',Pool.getElem?_unmoved found' same _,isMade,key⟩
  · intro j making
    obtain ⟨m',found',isMaking,key⟩ := sound.making j making
    by_cases same : j = i
    · subst same
      cases Option.some.inj (found.symm.trans found')
      rw [isMaking] at made
      contradiction
    · exact ⟨m',Pool.getElem?_unmoved found' same _,isMaking,key⟩
  · intro busy j m' kept found'
    rcases Pool.getElem?_move found' with ⟨rfl,_⟩ | ⟨_,before⟩
    · rw [sound.spent busy j m kept found] at live
      contradiction
    · exact sound.spent busy j m' kept before

theorem Sound.step (sound : s.Sound) (step : s.Step s') : s'.Sound := by
  cases step with
  | still => exact sound
  | rests past =>
    have current : s.current = s.kept := by rw [Succession.current,past]
    exact ⟨current ▸ sound.only,sound.kept,by simp,by simp⟩
  | ends closed resting =>
    have current : s.current = s.kept := by rw [Succession.current,resting]
    exact ⟨current ▸ sound.only,sound.kept,by simp,fun _ => closed⟩
  | begins past key =>
    refine ⟨sound.start past _,by simp,?_,by simp⟩
    rintro i ⟨⟩
    exact ⟨_,List.getElem?_concat_length,rfl,rfl⟩
  | refreshes past kept found =>
    refine ⟨sound.start past _,?_,?_,?_⟩
    · intro i kept
      obtain ⟨m,found,facts⟩ := sound.kept i kept
      exact ⟨m,Pool.getElem?_start found _,facts⟩
    · rintro i ⟨⟩
      obtain ⟨m,found',_,key⟩ := sound.kept _ kept
      cases Option.some.inj (found.symm.trans found')
      exact ⟨_,List.getElem?_concat_length,rfl,key⟩
    · intro _ i m kept found
      obtain ⟨m',found',_⟩ := sound.kept i kept
      cases Option.some.inj (found.symm.trans (Pool.getElem?_start found' _))
      exact sound.spent (by simp [past]) i m kept found'
  | @makes i m making found =>
    obtain ⟨m',found',_,key⟩ := sound.making i making
    cases Option.some.inj (found.symm.trans found')
    have current : s.current = some i := by rw [Succession.current,making]
    refine ⟨?_,?_,by simp,by simp⟩
    · exact current ▸ sound.only.move fun _ => current
    · rintro j ⟨⟩
      exact ⟨_,Pool.getElem?_moved found _,rfl,key⟩
  | @fails i m making found =>
    obtain ⟨m',found',isMaking,_⟩ := sound.making i making
    cases Option.some.inj (found.symm.trans found')
    have current : s.current = some i := by rw [Succession.current,making]
    refine ⟨?_,?_,by simp,by simp⟩
    · intro j other foundOther lives
      rcases Pool.getElem?_move foundOther with ⟨_,rfl⟩ | ⟨apart,before⟩
      · contradiction
      · exact absurd (Option.some.inj ((sound.only j other before lives).symm.trans current)) apart
    · intro j kept
      obtain ⟨keptMember,foundKept,made,key⟩ := sound.kept j kept
      have apart : j ≠ i := by
        rintro rfl
        rw [← Option.some.inj (found.symm.trans foundKept),isMaking] at made
        contradiction
      exact ⟨keptMember,Pool.getElem?_unmoved foundKept apart _,made,key⟩
  | closing found running => exact sound.move found (by rw [running]; rfl) (by rw [running]; rfl) rfl
  | closes found closing => exact sound.move found (by rw [closing]; rfl) (by rw [closing]; rfl) rfl

/-- Every live connection has the current key. -/
theorem Sound.live (sound : s.Sound) {i : Nat} {m : Member Key} (found : s.members[i]? = some m) (live : m.phase.live = true) :
    m.key = s.key := by
  have current := sound.only i m found live
  unfold Succession.current at current
  split at current
  · rename_i j making
    obtain ⟨m',found',_,key⟩ := sound.making j making
    cases Option.some.inj current
    cases Option.some.inj (found.symm.trans found')
    exact key
  · obtain ⟨m',found',_,key⟩ := sound.kept i current
    cases Option.some.inj (found.symm.trans found')
    exact key
  · obtain ⟨m',found',_,key⟩ := sound.kept i current
    cases Option.some.inj (found.symm.trans found')
    exact key

end Succession

end NodeConnect.Lib
