import Mathlib.Data.List.Basic

/-! Messages cut into frames. A frame carries a piece of a message and a flag that is set
on its last piece. Reading frames needs one accumulator: the pieces since the last
flag. -/
namespace NodeConnect.Lib

variable {α : Type}

/-- The messages that frames complete, given what is already accumulated, and what stays behind. -/
def deframe : List α → List (List α × Bool) → List (List α) × List α
  | acc, [] => ([],acc)
  | acc, (piece,true) :: frames =>
    let (messages,left) := deframe [] frames
    ((acc ++ piece) :: messages,left)
  | acc, (piece,false) :: frames => deframe (acc ++ piece) frames

theorem deframe_append (acc : List α) (frames more : List (List α × Bool)) :
    deframe acc (frames ++ more) =
      ((deframe acc frames).1 ++ (deframe (deframe acc frames).2 more).1,(deframe (deframe acc frames).2 more).2) := by
  induction frames generalizing acc with
  | nil => rfl
  | cons frame frames ih =>
    obtain ⟨piece,last⟩ := frame
    cases last with
    | true => simp [deframe,ih]
    | false => simp [deframe,ih]

theorem deframe_isPrefix (acc : List α) {frames longer : List (List α × Bool)} (before : frames <+: longer) :
    (deframe acc frames).1 <+: (deframe acc longer).1 := by
  obtain ⟨more,rfl⟩ := before
  rw [deframe_append]
  exact List.prefix_append _ _

/-- The frames are a message cut into pieces. -/
inductive Framed : List α → List (List α × Bool) → Prop
  | last (piece : List α) : Framed piece [(piece,true)]
  | more (piece rest : List α) (frames : List (List α × Bool)) (framed : Framed rest frames) :
      Framed (piece ++ rest) ((piece,false) :: frames)

namespace Framed

variable {message : List α} {frames : List (List α × Bool)}

theorem deframe_cons (framed : Framed message frames) (acc : List α) (more : List (List α × Bool)) :
    deframe acc (frames ++ more) = ((acc ++ message) :: (deframe [] more).1,(deframe [] more).2) := by
  induction framed generalizing acc with
  | last piece => rfl
  | more piece rest frames _ ih =>
    rw [List.cons_append,deframe,ih,List.append_assoc]

/-- Exactly the last frame is flagged. -/
theorem flags (framed : Framed message frames) :
    ∃ before piece, frames = before ++ [(piece,true)] ∧ ∀ frame ∈ before, frame.2 = false := by
  induction framed with
  | last piece => exact ⟨[],piece,rfl,nofun⟩
  | more piece rest frames _ ih =>
    obtain ⟨before,final,rfl,unflagged⟩ := ih
    refine ⟨(piece,false) :: before,final,rfl,fun frame member => ?_⟩
    rcases List.mem_cons.mp member with rfl | inside
    · rfl
    · exact unflagged frame inside

/-- Frames of messages that follow one another are read back as these messages. -/
theorem deframe_flatMap (cut : List α → List (List α × Bool)) (messages : List (List α))
    (framed : ∀ message ∈ messages, Framed message (cut message)) :
    deframe [] (messages.flatMap cut) = (messages,[]) := by
  induction messages with
  | nil => rfl
  | cons message messages ih =>
    rw [List.flatMap_cons,(framed message List.mem_cons_self).deframe_cons,
      ih fun other member => framed other (List.mem_cons_of_mem _ member)]
    rfl

end Framed

end NodeConnect.Lib
