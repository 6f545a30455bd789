import Nethuns.AfXdp.Ownership

/-!
# When AF_XDP frames are lost

A frame is lost when a batch of the free channel is flushed that is neither empty nor full. A
socket flushes its own batch at its creation and whenever it finds completed frames, and a cloned
context flushes its batch when it is dropped. This file shows that all the frames stay where they
can be found in the runs that flush whole batches only and in which no refill runs out of frames
after it has reserved its entries. A send that fails does not matter here: it makes a frame appear
once more and loses none.
-/

namespace Nethuns.AfXdp

open Nethuns.Lib Nethuns.Mpsc Nethuns.Api

/-- No refill runs out of frames, and no batch is flushed that is neither empty nor full. -/
def Whole (sock : Sock) (action : Action) : Prop :=
  RefillsServed sock action ∧ FlushesWhole sock action

/-- The socket is in order and each of its frames is in some place. -/
def Complete (flags : AfXdpFlags) (sock : Sock) : Prop :=
  sock.Intact flags False ∧ ∀ frame < flags.numFrames.toNat, frame ∈ sock.frames flags

variable {flags : AfXdpFlags} {index : UInt32} {site : Site} {sock next : Sock} {action : Action}

theorem step_complete (fits : flags.Fits) (complete : Complete flags sock)
    (returns : action.Returns flags False) (whole : Whole sock action)
    (stepped : sock.step action = some next) :
    Complete flags next := by
  rcases complete with ⟨intact, present⟩
  rcases step_account intact fits returns whole.1 stepped with ⟨lost, gained, account, -, none_lost⟩
  have balance := account.balance
  rw [none_lost whole.2, add_zero] at balance
  refine ⟨account.intact, ?_⟩
  intro frame exists_frame
  rw [balance]
  exact Multiset.mem_add.mpr (Or.inl (present frame exists_frame))

/-- The frames of a new socket are all there exactly when they are a multiple of 16. -/
theorem Sock.Fresh.complete_iff (fresh : sock.Fresh flags) :
    Complete flags sock ↔ flags.numFrames.toNat % 16 = 0 := by
  rcases fresh.frames with ⟨lost, frames, lossless⟩
  rw [← lossless]
  constructor
  · rintro ⟨-, present⟩
    apply Multiset.eq_zero_of_forall_notMem
    intro frame missing
    have all : frame ∈ (↑(List.range flags.numFrames.toNat) : Multiset ℕ) := by
      rw [← frames]
      exact Multiset.mem_add.mpr (Or.inr missing)
    have held := present frame (List.mem_range.mp (Multiset.mem_coe.mp all))
    have nodup : (sock.frames flags + lost).Nodup := by
      rw [frames]
      exact List.nodup_range
    exact Multiset.disjoint_left.mp (Multiset.nodup_add.mp nodup).2.2 held missing
  · intro none_lost
    rw [none_lost, add_zero] at frames
    refine ⟨fresh.intact.weaken, ?_⟩
    intro frame exists_frame
    rw [frames]
    exact Multiset.mem_coe.mpr (List.mem_range.mpr exists_frame)

/-- In every run of a socket with a multiple of 16 frames, in any interleaving with the users and
with a kernel that returns the frames that it takes: as long as only whole batches are flushed and
no refill runs out of free frames, each frame is in a place from which it can come back. Nothing is
assumed of the lengths of the received packets. -/
theorem frames_retained {final : Sock} {actions : List Action} (fits : flags.Fits)
    (multiple : flags.numFrames.toNat % 16 = 0)
    (created : Sock.create flags index site = some sock)
    (returns : ∀ action ∈ actions, action.Returns flags False)
    (whole : RunMeets Sock.step Whole sock actions)
    (performed : run Sock.step sock actions = some final) :
    ∀ frame < flags.numFrames.toNat, frame ∈ final.frames flags := by
  have complete : Complete flags final :=
    run_invariant (Complete flags)
      (fun complete condition => step_complete fits complete condition.2 condition.1)
      ((Sock.create_fresh created fits).complete_iff.mpr multiple)
      (whole.and (runMeets_of_forall fun action member _ => returns action member)) performed
  exact complete.2

theorem frames_retained_sixteenSends :
    ∃ sock final, Sock.create largeFlags 0 ⟨0, 0⟩ = some sock ∧
      run Sock.step sock sixteenSends = some final ∧
      ∀ frame < 4096, frame ∈ final.frames largeFlags := by
  rcases largeFlags_sixteenSends with ⟨sock, final, created, passes⟩
  have whole : Passes Sock.step Whole sock sixteenSends final :=
    passes.imp fun orderly => ⟨orderly.1, orderly.2.2⟩
  refine ⟨sock, final, created, passes.performed,
    frames_retained (by decide) (by decide) created ?_ whole.meets passes.performed⟩
  intro action _
  exact (show largeFlags.Chunked by decide).returns action

/-- A socket with 8 frames is created, and none of them is anywhere. -/
theorem create_loses_frames :
    ∃ sock, Sock.create ⟨8, 4096⟩ 0 ⟨0, 0⟩ = some sock ∧
      ∀ frame < 8, frame ∉ sock.frames ⟨8, 4096⟩ := by
  have created : (Sock.create ⟨8, 4096⟩ 0 ⟨0, 0⟩).map Sock.addresses = some 0 := by
    decide +kernel
  rcases Option.map_eq_some_iff.mp created with ⟨sock, created, nothing⟩
  refine ⟨sock, created, ?_⟩
  simp [Sock.frames, nothing]

end Nethuns.AfXdp
