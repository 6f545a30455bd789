import Nethuns.AfXdp.Creation
import Nethuns.AfXdp.Transmission

/-!
# The frames in a step of an AF_XDP socket

Two error paths give a frame a second owner: a send that obtains a slot of the transmit ring and
finds no free frame, and a refill that runs out of free frames after it has reserved its entries.
Frames are lost with what a flush throws away. This file accounts for the frames in every step:
those that it loses and those that appear once more, with the conditions under which there are
none.
-/

namespace Nethuns.AfXdp

open Nethuns.Lib Nethuns.Mpsc Nethuns.Api

/-- The refill of a call that receives finds a free frame for each entry that it reserves. -/
def RefillsServed (sock : Sock) : Action → Prop
  | .recvToken before _ | .recv before _ => sock.RecvServed before
  | _ => True

/-- A send that obtains a slot of the transmit ring finds a free frame. -/
def SendsServed (sock : Sock) : Action → Prop
  | .send _ site kernel => ∀ cell middle,
      sock.obtainSlot site kernel = some (some cell, middle) →
        middle.pool.channel.available ≠ 0
  | _ => True

/-- The free channel has room for the frames that the step returns to it, and is flushed with
empty or full batches only. -/
def FlushesWhole (sock : Sock) : Action → Prop
  | .send _ _ kernel => sock.SendWhole kernel
  | .flush _ kernel => sock.FlushWhole kernel
  | .pool action => sock.pool.held.card ≤ 16 * sock.pool.channel.singleSpscLen ∧
      sock.pool.WholeBatch action
  | _ => True

/-- The account of a step: the frames that it loses and those that appear once more. -/
structure Account (flags : AfXdpFlags) (confined : Prop) (sock next : Sock)
    (lost gained : Multiset ℕ) : Prop where
  intact : next.Intact flags confined
  balance : next.frames flags + lost = sock.frames flags + gained
  capacity : next.pool.channel.singleSpscLen = sock.pool.channel.singleSpscLen

variable {flags : AfXdpFlags} {confined : Prop} {index : UInt32} {site : Site}
  {sock next : Sock} {action : Action}

theorem Sock.Moves.account {lost : Multiset ℕ} (moves : Sock.Moves flags confined sock next lost) :
    Account flags confined sock next lost 0 :=
  ⟨moves.intact, by rw [moves.balance, add_zero], moves.capacity⟩

theorem send_account {packet : List UInt8} {kernel : Interleaving} {result : Except Error Unit}
    (intact : sock.Intact flags confined) (fits : flags.Fits)
    (returns : kernel.Returns flags confined)
    (sent : sock.send packet site kernel = some (result, next)) :
    ∃ lost gained, Account flags confined sock next lost gained ∧
      (SendsServed sock (.send packet site kernel) → gained = 0) ∧
      (FlushesWhole sock (.send packet site kernel) → lost = 0) := by
  rcases Sock.send_cases intact returns sent with
    ⟨prior, lost, moves, whole, ⟨-, -, rfl⟩ | ⟨cell, tx, handsOut, obtained, inner⟩⟩
  · exact ⟨lost, 0, moves.account, fun _ => rfl, whole⟩
  · by_cases empty : prior.pool.channel.available = 0
    · rcases Sock.sendInner_of_empty packet moves.intact handsOut empty with
        ⟨pool, failed, intact', frames, capacity⟩
      rw [failed, Prod.mk.injEq] at inner
      rcases inner with ⟨-, rfl⟩
      refine ⟨lost, {flags.frame (prior.tx.tx.ring cell).offset},
        ⟨intact', ?_, capacity.trans moves.capacity⟩, ?_, whole⟩
      · rw [frames, add_right_comm, moves.balance]
      · intro served
        exact absurd empty (served cell { prior with tx := tx } obtained)
    · rcases Channel.pop_isSome (Nat.pos_of_ne_zero empty) with ⟨addr, popped⟩
      rcases Sock.written_spec moves.intact fits handsOut popped with
        ⟨succeeded, intact', addresses, capacity⟩
      rw [succeeded, Prod.mk.injEq] at inner
      rcases inner with ⟨-, rfl⟩
      refine ⟨lost, 0, ⟨intact', ?_, capacity.trans moves.capacity⟩, fun _ => rfl, whole⟩
      rw [Sock.frames, addresses, add_zero]
      exact moves.balance

/-- A step that is not a send only moves frames, and loses at most what is flushed. -/
theorem step_moves (intact : sock.Intact flags confined) (fits : flags.Fits)
    (returns : action.Returns flags confined) (refills : RefillsServed sock action)
    (notSend : ∀ packet site kernel, action ≠ .send packet site kernel)
    (stepped : sock.step action = some next) :
    ∃ lost, Sock.Moves flags confined sock next lost ∧ (FlushesWhole sock action → lost = 0) := by
  cases action with
  | recvToken before after =>
      simp only [Sock.step, Option.map_eq_some_iff] at stepped
      rcases stepped with ⟨⟨result, _⟩, received, rfl⟩
      exact ⟨0, Sock.recvToken_moves intact fits returns refills received, fun _ => rfl⟩
  | recv before after =>
      simp only [Sock.step, Option.map_eq_some_iff] at stepped
      rcases stepped with ⟨⟨result, _⟩, received, rfl⟩
      exact ⟨0, Sock.recv_moves intact fits returns refills received, fun _ => rfl⟩
  | send packet site kernel => exact absurd rfl (notSend packet site kernel)
  | flush site kernel => exact Sock.flush_moves intact returns stepped
  | kernel action => exact ⟨0, Sock.kernelStep_moves intact returns stepped, fun _ => rfl⟩
  | pool action =>
      simp only [Sock.step, Option.map_eq_some_iff] at stepped
      rcases stepped with ⟨⟨pool, discards⟩, pool_stepped, rfl⟩
      refine ⟨_, Sock.pool_moves intact pool_stepped, ?_⟩
      rintro ⟨roomy, whole⟩
      rw [(Pool.step_lossless_iff intact.sane roomy pool_stepped).mpr whole, Multiset.map_zero]
  | writePayload payload bytes =>
      exact ⟨0, Sock.writePayload_moves intact stepped, fun _ => rfl⟩

theorem step_account (intact : sock.Intact flags confined) (fits : flags.Fits)
    (returns : action.Returns flags confined) (refills : RefillsServed sock action)
    (stepped : sock.step action = some next) :
    ∃ lost gained, Account flags confined sock next lost gained ∧
      (SendsServed sock action → gained = 0) ∧
      (FlushesWhole sock action → lost = 0) := by
  by_cases sends : ∃ packet site kernel, action = .send packet site kernel
  · rcases sends with ⟨packet, site, kernel, rfl⟩
    simp only [Sock.step, Option.map_eq_some_iff] at stepped
    rcases stepped with ⟨⟨result, _⟩, sent, rfl⟩
    exact send_account intact fits returns sent
  · push Not at sends
    rcases step_moves intact fits returns refills sends stepped with ⟨lost, moves, whole⟩
    exact ⟨lost, 0, moves.account, fun _ => rfl, whole⟩

end Nethuns.AfXdp
