import Mathlib.Data.Fintype.Card
import Nethuns.Netmap.Ownership

/-!
# When netmap buffers are lost

`Producer::flush` drops a batch that is not full. A socket calls it once, at its creation, and
the drop of a cloned context calls it again. Nothing else loses a buffer: a channel that was
created for all the extra buffers is never too small for them. So the number of buffers in
circulation stays the same exactly when the number of extra buffers is a multiple of 16 and
every clone is dropped with an empty or a full batch.
-/

namespace Nethuns.Netmap

open Nethuns.Lib Nethuns.Mpsc Nethuns.Api

/-- The buffers from `scan` on are linked through their first word, up to a zero. -/
def Port.Chain (port : Port) (scan : UInt32) : List UInt32 → Prop
  | [] => scan = 0
  | buf :: rest => scan = buf ∧ buf ≠ 0 ∧ port.Chain (readU32 (port.bufs buf.toNat)) rest

theorem Port.Chain.walkChain {port : Port} {scan : UInt32} {extra : List UInt32} {steps : ℕ}
    (chain : port.Chain scan extra) (enough : extra.length < steps) :
    port.walkChain scan steps = some extra := by
  induction extra generalizing scan steps with
  | nil =>
      cases steps with
      | zero => simp at enough
      | succ steps =>
          simp only [Port.Chain] at chain
          simp [Port.walkChain, chain]
  | cons buf rest ih =>
      cases steps with
      | zero => simp at enough
      | succ steps =>
          rcases chain with ⟨rfl, nonzero, linked⟩
          simp only [List.length_cons, Nat.add_lt_add_iff_right] at enough
          simp [Port.walkChain, nonzero, ih linked enough]

theorem Port.Chain.zero_not_mem {port : Port} {scan : UInt32} {extra : List UInt32}
    (chain : port.Chain scan extra) : 0 ∉ extra := by
  induction extra generalizing scan with
  | nil => simp
  | cons buf rest ih =>
      rcases chain with ⟨-, nonzero, linked⟩
      simp only [List.mem_cons, not_or]
      exact ⟨Ne.symm nonzero, ih linked⟩

/-- A chain without repetitions is short enough for the loop of the source. -/
theorem Port.Chain.length_lt {port : Port} {scan : UInt32} {extra : List UInt32}
    (chain : port.Chain scan extra) (distinct : extra.Nodup) : extra.length < 2 ^ 32 := by
  have nodup : ((0 :: extra).map UInt32.toFin).Nodup := by
    apply List.Nodup.map
    · intro left right same
      exact UInt32.toFin_inj.mp same
    · exact List.nodup_cons.mpr ⟨chain.zero_not_mem, distinct⟩
  have bound := nodup.length_le_card
  simp only [List.length_map, List.length_cons, Fintype.card_fin] at bound
  exact bound

theorem Port.Chain.extraBuffersIndexes {port : Port} {extra : List UInt32}
    (chain : port.Chain port.niBufsHead extra) (distinct : extra.Nodup) :
    port.extraBuffersIndexes = some (extra, { port with niBufsHead := 0 }) := by
  simp only [Port.extraBuffersIndexes, chain.walkChain (chain.length_lt distinct), Option.map_some]

/-- After the action the given number of buffers is in circulation. -/
def Conserves (total : ℕ) (sock : Sock) (action : Action) : Prop :=
  ∀ next, sock.step action = some next → next.circulating.card = total

/-- A cloned context that is dropped has an empty or a full batch. -/
def WholeBatches (sock : Sock) : Action → Prop
  | .pool action => (sock.pool.step action).isSome = true → sock.pool.WholeBatch action
  | _ => True

/-- All the buffers are there: as many as there are receive slots, and `extra` in the pool. -/
structure Complete (slots extra : ℕ) (sock : Sock) : Prop where
  intact : sock.Intact
  rxCard : sock.port.rxBufs.card = slots
  held : sock.pool.held.card = extra
  capacity : sock.pool.channel.singleSpscLen = extra

variable {sock next : Sock} {slots extra : ℕ}

theorem Complete.circulating (complete : Complete slots extra sock) :
    sock.circulating.card = slots + extra := by
  simp [Sock.circulating, complete.rxCard, complete.held]

/-- From a complete state, the action keeps the number of buffers unless it drops a clone with a
partial batch. -/
theorem conserves_iff {action : Action} (complete : Complete slots extra sock)
    (kernel : KernelKeeps sock action) (stepped : sock.step action = some next) :
    next.circulating.card = slots + extra ↔ WholeBatches sock action := by
  rcases step_cases complete.intact kernel stepped with ⟨preserved, called⟩ | pooled
  · have whole : WholeBatches sock action := by
      cases action with
      | pool poolAction => exact absurd rfl (called poolAction)
      | _ => trivial
    simp [preserved.circulating, complete.circulating, whole]
  · rcases pooled with ⟨poolAction, pool, discards, rfl, pool_stepped, rfl⟩
    have roomy : sock.pool.held.card ≤ 16 * sock.pool.channel.singleSpscLen := by
      simp only [complete.held, complete.capacity]
      omega
    have lossless := Pool.step_lossless_iff complete.intact.sane roomy pool_stepped
    have balance := congrArg Multiset.card (pool_preserved complete.intact pool_stepped).2
    simp only [Multiset.card_add, complete.circulating] at balance
    simp only [WholeBatches, pool_stepped, Option.isSome_some, true_imp_iff, ← lossless,
      ← Multiset.card_eq_zero]
    omega

theorem conserves_iff_wholeBatches {action : Action} (complete : Complete slots extra sock)
    (kernel : KernelKeeps sock action) :
    Conserves (slots + extra) sock action ↔ WholeBatches sock action := by
  constructor
  · intro conserved
    cases stepped : sock.step action with
    | some next => exact (conserves_iff complete kernel stepped).mp (conserved next stepped)
    | none =>
        cases action with
        | pool poolAction =>
            simp only [Sock.step, Option.map_eq_none_iff] at stepped
            simp [WholeBatches, stepped]
        | _ => trivial
  · intro wholeBatches next stepped
    exact (conserves_iff complete kernel stepped).mpr wholeBatches

theorem step_complete {action : Action} (complete : Complete slots extra sock)
    (kernel : KernelKeeps sock action) (whole : WholeBatches sock action)
    (stepped : sock.step action = some next) : Complete slots extra next := by
  have total := (conserves_iff complete kernel stepped).mpr whole
  rcases step_cases complete.intact kernel stepped with ⟨preserved, -⟩ | pooled
  · have rxCard : next.port.rxBufs.card = slots := preserved.rxCard.trans complete.rxCard
    refine ⟨preserved.intact, rxCard, ?_, preserved.capacity.trans complete.capacity⟩
    simp only [Sock.circulating, Multiset.card_add, rxCard] at total
    omega
  · rcases pooled with ⟨poolAction, pool, discards, rfl, pool_stepped, rfl⟩
    have intact := (pool_preserved complete.intact pool_stepped).1
    refine ⟨intact, complete.rxCard, ?_, ?_⟩
    · simp only [Sock.circulating, Multiset.card_add, complete.rxCard] at total
      exact Nat.add_left_cancel total
    · exact (Pool.step_parameters complete.intact.sane pool_stepped).2.trans complete.capacity

/-- Over every run of a new socket: all the extra buffers are in the free channel at first, and
the number of buffers in circulation never changes, exactly when the extra buffers are a multiple
of 16 and no clone is dropped with a partial batch. -/
theorem buffers_conserved_iff {port : Port} {extra : List UInt32}
    {kernel : (ℕ → NetmapRing) → ℕ → NetmapRing} (index : UInt32) (site : Site)
    (chain : port.Chain port.niBufsHead extra) (distinct : extra.Nodup)
    (keepsBufs : Ioctl.KeepsBufs (some kernel)) :
    ∃ sock, Sock.create port (some kernel) index site = some sock ∧
      ∀ actions, RunMeets Sock.step KernelKeeps sock actions →
        ((sock.pool.channel.contents = ↑(extra.map UInt32.toNat) ∧
            RunMeets Sock.step (Conserves (port.rxBufs.card + extra.length)) sock actions) ↔
          (extra.length % 16 = 0 ∧ RunMeets Sock.step WholeBatches sock actions)) := by
  have walked := chain.extraBuffersIndexes distinct
  rcases Ctx.new_spec extra index site with ⟨pool, -, pool_new, -⟩
  have created : ∃ sock, Sock.create port (some kernel) index site = some sock := by
    simp [Sock.create, walked, Port.sync, pool_new]
  rcases created with ⟨sock, created⟩
  refine ⟨sock, created, ?_⟩
  intro actions trusted
  rcases create_spec keepsBufs created with
    ⟨extra', taken, discards, walked', intact, capacity, free, held, lossless, rxBufs, -⟩
  rw [walked, Option.some.injEq, Prod.mk.injEq] at walked'
  rcases walked' with ⟨rfl, -⟩
  have all_free : sock.pool.channel.contents = ↑(extra.map UInt32.toNat) ↔
      extra.length % 16 = 0 := by
    rw [← lossless, ← held, free]
    simp
  rw [all_free]
  apply and_congr_right
  intro whole
  apply runMeets_iff_of (Complete port.rxBufs.card extra.length) _ _ _ trusted
  · exact conserves_iff_wholeBatches
  · exact step_complete
  · refine ⟨intact, by rw [rxBufs], ?_, capacity⟩
    have all := all_free.mpr whole
    simp [free, all]

theorem buffers_conserved_oneExchange :
    ∃ sock, Sock.create onePacketPort (some id) 0 ⟨0, 0⟩ = some sock ∧
      sock.pool.channel.contents =
        {5, 6, 7, 8, 9, 10, 11, 12, 13, 14, 15, 16, 17, 18, 19, 20} ∧
      RunMeets Sock.step (Conserves 18) sock oneExchange := by
  have chain : onePacketPort.Chain onePacketPort.niBufsHead
      [5, 6, 7, 8, 9, 10, 11, 12, 13, 14, 15, 16, 17, 18, 19, 20] := by
    simp only [Port.Chain]
    decide
  rcases buffers_conserved_iff 0 ⟨0, 0⟩ chain (by decide) Ioctl.id_keepsBufs with
    ⟨sock, created, runs⟩
  have trusted : RunMeets Sock.step KernelKeeps sock oneExchange := by
    apply runMeets_of_forall
    intro action action_mem sock
    exact oneExchange_kernelKeeps sock action_mem
  have whole : RunMeets Sock.step WholeBatches sock oneExchange := by
    apply runMeets_of_forall
    intro action action_mem sock
    simp only [oneExchange, List.mem_cons, List.not_mem_nil, or_false] at action_mem
    rcases action_mem with rfl | rfl | rfl | rfl | rfl | rfl
    all_goals simp [WholeBatches, Pool.WholeBatch]
  rcases (runs oneExchange trusted).mpr ⟨by decide, whole⟩ with ⟨contents, conserved⟩
  exact ⟨sock, created, contents, conserved⟩

/-- The same port with a single extra buffer. -/
def oneBufferPort : Port := { onePacketPort with bufs := fun _ => [0, 0, 0, 0] }

/-- A payload released through a clone that is then dropped. -/
def releaseThroughClone : List Action :=
  [.recvToken (some id), .pool (.cloneCtx 0), .pool (.consume 0 1),
    .pool (.dropPayload 0 ⟨1, 1⟩), .pool (.dropCtx 1 ⟨1, 1⟩)]

/-- A single extra buffer is lost at the creation of the socket, and a buffer released through a
clone is lost with it. -/
theorem buffers_lost :
    (oneBufferPort.Chain oneBufferPort.niBufsHead [5] ∧
        ∃ sock, Sock.create oneBufferPort (some id) 0 ⟨0, 0⟩ = some sock ∧
          sock.pool.channel.contents ≠ {5}) ∧
      ∃ sock final, Sock.create onePacketPort (some id) 0 ⟨0, 0⟩ = some sock ∧
        run Sock.step sock releaseThroughClone = some final ∧ sock.circulating.card = 18 ∧
        final.circulating.card = 17 := by
  have emptied : (Sock.create oneBufferPort (some id) 0 ⟨0, 0⟩).map
      (fun sock => sock.pool.channel.contents.card) = some 0 := by
    decide +kernel
  have leaked : (Sock.create onePacketPort (some id) 0 ⟨0, 0⟩).bind (fun sock =>
      (run Sock.step sock releaseThroughClone).map fun final =>
        (sock.circulating.card, final.circulating.card)) = some (18, 17) := by
    decide +kernel
  refine ⟨⟨?_, ?_⟩, ?_⟩
  · simp only [Port.Chain]
    decide
  · simp only [Option.map_eq_some_iff] at emptied
    rcases emptied with ⟨sock, created, empty⟩
    refine ⟨sock, created, ?_⟩
    intro full
    simp [full] at empty
  · simp only [Option.bind_eq_some_iff, Option.map_eq_some_iff, Prod.mk.injEq] at leaked
    rcases leaked with ⟨sock, created, final, performed, before, after⟩
    exact ⟨sock, final, created, performed, before, after⟩

end Nethuns.Netmap
