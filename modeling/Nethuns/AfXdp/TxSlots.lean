import Nethuns.AfXdp.TxRing
import Nethuns.Lib.Run

/-!
# The slots of the transmit ring

Between the consumer counter of the kernel and `cached_prod` lie, in this order, the slots that the
kernel can see, those that were handed out and wait for the next `sync`, and those that are still in
the cache. All the counters and lists of `TxRing` describe this one window, which is never longer
than the ring. So its slots are different from each other, and each of the three parts grows at one
end by what it takes from its neighbour.
-/

namespace Nethuns.AfXdp

open Nethuns.Lib

/-- A transmit ring with the history of its slots, which the code does not keep: the slots handed
out since the last `sync`, and those that the kernel has not consumed since they were handed
out. -/
structure SlotTrace where
  ring : TxRing
  fresh : List ℕ
  busy : List ℕ

/-- A call on `TxRingIter`, or the kernel consumes a descriptor. The kernel can consume some
descriptors in the middle of a call of `next` too. -/
inductive SlotAction
  | next (taken : ℕ)
  | sync
  | kernel

/-- The window from the consumer on reaches the producer after the entries in use. -/
theorem XskRing.consumer_add_used (xsk : XskRing XdpDesc) (ahead : UInt32) :
    xsk.consumer + .ofNat (xsk.used + ahead.toNat) = xsk.producer + ahead := by
  simp only [used, UInt32.ofNat_add, UInt32.ofNat_toNat]
  grind

namespace SlotTrace

/-- `TxRing::new`. The slots that the kernel can see already are busy. -/
def new (tx : XskRing XdpDesc) : SlotTrace where
  ring := ⟨tx, [], 0, tx.pending⟩
  fresh := []
  busy := tx.cellsFrom tx.consumer tx.used

/-- `TxRingIter::sync`. -/
def sync (trace : SlotTrace) : SlotTrace := { trace with ring := trace.ring.sync, fresh := [] }

/-- The kernel consumes the oldest descriptor that it can see, if there is one. -/
def take (trace : SlotTrace) : SlotTrace :=
  match trace.ring.kernelTake with
  | none => trace
  | some (_, ring) =>
      { trace with
        ring := ring
        busy := trace.busy.erase (trace.ring.tx.cell trace.ring.tx.consumer) }

def takes (trace : SlotTrace) : ℕ → SlotTrace
  | 0 => trace
  | count + 1 => trace.take.takes count

def handOut (trace : SlotTrace) (cell : ℕ) (ring : TxRing) : SlotTrace where
  ring := ring
  fresh := trace.fresh ++ [cell]
  busy := trace.busy ++ [cell]

/-- `TxRingIter::advance`; `none` is a panic. -/
def advance (trace : SlotTrace) (taken : ℕ) : Option (Option ℕ × SlotTrace) :=
  match trace.ring.popFront with
  | some (cell, ring) => some (some cell, trace.handOut cell ring)
  | none =>
      let trace := trace.sync.takes taken
      trace.ring.reserve.map fun (found, ring) =>
        match found with
        | none => (none, { trace with ring := ring })
        | some cell => (some cell, trace.handOut cell ring)

def step (trace : SlotTrace) : SlotAction → Option SlotTrace
  | .next taken => (trace.advance taken).map Prod.snd
  | .sync => some trace.sync
  | .kernel => some trace.take

/-- The slots over which a `sync` moves the producer counter. -/
def exposes (trace : SlotTrace) : List ℕ :=
  trace.ring.tx.cellsFrom trace.ring.tx.producer
    (trace.ring.sync.tx.producer - trace.ring.tx.producer).toNat

/-- The counters and the cache agree, a `sync` exposes exactly what was handed out since the last
one, and neither exposes what is in the cache nor hands out a slot that is still busy. -/
structure Accounted (trace : SlotTrace) : Prop where
  counters : trace.ring.tx.producer + trace.ring.toFlush + .ofNat trace.ring.cached.length =
    trace.ring.tx.cachedProd
  cached : trace.ring.cached = (List.range trace.ring.cached.length).map fun offset =>
    ((trace.ring.tx.producer + trace.ring.toFlush + .ofNat offset) &&& trace.ring.tx.mask).toNat
  bounded : (trace.ring.tx.cachedProd - trace.ring.tx.consumer).toNat ≤ trace.ring.tx.size.toNat
  exposes_eq : trace.exposes = trace.fresh
  exposes_apart : ∀ cell ∈ trace.exposes, cell ∉ trace.ring.cached
  once : (trace.busy ++ trace.ring.cached).Nodup

/-- The histories are parts of the window. -/
structure Windowed (trace : SlotTrace) : Prop where
  sound : trace.ring.Sound
  fresh : trace.fresh =
    trace.ring.tx.cellsFrom trace.ring.tx.producer trace.ring.toFlush.toNat
  busy : trace.busy =
    trace.ring.tx.cellsFrom trace.ring.tx.consumer (trace.ring.tx.used + trace.ring.toFlush.toNat)

variable {trace : SlotTrace} {tx : XskRing XdpDesc}

theorem new_windowed (producing : tx.Producing 0) : (new tx).Windowed := by
  refine ⟨⟨producing, rfl, ?_⟩, rfl, rfl⟩
  exact List.suffix_refl _

/-! ## The steps -/

theorem Windowed.sync (windowed : trace.Windowed) : trace.sync.Windowed := by
  rcases windowed.sound.sync with ⟨sound, flushed, -, -, -, pending, -⟩
  have used : trace.ring.sync.tx.used = trace.ring.tx.used + trace.ring.toFlush.toNat := by
    have length := congrArg List.length pending
    simpa [XskRing.pending, TxRing.descs, XskRing.span, XskRing.used] using length
  refine ⟨sound, ?_, ?_⟩
  · simp [SlotTrace.sync, flushed, XskRing.cellsFrom]
  · have same : trace.ring.sync.tx.mask = trace.ring.tx.mask ∧
        trace.ring.sync.tx.consumer = trace.ring.tx.consumer := by
      simp only [TxRing.sync]
      split <;> exact ⟨rfl, rfl⟩
    simp only [SlotTrace.sync, flushed, used, same.2, UInt32.toNat_zero, Nat.add_zero,
      windowed.busy]
    exact (XskRing.cellsFrom_congr same.1 _ _).symm

theorem kernelTake_consumer {ring next : TxRing} {desc : XdpDesc}
    (taken : ring.kernelTake = some (desc, next)) :
    next = { ring with tx := { ring.tx with consumer := ring.tx.consumer + 1 } } := by
  simp only [TxRing.kernelTake, Option.map_eq_some_iff, XskRing.kernelTake] at taken
  rcases taken with ⟨result, taken, same⟩
  split at taken
  · simp at taken
  · simp only [Option.some.injEq] at taken
    subst taken
    exact (Prod.mk.inj same).2.symm

theorem Windowed.take (windowed : trace.Windowed) : trace.take.Windowed := by
  cases taken : trace.ring.kernelTake with
  | none => simpa [SlotTrace.take, taken] using windowed
  | some result =>
      rcases result with ⟨desc, ring⟩
      rcases windowed.sound.kernelTake taken with ⟨sound, -, -, -, used, -⟩
      have ring_eq := kernelTake_consumer taken
      subst ring_eq
      have longer : trace.ring.tx.used + trace.ring.toFlush.toNat =
          XskRing.used { trace.ring.tx with consumer := trace.ring.tx.consumer + 1 } +
            trace.ring.toFlush.toNat + 1 := by
        rw [← used, Nat.add_right_comm]
      have busy := windowed.busy
      rw [longer, XskRing.cellsFrom] at busy
      simp only [SlotTrace.take, taken]
      refine ⟨sound, ?_, ?_⟩
      · exact windowed.fresh.trans (XskRing.cellsFrom_congr (by rfl) _ _)
      · simp only [busy, List.erase_cons_head]
        exact XskRing.cellsFrom_congr (by rfl) _ _

theorem Windowed.takes (windowed : trace.Windowed) (count : ℕ) : (trace.takes count).Windowed := by
  induction count generalizing trace with
  | zero => exact windowed
  | succ count ih => exact ih windowed.take

theorem take_same (trace : SlotTrace) :
    trace.take.ring.toFlush = trace.ring.toFlush ∧ trace.take.ring.cached = trace.ring.cached := by
  cases taken : trace.ring.kernelTake with
  | none => simp [SlotTrace.take, taken]
  | some result =>
      have ring_eq := kernelTake_consumer taken
      simp [SlotTrace.take, taken, ring_eq]

theorem takes_same (trace : SlotTrace) (count : ℕ) :
    (trace.takes count).ring.toFlush = trace.ring.toFlush ∧
      (trace.takes count).ring.cached = trace.ring.cached := by
  induction count generalizing trace with
  | zero => exact ⟨rfl, rfl⟩
  | succ count ih =>
      rcases ih trace.take with ⟨flush_eq, cached_eq⟩
      exact ⟨flush_eq.trans trace.take_same.1, cached_eq.trans trace.take_same.2⟩

/-- A slot that is handed out is the one right after the fresh ones and after the busy ones. -/
theorem Windowed.handOut {cell : ℕ} {ring : TxRing} (windowed : trace.Windowed)
    (popped : trace.ring.popFront = some (cell, ring)) : (trace.handOut cell ring).Windowed := by
  have handsOut := windowed.sound.popFront popped
  rcases TxRing.popFront_cases popped with ⟨rest, cached, rfl⟩
  have cells := windowed.sound.cells
  rw [cached, List.length_cons, XskRing.cellsFrom, List.cons.injEq] at cells
  have counted : (trace.ring.toFlush + 1).toNat = trace.ring.toFlush.toNat + 1 := by
    have nonzero := handsOut.counted
    have bound := trace.ring.toFlush.toNat_lt
    simp only [UInt32.toNat_add, UInt32.toNat_one] at nonzero ⊢
    omega
  refine ⟨handsOut.sound, ?_, ?_⟩
  · simp only [SlotTrace.handOut, counted, XskRing.cellsFrom_add, ← windowed.fresh,
      XskRing.cellsFrom, UInt32.ofNat_toNat, ← cells.1]
  · simp only [SlotTrace.handOut, counted, ← Nat.add_assoc, XskRing.cellsFrom_add,
      ← windowed.busy, XskRing.consumer_add_used, XskRing.cellsFrom, ← cells.1]

/-- The histories do not depend on the part of the window that is in the cache. -/
theorem Windowed.with_ring {ring : TxRing} (windowed : trace.Windowed) (sound : ring.Sound)
    (producer : ring.tx.producer = trace.ring.tx.producer)
    (consumer : ring.tx.consumer = trace.ring.tx.consumer)
    (mask : ring.tx.mask = trace.ring.tx.mask) (toFlush : ring.toFlush = trace.ring.toFlush) :
    Windowed { trace with ring := ring } := by
  refine ⟨sound, ?_, ?_⟩
  · simp only [producer, toFlush, windowed.fresh]
    exact (XskRing.cellsFrom_congr mask _ _).symm
  · simp only [XskRing.used, producer, consumer, toFlush, windowed.busy]
    exact (XskRing.cellsFrom_congr mask _ _).symm

theorem Windowed.advance (windowed : trace.Windowed) (taken : ℕ) :
    ∃ found next, trace.advance taken = some (found, next) ∧ next.Windowed := by
  cases popped : trace.ring.popFront with
  | some result =>
      rcases result with ⟨cell, ring⟩
      refine ⟨some cell, trace.handOut cell ring, ?_, windowed.handOut popped⟩
      simp only [SlotTrace.advance, popped]
  | none =>
      have empty := TxRing.popFront_eq_none.mp popped
      rcases windowed.sound.sync with ⟨-, flushed, cached_eq, -⟩
      rcases trace.sync.takes_same taken with ⟨flush_same, cached_same⟩
      have synced := windowed.sync.takes taken
      have nothing : (trace.sync.takes taken).ring.toFlush = 0 := flush_same.trans flushed
      have none_left : (trace.sync.takes taken).ring.cached = [] :=
        cached_same.trans (cached_eq.trans empty)
      rcases synced.sound.reserve_spec nothing none_left with
        ⟨cachedCons, short, sound⟩ | ⟨cachedCons, cell, ring, granted, sound, first⟩
      · refine ⟨none, _, ?_, synced.with_ring sound rfl rfl rfl rfl⟩
        simp only [SlotTrace.advance, popped, short, Option.map_some]
      · refine ⟨some cell, (trace.sync.takes taken).handOut cell ring, ?_, ?_⟩
        · simp only [SlotTrace.advance, popped, granted, Option.map_some]
        · exact (synced.with_ring sound rfl rfl rfl rfl).handOut first

theorem Windowed.step (windowed : trace.Windowed) (action : SlotAction) :
    ∃ next, trace.step action = some next ∧ next.Windowed := by
  cases action with
  | next taken =>
      rcases windowed.advance taken with ⟨found, next, advanced, after⟩
      exact ⟨next, by simp only [SlotTrace.step, advanced, Option.map_some], after⟩
  | sync => exact ⟨trace.sync, rfl, windowed.sync⟩
  | kernel => exact ⟨trace.take, rfl, windowed.take⟩

/-! ## The accounts -/

theorem exposes_of_sync (trace : SlotTrace) :
    trace.exposes = trace.ring.tx.cellsFrom trace.ring.tx.producer trace.ring.toFlush.toNat := by
  have moved : trace.ring.sync.tx.producer - trace.ring.tx.producer = trace.ring.toFlush := by
    simp only [TxRing.sync]
    split
    · rename_i nothing
      simp [nothing]
    · simp only [XskRing.prodSubmit]
      grind
  rw [exposes, moved]

/-- The whole window, from the consumer to `cached_prod`. -/
theorem Windowed.busy_append_cached (windowed : trace.Windowed) :
    trace.busy ++ trace.ring.cached = trace.ring.tx.cellsFrom trace.ring.tx.consumer
      (trace.ring.tx.used + trace.ring.toFlush.toNat + trace.ring.cached.length) := by
  rw [XskRing.cellsFrom_add, ← windowed.busy, XskRing.consumer_add_used, ← windowed.sound.cells]

theorem Windowed.nodup (windowed : trace.Windowed) :
    (trace.busy ++ trace.ring.cached).Nodup := by
  have credit := windowed.sound.producing.credit
  rw [windowed.busy_append_cached]
  apply windowed.sound.producing.wellFormed.nodup_cellsFrom
  omega

theorem Windowed.accounted (windowed : trace.Windowed) : trace.Accounted := by
  have producing := windowed.sound.producing
  have reserved := producing.reserved
  have exposes_eq : trace.exposes = trace.fresh := trace.exposes_of_sync.trans windowed.fresh.symm
  refine ⟨?_, ?_, ?_, exposes_eq, ?_, windowed.nodup⟩
  · rw [reserved, UInt32.ofNat_add, UInt32.ofNat_toNat, UInt32.add_assoc]
  · have cells := windowed.sound.cells
    rwa [XskRing.cellsFrom_eq_map] at cells
  · have credit := producing.credit
    rw [producing.reserved_toNat]
    omega
  · intro cell exposed cached
    have busy : cell ∈ trace.busy := by
      have reached := trace.ring.tx.consumer_add_used 0
      simp only [UInt32.toNat_zero, Nat.add_zero, UInt32.add_zero] at reached
      rw [windowed.busy, XskRing.cellsFrom_add, reached, ← windowed.fresh, ← exposes_eq]
      exact List.mem_append_right _ exposed
    exact List.disjoint_of_nodup_append windowed.nodup busy cached

/-- In every interleaving of the calls with the kernel, from a ring with any counters, nothing
panics and the slots are accounted for. -/
theorem slots_accounted (producing : tx.Producing 0) (actions : List SlotAction) :
    ∃ final, run step (new tx) actions = some final ∧ final.Accounted := by
  have any : RunMeets step (fun _ _ => True) (new tx) actions :=
    runMeets_of_forall fun _ _ _ => trivial
  rcases run_of_step Windowed (fun windowed _ => Windowed.step windowed _)
    (new_windowed producing) any with ⟨final, performed, windowed⟩
  exact ⟨final, performed, windowed.accounted⟩

/-- A ring of 128 slots whose counters are about to wrap. -/
def wrappingRing : XskRing XdpDesc where
  cachedProd := 4294967290
  cachedCons := 122
  mask := 127
  size := 128
  producer := 4294967290
  consumer := 4294967290
  ring := fun _ => ⟨0, 0, 0⟩

theorem slots_accounted_wrapping :
    ∃ final, run step (new wrappingRing) [.next 0, .next 0, .sync, .kernel, .next 0, .next 1] =
        some final ∧ final.Accounted := by
  apply slots_accounted
  exact ⟨⟨⟨7, by decide, rfl⟩, rfl, by decide⟩, rfl, by decide⟩

end SlotTrace

end Nethuns.AfXdp
