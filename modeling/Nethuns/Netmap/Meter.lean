import Nethuns.Mpsc.Delivery
import Nethuns.Netmap.Exhaustion

/-!
# The receive meter on netmap

`meter2` clones the context of each socket 63 times, and turns every token into a payload with the
next of these clones; the payload is dropped at once. A dropped buffer stays in the batch of its
clone until 17 buffers were dropped through this clone. With one netmap socket the clones keep up
to 1008 buffers back, and this file determines what that means for the meter: with more free
buffers a receive always finds one, with fewer the meter stops for ever after it has received as
many packets as there were free buffers.
-/

namespace Nethuns.Netmap

open Nethuns.Lib Nethuns.Mpsc Nethuns.Api

/-- `ctxs.len()`. -/
def clones : ℕ := 64 - 1

/-- `BULK`. -/
def bulk : UInt64 := 10000

/-- `meter2` on one socket: its contexts are the handles from 1 on. -/
structure Meter where
  sock : Sock
  j : ℕ
  localCounter : UInt64
  total : UInt64

/-- An iteration of the loop: what the kernel does, and where the payload is dropped. -/
structure MeterAction where
  ioctl : Ioctl
  site : Site

/-- Clones the context of the socket. -/
def cloneContexts (pool : Pool) : ℕ → Option Pool
  | 0 => some pool
  | count + 1 => (pool.cloneCtx 0).bind fun pool => cloneContexts pool count

namespace Meter

/-- The meter before its first iteration. -/
def new (sock : Sock) : Option Meter :=
  (cloneContexts sock.pool clones).map fun pool => ⟨{ sock with pool := pool }, 0, 0, 0⟩

/-- What the loop does with a token: it counts it, and makes and drops a payload. -/
def count (meter : Meter) (sock : Sock) (site : Site) : Option Meter :=
  let counter := meter.localCounter + 1
  (sock.pool.consume (sock.pool.tokens.length - 1) (1 + meter.j)).bind fun pool =>
    (pool.dropPayload (pool.payloads.length - 1) site).map fun (pool, _) =>
      { sock := { sock with pool := pool }
        j := (meter.j + 1) % clones
        localCounter := if counter = bulk then 0 else counter
        total := if counter = bulk then meter.total + counter else meter.total }

def step (meter : Meter) (action : MeterAction) : Option Meter :=
  (meter.sock.recvToken action.ioctl).bind fun (result, sock) =>
    match result with
    | .error _ => some { meter with sock := sock }
    | .ok () => meter.count sock action.site

end Meter

/-! ## Receives and the pool -/

section Receive

variable {sock next : Sock} {ioctl : Ioctl} {result : Except Error Unit}

/-- What a receive does to the pool. -/
inductive Took (pool : Pool) : Except Error Unit → Pool → Prop
  | nothing (error : Error) : Took pool (.error error) pool
  | exhausted (error : Error) (empty : pool.channel.pop.1 = none) :
      Took pool (.error error) pool.popped
  | exchanged (free idx : ℕ) (len : UInt32) (popped : pool.channel.pop.1 = some free) :
      Took pool (.ok ()) (pool.popped.give idx len)

theorem recvInner_took {buf : RxBuf} (received : sock.recvInner buf = some (result, next)) :
    Took sock.pool result next.pool := by
  simp only [Sock.recvInner, Option.map_eq_some_iff] at received
  rcases received with ⟨slot, -, received⟩
  cases popped : sock.pool.channel.pop with
  | mk free channel =>
      cases free with
      | none =>
          simp only [popped, Prod.mk.injEq] at received
          rcases received with ⟨rfl, rfl⟩
          have same : sock.pool.popped = { sock.pool with channel := channel } := by
            rw [Pool.popped, popped]
          exact same ▸ .exhausted _ (by rw [popped])
      | some free =>
          simp only [popped, Prod.mk.injEq] at received
          rcases received with ⟨rfl, rfl⟩
          have same : sock.pool.popped = { sock.pool with channel := channel } := by
            rw [Pool.popped, popped]
          exact same ▸ .exchanged free _ _ (by rw [popped])

theorem recvToken_took (received : sock.recvToken ioctl = some (result, next)) :
    Took sock.pool result next.pool := by
  simp only [Sock.recvToken, Option.bind_eq_some_iff] at received
  rcases received with ⟨⟨found, rx, port⟩, -, received⟩
  cases found with
  | some buf => exact @recvInner_took { sock with rx := rx, port := port } _ _ _ received
  | none =>
      simp only [Option.bind_eq_some_iff] at received
      rcases received with ⟨⟨reset, synced⟩, -, ⟨again, rx', port'⟩, -, received⟩
      cases again with
      | some buf =>
          exact @recvInner_took { sock with rx := rx', port := port', replaced := [] } _ _ _
            received
      | none =>
          simp only [Option.some.injEq, Prod.mk.injEq] at received
          rcases received with ⟨rfl, rfl⟩
          exact .nothing _

end Receive

/-! ## The batches of the clones -/

section Batches

variable {channel next : Channel} {site : Site} {handle value : ℕ} {discards : List Discard}

theorem batches_length_le (producers : List (Option (ArrayVec ℕ 16))) :
    (producers.flatMap fun producer => producer.elim [] ArrayVec.elems).length ≤
      16 * producers.length := by
  induction producers with
  | nil => exact Nat.le_refl 0
  | cons producer producers ih =>
      have one : (producer.elim [] ArrayVec.elems).length ≤ 16 := by
        cases producer with
        | none => exact Nat.zero_le 16
        | some batch => exact batch.length_le
      simp only [List.flatMap_cons, List.length_append, List.length_cons]
      omega

/-- Handles other than that of the socket keep back what they have room for. -/
theorem batchedValues_length_le (own : channel.batch? 0 = some .new) :
    channel.batchedValues.length + 16 ≤ 16 * channel.producers.length := by
  have first := Channel.batch?_eq_some.mp own
  cases all : channel.producers with
  | nil => simp [all] at first
  | cons producer producers =>
      simp only [all, List.getElem?_cons_zero, Option.some.injEq] at first
      have others := batches_length_le producers
      simp only [Channel.batchedValues, all, first, List.flatMap_cons, Option.elim_some,
        ArrayVec.new, List.nil_append, List.length_cons]
      omega

/-- A push through another handle leaves the batch of a handle. -/
theorem push_batch?_ne {other : ℕ} (different : other ≠ handle)
    (pushed : channel.push handle site value = some (next, discards)) :
    next.batch? other = channel.batch? other := by
  rcases Channel.push_producers pushed with ⟨old, grown, -, producers, -, -⟩
  simp only [Channel.batch?, producers, List.getElem?_set_ne different.symm]

theorem cloneContexts_spec {pool cloned : Pool} {count : ℕ}
    (made : cloneContexts pool count = some cloned) :
    cloned = { pool with channel := { pool.channel with
      producers := pool.channel.producers ++ List.replicate count (some .new) } } := by
  induction count generalizing pool with
  | zero =>
      rw [cloneContexts, Option.some.injEq] at made
      simp [← made]
  | succ count ih =>
      simp only [cloneContexts, Pool.cloneCtx, Option.bind_eq_some_iff,
        Option.map_eq_some_iff] at made
      rcases made with ⟨_, ⟨channel, copied, rfl⟩, rest⟩
      rw [ih rest, Channel.clone_eq_some copied]
      simp [List.replicate_succ]

end Batches

namespace Meter

/-- What holds between two iterations, with as many free buffers as at the start and after as many
packets as given. -/
structure Parked (free received : ℕ) (meter : Meter) : Prop where
  tokens : meter.sock.pool.tokens = []
  payloads : meter.sock.pool.payloads = []
  wellFormed : meter.sock.pool.channel.WellFormed
  room : free ≤ 16 * meter.sock.pool.channel.singleSpscLen
  card : meter.sock.pool.channel.contents.card = free
  handles : meter.sock.pool.channel.producers.length = 1 + clones
  own : meter.sock.pool.channel.batch? 0 = some .new
  turn : meter.j = received % clones

/-- The batches as long as none of them was flushed. -/
structure Filling (free received : ℕ) (meter : Meter) : Prop where
  available : meter.sock.pool.channel.available + received = free
  batches : ∀ clone < clones, ∃ batch, meter.sock.pool.channel.batch? (1 + clone) = some batch ∧
    batch.elems.length = (received + 62 - clone) / 63
  total : meter.total = 0
  counted : meter.localCounter.toNat = received

variable {meter next final : Meter} {action : MeterAction} {free received : ℕ}

/-- An iteration leaves the channel, pops in vain, or pops a buffer and pushes another one; with
the number of packets that it receives. -/
inductive Iterates (meter next : Meter) (site : Site) : ℕ → Prop
  | nothing (channel : next.sock.pool = meter.sock.pool) (same : next.j = meter.j)
      (total : next.total = meter.total) (counted : next.localCounter = meter.localCounter) :
      Iterates meter next site 0
  | exhausted (empty : meter.sock.pool.channel.pop.1 = none)
      (channel : next.sock.pool = meter.sock.pool.popped) (same : next.j = meter.j)
      (total : next.total = meter.total) (counted : next.localCounter = meter.localCounter) :
      Iterates meter next site 0
  | exchanged (taken idx : ℕ) (channel : Channel) (discards : List Discard)
      (popped : meter.sock.pool.channel.pop.1 = some taken)
      (pushed : meter.sock.pool.channel.pop.2.push (1 + meter.j) site idx =
        some (channel, discards))
      (pool : next.sock.pool = { meter.sock.pool with channel := channel })
      (turned : next.j = (meter.j + 1) % clones)
      (total : next.total =
        if meter.localCounter + 1 = bulk then meter.total + (meter.localCounter + 1)
        else meter.total)
      (counted : next.localCounter =
        if meter.localCounter + 1 = bulk then 0 else meter.localCounter + 1) :
      Iterates meter next site 1

theorem count_cases {sock : Sock} {pool : Pool} {idx : ℕ} {len : UInt32} {site : Site}
    (tokens : pool.tokens = []) (payloads : pool.payloads = [])
    (given : sock.pool = pool.give idx len) (counted : meter.count sock site = some next) :
    ∃ channel discards, pool.channel.push (1 + meter.j) site idx = some (channel, discards) ∧
      next.sock.pool = { pool with channel := channel } ∧ next.j = (meter.j + 1) % clones ∧
      next.total = (if meter.localCounter + 1 = bulk then meter.total + (meter.localCounter + 1)
        else meter.total) ∧
      next.localCounter = if meter.localCounter + 1 = bulk then 0 else meter.localCounter + 1 := by
  simp only [count, Option.bind_eq_some_iff, Option.map_eq_some_iff] at counted
  rcases counted with ⟨consumed, taken, ⟨last, discards⟩, dropped, rfl⟩
  simp only [given, Pool.give, tokens, List.nil_append, List.length_singleton, Nat.sub_self,
    Pool.consume, List.getElem?_cons_zero, Option.bind_some, if_true, Option.bind_eq_some_iff,
    Option.some.injEq] at taken
  rcases taken with ⟨batch, -, rfl⟩
  simp only [Pool.dropPayload, payloads, List.nil_append, List.length_singleton, Nat.sub_self,
    List.getElem?_cons_zero, Option.bind_some, Option.map_eq_some_iff, Prod.mk.injEq] at dropped
  rcases dropped with ⟨⟨channel, lost⟩, pushed, rfl, -⟩
  refine ⟨channel, lost, pushed, ?_, rfl, rfl, rfl⟩
  simp [tokens, payloads]

theorem step_cases (tokens : meter.sock.pool.tokens = [])
    (payloads : meter.sock.pool.payloads = []) (stepped : meter.step action = some next) :
    ∃ count, Iterates meter next action.site count := by
  simp only [step, Option.bind_eq_some_iff] at stepped
  rcases stepped with ⟨⟨result, sock⟩, received, stepped⟩
  have took := recvToken_took received
  generalize after : sock.pool = pool at took
  cases took with
  | nothing error =>
      simp only [Option.some.injEq] at stepped
      subst next
      exact ⟨0, .nothing after rfl rfl rfl⟩
  | exhausted error empty =>
      simp only [Option.some.injEq] at stepped
      subst next
      exact ⟨0, .exhausted empty after rfl rfl rfl⟩
  | exchanged taken idx len popped =>
      rcases count_cases (show meter.sock.pool.popped.tokens = [] from tokens) payloads after
        stepped with ⟨channel, discards, pushed, pool, turned, total, counted⟩
      exact ⟨1, .exchanged taken idx channel discards popped pushed pool turned total counted⟩

/-- A pop in vain leaves the numbers of buffers. -/
theorem pop_none {channel : Channel} (empty : channel.pop.1 = none) :
    channel.pop.2.contents = channel.contents ∧ channel.pop.2.available = channel.available := by
  have contents := Channel.pop_contents channel
  rw [empty, Channel.poppedValues, Option.toList_none, Multiset.coe_nil, add_zero] at contents
  refine ⟨contents, ?_⟩
  have cards := congrArg Multiset.card contents
  rw [Channel.card_contents, Channel.card_contents, Channel.pop_batchedValues] at cards
  exact Nat.add_right_cancel cards

theorem pop_batch? (channel : Channel) (handle : ℕ) :
    channel.pop.2.batch? handle = channel.batch? handle := by
  rw [Channel.batch?, Channel.batch?, Channel.pop_producers]

theorem Parked.step {site : Site} {count : ℕ} (parked : Parked free received meter)
    (iterates : Iterates meter next site count) : Parked free (received + count) next := by
  cases iterates with
  | nothing pool turned =>
      exact ⟨pool ▸ parked.tokens, pool ▸ parked.payloads, pool ▸ parked.wellFormed,
        pool ▸ parked.room, pool ▸ parked.card, pool ▸ parked.handles, pool ▸ parked.own,
        turned.trans parked.turn⟩
  | exhausted empty pool turned =>
      refine ⟨pool ▸ parked.tokens, pool ▸ parked.payloads, ?_, ?_, ?_, ?_, ?_,
        turned.trans parked.turn⟩
      all_goals simp only [pool, Pool.popped]
      · exact Channel.pop_wellFormed parked.wellFormed
      · rw [Channel.pop_singleSpscLen]
        exact parked.room
      · rw [(pop_none empty).1]
        exact parked.card
      · rw [Channel.pop_producers]
        exact parked.handles
      · rw [pop_batch?]
        exact parked.own
  | exchanged taken idx channel discards popped pushed pool turned =>
      have wellFormed := Channel.pop_wellFormed parked.wellFormed
      have contents := Channel.pop_contents meter.sock.pool.channel
      have card := congrArg Multiset.card contents
      simp only [popped, Channel.poppedValues, Option.toList_some, Multiset.card_add,
        Multiset.coe_singleton, Multiset.card_singleton, parked.card] at card
      have roomy : meter.sock.pool.channel.pop.2.Roomy := by
        have room := parked.room
        rw [Channel.Roomy, Channel.pop_singleSpscLen]
        omega
      have lossless := Channel.push_lossless wellFormed roomy pushed
      have balance := congrArg Multiset.card (Channel.push_contents wellFormed pushed)
      simp only [lossless, discardedValues_nil, Multiset.card_add, Multiset.card_zero,
        Multiset.card_singleton] at balance
      rcases Channel.push_producers pushed with ⟨_, _, _, producers, -, -⟩
      have turn : next.j = (received + 1) % clones := by
        rw [turned, parked.turn, Nat.add_mod, Nat.mod_mod, ← Nat.add_mod]
      refine ⟨?_, ?_, ?_, ?_, ?_, ?_, ?_, turn⟩
      all_goals simp only [pool]
      · exact parked.tokens
      · exact parked.payloads
      · exact Channel.push_wellFormed wellFormed pushed
      · rw [Channel.push_singleSpscLen pushed, Channel.pop_singleSpscLen]
        exact parked.room
      · omega
      · rw [producers, List.length_set, Channel.pop_producers]
        exact parked.handles
      · rw [push_batch?_ne (by omega) pushed, pop_batch?]
        exact parked.own

theorem Parked.pop_ne_none (parked : Parked free received meter) (plenty : 16 * clones < free) :
    meter.sock.pool.channel.pop.1 ≠ none := by
  rw [Ne, Channel.pop_eq_none_iff]
  have kept := batchedValues_length_le parked.own
  have card := Channel.card_contents meter.sock.pool.channel
  rw [parked.handles] at kept
  rw [parked.card] at card
  omega

theorem Filling.step {site : Site} {count : ℕ} (filling : Filling free received meter)
    (turn : meter.j = received % clones) (few : free ≤ 16 * clones)
    (iterates : Iterates meter next site count) : Filling free (received + count) next := by
  cases iterates with
  | nothing pool _ total counted =>
      exact ⟨pool ▸ filling.available, pool ▸ filling.batches, total.trans filling.total,
        counted ▸ filling.counted⟩
  | exhausted empty pool _ total counted =>
      refine ⟨?_, ?_, total.trans filling.total, counted ▸ filling.counted⟩
      all_goals simp only [pool, Pool.popped]
      · rw [(pop_none empty).2]
        exact filling.available
      · intro clone inside
        rw [pop_batch?]
        exact filling.batches clone inside
  | exchanged taken idx channel discards popped pushed pool turned total counted =>
      have fewer := Channel.available_pop popped
      have available := filling.available
      have below : received < 16 * clones := by omega
      rcases filling.batches (received % clones) (Nat.mod_lt _ (by decide)) with
        ⟨batch, held, length⟩
      have current : batch.elems.length = received / clones := by
        rw [length]
        simp only [clones]
        omega
      have short : batch.elems.length < 16 := by
        rw [current]
        simp only [clones] at below ⊢
        omega
      rw [turn] at pushed
      rcases Channel.push_cases pushed with ⟨other, held', short' | full⟩
      · rw [pop_batch?, held, Option.some.injEq] at held'
        subst other
        rcases short' with ⟨-, -, grown, elems, rfl⟩
        have held'' :
            meter.sock.pool.channel.pop.2.batch? (1 + received % clones) = some batch := by
          rw [pop_batch?, held]
        have counter : (meter.localCounter + 1).toNat = received + 1 := by
          rw [UInt64.toNat_add, filling.counted]
          simp only [clones] at below
          exact Nat.mod_eq_of_lt (by simp only [UInt64.toNat_one]; omega)
        have stays : meter.localCounter + 1 ≠ bulk := by
          intro reached
          rw [reached] at counter
          simp only [clones] at below
          simp only [bulk, UInt64.reduceToNat] at counter
          omega
        refine ⟨?_, ?_, ?_, ?_⟩
        · simp only [pool]
          change meter.sock.pool.channel.pop.2.available + (received + 1) = free
          omega
        · intro clone inside
          simp only [pool]
          by_cases same : clone = received % clones
          · subst clone
            refine ⟨grown, Channel.setBatch_batch? held'', ?_⟩
            rw [elems, List.length_append, List.length_singleton, current]
            simp only [clones]
            omega
          · rcases filling.batches clone inside with ⟨kept, held, length⟩
            refine ⟨kept, ?_, ?_⟩
            · rw [push_batch?_ne (by omega) pushed, pop_batch?, held]
            · rw [length]
              simp only [clones] at inside same ⊢
              omega
        · rw [total, if_neg stays, filling.total]
        · rw [counted, if_neg stays, counter]
      · rw [pop_batch?, held, Option.some.injEq] at held'
        exact absurd (held' ▸ full.1) short.ne

theorem step_parked (parked : Parked free received meter)
    (stepped : meter.step action = some next) : ∃ later, Parked free later next := by
  rcases step_cases parked.tokens parked.payloads stepped with ⟨count, iterates⟩
  exact ⟨received + count, parked.step iterates⟩

theorem step_filling (few : free ≤ 16 * clones)
    (held : ∃ received, Parked free received meter ∧ Filling free received meter)
    (stepped : meter.step action = some next) :
    ∃ received, Parked free received next ∧ Filling free received next := by
  rcases held with ⟨received, parked, filling⟩
  rcases step_cases parked.tokens parked.payloads stepped with ⟨count, iterates⟩
  exact ⟨received + count, parked.step iterates, filling.step parked.turn few iterates⟩

/-- The channel of a new socket: the one handle has an empty batch. -/
theorem ctx_new_spec {extra : List UInt32} {index : UInt32} {site : Site} {pool : Pool}
    (stocked : Ctx.new extra index site = some pool) :
    pool.tokens = [] ∧ pool.payloads = [] ∧ pool.channel.WellFormed ∧
      pool.channel.contents.card ≤ 16 * pool.channel.singleSpscLen ∧
      pool.channel.producers = [some .new] := by
  have room : (extra.map UInt32.toNat).length ≤ 16 * extra.length := by
    rw [List.length_map]
    omega
  rcases Channel.stock_channel site room with
    ⟨filled, flushed, discards, pushed, done, wellFormed, capacity, only, -, contents, -⟩
  simp only [Ctx.new, pushed, Option.bind_some, done, Option.map_some,
    Option.some.injEq] at stocked
  subst pool
  have card := congrArg Multiset.card contents
  simp only [Multiset.card_add, Multiset.coe_card, List.length_map] at card
  refine ⟨rfl, rfl, wellFormed, ?_, only⟩
  simp only [capacity]
  omega

theorem new_parked {port : Port} {ioctl : Ioctl} {index : UInt32} {site : Site} {sock : Sock}
    (created : Sock.create port ioctl index site = some sock) (started : new sock = some meter) :
    Parked sock.pool.channel.contents.card 0 meter ∧
      Filling sock.pool.channel.contents.card 0 meter := by
  rcases Sock.create_cases created with ⟨extra, synced, pool, -, -, stocked, rfl⟩
  rcases ctx_new_spec stocked with ⟨tokens, payloads, wellFormed, room, producers⟩
  simp only [new, Option.map_eq_some_iff] at started
  rcases started with ⟨cloned, made, rfl⟩
  have copies := cloneContexts_spec made
  simp only at copies
  have fresh : ∀ clone, clone < clones → cloned.channel.batch? (1 + clone) = some .new := by
    intro clone inside
    rw [Channel.batch?_eq_some, copies, producers, List.singleton_append, Nat.add_comm,
      List.getElem?_cons_succ, List.getElem?_replicate, if_pos inside]
  have unused : pool.channel.batchedValues = [] := Channel.batchedValues_of_only producers
  have kept : cloned.channel.batchedValues = [] := by
    simp [copies, Channel.batchedValues, producers, ArrayVec.new]
  have contents : cloned.channel.contents = pool.channel.contents := by
    rw [Channel.contents, Channel.contents, kept, unused, copies]
    rfl
  constructor
  · refine ⟨?_, ?_, ?_, ?_, ?_, ?_, ?_, rfl⟩
    · simp only [copies, tokens]
    · simp only [copies, payloads]
    · rw [copies]
      exact ⟨wellFormed.ids_eq, wellFormed.ids_nodup, wellFormed.queue_le⟩
    · simp only [copies]
      exact room
    · simp only [contents]
    · simp only [copies, producers, List.length_append, List.length_singleton,
        List.length_replicate]
    · simp only [Channel.batch?_eq_some, copies, producers, List.singleton_append,
        List.getElem?_cons_zero]
  · refine ⟨?_, ?_, rfl, rfl⟩
    · have card := Channel.card_contents cloned.channel
      rw [kept, contents] at card
      exact card.symm
    · intro clone inside
      refine ⟨.new, fresh clone inside, ?_⟩
      simp only [clones] at inside
      simp only [ArrayVec.new, List.length_nil]
      omega

/-- In every run of the meter on a new socket, whatever the kernel does: with more than 1008 free
buffers a receive always finds a free buffer. With at most 1008 of them, the meter receives no
more packets than there were free buffers at the start, its total stays 0, and a receive finds no
free buffer exactly when it has received as many. -/
theorem meter_starves {port : Port} {ioctl : Ioctl} {index : UInt32} {site : Site} {sock : Sock}
    {actions : List MeterAction}
    (created : Sock.create port ioctl index site = some sock) (started : new sock = some meter)
    (performed : run step meter actions = some final) :
    (1008 < sock.pool.channel.contents.card → final.sock.pool.channel.pop.1 ≠ none) ∧
      (sock.pool.channel.contents.card ≤ 1008 → final.total = 0 ∧
        final.localCounter.toNat ≤ sock.pool.channel.contents.card ∧
        (final.sock.pool.channel.pop.1 = none ↔
          final.localCounter.toNat = sock.pool.channel.contents.card)) := by
  rcases new_parked created started with ⟨parked, filling⟩
  constructor
  · intro plenty
    rcases run_invariant_of_step (fun meter => ∃ received, Parked _ received meter)
      (fun ⟨_, parked⟩ stepped => step_parked parked stepped) ⟨0, parked⟩ performed with
      ⟨received, parked⟩
    exact parked.pop_ne_none plenty
  · intro few
    rcases run_invariant_of_step
      (fun meter => ∃ received, Parked _ received meter ∧ Filling _ received meter)
      (step_filling few) ⟨0, parked, filling⟩ performed with ⟨received, -, filling⟩
    have available := filling.available
    refine ⟨filling.total, ?_, ?_⟩
    · rw [filling.counted]
      omega
    · rw [Channel.pop_eq_none_iff, filling.counted]
      omega

/-- The kernel publishes a packet on the receive ring in every `ioctl` call. -/
def publish (rings : ℕ → NetmapRing) (pointer : ℕ) : NetmapRing :=
  if pointer = 1 then { rings 1 with tail := if (rings 1).head = 0 then 1 else 0 }
  else rings pointer

/-- Packets arrive faster than they are received. -/
def busy : List MeterAction := List.replicate 18 ⟨some publish, ⟨0, 0⟩⟩

/-- A port with 16 extra buffers serves 16 packets. -/
theorem meter_starves_busy :
    ∃ sock meter final, Sock.create onePacketPort (some id) 0 ⟨0, 0⟩ = some sock ∧
      new sock = some meter ∧ run step meter busy = some final ∧
      final.localCounter = 16 ∧ final.sock.pool.channel.pop.1 = none := by
  have performed : ((Sock.create onePacketPort (some id) 0 ⟨0, 0⟩).bind fun sock =>
      (new sock).bind fun meter => (run step meter busy).map fun final =>
        (sock.pool.channel.contents.card, final.localCounter)) = some (16, 16) := by
    decide +kernel
  simp only [Option.bind_eq_some_iff, Option.map_eq_some_iff, Prod.mk.injEq] at performed
  rcases performed with ⟨sock, created, meter, started, final, performed, free, counter⟩
  refine ⟨sock, meter, final, created, started, performed, counter, ?_⟩
  have starved := (meter_starves created started performed).2 (by omega)
  rw [starved.2.2, counter, free]
  rfl

end Meter

end Nethuns.Netmap
