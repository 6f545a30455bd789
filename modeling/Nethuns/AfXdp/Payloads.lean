import Nethuns.AfXdp.TxStream

/-!
# The packets received through an AF_XDP socket

The kernel writes a packet into the frame that it took from the fill ring and publishes its
descriptor; the user reads it through the payload of a token, as long as the payload lives. In
between other packets are received, sent and written, into other frames of the same memory. This
file shows that exclusive ownership makes the packets of the users stable: each operation leaves
the packets alone that wait to be received and those that the users hold, so that what is
received is what the kernel delivered, in order, and a payload reads as it did when it was
received, but for what its own holder wrote to it.
-/

namespace Nethuns.AfXdp

open Nethuns.Lib Nethuns.Mpsc Nethuns.Api

/-- The packets that the kernel delivers in its steps. -/
def deliveries (actions : List KernelAction) : List (List UInt8) :=
  actions.filterMap fun action =>
    match action with
    | .receive _ _ packet => some packet
    | _ => none

theorem deliveries_append (first second : List KernelAction) :
    deliveries (first ++ second) = deliveries first ++ deliveries second :=
  List.filterMap_append

namespace Sock

/-- `Payload::deref`: the bytes behind a token. -/
def packetOf (sock : Sock) (token : Token) : List UInt8 :=
  readBytes sock.mem token.idx token.len.toNat

/-- The packets behind the descriptors that are still to be returned. -/
def waitingPackets (sock : Sock) : List (List UInt8) :=
  sock.rx.waiting.map fun desc => readBytes sock.mem desc.offset desc.len.toNat

/-- An operation that leaves the received packets to their holders, and those that wait in their
order, ahead of the fresh ones. -/
structure Carries (sock next : Sock) (fresh : List (List UInt8)) : Prop where
  tokens : next.pool.tokens = sock.pool.tokens
  payloads : next.pool.payloads = sock.pool.payloads
  waiting : next.waitingPackets = sock.waitingPackets ++ fresh
  held : ∀ token ∈ sock.pool.liveTokens, next.packetOf token = sock.packetOf token

variable {flags : AfXdpFlags} {sock middle next : Sock} {site : Site}

theorem Carries.liveTokens {fresh : List (List UInt8)} (carries : Carries sock next fresh) :
    next.pool.liveTokens = sock.pool.liveTokens := by
  simp only [Pool.liveTokens, carries.tokens, carries.payloads]

theorem Carries.trans {fresh later : List (List UInt8)} (first : Carries sock middle fresh)
    (second : Carries middle next later) : Carries sock next (fresh ++ later) := by
  refine ⟨second.tokens.trans first.tokens, second.payloads.trans first.payloads, ?_, ?_⟩
  · rw [second.waiting, first.waiting, List.append_assoc]
  · intro token live
    rw [second.held token (first.liveTokens ▸ live), first.held token live]

theorem Carries.of_same_mem (mem : next.mem = sock.mem)
    (waiting : next.rx.waiting = sock.rx.waiting)
    (tokens : next.pool.tokens = sock.pool.tokens)
    (payloads : next.pool.payloads = sock.pool.payloads) : Carries sock next [] := by
  refine ⟨tokens, payloads, ?_, ?_⟩
  · simp only [waitingPackets, mem, waiting, List.append_nil]
  · intro token _
    simp only [packetOf, mem]

theorem Carries.refl (sock : Sock) : Carries sock sock [] := .of_same_mem rfl rfl rfl rfl

/-! ## Writes -/

/-- When no frame is in two places, two addresses in different places are in different frames. -/
theorem frame_ne_of_le {addr other : ℕ} (nodup : (sock.frames flags).Nodup)
    (both : {addr} + {other} ≤ sock.addresses) : flags.frame addr ≠ flags.frame other := by
  have distinct := Multiset.nodup_of_le (Multiset.map_le_map both) nodup
  simp only [Multiset.map_add, Multiset.map_singleton] at distinct
  intro same
  simp [same] at distinct

/-- A frame of the users or of the free channel, or one that the kernel has for reception, is none
of a packet that waits. -/
theorem frame_ne_of_waiting {addr : ℕ} {desc : XdpDesc} (nodup : (sock.frames flags).Nodup)
    (present : addr ∈ sock.pool.held + ↑(sock.kernelRx.map UInt64.toNat))
    (waiting : desc ∈ sock.rx.waiting) : flags.frame addr ≠ flags.frame desc.offset := by
  apply frame_ne_of_le nodup
  have queued : desc.offset ∈ (↑(sock.rx.waiting.map XdpDesc.offset) : Multiset ℕ) :=
    Multiset.mem_coe.mpr (List.mem_map.mpr ⟨desc, waiting, rfl⟩)
  calc {addr} + {desc.offset} ≤ sock.pool.held + ↑(sock.kernelRx.map UInt64.toNat) +
        ↑(sock.rx.waiting.map XdpDesc.offset) :=
      add_le_add (Multiset.singleton_le.mpr present) (Multiset.singleton_le.mpr queued)
    _ ≤ sock.pool.held + ↑(sock.kernelRx.map UInt64.toNat) +
          ↑(sock.rx.waiting.map XdpDesc.offset) +
        (↑(sock.fq.pending.map UInt64.toNat) + ↑(sock.tx.descs.map XdpDesc.offset) +
          ↑(sock.kernelTx.map fun taken => taken.1.offset) +
          ↑(sock.cq.pending.map UInt64.toNat)) := Multiset.le_add_right _ _
    _ = sock.addresses := by
      simp only [addresses, ringAddresses]
      abel

/-- A free frame, or one that the kernel has for reception, is none of a packet that a user
holds. -/
theorem frame_ne_of_token {addr : ℕ} {token : Token} (nodup : (sock.frames flags).Nodup)
    (present : addr ∈ sock.pool.channel.contents + ↑(sock.kernelRx.map UInt64.toNat))
    (live : token ∈ sock.pool.liveTokens) : flags.frame addr ≠ flags.frame token.idx := by
  apply frame_ne_of_le nodup
  have issued : token.idx ∈ sock.pool.issued := by
    rw [Pool.issued_eq_map]
    exact Multiset.mem_map_of_mem _ (Multiset.mem_coe.mpr live)
  calc {addr} + {token.idx} ≤ sock.pool.channel.contents +
        ↑(sock.kernelRx.map UInt64.toNat) + sock.pool.issued :=
      add_le_add (Multiset.singleton_le.mpr present) (Multiset.singleton_le.mpr issued)
    _ ≤ sock.pool.channel.contents + ↑(sock.kernelRx.map UInt64.toNat) + sock.pool.issued +
        (↑(sock.fq.pending.map UInt64.toNat) + ↑(sock.rx.waiting.map XdpDesc.offset) +
          ↑(sock.tx.descs.map XdpDesc.offset) +
          ↑(sock.kernelTx.map fun taken => taken.1.offset) +
          ↑(sock.cq.pending.map UInt64.toNat)) := Multiset.le_add_right _ _
    _ = sock.addresses := by
      simp only [addresses, ringAddresses, Pool.held]
      abel

theorem readBytes_of_apart {addr other len : ℕ} {bytes : List UInt8}
    (inside : flags.Inside addr bytes.length) (otherInside : flags.Inside other len)
    (apart : flags.frame addr ≠ flags.frame other) (mem : ℕ → UInt8) :
    readBytes (writeBytes mem addr bytes) other len = readBytes mem other len := by
  have disjoint := inside.disjoint otherInside apart
  apply readBytes_writeBytes_of_disjoint
  omega

/-- A write into a free frame, or into one that the kernel has for reception. -/
theorem Carries.of_write {addr : ℕ} {bytes : List UInt8} (intact : sock.Intact flags True)
    (nodup : (sock.frames flags).Nodup)
    (present : addr ∈ sock.pool.channel.contents + ↑(sock.kernelRx.map UInt64.toNat))
    {start : ℕ} (same : flags.frame start = flags.frame addr)
    (inside : flags.Inside start bytes.length) :
    Carries sock { sock with mem := writeBytes sock.mem start bytes } [] := by
  refine ⟨rfl, rfl, ?_, ?_⟩
  · simp only [waitingPackets, List.append_nil]
    apply List.map_congr_left
    intro desc waiting
    have held : addr ∈ sock.pool.held + ↑(sock.kernelRx.map UInt64.toNat) := by
      simp only [Pool.held, Multiset.mem_add] at present ⊢
      tauto
    apply readBytes_of_apart inside (intact.waiting_inside trivial desc waiting)
    rw [same]
    exact frame_ne_of_waiting nodup held waiting
  · intro token live
    apply readBytes_of_apart inside (intact.tokens_inside trivial token live)
    rw [same]
    exact frame_ne_of_token nodup present live

/-! ## The kernel -/

theorem receive_carries {addr : UInt64} {desc : XdpDesc} {packet : List UInt8}
    (chunked : flags.Chunked) (intact : sock.Intact flags True) (nodup : (sock.frames flags).Nodup)
    (stepped : sock.kernelStep (.receive addr desc packet) = some next) :
    Carries sock next [packet] := by
  rcases receive_eq_some.mp stepped with ⟨present, ⟨same, length, within⟩, rx, published, rfl⟩
  rcases intact.rx.publish published with ⟨-, pending⟩
  have taken : addr.toNat ∈ sock.pool.channel.contents + ↑(sock.kernelRx.map UInt64.toNat) := by
    apply Multiset.mem_add.mpr
    right
    exact Multiset.mem_coe.mpr (List.mem_map.mpr ⟨addr, present, rfl⟩)
  have written := Carries.of_write intact nodup taken (chunked.frame_eq same)
    (chunked.inside within)
  refine ⟨rfl, rfl, ?_, written.held⟩
  have waiting := written.waiting
  simp only [waitingPackets, List.append_nil] at waiting
  simp only [waitingPackets, RxRing.waiting, pending, ← List.append_assoc, List.map_append]
  simp only [RxRing.waiting, List.map_append] at waiting
  rw [waiting, List.map_singleton, length]
  exact congrArg (_ ++ [·]) readBytes_writeBytes_self

theorem kernelStep_carries {action : KernelAction} (chunked : flags.Chunked)
    (intact : sock.Intact flags True) (nodup : (sock.frames flags).Nodup)
    (stepped : sock.kernelStep action = some next) :
    Carries sock next (deliveries [action]) := by
  cases action with
  | takeFill =>
      simp only [kernelStep, Option.map_eq_some_iff] at stepped
      rcases stepped with ⟨_, -, rfl⟩
      exact .of_same_mem rfl rfl rfl rfl
  | receive addr desc packet => exact receive_carries chunked intact nodup stepped
  | takeTx =>
      simp only [kernelStep, Option.map_eq_some_iff] at stepped
      rcases stepped with ⟨_, -, rfl⟩
      exact .of_same_mem rfl rfl rfl rfl
  | complete position =>
      simp only [kernelStep, Option.bind_eq_some_iff, Option.map_eq_some_iff] at stepped
      rcases stepped with ⟨_, -, _, -, rfl⟩
      exact .of_same_mem rfl rfl rfl rfl

theorem kernelRun_carries {actions : List KernelAction} (chunked : flags.Chunked)
    (intact : sock.Intact flags True) (nodup : (sock.frames flags).Nodup)
    (performed : sock.kernelRun actions = some next) :
    Carries sock next (deliveries actions) := by
  induction actions generalizing sock with
  | nil =>
      simp only [kernelRun, run_nil, Option.some.injEq] at performed
      exact performed ▸ .refl sock
  | cons action actions ih =>
      rcases run_cons_eq_some.mp performed with ⟨middle, stepped, rest⟩
      have moves := kernelStep_moves intact (chunked.returns (.kernel action)) stepped
      have later := ih moves.intact (moves.nodup nodup) rest
      rw [← List.singleton_append, deliveries_append]
      exact (kernelStep_carries chunked intact nodup stepped).trans later

/-! ## Sending -/

theorem completeTx_carries (completed : sock.completeTx site = some next) :
    Carries sock next [] := by
  rcases sock.cq.consPeek_spec 64 0 with ⟨entries, -, peeked⟩
  simp only [completeTx, peeked] at completed
  split at completed
  · rw [Option.some.injEq] at completed
    subst next
    exact .of_same_mem rfl rfl rfl rfl
  · simp only [Option.bind_eq_some_iff, Option.map_eq_some_iff] at completed
    rcases completed with ⟨_, -, _, -, rfl⟩
    exact .of_same_mem rfl rfl rfl rfl

theorem flush_carries {kernel : Interleaving} (chunked : flags.Chunked)
    (intact : sock.Intact flags True) (nodup : (sock.frames flags).Nodup)
    (flushed : sock.flush site kernel = some next) :
    Carries sock next (deliveries (kernel.completion ++ kernel.wakeup)) := by
  simp only [flush, Option.bind_eq_some_iff] at flushed
  rcases flushed with ⟨middle, ran, later, completed, woken⟩
  have synced := sync_moves intact
  have first := synced.trans (kernelRun_moves synced.intact (chunked.kernelReturns _) ran)
  rcases completeTx_moves first.intact completed with ⟨lost, second, -⟩
  have start : Carries sock { sock with tx := sock.tx.sync } [] := .of_same_mem rfl rfl rfl rfl
  have early := start.trans (kernelRun_carries chunked synced.intact (synced.nodup nodup) ran)
  have late := kernelRun_carries chunked second.intact (second.nodup (first.nodup nodup)) woken
  have whole := (early.trans (completeTx_carries completed)).trans late
  simpa only [List.nil_append, List.append_nil, deliveries_append] using whole

/-- The kernel steps that a request for a slot performs. -/
def slotSteps (sock : Sock) (kernel : List KernelAction) : List KernelAction :=
  match sock.tx.popFront with
  | some _ => []
  | none => kernel

theorem nextSlot_carries {kernel : List KernelAction} {found : Option ℕ}
    (chunked : flags.Chunked) (intact : sock.Intact flags True) (nodup : (sock.frames flags).Nodup)
    (asked : sock.nextSlot kernel = some (found, next)) :
    Carries sock next (deliveries (sock.slotSteps kernel)) := by
  simp only [nextSlot, slotSteps] at asked ⊢
  cases popped : sock.tx.popFront with
  | some first =>
      simp only [popped, Option.some.injEq, Prod.mk.injEq] at asked
      rcases asked with ⟨-, rfl⟩
      exact .of_same_mem rfl rfl rfl rfl
  | none =>
      simp only [popped, Option.bind_eq_some_iff, Option.map_eq_some_iff, Prod.mk.injEq] at asked
      rcases asked with ⟨middle, ran, ⟨found', tx⟩, -, -, rfl⟩
      have synced := sync_moves intact
      have start : Carries sock { sock with tx := sock.tx.sync } [] := .of_same_mem rfl rfl rfl rfl
      have early := start.trans (kernelRun_carries chunked synced.intact (synced.nodup nodup) ran)
      have last : Carries middle { middle with tx := tx } [] := .of_same_mem rfl rfl rfl rfl
      simpa only [List.nil_append, List.append_nil] using early.trans last

/-- The kernel steps that a send performs: those of its flush when it finds no slot at first. -/
def sendSteps (sock : Sock) (kernel : Interleaving) : List KernelAction :=
  match sock.nextSlot kernel.reserve with
  | some (none, _) => sock.slotSteps kernel.reserve ++ (kernel.completion ++ kernel.wakeup)
  | _ => sock.slotSteps kernel.reserve

theorem slotSteps_nil (sock : Sock) : sock.slotSteps [] = [] := by
  simp only [slotSteps]
  split <;> rfl

theorem obtainSlot_carries {kernel : Interleaving} {found : Option ℕ} (chunked : flags.Chunked)
    (intact : sock.Intact flags True) (nodup : (sock.frames flags).Nodup)
    (obtained : sock.obtainSlot site kernel = some (found, next)) :
    Carries sock next (deliveries (sock.sendSteps kernel)) := by
  simp only [obtainSlot, Option.bind_eq_some_iff] at obtained
  rcases obtained with ⟨⟨first, middle⟩, asked, obtained⟩
  have start := nextSlot_carries chunked intact nodup asked
  have spec := nextSlot_spec intact (chunked.kernelReturns _) asked
  simp only [sendSteps, asked]
  cases first with
  | some cell =>
      simp only [Option.some.injEq, Prod.mk.injEq] at obtained
      rcases obtained with ⟨-, rfl⟩
      exact start
  | none =>
      simp only [Option.bind_eq_some_iff] at obtained
      rcases obtained with ⟨later, flushed, askedAgain⟩
      rcases flush_moves spec.intact (chunked.interleavingReturns kernel) flushed with
        ⟨lost, moves, -⟩
      have early := start.trans (flush_carries chunked spec.intact (spec.nodup nodup) flushed)
      have last := nextSlot_carries chunked moves.intact (moves.nodup (spec.nodup nodup)) askedAgain
      rw [slotSteps_nil] at last
      have whole := early.trans last
      rw [deliveries_append]
      simpa only [deliveries, List.filterMap_nil, List.append_nil] using whole

/-- A send leaves the received packets alone when its own packet fits the rest of the frame that
it takes. -/
theorem send_carries {kernel : Interleaving} {packet : List UInt8} {result : Except Error Unit}
    (chunked : flags.Chunked) (intact : sock.Intact flags True) (fits : flags.Fits)
    (nodup : (sock.frames flags).Nodup) (served : SendsFit flags sock (.send packet site kernel))
    (sent : sock.send packet site kernel = some (result, next)) :
    Carries sock next (deliveries (sock.sendSteps kernel)) := by
  rcases send_cases intact (chunked.interleavingReturns kernel) sent with
    ⟨prior, lost, moves, -, ⟨obtained, -, rfl⟩ | ⟨cell, tx, handsOut, obtained, inner⟩⟩
  · exact obtainSlot_carries chunked intact nodup obtained
  · have start := obtainSlot_carries chunked intact nodup obtained
    rcases served cell { prior with tx := tx } obtained with ⟨addr, popped, inside⟩
    rcases written_spec moves.intact fits handsOut popped with ⟨succeeded, -⟩
    rw [succeeded, Prod.mk.injEq] at inner
    rcases inner with ⟨-, rfl⟩
    have free : addr ∈ prior.pool.channel.contents + ↑(prior.kernelRx.map UInt64.toNat) := by
      have contents := Channel.pop_contents prior.pool.channel
      simp only [show prior.pool.channel.pop.1 = some addr from popped,
        Channel.poppedValues] at contents
      simp [← contents]
    have written := Carries.of_write moves.intact (moves.nodup nodup) free rfl inside
    have last : Carries { prior with tx := tx } (prior.written tx cell addr packet) [] :=
      ⟨written.tokens, written.payloads, written.waiting, written.held⟩
    simpa only [List.append_nil] using start.trans last

/-! ## Receiving -/

/-- An operation that receives one packet: the first that waits, or else a fresh one. -/
structure Receives (sock next : Sock) (token : Token) (fresh : List (List UInt8)) : Prop where
  tokens : next.pool.tokens = sock.pool.tokens ++ [token]
  payloads : next.pool.payloads = sock.pool.payloads
  waiting : sock.waitingPackets ++ fresh = next.packetOf token :: next.waitingPackets
  held : ∀ other ∈ sock.pool.liveTokens, next.packetOf other = sock.packetOf other

theorem Carries.receives {token : Token} {fresh : List (List UInt8)}
    (first : Carries sock middle fresh) (second : Receives middle next token []) :
    Receives sock next token fresh := by
  refine ⟨by rw [second.tokens, first.tokens], second.payloads.trans first.payloads, ?_, ?_⟩
  · rw [← second.waiting, first.waiting, List.append_nil]
  · intro other live
    rw [second.held other (first.liveTokens ▸ live), first.held other live]

theorem recvInner_receives {rx : RxRing} {slot : XdpDesc} (intact : sock.Intact flags True)
    (advanced : sock.rx.advance = some (some slot, rx)) :
    Receives sock ({ sock with rx := rx }.recvInner slot)
      ⟨slot.addr.toNat, slot.len, sock.pool.index⟩ [] := by
  rcases RxRing.advance_spec intact.rx advanced with ⟨-, waiting⟩
  refine ⟨rfl, rfl, ?_, fun _ _ => rfl⟩
  simp only [waitingPackets, waiting, recvInner, Option.toList_some, List.singleton_append,
    List.map_cons, List.append_nil]
  rfl

theorem advance_none_carries {rx : RxRing} (intact : sock.Intact flags True)
    (advanced : sock.rx.advance = some (none, rx)) : Carries sock { sock with rx := rx } [] := by
  rcases RxRing.advance_spec intact.rx advanced with ⟨-, waiting⟩
  exact .of_same_mem rfl waiting.symm rfl rfl

/-- The kernel steps that a receive performs: none when a packet waits, and those after the refill
only when the refill succeeds. -/
def recvSteps (sock : Sock) (before after : List KernelAction) :
    List KernelAction :=
  match sock.rx.advance with
  | some (none, rx) =>
      match (kernelRun { sock with rx := rx } before).map refillFillRing with
      | some (.ok (), _) => before ++ after
      | _ => before
  | _ => []

theorem recvToken_receives {before after : List KernelAction} {result : Except Error Unit}
    (chunked : flags.Chunked) (intact : sock.Intact flags True) (fits : flags.Fits)
    (nodup : (sock.frames flags).Nodup) (served : sock.RecvServed before)
    (received : sock.recvToken before after = some (result, next)) :
    (result = .ok () ∧ ∃ token,
        Receives sock next token (deliveries (sock.recvSteps before after))) ∨
      ∃ error, result = .error error ∧
        Carries sock next (deliveries (sock.recvSteps before after)) := by
  simp only [recvToken, Option.bind_eq_some_iff] at received
  rcases received with ⟨⟨found, rx⟩, advanced, received⟩
  cases found with
  | some slot =>
      simp only [Option.some.injEq, Prod.mk.injEq] at received
      rcases received with ⟨rfl, rfl⟩
      have steps : sock.recvSteps before after = [] := by simp only [recvSteps, advanced]
      rw [steps]
      exact Or.inl ⟨rfl, _, recvInner_receives intact advanced⟩
  | none =>
      simp only [Option.bind_eq_some_iff] at received
      rcases received with ⟨middle, ran, received⟩
      have first := advance_none_moves intact advanced
      have second := kernelRun_moves first.intact (chunked.kernelReturns _) ran
      have nodup' := second.nodup (first.nodup nodup)
      rcases refillFillRing_spec second.intact fits (served rx middle advanced ran) with
        ⟨pool, fq, refilled, third, -⟩
      rcases refillFillRing_users middle with ⟨channel, fq', -, -, users⟩
      have start := (advance_none_carries intact advanced).trans
        (kernelRun_carries chunked first.intact (first.nodup nodup) ran)
      simp only [refilled, Option.bind_eq_some_iff, Option.map_eq_some_iff] at received
      rcases received with ⟨later, ranAfter, ⟨found, rx'⟩, advancedAgain, received⟩
      have fourth := kernelRun_moves third.intact (chunked.kernelReturns _) ranAfter
      have filled : Carries middle { middle with pool := pool, fq := fq } [] := by
        rw [refilled] at users
        rw [show ({ middle with pool := pool, fq := fq } : Sock) = _ from users]
        exact .of_same_mem rfl rfl rfl rfl
      have early := (start.trans filled).trans
        (kernelRun_carries chunked third.intact (third.nodup nodup') ranAfter)
      have steps : sock.recvSteps before after = before ++ after := by
        simp only [recvSteps, advanced, ran, Option.map_some, refilled]
      rw [List.nil_append, List.append_nil, ← deliveries_append, ← steps] at early
      cases found with
      | none =>
          simp only [Prod.mk.injEq] at received
          rcases received with ⟨rfl, rfl⟩
          have whole := early.trans (advance_none_carries fourth.intact advancedAgain)
          rw [List.append_nil] at whole
          exact Or.inr ⟨_, rfl, whole⟩
      | some slot =>
          simp only [Prod.mk.injEq] at received
          rcases received with ⟨rfl, rfl⟩
          have last := recvInner_receives fourth.intact advancedAgain
          exact Or.inl ⟨rfl, _, early.receives last⟩

/-! ## The users -/

theorem liveTokens_distinct (nodup : (sock.frames flags).Nodup) :
    (sock.pool.liveTokens.map fun token => flags.frame token.idx).Nodup := by
  have part : sock.pool.issued ≤ sock.addresses := by
    simp only [addresses, Pool.held, add_assoc]
    exact Multiset.le_add_right _ _
  have distinct := Multiset.nodup_of_le (Multiset.map_le_map part) nodup
  rw [Pool.issued_eq_map, Multiset.map_map, Multiset.map_coe, Multiset.coe_nodup] at distinct
  exact distinct

/-- Two live tokens with addresses in one frame are the same. -/
theorem eq_of_frame_eq {token other : Token} (nodup : (sock.frames flags).Nodup)
    (live : token ∈ sock.pool.liveTokens) (otherLive : other ∈ sock.pool.liveTokens)
    (same : flags.frame token.idx = flags.frame other.idx) : token = other :=
  List.inj_on_of_nodup_map (liveTokens_distinct nodup) live otherLive same

/-- A write through a payload is seen through this payload only. -/
theorem writePayload_held {position : ℕ} {bytes : List UInt8} (intact : sock.Intact flags True)
    (nodup : (sock.frames flags).Nodup)
    (written : sock.writePayload position bytes = some next) :
    ∃ payload, sock.pool.payloads[position]? = some payload ∧ next.pool = sock.pool ∧
      next.waitingPackets = sock.waitingPackets ∧
      next.packetOf payload.token =
        bytes ++ (sock.packetOf payload.token).drop bytes.length ∧
      ∀ other ∈ sock.pool.liveTokens, other ≠ payload.token →
        next.packetOf other = sock.packetOf other := by
  simp only [writePayload, Option.bind_eq_some_iff] at written
  rcases written with ⟨payload, present, written⟩
  split at written
  · rename_i short
    rw [Option.some.injEq] at written
    subst next
    have member := List.mem_of_getElem? present
    have live : payload.token ∈ sock.pool.liveTokens :=
      List.mem_append.mpr (Or.inr (List.mem_map.mpr ⟨payload, member, rfl⟩))
    have inside : flags.Inside payload.token.idx bytes.length := by
      have whole := intact.tokens_inside trivial payload.token live
      simp only [AfXdpFlags.Inside] at whole ⊢
      omega
    have held : payload.token.idx ∈ sock.pool.held + ↑(sock.kernelRx.map UInt64.toNat) := by
      simp only [Pool.held, Pool.issued, Multiset.mem_add, Multiset.mem_coe, List.mem_map]
      exact Or.inl (Or.inl (Or.inr ⟨payload, member, rfl⟩))
    refine ⟨payload, present, rfl, ?_, readBytes_writeBytes_drop short, ?_⟩
    · apply List.map_congr_left
      intro desc waiting
      exact readBytes_of_apart inside (intact.waiting_inside trivial desc waiting)
        (frame_ne_of_waiting nodup held waiting) sock.mem
    · intro other otherLive different
      apply readBytes_of_apart inside (intact.tokens_inside trivial other otherLive)
      intro same
      exact different (eq_of_frame_eq nodup otherLive live same.symm)
  · simp at written

end Sock

/-! ## Runs -/

/-- The kernel steps that an action performs. -/
def kernelSteps (sock : Sock) : Action → List KernelAction
  | .recvToken before after | .recv before after => sock.recvSteps before after
  | .send _ _ kernel => sock.sendSteps kernel
  | .flush _ kernel => kernel.completion ++ kernel.wakeup
  | .kernel action => [action]
  | .pool _ | .writePayload _ _ => []

/-- The token that an action hands out. -/
def receipt (sock : Sock) : Action → Option Token
  | .recvToken before after | .recv before after =>
      match sock.recvToken before after with
      | some (.ok (), next) => next.pool.tokens.getLast?
      | _ => none
  | _ => none

/-- What the users make of their packets, by address. -/
def edited (sock : Sock) (held : ℕ → List UInt8) : Action → ℕ → List UInt8
  | .writePayload position bytes =>
      match sock.pool.payloads[position]? with
      | some payload =>
          Function.update held payload.token.idx
            (bytes ++ (held payload.token.idx).drop bytes.length)
      | none => held
  | _ => held

/-- A socket with the packets sent, the packets that the kernel delivered, those received, as they
were read at that moment, and what the packets of the users should be since, by address. -/
structure PacketTrace where
  tx : TxTrace
  delivered : List (List UInt8)
  received : List (List UInt8)
  held : ℕ → List UInt8

namespace PacketTrace

def step (trace : PacketTrace) (action : Action) : Option PacketTrace :=
  (trace.tx.step action).map fun tx =>
    let delivered := trace.delivered ++ deliveries (kernelSteps trace.tx.sock action)
    match receipt trace.tx.sock action with
    | some token =>
        { tx := tx
          delivered := delivered
          received := trace.received ++ [tx.sock.packetOf token]
          held := Function.update trace.held token.idx (tx.sock.packetOf token) }
    | none =>
        { trace with
          tx := tx
          delivered := delivered
          held := edited trace.tx.sock trace.held action }

/-- What was delivered is what was received and what waits; the packets of the users are what
their holders made of them. -/
structure Faithful (flags : AfXdpFlags) (trace : PacketTrace) : Prop where
  tx : trace.tx.Faithful flags
  stream : trace.delivered = trace.received ++ trace.tx.sock.waitingPackets
  held : ∀ token ∈ trace.tx.sock.pool.liveTokens,
    trace.tx.sock.packetOf token = trace.held token.idx

section Step

variable {flags : AfXdpFlags} {trace next : PacketTrace} {tx : TxTrace} {middle : Sock}
  {fresh : List (List UInt8)} {action : Action}

/-- The users have dropped or consumed some of their tokens. -/
structure Consumes (sock next : Sock) : Prop where
  mem : next.mem = sock.mem
  rx : next.rx = sock.rx
  live : ∀ token ∈ next.pool.liveTokens, token ∈ sock.pool.liveTokens

theorem Consumes.refl (sock : Sock) : Consumes sock sock := ⟨rfl, rfl, fun _ live => live⟩

theorem Consumes.packetOf {sock after : Sock} (consumes : Consumes sock after) (token : Token) :
    after.packetOf token = sock.packetOf token := by
  simp only [Sock.packetOf, consumes.mem]

theorem Consumes.waitingPackets {sock after : Sock} (consumes : Consumes sock after) :
    after.waitingPackets = sock.waitingPackets := by
  simp only [Sock.waitingPackets, consumes.mem, consumes.rx]

theorem pool_consumes {sock : Sock} {action : PoolAction} {pool : Pool} {discards : List Discard}
    (stepped : sock.pool.step action = some (pool, discards)) :
    Consumes sock { sock with pool := pool } :=
  ⟨rfl, rfl, fun _ live => Pool.step_liveTokens stepped live⟩

theorem Faithful.of_carries (faithful : trace.Faithful flags)
    (carries : Sock.Carries trace.tx.sock middle fresh) (consumes : Consumes middle tx.sock)
    (streams : tx.Faithful flags) :
    Faithful flags { trace with tx := tx, delivered := trace.delivered ++ fresh } := by
  refine ⟨streams, ?_, ?_⟩
  · simp only [consumes.waitingPackets, carries.waiting, faithful.stream, List.append_assoc]
  · intro token live
    have before := carries.liveTokens ▸ consumes.live token live
    rw [consumes.packetOf, carries.held token before]
    exact faithful.held token before

theorem Faithful.of_receives {token : Token} (faithful : trace.Faithful flags)
    (receives : Sock.Receives trace.tx.sock middle token fresh)
    (nodup : (middle.frames flags).Nodup) (consumes : Consumes middle tx.sock)
    (streams : tx.Faithful flags) :
    Faithful flags
      { tx := tx
        delivered := trace.delivered ++ fresh
        received := trace.received ++ [tx.sock.packetOf token]
        held := Function.update trace.held token.idx (tx.sock.packetOf token) } := by
  have live_iff : ∀ other, other ∈ middle.pool.liveTokens ↔
      other ∈ trace.tx.sock.pool.liveTokens ∨ other = token := by
    intro other
    simp only [Pool.liveTokens, receives.tokens, receives.payloads, List.mem_append,
      List.mem_singleton]
    tauto
  refine ⟨streams, ?_, ?_⟩
  · simp only [consumes.waitingPackets, consumes.packetOf, faithful.stream, List.append_assoc,
      receives.waiting, List.singleton_append]
  · intro other live
    have present := consumes.live other live
    by_cases same : other.idx = token.idx
    · have own : other = token := Sock.eq_of_frame_eq nodup present
        ((live_iff token).mpr (Or.inr rfl)) (congrArg flags.frame same)
      simp only [own, Function.update_self]
    · have before := ((live_iff other).mp present).resolve_right fun own => same (own ▸ rfl)
      simp only [Function.update_of_ne same, consumes.packetOf, receives.held other before]
      exact faithful.held other before

theorem Faithful.written {position : ℕ} {bytes : List UInt8} (faithful : trace.Faithful flags)
    (written : trace.tx.sock.writePayload position bytes = some tx.sock)
    (streams : tx.Faithful flags) :
    Faithful flags
      { trace with
        tx := tx
        held := edited trace.tx.sock trace.held (.writePayload position bytes) } := by
  rcases faithful.tx.exclusive with ⟨intact, nodup⟩
  rcases Sock.writePayload_held intact nodup written with
    ⟨payload, present, pool, waiting, own, others⟩
  have member := List.mem_of_getElem? present
  have live : payload.token ∈ trace.tx.sock.pool.liveTokens :=
    List.mem_append.mpr (Or.inr (List.mem_map.mpr ⟨payload, member, rfl⟩))
  refine ⟨streams, ?_, ?_⟩
  · simp only [waiting]
    exact faithful.stream
  · simp only [edited, present, pool]
    intro token token_live
    by_cases same : token = payload.token
    · rw [same, own, Function.update_self, faithful.held payload.token live]
    · have apart : token.idx ≠ payload.token.idx := by
        intro idx
        exact same (Sock.eq_of_frame_eq nodup token_live live (congrArg flags.frame idx))
      rw [Function.update_of_ne apart, others token token_live same]
      exact faithful.held token token_live

theorem consume_consumes {position ctx : ℕ} {pool : Pool}
    (consumed : middle.pool.consume position ctx = some pool) :
    Consumes middle { middle with pool := pool } := by
  have used : middle.pool.step (.consume position ctx) = some (pool, []) := by
    simp only [Pool.step, consumed, Option.map_some]
  exact pool_consumes used

/-- A receive, whether its token is consumed at once or not. -/
theorem step_receive {before after : List KernelAction} {result : Except Error Unit}
    (chunked : flags.Chunked) (fits : flags.Fits) (faithful : trace.Faithful flags)
    (served : trace.tx.sock.RecvServed before)
    (received : trace.tx.sock.recvToken before after = some (result, middle))
    (consumes : Consumes middle tx.sock) (streams : tx.Faithful flags) :
    (result = .ok () ∧ ∃ token, middle.pool.tokens.getLast? = some token ∧
        Faithful flags
          { tx := tx
            delivered := trace.delivered ++ deliveries (trace.tx.sock.recvSteps before after)
            received := trace.received ++ [tx.sock.packetOf token]
            held := Function.update trace.held token.idx (tx.sock.packetOf token) }) ∨
      ∃ error, result = .error error ∧
        Faithful flags { trace with
          tx := tx
          delivered :=
            trace.delivered ++ deliveries (trace.tx.sock.recvSteps before after) } := by
  rcases faithful.tx.exclusive with ⟨intact, nodup⟩
  have moves := Sock.recvToken_moves intact fits
    ⟨chunked.kernelReturns before, chunked.kernelReturns after⟩ served received
  rcases Sock.recvToken_receives chunked intact fits nodup served received with
    ⟨rfl, token, receives⟩ | ⟨error, rfl, carries⟩
  · refine Or.inl ⟨rfl, token, ?_, ?_⟩
    · rw [receives.tokens, List.getLast?_concat]
    · exact faithful.of_receives receives (moves.nodup nodup) consumes streams
  · exact Or.inr ⟨error, rfl, faithful.of_carries carries consumes streams⟩

theorem step_faithful (chunked : flags.Chunked) (fits : flags.Fits)
    (faithful : trace.Faithful flags)
    (served : trace.tx.Served flags action) (stepped : trace.step action = some next) :
    next.Faithful flags := by
  simp only [step, Option.map_eq_some_iff] at stepped
  rcases stepped with ⟨tx, moved, rfl⟩
  have streams := TxTrace.step_faithful fits faithful.tx (chunked.returns action) served moved
  rcases faithful.tx.exclusive with ⟨intact, nodup⟩
  cases action with
  | recvToken before after =>
      simp only [TxTrace.step, Sock.step, Option.map_map, Option.map_eq_some_iff] at moved
      rcases moved with ⟨⟨result, middle⟩, received, rfl⟩
      rcases step_receive chunked fits faithful served.1 received (.refl middle) streams with
        ⟨rfl, token, last, done⟩ | ⟨error, rfl, done⟩
      · simp only [receipt, received, last]
        exact done
      · simp only [receipt, received]
        exact done
  | recv before after =>
      simp only [TxTrace.step, Sock.step, Sock.recv, Option.map_map, Option.map_eq_some_iff,
        Option.bind_eq_some_iff] at moved
      rcases moved with ⟨⟨outcome, sock⟩, ⟨⟨result, middle⟩, received, ended⟩, rfl⟩
      have consumes : Consumes middle sock := by
        cases result with
        | error error =>
            simp only [Option.some.injEq, Prod.mk.injEq] at ended
            exact ended.2 ▸ .refl middle
        | ok =>
            simp only [Option.map_eq_some_iff, Prod.mk.injEq] at ended
            rcases ended with ⟨pool, consumed, -, rfl⟩
            exact consume_consumes consumed
      rcases step_receive chunked fits faithful served.1 received consumes streams with
        ⟨rfl, token, last, done⟩ | ⟨error, rfl, done⟩
      · simp only [receipt, received, last]
        exact done
      · simp only [receipt, received]
        exact done
  | send packet site kernel =>
      simp only [TxTrace.step, Option.map_eq_some_iff] at moved
      rcases moved with ⟨⟨result, sock⟩, sent, same⟩
      have carries := Sock.send_carries chunked intact fits nodup served.2 sent
      have consumes : Consumes sock tx.sock := by
        cases result with
        | ok => exact same ▸ .refl sock
        | error error => exact same ▸ .refl sock
      exact faithful.of_carries carries consumes streams
  | flush site kernel =>
      simp only [TxTrace.step, Sock.step, Option.map_eq_some_iff] at moved
      rcases moved with ⟨sock, flushed, rfl⟩
      have carries := Sock.flush_carries chunked intact nodup flushed
      exact faithful.of_carries carries (.refl sock) streams
  | kernel action =>
      simp only [TxTrace.step, Sock.step, Option.map_eq_some_iff] at moved
      rcases moved with ⟨sock, moved, rfl⟩
      have carries := Sock.kernelStep_carries chunked intact nodup moved
      exact faithful.of_carries carries (.refl sock) streams
  | pool action =>
      simp only [TxTrace.step, Sock.step, Option.map_map, Option.map_eq_some_iff] at moved
      rcases moved with ⟨⟨pool, discards⟩, moved, rfl⟩
      exact faithful.of_carries (.refl trace.tx.sock) (pool_consumes moved) streams
  | writePayload position bytes =>
      simp only [TxTrace.step, Sock.step, Option.map_eq_some_iff] at moved
      rcases moved with ⟨sock, written, rfl⟩
      simp only [receipt, kernelSteps, deliveries, List.filterMap_nil, List.append_nil]
      exact faithful.written written streams

end Step

/-- A new socket, with nothing sent, delivered or received. -/
def start (sock : Sock) : PacketTrace := ⟨⟨sock, []⟩, [], [], fun _ => []⟩

end PacketTrace

variable {flags : AfXdpFlags} {index : UInt32} {site : Site} {sock : Sock}

theorem PacketTrace.start_faithful (fits : flags.Fits)
    (created : Sock.create flags index site = some sock) : (start sock).Faithful flags := by
  rcases Sock.create_unreceived created with ⟨rx, -, tokens, payloads, -⟩
  refine ⟨(Sock.create_fresh created fits).faithful, ?_, ?_⟩
  · simp [start, Sock.waitingPackets, rx, RxRing.waiting, ArrayVec.new, XskRing.pending,
      Sock.newRing]
  · intro token live
    simp [start, Pool.liveTokens, tokens, payloads] at live

/-- In every run of a socket whose frames consist of whole chunks, in any interleaving with the
kernel and with the users: as long as no refill runs out of free frames and each send that obtains a
slot finds a free frame with room for its packet, the packets delivered by the kernel are those
received, in order, and then those that wait; and each token and payload in the hands of the users
has the bytes that it had when it was received, but for what was written through that payload. -/
theorem packets_held {final : PacketTrace} {actions : List Action} (chunked : flags.Chunked)
    (fits : flags.Fits) (created : Sock.create flags index site = some sock)
    (served : RunMeets PacketTrace.step (fun trace => trace.tx.Served flags)
      (.start sock) actions)
    (performed : run PacketTrace.step (.start sock) actions = some final) :
    final.delivered = final.received ++ final.tx.sock.waitingPackets ∧
      ∀ token ∈ final.tx.sock.pool.liveTokens,
        final.tx.sock.packetOf token = final.held token.idx := by
  have faithful : final.Faithful flags :=
    run_invariant (PacketTrace.Faithful flags) (PacketTrace.step_faithful chunked fits)
      (PacketTrace.start_faithful fits created) served performed
  exact ⟨faithful.stream, faithful.held⟩

/-! ## The first packet of a socket -/

/-- The kernel takes the first frame of the fill ring of a new socket and writes a packet to it. -/
theorem Sock.Fresh.deliver (chunked : flags.Chunked) (fresh : sock.Fresh flags)
    (created : Sock.create flags index site = some sock)
    (filled : sock.pool.channel.available < flags.numFrames.toNat)
    (multiple : flags.numFrames.toNat % 16 = 0) (packet : List UInt8)
    (short : packet.length ≤ chunkSize) :
    ∃ (addr : UInt64) (middle ready : Sock),
      sock.kernelStep .takeFill = some middle ∧
      middle.kernelStep (.receive addr ⟨addr, .ofNat packet.length, 0⟩ packet) = some ready ∧
      ready.rx.waiting = [⟨addr, .ofNat packet.length, 0⟩] ∧ ready.rx.rx.cachedCons = 0 ∧
      ready.pool = sock.pool := by
  rcases Sock.create_unreceived created with ⟨rx, kernelRx, -⟩
  rcases Sock.create_cases created with ⟨nonempty, -⟩
  rcases Sock.positive_of_nonempty nonempty with ⟨positive, some_frames⟩
  have used := fresh.fq_used created filled multiple
  have taken : sock.fq.kernelTake = some (sock.fq.entry sock.fq.consumer,
      { sock.fq with consumer := sock.fq.consumer + 1 }) := if_neg used
  have aligned : (sock.fq.entry sock.fq.consumer).toNat % chunkSize = 0 := by
    have queued : sock.fq.entry sock.fq.consumer ∈ sock.fq.pending := by
      rw [XskRing.pending_eq_span, (fresh.intact.fq.take taken).2.2 0]
      exact List.mem_cons_self
    apply Nat.mod_eq_zero_of_dvd
    apply chunked.2.trans
    apply Nat.dvd_of_mod_eq_zero
    apply fresh.aligned
    simp only [Sock.addresses, Sock.ringAddresses, Multiset.mem_add, Multiset.mem_coe,
      List.mem_map]
    exact Or.inr (Or.inl (Or.inl (Or.inl (Or.inl (Or.inl ⟨_, queued, rfl⟩)))))
  have length : (UInt32.ofNat packet.length).toNat = packet.length := by
    rw [chunkSize_eq] at short
    rw [UInt32.toNat_ofNat']
    omega
  have inChunk : InChunk (sock.fq.entry sock.fq.consumer)
      ⟨sock.fq.entry sock.fq.consumer, .ofNat packet.length, 0⟩ packet :=
    ⟨rfl, length, by simpa [aligned] using short⟩
  have published : ∃ ring, sock.rx.rx.kernelPublish
      ⟨sock.fq.entry sock.fq.consumer, .ofNat packet.length, 0⟩ = some ring ∧
        ring.cachedCons = 0 := by
    rw [rx]
    simp [XskRing.kernelPublish, Sock.newRing, some_frames]
  rcases published with ⟨ring, published, cachedCons⟩
  have pending := (fresh.intact.rx.publish published).2
  refine ⟨sock.fq.entry sock.fq.consumer,
    { sock with
      fq := { sock.fq with consumer := sock.fq.consumer + 1 }
      kernelRx := [sock.fq.entry sock.fq.consumer] },
    { sock with
      fq := { sock.fq with consumer := sock.fq.consumer + 1 }
      rx := { sock.rx with rx := ring }
      mem := writeBytes sock.mem (sock.fq.entry sock.fq.consumer).toNat packet
      kernelRx := [] }, ?_, ?_, ?_, cachedCons, rfl⟩
  · simp [Sock.kernelStep, taken, kernelRx]
  · simp [Sock.kernelStep, inChunk, published]
  · simp only [RxRing.waiting, pending]
    simp [rx, ArrayVec.new, XskRing.pending, Sock.newRing]

/-- With a packet that waits in the ring, a receive hands out its token. -/
theorem Sock.recvToken_of_waiting {next : RxRing} {desc : XdpDesc}
    (advanced : sock.rx.advance = some (some desc, next)) :
    sock.recvToken [] [] = some (.ok (), { sock with rx := next }.recvInner desc) := by
  simp only [recvToken, advanced, Option.bind_some]

/-- With a packet that waits in the ring, a receive consumes its token at once. -/
theorem Sock.recv_of_waiting {next : RxRing} {desc : XdpDesc} (sane : sock.pool.Sane)
    (advanced : sock.rx.advance = some (some desc, next)) (tokens : sock.pool.tokens = []) :
    sock.recvToken [] [] = some (.ok (), { sock with rx := next }.recvInner desc) ∧
      sock.recv [] [] = some (.ok (),
        { sock with
          rx := next
          pool := { sock.pool with
            payloads := sock.pool.payloads ++
              [⟨⟨desc.addr.toNat, desc.len, sock.pool.index⟩, 0⟩] } }) := by
  rcases sane.live with ⟨batch, live⟩
  have received := @recvToken_of_waiting sock next desc advanced
  refine ⟨received, ?_⟩
  simp [recv, received, recvInner, Pool.give, Pool.consume, tokens, live]

/-- The kernel delivers a packet to a new socket, which is received at once. -/
theorem largeFlags_recv :
    ∃ (sock : Sock) (addr : UInt64) (middle ready : Sock) (next : RxRing),
      Sock.create largeFlags 0 ⟨0, 0⟩ = some sock ∧
      sock.kernelStep .takeFill = some middle ∧
      middle.kernelStep (.receive addr ⟨addr, 3, 0⟩ [1, 2, 3]) = some ready ∧
      ready.rx.advance = some (some ⟨addr, 3, 0⟩, next) ∧ ready.pool = sock.pool ∧
      sock.pool.tokens = [] ∧ sock.pool.payloads = [] ∧
      ready.recvToken [] [] =
        some (.ok (), { ready with rx := next }.recvInner ⟨addr, 3, 0⟩) ∧
      ready.recv [] [] = some (.ok (),
        { ready with
          rx := next
          pool := { ready.pool with
            payloads := ready.pool.payloads ++ [⟨⟨addr.toNat, 3, ready.pool.index⟩, 0⟩] } }) := by
  rcases Sock.create_succeeds 0 ⟨0, 0⟩ (show largeFlags.Fits by decide) ⟨12, rfl⟩ (by decide)
    (by decide) with ⟨sock, created, available⟩
  have fresh := Sock.create_fresh created (by decide)
  rcases Sock.create_unreceived created with ⟨-, -, tokens, payloads, -⟩
  have chunked : largeFlags.Chunked := by decide
  rcases fresh.deliver chunked created (by omega) rfl [1, 2, 3] (by decide) with
    ⟨addr, middle, ready, taken, delivered, waiting, cachedCons, pool⟩
  replace delivered : middle.kernelStep (.receive addr ⟨addr, 3, 0⟩ [1, 2, 3]) =
    some ready := delivered
  have intact := (Sock.kernelStep_moves (Sock.kernelStep_moves fresh.intact
    (chunked.returns (.kernel _)) taken).intact (chunked.returns (.kernel _)) delivered).intact
  have noWrap : ready.rx.NoWrap := by
    intro _ _
    have few : ready.rx.batch ≤ 32 := Nat.min_le_left _ _
    simp only [cachedCons, UInt32.toNat_zero]
    omega
  have advances : ∃ next, ready.rx.advance = some (some ⟨addr, 3, 0⟩, next) := by
    rcases RxRing.advance_cases intact.rx noWrap with ⟨-, -, -, nothing, -⟩ |
      ⟨desc, next, advanced, -, first⟩
    · simp [waiting] at nothing
    · rw [waiting, List.cons.injEq] at first
      exact ⟨next, first.1 ▸ advanced⟩
  rcases advances with ⟨next, advanced⟩
  rcases @Sock.recv_of_waiting ready next _ intact.sane advanced
    (by rw [pool, tokens]) with ⟨token, received⟩
  exact ⟨sock, addr, middle, ready, next, created, taken, delivered, advanced, pool, tokens,
    payloads, token, received⟩

/-- A packet waits in the ring, so that a receive needs no refill. -/
theorem recvServed_of_waiting {ready : Sock} {next : RxRing} {desc : XdpDesc}
    (advanced : ready.rx.advance = some (some desc, next)) : ready.RecvServed [] := by
  intro rx middle nothing
  simp [advanced] at nothing

/-- The kernel delivers a packet, which is received and then written to. -/
def firstPacket (addr : UInt64) : List Action :=
  [.kernel .takeFill, .kernel (.receive addr ⟨addr, 3, 0⟩ [1, 2, 3]), .recv [] [],
    .writePayload 0 [9]]

theorem packets_held_firstPacket :
    ∃ sock addr final, Sock.create largeFlags 0 ⟨0, 0⟩ = some sock ∧
      run PacketTrace.step (.start sock) (firstPacket addr) = some final ∧
      final.delivered = [[1, 2, 3]] ∧ final.received = [[1, 2, 3]] ∧
      ∃ token, final.tx.sock.pool.liveTokens = [token] ∧
        final.tx.sock.packetOf token = [9, 2, 3] := by
  rcases largeFlags_recv with ⟨sock, addr, middle, ready, next, created, taken, delivered,
    advanced, pool, tokens, payloads, token, received⟩
  have performed : ∃ final packet,
      run PacketTrace.step (.start sock) (firstPacket addr) = some final ∧
        final.delivered = [[1, 2, 3]] ∧ final.received = [packet] ∧
        final.held addr.toNat = 9 :: packet.drop 1 ∧
        final.tx.sock.pool.liveTokens = [⟨addr.toNat, 3, ready.pool.index⟩] := by
    simp [firstPacket, run, PacketTrace.step, TxTrace.step, Sock.step, PacketTrace.start, taken,
      delivered, received, token, Sock.writePayload, receipt, edited, kernelSteps, pool, payloads,
      Sock.recvInner, Pool.give, tokens, deliveries, Sock.recvSteps, advanced, Pool.liveTokens]
  rcases performed with ⟨final, packet, performed, all, one, edit, live⟩
  have served : RunMeets PacketTrace.step (fun trace => trace.tx.Served largeFlags)
      (.start sock) (firstPacket addr) := by
    have serves : ready.RecvServed [] := recvServed_of_waiting advanced
    refine ⟨⟨trivial, trivial⟩, fun first stepped =>
      ⟨⟨trivial, trivial⟩, fun second stepped' => ?_⟩⟩
    simp only [PacketTrace.step, TxTrace.step, Sock.step, PacketTrace.start, taken, Option.map_some,
      Option.some.injEq, receipt] at stepped
    subst first
    simp only [PacketTrace.step, TxTrace.step, Sock.step, delivered, Option.map_some,
      Option.some.injEq, receipt] at stepped'
    subst second
    exact ⟨⟨serves, trivial⟩, fun _ _ => ⟨⟨trivial, trivial⟩, fun _ _ => trivial⟩⟩
  rcases packets_held (by decide) (by decide) created served performed with ⟨stream, held⟩
  have whole : packet = [1, 2, 3] := by
    simp only [all, one, List.singleton_append, List.cons.injEq] at stream
    exact stream.1.symm
  refine ⟨sock, addr, final, created, performed, all, whole ▸ one, _, live, ?_⟩
  rw [held _ (live ▸ List.mem_singleton_self _), edit, whole]
  rfl

end Nethuns.AfXdp
